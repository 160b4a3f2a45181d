import Mathlib.Data.List.Perm.Basic
import Mathlib.Data.List.Dedup
import ApiDoc.Proofs.Tables

/-! # Tables up to the order of their entries

Two tables are reordered forms of each other if the entries of one can be put into an order in which
their keys are those of the other and the values are related. For tables without repeated keys that
is a matter of the keys and of what stands under each (`reordered_of_lookups`).
-/

namespace ApiDoc.Table

universe u v w

variable {κ : Type u} {ι : Type v} {β γ : Type w} {δ ε : Type w} {same : β → γ → Prop}
  {same' : δ → ε → Prop} {left between : Table κ β} {right : Table κ γ}

/-- The tables have the same keys in some order, and related values under them. -/
def Reordered (same : β → γ → Prop) (left : Table κ β) (right : Table κ γ) : Prop :=
  ∃ between : Table κ β, left.Perm between ∧ Related (fun _ => same) between right

/-- Entries in one order stand for those in another one. -/
theorem Reordered.of_perm (permuted : left.Perm between) (reordered : Reordered same between right) :
    Reordered same left right := by
  obtain ⟨others, following, related⟩ := reordered
  exact ⟨others, permuted.trans following, related⟩

theorem Reordered.trans_perm {right' : Table κ γ} (reordered : Reordered same left right)
    (permuted : right.Perm right') : Reordered same left right' := by
  obtain ⟨between, permutedLeft, related⟩ := reordered
  have crossed : Relation.Comp (List.Forall₂ fun first second => first.1 = second.1 ∧ same first.2 second.2)
      List.Perm between right' := ⟨right, related, permuted⟩
  rw [List.forall₂_comp_perm_eq_perm_comp_forall₂] at crossed
  obtain ⟨others, permutedRight, following⟩ := crossed
  exact ⟨others, permutedLeft.trans permutedRight, following⟩

/-- Entries of reordered tables may be changed to entries with the same keys and related values. -/
theorem Reordered.map (reordered : Reordered same left right) {f : κ × β → ι × δ} {g : κ × γ → ι × ε}
    (kept : ∀ key first second, (key, first) ∈ left → (key, second) ∈ right → same first second →
      (f (key, first)).1 = (g (key, second)).1 ∧ same' (f (key, first)).2 (g (key, second)).2) :
    Reordered same' (List.map f left) (List.map g right) := by
  obtain ⟨between, permuted, related⟩ := reordered
  refine ⟨List.map f between, permuted.map f, ?_⟩
  unfold Related at related ⊢
  rw [List.forall₂_map_left_iff, List.forall₂_map_right_iff]
  obtain ⟨length, each⟩ := List.forall₂_iff_zip.mp related
  refine List.forall₂_iff_zip.mpr ⟨length, ?_⟩
  rintro ⟨key, first⟩ ⟨_, second⟩ paired
  obtain ⟨rfl, here⟩ := each paired
  obtain ⟨inLeft, inRight⟩ := List.of_mem_zip paired
  exact kept key first second (permuted.mem_iff.mpr inLeft) inRight here

theorem Reordered.keys_perm (reordered : Reordered same left right) :
    (keys left).Perm (keys right) := by
  obtain ⟨between, permuted, related⟩ := reordered
  rw [← related.keys_eq]
  exact permuted.map Prod.fst

theorem Reordered.isEmpty_eq (reordered : Reordered same left right) : left.isEmpty = right.isEmpty := by
  obtain ⟨between, permuted, related⟩ := reordered
  rw [permuted.isEmpty_eq, related.isEmpty_eq]

/-- Tables without repeated keys are reordered forms of each other if they have the same keys and
related values under each of them. -/
theorem reordered_of_lookups (distinct : (keys left).Nodup) (distinct' : (keys right).Nodup)
    (members : ∀ key, key ∈ keys left ↔ key ∈ keys right)
    (values : ∀ key first second, (key, first) ∈ left → (key, second) ∈ right → same first second) :
    Reordered same left right := by
  -- The first key on the right is looked up on the left, and its entry moved to the front.
  induction right generalizing left with
  | nil =>
    have empty : left = [] := by
      cases left with
      | nil => rfl
      | cons entry rest => exact absurd ((members entry.1).mp List.mem_cons_self) List.not_mem_nil
    exact ⟨[], empty ▸ .nil, .nil⟩
  | cons entry rest ih =>
    obtain ⟨key, second⟩ := entry
    obtain ⟨⟨found, first⟩, member, here⟩ := List.mem_map.mp ((members key).mpr List.mem_cons_self)
    obtain rfl : found = key := here
    obtain ⟨before, behind, rfl⟩ := List.append_of_mem member
    have inFront : (before ++ (found, first) :: behind).Perm ((found, first) :: (before ++ behind)) :=
      List.perm_middle
    have keysInFront : (keys (before ++ (found, first) :: behind)).Perm
        (found :: keys (before ++ behind)) := inFront.map Prod.fst
    have others := List.nodup_cons.mp (keysInFront.nodup_iff.mp distinct)
    have others' := List.nodup_cons.mp distinct'
    have reordered : Reordered same (before ++ behind) rest := by
      refine ih others.2 others'.2 (fun other => ?_) fun other one another inLeft inRight => ?_
      · have either := (keysInFront.mem_iff (a := other)).symm.trans (members other)
        constructor
        · intro inLeft
          rcases List.mem_cons.mp (either.mp (List.mem_cons_of_mem _ inLeft)) with rfl | inRight
          · exact absurd inLeft others.1
          · exact inRight
        · intro inRight
          rcases List.mem_cons.mp (either.mpr (List.mem_cons_of_mem _ inRight)) with rfl | inLeft
          · exact absurd inRight others'.1
          · exact inLeft
      · exact values other one another (inFront.mem_iff.mpr (List.mem_cons_of_mem _ inLeft))
          (List.mem_cons_of_mem _ inRight)
    obtain ⟨between, permuted, related⟩ := reordered
    refine ⟨(found, first) :: between, inFront.trans (permuted.cons _), .cons ⟨rfl, ?_⟩ related⟩
    exact values found first second member List.mem_cons_self

end ApiDoc.Table
