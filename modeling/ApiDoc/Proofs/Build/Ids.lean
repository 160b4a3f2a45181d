import Mathlib.Data.List.Induction
import Mathlib.Data.List.Perm.Subperm
import ApiDoc.Proofs.Build.Places

/-! # The ids of operations

Routes ask for ids, or their places do, and one id may be asked for any number of times. The first
operation gets it as it is, every other one with the least number that makes it free (`Allots`). A
route that takes the place of another one releases the id that stood there. So the ids that are
reserved are always those of the operations, and no two operations have one id (`Numbered.put`,
`buildApi_numbered`).
-/

namespace ApiDoc

namespace OperationId

theorem numbered_injective (id : String) : Function.Injective fun n : Nat => id ++ toString n := by
  intro first second same
  have texts : toString first = toString second := (String.append_right_inj id).mp same
  rw [Nat.toString_eq_ofList_toDigits, Nat.toString_eq_ofList_toDigits, String.ofList_inj] at texts
  rw [← @Nat.ofDigitChars_ten_toDigits first, texts, Nat.ofDigitChars_ten_toDigits]

theorem ne_numbered (id : String) (n : Nat) : id ≠ id ++ toString n := by
  intro same
  have lengths := congrArg String.length same
  have digits : 0 < (toString n).length := Nat.length_repr_pos
  rw [String.length_append] at lengths
  omega

/-- The id that is given where `wanted` is asked for and some ids are taken. -/
inductive Allots (taken : String → Prop) (wanted : String) : String → Prop
  /-- A free id is given as it is. -/
  | free : ¬taken wanted → Allots taken wanted wanted
  /-- A taken one is given with the least number from two on that makes it free. -/
  | numbered {n : Nat} : taken wanted → 2 ≤ n → ¬taken (wanted ++ toString n) →
      (∀ m, 2 ≤ m → m < n → taken (wanted ++ toString m)) →
      Allots taken wanted (wanted ++ toString n)

theorem Allots.not_taken {taken : String → Prop} {wanted id : String}
    (allots : Allots taken wanted id) : ¬taken id := by
  cases allots with
  | free free => exact free
  | numbered _ _ free _ => exact free

/-- The search ends at the first number that makes the id free, or else behind its last step. -/
theorem firstFree_eq (taken : NameSet) (id : String) (steps n : Nat) :
    ∃ m, n ≤ m ∧ firstFree taken id steps n = id ++ toString m ∧
      (∀ k, n ≤ k → k < m → id ++ toString k ∈ taken) ∧
        (m < n + steps → id ++ toString m ∉ taken) := by
  induction steps generalizing n with
  | zero => exact ⟨n, Nat.le_refl n, rfl, fun k low high => by omega, fun below => by omega⟩
  | succ steps ih =>
    unfold firstFree
    dsimp only
    by_cases present : id ++ toString n ∈ taken
    · obtain ⟨m, low, found, before, free⟩ := ih (n + 1)
      rw [if_pos present]
      refine ⟨m, by omega, found, fun k above below => ?_, fun below => free (by omega)⟩
      rcases Nat.eq_or_lt_of_le above with rfl | later
      · exact present
      · exact before k later below
    · rw [if_neg present]
      exact ⟨n, Nat.le_refl n, rfl, fun k low high => by omega, fun _ => present⟩

/-- A taken id and its numbered forms are more than all taken ids together. -/
theorem exists_free {taken : NameSet} {id : String} (present : id ∈ taken) :
    ∃ n, 2 ≤ n ∧ n < 2 + taken.length ∧ id ++ toString n ∉ taken := by
  by_contra none
  push Not at none
  let forms := (List.range' 2 taken.length).map fun n => id ++ toString n
  have distinct : (id :: forms).Nodup := by
    refine List.nodup_cons.mpr ⟨fun member => ?_, (List.nodup_range' 1).map (numbered_injective id)⟩
    obtain ⟨n, -, same⟩ := List.mem_map.mp member
    exact ne_numbered id n same.symm
  have covered : id :: forms ⊆ taken := by
    intro other member
    rcases List.mem_cons.mp member with rfl | numbered
    · exact present
    · obtain ⟨n, inRange, rfl⟩ := List.mem_map.mp numbered
      obtain ⟨low, high⟩ := List.mem_range'_1.mp inRange
      exact none n low high
  have fits : (id :: forms).length ≤ taken.length := (List.Nodup.subperm distinct covered).length_le
  have counted : forms.length = taken.length := by simp [forms]
  rw [List.length_cons] at fits
  omega

/-- There is always an id to give. -/
theorem unique_allots (taken : NameSet) (wanted : String) :
    Allots (· ∈ taken) wanted (unique taken wanted) := by
  unfold unique
  split
  · next present =>
    obtain ⟨m, low, found, before, free⟩ := firstFree_eq taken wanted taken.length 2
    obtain ⟨n, above, below, absent⟩ := exists_free present
    -- The search ends at the free number at the latest.
    have stops : m ≤ n := by
      by_contra later
      exact absent (before n above (by omega))
    rw [found]
    exact .numbered present low (free (by omega)) before
  · next absent => exact .free absent

end OperationId

section
variable {κ β : Type} [DecidableEq κ] {table : Table κ β} {key : κ}

theorem Table.values_perm (table : Table κ β) (key : κ) :
    (values table).Perm ((get? table key).toList ++ values (erase table key)) := by
  induction table with
  | nil => exact .nil
  | cons entry rest ih =>
    rw [get?, erase]
    split
    · exact .refl _
    · exact (ih.cons entry.2).trans List.perm_middle.symm

theorem Table.values_insert_perm (table : Table κ β) (key : κ) (value : β) :
    (values (insert table key value)).Perm (value :: values (erase table key)) := by
  induction table with
  | nil => exact .refl _
  | cons entry rest ih =>
    rw [insert, erase]
    split
    · exact .refl _
    · exact (ih.cons entry.2).trans (.swap value entry.2 _)

end

namespace Api

def othersIn (template : String) (method : Method) : List PathItem → List Operation
  | [] => []
  | item :: rest =>
    if item.template = template then
      Table.values (Table.erase item.operations method) ++
        rest.flatMap fun item => Table.values item.operations
    else Table.values item.operations ++ othersIn template method rest

def others (api : Api) (template : String) (method : Method) : List Operation :=
  othersIn template method api.paths

/-- An interface has the operation at a place, and the others. -/
theorem operations_perm (api : Api) (template : String) (method : Method) : api.operations.Perm
    ((Table.get? (api.at template) method).toList ++ api.others template method) := by
  unfold operations «at» byPath others
  induction api.paths with
  | nil => exact .nil
  | cons item rest ih =>
    rw [List.flatMap_cons, List.map_cons, Table.get?, othersIn]
    split
    · rw [Option.getD_some, ← List.append_assoc]
      exact (Table.values_perm item.operations method).append_right _
    · refine (ih.append_left _).trans ?_
      rw [← List.append_assoc, ← List.append_assoc]
      exact List.perm_append_comm.append_right _

/-- An operation that is put at a place stands beside the others. -/
theorem operations_putOperation_perm (api : Api) (template : String) (operation : Operation) :
    (api.putOperation template operation).operations.Perm
      (operation :: api.others template operation.method) := by
  unfold operations putOperation modifyPath others
  dsimp only
  induction api.paths with
  | nil => exact .refl _
  | cons item rest ih =>
    rw [modifyPathIn, othersIn]
    split
    · exact (Table.values_insert_perm item.operations operation.method operation).append_right _
    · exact (ih.append_left _).trans List.perm_middle

end Api

namespace ApiDraft

/-- Every operation of the draft has an id of its own, and those are the ids that are reserved. -/
structure Numbered (draft : ApiDraft) : Prop where
  named : ∀ operation ∈ draft.api.operations, ∃ id, operation.operationId = some id
  distinct : (draft.api.operations.map Operation.operationId).Nodup
  ids_iff : ∀ id, id ∈ draft.ids ↔ ∃ operation ∈ draft.api.operations, operation.operationId = some id
  once : draft.ids.Nodup

/-- The id is reserved, and not for the operation that stands at the place. -/
def Taken (draft : ApiDraft) (template : String) (method : Method) (id : String) : Prop :=
  id ∈ draft.ids ∧
    ∀ old, Table.get? (draft.api.at template) method = some old → old.operationId ≠ some id

variable {draft : ApiDraft} {template : String} {method : Method} {operation : Operation}

theorem numbered_empty (config : Config) : Numbered { api := emptyApi config } where
  named operation member := by cases member
  distinct := List.nodup_nil
  ids_iff id := by simp [Api.operations, emptyApi]
  once := List.nodup_nil

theorem path?_at (api : Api) (template : String) (method : Method) :
    (api.path? template).bind (fun item => item.operations.get? method) =
      Table.get? (api.at template) method := by
  unfold Api.path? Api.at Api.byPath
  induction api.paths with
  | nil => rfl
  | cons item rest ih =>
    rw [List.find?_cons, List.map_cons, Table.get?]
    by_cases here : item.template = template
    · simp [here]
    · rw [if_neg here, ← ih, beq_eq_false_iff_ne.mpr here]

/-- What is released is the id at the place. -/
theorem Numbered.mem_releasedIds (numbered : draft.Numbered) (id : String) :
    id ∈ draft.releasedIds template method ↔ draft.Taken template method id := by
  unfold releasedIds Taken
  rw [path?_at]
  split
  · next held found =>
    rw [NameSet.remove, numbered.once.mem_erase_iff, found, and_comm]
    simp [eq_comm]
  · next unheld =>
    refine ⟨fun member => ⟨member, fun old found named => ?_⟩, And.left⟩
    exact unheld _ _ _ _ _ _ _ _ _ _ _ _ _ (by rw [found, ← named])

/-- The ids that others have are taken, and no other ids. -/
theorem Numbered.taken_iff (numbered : draft.Numbered) (id : String) :
    draft.Taken template method id ↔
      ∃ other ∈ draft.api.others template method, other.operationId = some id := by
  have split := draft.api.operations_perm template method
  have distinct := (split.map Operation.operationId).nodup_iff.mp numbered.distinct
  rw [List.map_append, List.nodup_append] at distinct
  unfold Taken
  rw [numbered.ids_iff]
  constructor
  · rintro ⟨⟨other, listed, named⟩, apart⟩
    rcases List.mem_append.mp (split.mem_iff.mp listed) with here | there
    · exact absurd named (apart other (Option.mem_toList.mp here))
    · exact ⟨other, there, named⟩
  · rintro ⟨other, listed, named⟩
    refine ⟨⟨other, split.mem_iff.mpr (List.mem_append_right _ listed), named⟩, fun old found same => ?_⟩
    have here : old.operationId ∈
        (Table.get? (draft.api.at template) method).toList.map Operation.operationId :=
      List.mem_map_of_mem (Option.mem_toList.mpr found)
    exact distinct.2.2 _ here _ (List.mem_map_of_mem listed) (same.trans named.symm)

/-- What a route does to a draft: a hidden one nothing; any other one puts its operation at its place,
under the id that is allotted to it, and leaves all other places as they are. -/
inductive Adds (config : Config) (casing : List Char → List Char) (draft : ApiDraft)
    (route : RouteDescriptor) : ApiDraft → Prop
  | hidden : route.hidden = true → Adds config casing draft route draft
  | shown {next : ApiDraft} {operation : Operation} {id : String} : route.hidden = false →
      (∀ template method, Table.get? (next.api.at template) method =
        if (route.template config, route.method) = (template, method) then some operation
        else Table.get? (draft.api.at template) method) →
      operation.operationId = some id →
      OperationId.Allots (draft.Taken (route.template config) route.method)
        (route.operationId.getD (OperationId.derive route.method (route.template config) casing)) id →
      Adds config casing draft route next

/-- An operation is put into a numbered draft under an id that is allotted to it, and the draft stays
numbered. -/
theorem Numbered.put (numbered : draft.Numbered) (template : String) (operation : Operation)
    (casing : List Char → List Char) :
    (draft.put template operation casing).Numbered ∧ ∃ id,
      (draft.put template operation casing).api =
          draft.api.putOperation template { operation with operationId := some id } ∧
        OperationId.Allots (draft.Taken template operation.method)
          (operation.operationId.getD (OperationId.derive operation.method template casing)) id := by
  let wanted := operation.operationId.getD (OperationId.derive operation.method template casing)
  let id := OperationId.unique (draft.releasedIds template operation.method) wanted
  have taken : (· ∈ draft.releasedIds template operation.method) =
      draft.Taken template operation.method :=
    funext fun id => propext (numbered.mem_releasedIds id)
  have allots : OperationId.Allots (draft.Taken template operation.method) wanted id :=
    taken ▸ OperationId.unique_allots _ wanted
  have before := draft.api.operations_perm template operation.method
  have behind := draft.api.operations_putOperation_perm template { operation with operationId := some id }
  refine ⟨⟨?_, ?_, ?_, ?_⟩, id, rfl, allots⟩
  · intro other listed
    rcases List.mem_cons.mp (behind.mem_iff.mp listed) with rfl | there
    · exact ⟨id, rfl⟩
    · exact numbered.named other (before.mem_iff.mpr (List.mem_append_right _ there))
  · refine (behind.map Operation.operationId).nodup_iff.mpr (List.nodup_cons.mpr ⟨fun member => ?_, ?_⟩)
    · obtain ⟨other, listed, same⟩ := List.mem_map.mp member
      exact allots.not_taken ((numbered.taken_iff id).mpr ⟨other, listed, same⟩)
    · have distinct := (before.map Operation.operationId).nodup_iff.mp numbered.distinct
      rw [List.map_append, List.nodup_append] at distinct
      exact distinct.2.1
  · intro other
    refine NameSet.mem_add.trans ?_
    rw [numbered.mem_releasedIds, numbered.taken_iff]
    constructor
    · rintro (⟨old, listed, named⟩ | rfl)
      · exact ⟨old, behind.mem_iff.mpr (List.mem_cons_of_mem _ listed), named⟩
      · exact ⟨_, behind.mem_iff.mpr List.mem_cons_self, rfl⟩
    · rintro ⟨found, listed, named⟩
      rcases List.mem_cons.mp (behind.mem_iff.mp listed) with rfl | old
      · exact .inr (Option.some.inj named).symm
      · exact .inl ⟨found, old, named⟩
  · exact NameSet.nodup_add (by
      unfold releasedIds
      split
      · exact numbered.once.erase _
      · exact numbered.once) _

/-- A route that is added to a numbered draft keeps it numbered. -/
theorem Numbered.addRoute (numbered : draft.Numbered) (config : Config) (lexicon : Lexicon)
    (route : RouteDescriptor) (casing : List Char → List Char) (progress : Progress) :
    ((draft.addRoute config lexicon route casing).run progress).1.Numbered ∧
      draft.Adds config casing route ((draft.addRoute config lexicon route casing).run progress).1 := by
  unfold ApiDraft.addRoute
  by_cases hidden : route.hidden = true
  · rw [if_pos hidden]
    exact ⟨numbered, .hidden hidden⟩
  · rw [if_neg hidden]
    let built := ((route.buildOperation config lexicon).run progress).1
    obtain ⟨method, wanted⟩ : built.method = route.method ∧ built.operationId = route.operationId :=
      route.buildOperation_frame config lexicon progress
    obtain ⟨behind, id, put, allots⟩ := numbered.put (route.template config) built casing
    rw [method, wanted] at allots
    have named : ({ built with operationId := some id } : Operation).operationId = some id := rfl
    refine ⟨behind, .shown (Bool.eq_false_iff.mpr hidden) (fun template other => ?_) named allots⟩
    refine (congrArg (fun api => Table.get? (Api.at api template) other) put).trans ?_
    rw [Api.get?_putOperation]
    dsimp only
    rw [method]

end ApiDraft

def draftOf (config : Config) (lexicon : Lexicon) (routes : List RouteDescriptor)
    (casing : List Char → List Char := Text.camelCase) : ApiDraft :=
  ((routes.foldlM (fun draft route => ApiDraft.addRoute config lexicon draft route casing)
    { api := emptyApi config }).run {}).1

def progressOf (config : Config) (lexicon : Lexicon) (routes : List RouteDescriptor)
    (casing : List Char → List Char := Text.camelCase) : Progress :=
  ((routes.foldlM (fun draft route => ApiDraft.addRoute config lexicon draft route casing)
    { api := emptyApi config }).run {}).2

/-- An interface is what a draft ends in, with the definitions that were made. -/
theorem buildApi_eq (config : Config) (lexicon : Lexicon) (routes : List RouteDescriptor) :
    buildApi config lexicon routes = { (draftOf config lexicon routes).api with
      tags := (draftOf config lexicon routes).tags.map describedTag
      definitions := (progressOf config lexicon routes).definitions } := rfl

/-- One more route is added to the draft of the routes before it, with the progress they made. -/
theorem draftOf_append (config : Config) (lexicon : Lexicon) (before : List RouteDescriptor)
    (route : RouteDescriptor) (casing : List Char → List Char) :
    draftOf config lexicon (before ++ [route]) casing =
      (((draftOf config lexicon before casing).addRoute config lexicon route casing).run
        (progressOf config lexicon before casing)).1 := by
  unfold draftOf progressOf
  rw [List.foldlM_append, StateT.run_bind]
  simp only [List.foldlM_cons, List.foldlM_nil, bind_pure]
  rfl

theorem draftOf_numbered (config : Config) (lexicon : Lexicon) (routes : List RouteDescriptor)
    (casing : List Char → List Char) : (draftOf config lexicon routes casing).Numbered := by
  induction routes using List.reverseRecOn with
  | nil => exact ApiDraft.numbered_empty config
  | append_singleton before route ih =>
    rw [draftOf_append]
    exact (ih.addRoute config lexicon route casing _).1

/-- In a built interface every operation has an id, and no two have one, however ids are cased that are
derived. So it is after every route: the ids that are reserved are those of the operations so far, and the
next route, unless it is hidden, gets the id it asks for if that is free behind the release of the one at
its place, otherwise the same with the least number from two on that makes it free. -/
theorem buildApi_numbered (config : Config) (lexicon : Lexicon) (routes : List RouteDescriptor)
    (casing : List Char → List Char) :
    (∀ operation ∈ (buildApi config lexicon routes casing).operations,
        ∃ id, operation.operationId = some id) ∧
      ((buildApi config lexicon routes casing).operations.map Operation.operationId).Nodup ∧
      (buildApi config lexicon routes casing).operations =
        (draftOf config lexicon routes casing).api.operations ∧
      (draftOf config lexicon routes casing).Numbered ∧
      ∀ before route rest, routes = before ++ route :: rest →
        (draftOf config lexicon before casing).Numbered ∧
          (draftOf config lexicon before casing).Adds config casing route
            (draftOf config lexicon (before ++ [route]) casing) := by
  have numbered := draftOf_numbered config lexicon routes casing
  refine ⟨numbered.named, numbered.distinct, rfl, numbered, fun before route rest _ => ?_⟩
  have early := draftOf_numbered config lexicon before casing
  rw [draftOf_append]
  exact ⟨early, (early.addRoute config lexicon route casing _).2⟩

end ApiDoc
