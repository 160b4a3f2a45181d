import Mathlib.Data.List.Forall2

/-! # Labelled runs of a step relation

A run follows a step relation from one state to another and carries exactly the labels of its
steps. Runs compose at a shared state. What every step preserves, a run preserves (`Run.keeps`), and
of two runs of a deterministic relation one goes on where the other ends (`Run.comparable`). Where each
step is matched by one of another relation, each run is (`Run.matched`).
-/

namespace ApiDoc

universe u v

section
variable {σ : Type u} {ε : Type v}

/-- Every step keeps the invariant. -/
def Preserves (step : σ → ε → σ → Prop) (invariant : σ → Prop) : Prop :=
  ∀ s e t, step s e t → invariant s → invariant t

/-- From every state there is at most one step. -/
def Deterministic (step : σ → ε → σ → Prop) : Prop :=
  ∀ s e e' t t', step s e t → step s e' t' → e = e' ∧ t = t'

end

/-- A finite run of `step` with its labels in order. -/
inductive Run {σ : Type u} {ε : Type v} (step : σ → ε → σ → Prop) : σ → List ε → σ → Prop
  | done (state : σ) : Run step state [] state
  | step {source middle target : σ} {label : ε} {labels : List ε} :
      step source label middle → Run step middle labels target →
      Run step source (label :: labels) target

namespace Run

variable {σ : Type u} {ε : Type v} {step : σ → ε → σ → Prop} {source middle target other : σ}
  {first second : List ε} {label : ε}

theorem single (move : step source label target) : Run step source [label] target :=
  .step move (.done _)

theorem append (left : Run step source first middle) (right : Run step middle second target) :
    Run step source (first ++ second) target := by
  induction left with
  | done => exact right
  | step move _ ih => exact .step move (ih right)

/-- What every step preserves, a run preserves. -/
theorem keeps {invariant : σ → Prop} (kept : Preserves step invariant)
    (run : Run step source first target) (initial : invariant source) : invariant target := by
  induction run with
  | done => exact initial
  | step move _ ih => exact ih (kept _ _ _ move initial)

/-- What holds of every label of a step that starts in an invariant holds of all labels. -/
theorem labels_of_keeps {invariant : σ → Prop} {property : ε → Prop}
    (kept : Preserves step invariant) (marks : ∀ s e t, step s e t → invariant s → property e)
    (run : Run step source first target) (initial : invariant source) :
    ∀ e ∈ first, property e := by
  induction run with
  | done => intro e member; cases member
  | step move _ ih =>
    intro e member
    rcases List.mem_cons.mp member with rfl | member
    · exact marks _ _ _ move initial
    · exact ih (kept _ _ _ move initial) e member

/-- Of two runs of a deterministic relation from one state, one goes on where the other ends. -/
theorem comparable (deterministic : Deterministic step)
    (left : Run step source first target) (right : Run step source second other) :
    (∃ rest, second = first ++ rest ∧ Run step target rest other) ∨
      ∃ rest, first = second ++ rest ∧ Run step other rest target := by
  induction left generalizing second other with
  | done => exact .inl ⟨second, rfl, right⟩
  | step move tail ih =>
    cases right with
    | done => exact .inr ⟨_, rfl, .step move tail⟩
    | step otherMove otherTail =>
      obtain ⟨rfl, rfl⟩ := deterministic _ _ _ _ _ move otherMove
      rcases ih otherTail with ⟨rest, rfl, more⟩ | ⟨rest, rfl, more⟩
      · exact .inl ⟨rest, rfl, more⟩
      · exact .inr ⟨rest, rfl, more⟩

theorem imp {step' : σ → ε → σ → Prop} (weaker : ∀ s e t, step s e t → step' s e t)
    (run : Run step source first target) : Run step' source first target := by
  induction run with
  | done => exact .done _
  | step move _ ih => exact .step (weaker _ _ _ move) ih

/-- If every step from a state is matched by a step from each related one, so is every run. -/
theorem matched {σ' : Type u} {ε' : Type v} {step' : σ' → ε' → σ' → Prop} {states : σ → σ' → Prop}
    {labels : ε → ε' → Prop}
    (moves : ∀ s e t s', step s e t → states s s' → ∃ e' t', step' s' e' t' ∧ labels e e' ∧ states t t')
    (run : Run step source first target) {source' : σ'} (initial : states source source') :
    ∃ others target', Run step' source' others target' ∧ List.Forall₂ labels first others ∧
      states target target' := by
  induction run generalizing source' with
  | done => exact ⟨[], source', .done _, .nil, initial⟩
  | step move _ ih =>
    obtain ⟨_, middle', move', label, between⟩ := moves _ _ _ _ move initial
    obtain ⟨others, target', tail', rest, behind⟩ := ih between
    exact ⟨_ :: others, target', .step move' tail', .cons label rest, behind⟩

end Run

end ApiDoc
