import Mathlib.Data.List.Forall2
import ApiDoc.Proofs.Type.Sessions

/-! # Computations of a build in lockstep

All that the construction of operations does to a build is to resolve tokens, and which ones it
resolves depends on no answer. `Lockstep catalog answers holds tokens left right` says so of two
computations at once: both resolve `tokens` in turn and nothing else, and wherever the answers are
related, so are the values. Each way of putting computations together has one rule, and
`Lockstep.run` draws the conclusion for two builds in whatever progress: an invariant that every
resolution keeps relates their values. A statement about a single build is the case of a computation
in lockstep with itself.
-/

namespace ApiDoc

variable {α β γ δ ι : Type} {catalog : Catalog} {answers : TypeToken → Schema → Schema → Prop}

/-- Both computations resolve the tokens in turn, do nothing else to the build, and have related
values if the answers are related. -/
inductive Lockstep (catalog : Catalog) (answers : TypeToken → Schema → Schema → Prop)
    (holds : α → β → Prop) : List TypeToken → Build α → Build β → Prop
  | pure {left : α} {right : β} : holds left right →
      Lockstep catalog answers holds [] (pure left) (pure right)
  | resolve {token : TypeToken} {tokens : List TypeToken} {left : Schema → Build α}
      {right : Schema → Build β} :
      (∀ first second, answers token first second →
        Lockstep catalog answers holds tokens (left first) (right second)) →
      Lockstep catalog answers holds (token :: tokens) (Lexicon.resolve { catalog } token >>= left)
        (Lexicon.resolve { catalog } token >>= right)

namespace Lockstep

variable {holds : α → β → Prop} {holds' : γ → δ → Prop} {tokens more : List TypeToken}
  {left : Build α} {right : Build β}

theorem bind {behind : α → Build γ} {behind' : β → Build δ}
    (first : Lockstep catalog answers holds tokens left right)
    (second : ∀ value value', holds value value' →
      Lockstep catalog answers holds' more (behind value) (behind' value')) :
    Lockstep catalog answers holds' (tokens ++ more) (left >>= behind) (right >>= behind') := by
  induction first with
  | pure here =>
    rw [pure_bind, pure_bind, List.nil_append]
    exact second _ _ here
  | resolve _ ih =>
    rw [bind_assoc, bind_assoc, List.cons_append]
    exact .resolve ih

/-- A computation with a last step that resolves nothing. -/
theorem last {behind : α → Build γ} {behind' : β → Build δ}
    (first : Lockstep catalog answers holds tokens left right)
    (second : ∀ value value', holds value value' →
      Lockstep catalog answers holds' [] (behind value) (behind' value')) :
    Lockstep catalog answers holds' tokens (left >>= behind) (right >>= behind') := by
  rw [← List.append_nil tokens]
  exact first.bind second

theorem map {f : α → γ} {g : β → δ} (first : Lockstep catalog answers holds tokens left right)
    (hands : ∀ value value', holds value value' → holds' (f value) (g value')) :
    Lockstep catalog answers holds' tokens (do return f (← left)) (do return g (← right)) :=
  first.last fun value value' here => .pure (hands value value' here)

/-- A single token. -/
theorem token {token : TypeToken} {holds : Schema → Schema → Prop}
    (related : ∀ first second, answers token first second → holds first second) :
    Lockstep catalog answers holds [token] (Lexicon.resolve { catalog } token)
      (Lexicon.resolve { catalog } token) := by
  have single : Lockstep catalog answers holds [token]
      (Lexicon.resolve { catalog } token >>= Pure.pure)
      (Lexicon.resolve { catalog } token >>= Pure.pure) :=
    .resolve fun first second here => .pure (related first second here)
  rwa [bind_pure] at single

/-- A loop: `holds` relates the values behind the items that were gone through. -/
theorem foldlM {holds : List ι → α → β → Prop} {step : α → ι → Build α} {step' : β → ι → Build β}
    {tokensOf : ι → List TypeToken} (items : List ι)
    (kept : ∀ done item rest value value', items = done ++ item :: rest → holds done value value' →
      Lockstep catalog answers (holds (done ++ [item])) (tokensOf item) (step value item)
        (step' value' item))
    {initial : α} {initial' : β} (here : holds [] initial initial') :
    Lockstep catalog answers (holds items) (items.flatMap tokensOf) (items.foldlM step initial)
      (items.foldlM step' initial') := by
  suffices tail : ∀ rest done value value', items = done ++ rest → holds done value value' →
      Lockstep catalog answers (holds items) (rest.flatMap tokensOf) (rest.foldlM step value)
        (rest.foldlM step' value') from tail items [] initial initial' rfl here
  intro rest
  induction rest with
  | nil =>
    intro done value value' split here
    rw [List.append_nil] at split
    exact .pure (split ▸ here)
  | cons item rest ih =>
    intro done value value' split here
    rw [List.foldlM_cons, List.foldlM_cons, List.flatMap_cons]
    refine (kept done item rest value value' split here).bind fun next next' there => ?_
    exact ih (done ++ [item]) next next' (by simp [split]) there

/-- A loop whose steps keep one relation. -/
theorem foldlM_keeps {step : α → ι → Build α} {step' : β → ι → Build β}
    {tokensOf : ι → List TypeToken} (items : List ι)
    (kept : ∀ item value value', holds value value' →
      Lockstep catalog answers holds (tokensOf item) (step value item) (step' value' item))
    {initial : α} {initial' : β} (here : holds initial initial') :
    Lockstep catalog answers holds (items.flatMap tokensOf) (items.foldlM step initial)
      (items.foldlM step' initial') := by
  induction items generalizing initial initial' with
  | nil => exact .pure here
  | cons item rest ih =>
    rw [List.foldlM_cons, List.foldlM_cons, List.flatMap_cons]
    exact (kept item initial initial' here).bind fun _ _ there => ih there

theorem mapM {step : ι → Build α} {step' : ι → Build β} {tokensOf : ι → List TypeToken}
    (items : List ι)
    (each : ∀ item, Lockstep catalog answers holds (tokensOf item) (step item) (step' item)) :
    Lockstep catalog answers (List.Forall₂ holds) (items.flatMap tokensOf) (items.mapM step)
      (items.mapM step') := by
  induction items with
  | nil => exact .pure .nil
  | cons item rest ih =>
    rw [List.mapM_cons, List.mapM_cons, List.flatMap_cons]
    exact (each item).bind fun value value' here =>
      ih.map fun values values' there => .cons here there

/-- What resolution does to two builds: the invariant speaks of the tokens that are still to be
resolved, and relates the answers. -/
def Resolves (catalog : Catalog) (answers : TypeToken → Schema → Schema → Prop)
    (invariant : List TypeToken → Progress → Progress → Prop) : Prop :=
  ∀ token rest progress progress', invariant (token :: rest) progress progress' →
    ∃ answer next answer' next',
      (Lexicon.resolve { catalog } token).run progress = (answer, next) ∧
        (Lexicon.resolve { catalog } token).run progress' = (answer', next') ∧
          answers token answer answer' ∧ invariant rest next next'

/-- Two computations in lockstep have related values wherever resolution keeps an invariant. -/
theorem run {invariant : List TypeToken → Progress → Progress → Prop}
    (resolves : Resolves catalog answers invariant)
    (steps : Lockstep catalog answers holds tokens left right) {rest : List TypeToken}
    {progress progress' : Progress} (here : invariant (tokens ++ rest) progress progress') :
    ∃ value next value' next', left.run progress = (value, next) ∧
      right.run progress' = (value', next') ∧ holds value value' ∧ invariant rest next next' := by
  induction steps generalizing progress progress' with
  | pure related => exact ⟨_, progress, _, progress', rfl, rfl, related, here⟩
  | @resolve token tokens left right _ ih =>
    obtain ⟨answer, middle, answer', middle', ran, ran', related, between⟩ :=
      resolves token (tokens ++ rest) progress progress' here
    obtain ⟨value, next, value', next', ranRest, ranRest', values, behind⟩ :=
      ih answer answer' related between
    refine ⟨value, next, value', next', ?_, ?_, values, behind⟩
    · rw [run_bind_of_run ran, ranRest]
    · rw [run_bind_of_run ran', ranRest']

end Lockstep

end ApiDoc
