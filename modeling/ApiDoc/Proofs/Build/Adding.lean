import ApiDoc.Proofs.Build.Regular

/-! # Adding one nested parameter

The parameters of a route with nested names are added one by one, and each of them is passed over or
placed (`addNested_adds`). Passed over are those that are hidden or whose root is, and of several
parameters with one segment and one root all but the first. The others are placed where their root says,
or where they say themselves if nothing stands for their root.
-/

namespace ApiDoc

namespace Route

variable {lexicon : Lexicon} {names : Names} {roots : Roots} {entry : String × ParamSpec}

/-- Some build resolves the type of the parameter to the schema. -/
def Yields (lexicon : Lexicon) (spec : ParamSpec) (schema : Schema) : Prop :=
  ∃ progress, ((paramSchema lexicon spec).run progress).1 = schema

theorem paramSchema_yields (lexicon : Lexicon) (spec : ParamSpec) :
    Always (Yields lexicon spec) (paramSchema lexicon spec) := fun progress => ⟨progress, rfl⟩

/-- Neither the parameter nor its root is hidden. -/
structure LetThrough (roots : Roots) (entry : String × ParamSpec) : Prop where
  shown : entry.2.documentation.hidden = false
  rootShown : rootName entry.1 ∉ roots.hidden

/-- The location of a parameter inside a root: that of the root, or its own if nothing stands for it. -/
def locationInside (names : Names) (roots : Roots) (entry : String × ParamSpec) (schema : Schema) :
    Location :=
  match Table.get? roots.visible (rootName entry.1) with
  | some (location, _) => location
  | none => locate names entry.1 entry.2 schema

/-- A parameter that is added to a draft and the roots that wait, with what comes of it. -/
inductive Adds (lexicon : Lexicon) (names : Names) (roots : Roots) (entry : String × ParamSpec)
    (draft : Draft) (pending : Table String (Location × Schema)) :
    (next : Draft × Table String (Location × Schema)) → Prop
  | hidden : ¬LetThrough roots entry → Adds lexicon names roots entry draft pending (draft, pending)
  /-- Another parameter with the same root was added for it. -/
  | stoodFor : LetThrough roots entry → (splitNested entry.1).length = 1 →
      Table.get? pending (rootName entry.1) = none →
      Adds lexicon names roots entry draft pending (draft, pending)
  | root {location : Location} {schema : Schema} : LetThrough roots entry →
      (splitNested entry.1).length = 1 →
      Table.get? pending (rootName entry.1) = some (location, schema) →
      Adds lexicon names roots entry draft pending
        (placeNested names draft entry.1 (splitNested entry.1) entry.2 location schema,
          Table.erase pending (rootName entry.1))
  | inside {schema : Schema} : LetThrough roots entry → (splitNested entry.1).length ≠ 1 →
      Yields lexicon entry.2 schema →
      Adds lexicon names roots entry draft pending
        (placeNested names draft entry.1 (splitNested entry.1) entry.2
          (locationInside names roots entry schema) schema, pending)

theorem addNested_adds (lexicon : Lexicon) (names : Names) (roots : Roots)
    (state : Draft × Table String (Location × Schema)) (entry : String × ParamSpec) :
    Always (Adds lexicon names roots entry state.1 state.2)
      (addNested lexicon names roots state entry.1 entry.2) := by
  obtain ⟨draft, pending⟩ := state
  unfold addNested
  dsimp only
  split
  · next hides =>
    refine .pure (.hidden fun through => ?_)
    simp [through.shown, through.rootShown] at hides
  · next shows =>
    have through : LetThrough roots entry := by
      simp only [Bool.or_eq_true, List.contains_eq_mem, decide_eq_true_eq, not_or, Bool.not_eq_true]
        at shows
      exact ⟨shows.1, shows.2⟩
    split
    · next single =>
      split
      · next done => exact .pure (.stoodFor through single done)
      · next location schema waits => exact .pure (.root through single waits)
    · next several =>
      exact (paramSchema_yields lexicon entry.2).bind fun schema yields =>
        .pure (.inside through several yields)

end Route

end ApiDoc
