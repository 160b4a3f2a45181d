import Mathlib.Data.List.Nodup
import ApiDoc.Proofs.Build.Hiding
import ApiDoc.Proofs.Type.Resolving

/-! # Where parameters are located

Introspection turns entities into stubs, so what a type resolves to depends on what was introspected
before. Whether that is a file does not (`paramSchema_decides`), and nothing else of it decides where a
parameter is located. So a parameter has one location in all builds (`Yields.locate_eq`).

Of a route with nested names in which no two parameters of one segment share a root, all parameters
that are shown are published, each at its location (`addAllNested_published`), and these locations
do not depend on the order of the parameters (`locationOf_perm`).
-/

namespace ApiDoc

/-- Of the value of the computation the question has one answer, whatever was introspected before. -/
def Decides {α : Type} (question : α → Bool) (computation : Build α) : Prop :=
  ∃ answer, Always (question · = answer) computation

theorem Decides.pure {α : Type} {question : α → Bool} (value : α) : Decides question (pure value) :=
  ⟨_, .pure rfl⟩

/-- A question that a change answers as another one is decided behind the change if that one is. -/
theorem Decides.map {α β : Type} {question : α → Bool} {question' : β → Bool} {computation : Build α}
    (decides : Decides question computation) {change : α → β}
    (same : ∀ value, question' (change value) = question value) :
    Decides question' (do return change (← computation)) := by
  obtain ⟨answer, always⟩ := decides
  exact ⟨answer, always.bind fun value here => .pure ((same value).trans here)⟩

def Schema.isFile (schema : Schema) : Bool := schema.isType .file

/-- Whether the schema of a token is a file; without one it is a string. -/
def answersFile (answer? : Option Schema) : Bool := (answer?.getD .string).isFile

variable {lexicon : Lexicon} {deeper : Descent}

namespace Field

/-- A field leaves the type of the schema that it is added to. -/
theorem expose_type (field : Field) (target : Schema) :
    Always (·.type = target.type) (field.expose lexicon deeper target) := by
  rw [expose_eq]
  unfold exposeWith
  split
  all_goals
    refine .after fun merged => ?_
    cases merged with
    | some parts => exact .pure rfl
    | none =>
      refine .after fun base => .pure ?_
      unfold addProperty
      split <;> rfl

theorem exposeAll_type (fields : List Field) (target : Schema) :
    Always (·.type = target.type) (exposeAll lexicon deeper fields target) := by
  induction fields generalizing target with
  | nil => exact .pure rfl
  | cons field rest ih =>
    rw [exposeAll]
    exact (field.expose_type target).bind fun between same => same ▸ ih between

end Field

namespace Lexicon

/-- An entity is an object or a stub, and so never a file. -/
theorem visitEntity_isFile {name : String} (listed : lexicon.catalog.contains name = true) :
    Always (·.isFile = false) (lexicon.visitEntity deeper name) := by
  unfold visitEntity
  refine .after fun progress => ?_
  split
  · exact .pure rfl
  · cases found : lexicon.catalog.get? name with
    | none =>
      rw [contains_eq_false found] at listed
      cases listed
    | some entity =>
      refine .after fun _ => (Field.exposeAll_type entity.fields _).bind fun schema same => ?_
      refine .after fun _ => .pure ?_
      unfold Schema.isFile Schema.isType
      rw [same]
      rfl

/-- Whether the answer to a token is a file is decided, if it is decided one level deeper: no resolver
but one of plain names or a custom one makes files, and these do so always or never. -/
theorem resolveWith?_decides (tokens : ∀ token, Decides Schema.isFile (deeper.token token))
    (token : TypeToken) : Decides answersFile (lexicon.resolveWith? deeper token) := by
  have replied (reply : Reply) : Decides answersFile (do return some (← reply.answer deeper)) := by
    cases reply with
    | schema fixed => exact .pure _
    | redirect target => exact (tokens target).map fun schema => rfl
  cases token with
  | named name =>
    rw [resolveWith?_named]
    split
    · next answered =>
      have handled := List.find?_some answered
      exact .map ⟨false, visitEntity_isFile handled⟩ fun schema => rfl
    · rw [plainSchema?_eq]
      split
      · exact .pure _
      · exact replied _
      · exact .pure _
  | arrayOf item =>
    rw [resolveWith?_arrayOf]
    split
    · exact ⟨false, .after fun schema => .pure rfl⟩
    · exact replied _
    · exact .pure _
    · exact .pure _
  | oneOf variants =>
    rw [resolveWith?_oneOf]
    split
    · exact ⟨false, .after fun schemas => .pure rfl⟩
    · exact replied _
    · exact .pure _
    · exact .pure _

theorem descent_decides (levels : Nat) (token : TypeToken) :
    Decides Schema.isFile ((lexicon.descent levels).token token) := by
  induction levels generalizing token with
  | zero => exact .pure _
  | succ levels ih => exact (resolveWith?_decides ih token).map fun answer? => rfl

theorem resolveDeclared_decides (declared : Option TypeToken) :
    Decides Schema.isFile (lexicon.resolveDeclared declared) := by
  cases declared with
  | none => exact .pure _
  | some token => exact (resolveWith?_decides (descent_decides _) token).map fun answer? => rfl

end Lexicon

namespace Route

open Publication

variable {names : Names} {params params' done : Table String ParamSpec}
  {entry entry' : String × ParamSpec} {roots : Roots} {root : String}

/-- Whether a parameter is a file does not depend on what was introspected before. -/
theorem paramSchema_decides (lexicon : Lexicon) (spec : ParamSpec) :
    Decides Schema.isFile (paramSchema lexicon spec) := by
  refine (Lexicon.resolveDeclared_decides spec.type).map fun schema => ?_
  unfold Schema.isFile Schema.isType Schema.restrict
  dsimp only
  split
  · rfl
  · split <;> rfl

/-- A parameter has one location, whatever was introspected before. -/
theorem Yields.locate_eq {spec : ParamSpec} {schema : Schema} (yields : Yields lexicon spec schema)
    (names : Names) (name : String) :
    locate names name spec schema = locate names name spec (declaredSchema lexicon spec) := by
  obtain ⟨file, always⟩ := paramSchema_decides lexicon spec
  obtain ⟨progress, rfl⟩ := yields
  exact Route.locate_eq ((always progress).trans (always {}).symm) spec

/-- No two parameters of one segment share a root. -/
def RootsDistinct (params : Table String ParamSpec) : Prop :=
  ((params.filter fun entry => (splitNested entry.1).length = 1).map fun entry => rootName entry.1).Nodup

instance (params : Table String ParamSpec) : Decidable (RootsDistinct params) :=
  inferInstanceAs (Decidable (List.Nodup _))

theorem RootsDistinct.perm (distinct : RootsDistinct params) (reordered : params.Perm params') :
    RootsDistinct params' :=
  ((reordered.filter _).map _).nodup_iff.mp distinct

theorem RootsDistinct.eq (distinct : RootsDistinct params) (member : entry ∈ params)
    (single : (splitNested entry.1).length = 1) (member' : entry' ∈ params)
    (single' : (splitNested entry'.1).length = 1) (same : rootName entry.1 = rootName entry'.1) :
    entry = entry' :=
  List.inj_on_of_nodup_map distinct (List.mem_filter.mpr ⟨member, decide_eq_true single⟩)
    (List.mem_filter.mpr ⟨member', decide_eq_true single'⟩) same

/-- No earlier parameter of one segment has the root of a parameter of one segment. -/
theorem RootsDistinct.rootName_ne {rest : Table String ParamSpec}
    (distinct : RootsDistinct (done ++ entry :: rest)) (single : (splitNested entry.1).length = 1) :
    ∀ other ∈ done, (splitNested other.1).length = 1 → rootName other.1 ≠ rootName entry.1 := by
  intro other early single' same
  unfold RootsDistinct at distinct
  rw [List.filter_append, List.filter_cons_of_pos (by simpa using single), List.map_append, List.map_cons,
    List.nodup_append] at distinct
  have listed : other ∈ done.filter fun entry => (splitNested entry.1).length = 1 :=
    List.mem_filter.mpr ⟨early, decide_eq_true single'⟩
  exact distinct.2.2 _ (List.mem_map_of_mem listed) _ List.mem_cons_self same

/-- Nothing but the parameter itself stands for its root. -/
theorem rootParam?_eq_some_iff (distinct : RootsDistinct params) {spec : ParamSpec} :
    rootParam? params root = some spec ↔ ∃ entry ∈ params, (splitNested entry.1).length = 1 ∧
      entry.2.documentation.hidden = false ∧ rootName entry.1 = root ∧ entry.2 = spec := by
  have sound {spec : ParamSpec} (found : rootParam? params root = some spec) :
      ∃ entry ∈ params, (splitNested entry.1).length = 1 ∧ entry.2.documentation.hidden = false ∧
        rootName entry.1 = root ∧ entry.2 = spec := by
    obtain ⟨entry, last, rfl⟩ := Option.map_eq_some_iff.mp found
    have fits := List.find?_some last
    simp only [Bool.and_eq_true, beq_iff_eq, Bool.not_eq_eq_eq_not, Bool.not_true] at fits
    exact ⟨entry, List.mem_reverse.mp (List.mem_of_find?_eq_some last), fits.1.1, fits.1.2, fits.2, rfl⟩
  refine ⟨sound, ?_⟩
  rintro ⟨entry, member, single, shown, rfl, rfl⟩
  obtain ⟨spec, found⟩ := rootParam?_isSome member shown single
  obtain ⟨other, member', single', -, same, rfl⟩ := sound found
  rw [found, distinct.eq member' single' member single same]

theorem rootParam?_perm (distinct : RootsDistinct params) (reordered : params.Perm params') (root : String) :
    rootParam? params root = rootParam? params' root := by
  refine Option.ext fun spec => ?_
  rw [rootParam?_eq_some_iff distinct, rootParam?_eq_some_iff (distinct.perm reordered)]
  simp only [reordered.mem_iff]

/-- Where a parameter is located does not depend on the order of the parameters. -/
theorem locationOf_perm (distinct : RootsDistinct params) (reordered : params.Perm params')
    (entry : String × ParamSpec) :
    locationOf lexicon names params entry = locationOf lexicon names params' entry := by
  unfold locationOf
  rw [rootParam?_perm distinct reordered]

/-- Whether a parameter is shown does not depend on the order of the parameters. -/
theorem isShown_perm (reordered : params.Perm params') (entry : String × ParamSpec) :
    isShown params entry = isShown params' entry := by
  have same : (hiddenRoots params).Perm (hiddenRoots params') := reordered.flatMap_right _
  unfold isShown
  rw [same.contains_eq]

/-- The publication is the one of the parameter, at its location and with a schema that its type resolves
to. -/
structure PublishedIn (lexicon : Lexicon) (names : Names) (params : Table String ParamSpec)
    (entry : String × ParamSpec) (publication : Publication) : Prop where
  entry_eq : publication.entry = entry
  location_eq : publication.location = locationOf lexicon names params entry
  yields : Yields lexicon entry.2 publication.schema

/-- A root that is noted is located where all that is nested in it is. -/
theorem NotedBy.locationInside_eq (noted : NotedBy (Yields lexicon) names params roots) {schema : Schema}
    (yields : Yields lexicon entry.2 schema) :
    locationInside names roots entry schema = locationOf lexicon names params entry := by
  unfold locationInside locationOf
  cases stands : rootParam? params (rootName entry.1) with
  | none =>
    rw [noted.unknown _ stands]
    exact yields.locate_eq names entry.1
  | some root =>
    obtain ⟨rootSchema, rootYields, found⟩ := noted.visible _ root stands
    rw [found]
    exact rootYields.locate_eq names _

/-- Behind some of the parameters those of them that are shown are published, and the roots of the other
ones are waiting. -/
structure AllPublished (lexicon : Lexicon) (names : Names) (params : Table String ParamSpec) (roots : Roots)
    (start : Draft) (done : Table String ParamSpec) (state : Draft × Table String (Location × Schema)) :
    Prop where
  draft : ∃ published,
    List.Forall₂ (PublishedIn lexicon names params) (done.filter (isShown params)) published ∧
      state.1 = published.foldl (publish names) start
  waiting : ∀ root, (∀ entry ∈ done, (splitNested entry.1).length = 1 → rootName entry.1 ≠ root) →
    Table.get? state.2 root = Table.get? roots.visible root

namespace AllPublished

variable {start draft : Draft} {pending pending' : Table String (Location × Schema)}

/-- A parameter that is not shown is not published. -/
theorem skip (here : AllPublished lexicon names params roots start done (draft, pending))
    (shows : ¬isShown params entry = true) :
    AllPublished lexicon names params roots start (done ++ [entry]) (draft, pending) := by
  refine ⟨?_, fun root none => here.waiting root fun other early => none other ?_⟩
  · rw [List.filter_append, List.filter_cons_of_neg shows, List.filter_nil, List.append_nil]
    exact here.draft
  · exact List.mem_append_left _ early

/-- A parameter that is shown is published next, and no root but its own stops waiting. -/
theorem publish (here : AllPublished lexicon names params roots start done (draft, pending))
    (shows : isShown params entry = true) {location : Location} {schema : Schema}
    (located : location = locationOf lexicon names params entry) (yields : Yields lexicon entry.2 schema)
    (kept : ∀ root, ((splitNested entry.1).length = 1 → rootName entry.1 ≠ root) →
      Table.get? pending' root = Table.get? pending root) :
    AllPublished lexicon names params roots start (done ++ [entry])
      (placeNested names draft entry.1 (splitNested entry.1) entry.2 location schema, pending') := by
  obtain ⟨published, each, same⟩ := here.draft
  refine ⟨⟨published ++ [⟨entry, location, schema⟩], ?_, ?_⟩, fun root none => ?_⟩
  · rw [List.filter_append, List.filter_cons_of_pos shows]
    exact List.rel_append each (.cons ⟨rfl, located, yields⟩ .nil)
  · rw [List.foldl_append, ← same]
    rfl
  · refine (kept root (none entry (by simp))).trans ?_
    exact here.waiting root fun other early => none other (List.mem_append_left _ early)

end AllPublished

theorem addNested_allPublished (distinct : RootsDistinct params)
    (noted : NotedBy (Yields lexicon) names params roots) {start : Draft} {rest : Table String ParamSpec}
    (split : params = done ++ entry :: rest) {state : Draft × Table String (Location × Schema)}
    (here : AllPublished lexicon names params roots start done state) :
    Always (AllPublished lexicon names params roots start (done ++ [entry]))
      (addNested lexicon names roots state entry.1 entry.2) := by
  obtain ⟨draft, pending⟩ := state
  have member : entry ∈ params := by simp [split]
  refine (addNested_adds lexicon names roots (draft, pending) entry).imp fun next adds => ?_
  -- A root waits until its parameter is added, with the location and the schema that were noted for it.
  have waits (through : LetThrough roots entry) (single : (splitNested entry.1).length = 1) :
      ∃ schema, Yields lexicon entry.2 schema ∧
        Table.get? pending (rootName entry.1) = some (locationOf lexicon names params entry, schema) := by
    have stands : rootParam? params (rootName entry.1) = some entry.2 :=
      (rootParam?_eq_some_iff distinct).mpr ⟨entry, member, single, through.shown, rfl, rfl⟩
    obtain ⟨schema, yields, found⟩ := noted.visible _ _ stands
    refine ⟨schema, yields, ?_⟩
    rw [here.waiting _ ((split ▸ distinct).rootName_ne single), found, yields.locate_eq,
      locate_of_stands stands]
  cases adds with
  | hidden unshown => exact here.skip (unshown ∘ (letThrough_iff noted.hidden).mpr)
  | stoodFor through single done =>
    obtain ⟨schema, -, waiting⟩ := waits through single
    cases waiting.symm.trans done
  | root through single found =>
    obtain ⟨schema, yields, waiting⟩ := waits through single
    obtain ⟨rfl, rfl⟩ := Prod.mk.inj (Option.some.inj (waiting.symm.trans found))
    exact here.publish ((letThrough_iff noted.hidden).mp through) rfl yields fun root apart =>
      Table.get?_erase_of_ne pending (apart single)
  | @inside schema through several yields =>
    exact here.publish ((letThrough_iff noted.hidden).mp through) (noted.locationInside_eq yields) yields
      fun _ _ => rfl

/-- The parameters of a route with nested names are all published, if they are shown. -/
theorem addAllNested_published (distinct : RootsDistinct params) (draft : Draft) :
    Always (fun next => ∃ published,
        List.Forall₂ (PublishedIn lexicon names params) (shownParams params) published ∧
          next = published.foldl (publish names) draft)
      (addAllNested lexicon names params draft) := by
  refine (noteRoots_notedBy (paramSchema_yields lexicon) names params).bind fun roots noted => ?_
  have drafts : Always (AllPublished lexicon names params roots draft params)
      (params.foldlM (fun state entry => addNested lexicon names roots state entry.1 entry.2)
        (draft, roots.visible)) :=
    Always.foldlM_split (AllPublished lexicon names params roots draft)
      (fun _ _ _ _ split here => addNested_allPublished distinct noted split here)
      (List.nil_append params).symm ⟨⟨[], .nil, rfl⟩, fun root none => rfl⟩
  exact drafts.bind fun state here => .pure here.draft

end Route

end ApiDoc
