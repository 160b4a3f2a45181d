import ApiDoc.Proofs.Schema.Outline
import ApiDoc.Proofs.Type.Reaching

/-! # What types look like

Whether a type is answered with a stub or with a whole schema depends on what was visited before; what
a use of the answer shows does not, as long as nothing is merged that leads back to where it is merged
(`Catalog.MergesForward`). `Outlines` says what a task looks like without any progress. It has one
answer (`Outlines.unique`), and in whatever orderly progress a task is introspected, the answer is
alike (`Introspects.outlines`), so two builds answer a type with alike schemas (`resolve_alike`).
-/

namespace ApiDoc

open Schema

variable {catalog : Catalog} {task part : Task} {progress next : Progress} {history : List VisitEvent}
  {answer : Schema} {field : Field} {name target : String}

/-- The field, or one that is nested in it, merges the type. -/
inductive Field.Merges (catalog : Catalog) (name : String) : Field → Prop
  | here {field : Field} : field.merge = true → field.entity? catalog = some name →
      Merges catalog name field
  | nested {field inner : Field} : inner ∈ field.nested → Merges catalog name inner →
      Merges catalog name field

/-- No entity is reached from another one that its fields merge. -/
def Catalog.MergesForward (catalog : Catalog) : Prop :=
  ∀ name entity, catalog.get? name = some entity → ∀ field ∈ entity.fields,
    ∀ target ∈ Table.keys catalog, field.Merges catalog target → ¬catalog.Reaches target name

/-- Nothing that the fields of the task merge is being walked. -/
def Task.Unblocked (catalog : Catalog) (progress : Progress) : Task → Prop
  | .entity _ | .token _ | .variants _ _ => True
  | .field one _ => ∀ target, one.Merges catalog target → progress.state target ≠ .inProgress
  | .fields all _ => ∀ one ∈ all, ∀ target, one.Merges catalog target →
      progress.state target ≠ .inProgress

theorem Field.merges_of_spliced? (found : field.spliced? catalog = some (.entity name)) :
    field.Merges catalog name := by
  unfold spliced? at found
  split at found
  · next merge =>
    split at found
    · next presented =>
      cases found
      exact .here merge presented
    · split at found <;> cases found
  · cases found

theorem Task.Unblocked.nested {container : Schema}
    (unblocked : (Task.field field container).Unblocked catalog progress) :
    (Task.fields field.nested .object).Unblocked catalog progress :=
  fun _ member target merges => unblocked target (.nested member merges)

theorem Task.Unblocked.spliced? {container : Schema}
    (unblocked : (Task.field field container).Unblocked catalog progress)
    (found : field.spliced? catalog = some task) : task.Unblocked catalog progress := by
  rcases Field.spliced?_cases found with ⟨name, rfl⟩ | rfl
  · trivial
  · exact unblocked.nested

theorem Task.Unblocked.source? {container : Schema}
    (unblocked : (Task.field field container).Unblocked catalog progress)
    (found : field.source? = some task) : task.Unblocked catalog progress := by
  rcases Field.source?_cases found with ⟨name, rfl⟩ | ⟨token, -, rfl⟩ | rfl
  · trivial
  · trivial
  · exact unblocked.nested

/-- Behind the first of some fields nothing more is being walked. -/
theorem Task.Unblocked.moreFields {first : Field} {rest : List Field} {container between : Schema}
    (unblocked : (Task.fields (first :: rest) container).Unblocked catalog progress)
    (derived : Introspects catalog (.field first container) progress history between next) :
    (Task.fields rest between).Unblocked catalog next :=
  fun other member target merges walking =>
    unblocked other (List.mem_cons_of_mem _ member) target merges (derived.inProgress walking)

/-- Where an entity begins to be walked, nothing that it merges is being walked. -/
theorem unblocked_start (forward : catalog.MergesForward) (coherent : progress.Coherent catalog)
    (stacked : Stacked catalog progress (.entity name)) {entity : Entity}
    (listed : catalog.get? name = some entity) :
    (Task.fields entity.fields (.namedObject name)).Unblocked catalog (progress.start name) := by
  intro field member target merges walking
  have known := Table.mem_keys_of_get? listed
  have leads : target ∈ Table.keys catalog ∧ Leads catalog (.entity target) name := by
    rw [Progress.state_start] at walking
    split at walking
    · next same => exact ⟨same ▸ known, same ▸ .here known⟩
    · refine ⟨coherent.catalogued target (by simp [walking]), ?_⟩
      exact stacked target walking name (.here known)
  obtain ⟨first, rfl, reaches⟩ := leads_iff.mp leads.2
  exact forward name entity listed field member target leads.1 merges reaches

/-- What a task looks like, whatever was visited: entities look like references, and what is merged
of them is what their fields add to a new object. -/
inductive Outlines (catalog : Catalog) : Task → Schema → Prop
  | entity {name : String} : name ∈ Table.keys catalog →
      Outlines catalog (.entity name) (.reference name)
  | plain {name : String} : catalog.get? name = none →
      Outlines catalog (.entity name) (Primitive.schema name)
  | named {name : String} {schema : Schema} : Outlines catalog (.entity name) schema →
      Outlines catalog (.token (.named name)) schema
  | array {item : TypeToken} {schema : Schema} : Outlines catalog (.token item) schema →
      Outlines catalog (.token (.arrayOf item)) (.array schema)
  | oneOf {tokens : List TypeToken} {schema : Schema} : Outlines catalog (.variants tokens []) schema →
      Outlines catalog (.token (.oneOf tokens)) schema
  | noVariants {done : List Schema} : Outlines catalog (.variants [] done) (.ofVariants done)
  | variant {first : TypeToken} {rest : List TypeToken} {done : List Schema} {variant schema : Schema} :
      Outlines catalog (.token first) variant →
      Outlines catalog (.variants rest (done ++ [variant])) schema →
      Outlines catalog (.variants (first :: rest) done) schema
  | noFields {container : Schema} : Outlines catalog (.fields [] container) container
  | oneField {first : Field} {rest : List Field} {container between schema : Schema} :
      Outlines catalog (.field first container) between →
      Outlines catalog (.fields rest between) schema →
      Outlines catalog (.fields (first :: rest) container) schema
  | mergedEntity {field : Field} {container parts : Schema} {name : String} {entity : Entity} :
      field.spliced? catalog = some (.entity name) → catalog.get? name = some entity →
      Outlines catalog (.fields entity.fields (.namedObject name)) parts →
      Outlines catalog (.field field container) (container.mergeProperties parts)
  | merged {field : Field} {container parts : Schema} {task : Task} :
      field.spliced? catalog = some task →
      (∀ name, task = .entity name → catalog.get? name = none) → Outlines catalog task parts →
      Outlines catalog (.field field container) (container.mergeProperties parts)
  | property {field : Field} {container base : Schema} {task : Task} :
      field.spliced? catalog = none → field.source? = some task → Outlines catalog task base →
      Outlines catalog (.field field container) (field.addBase base container)
  | untyped {field : Field} {container : Schema} : field.spliced? catalog = none →
      field.source? = none → Outlines catalog (.field field container) (field.addBase .string container)

namespace Outlines

variable {container : Schema}

theorem of_mergedEntity {entity : Entity} (found : field.spliced? catalog = some (.entity name))
    (listed : catalog.get? name = some entity) (looks : Outlines catalog (.field field container) answer) :
    ∃ parts, Outlines catalog (.fields entity.fields (.namedObject name)) parts ∧
      answer = container.mergeProperties parts := by
  cases looks with
  | mergedEntity found' listed' looks =>
    cases found.symm.trans found'
    cases listed.symm.trans listed'
    exact ⟨_, looks, rfl⟩
  | merged found' absent =>
    cases found.symm.trans found'
    simp [absent _ rfl] at listed
  | property plain => simp [found] at plain
  | untyped plain => simp [found] at plain

theorem of_merged (found : field.spliced? catalog = some task)
    (absent : ∀ name, task = .entity name → catalog.get? name = none)
    (looks : Outlines catalog (.field field container) answer) :
    ∃ parts, Outlines catalog task parts ∧ answer = container.mergeProperties parts := by
  cases looks with
  | mergedEntity found' listed =>
    cases found.symm.trans found'
    simp [absent _ rfl] at listed
  | merged found' _ looks =>
    cases found.symm.trans found'
    exact ⟨_, looks, rfl⟩
  | property plain => simp [found] at plain
  | untyped plain => simp [found] at plain

theorem of_property (plain : field.spliced? catalog = none) (found : field.source? = some task)
    (looks : Outlines catalog (.field field container) answer) :
    ∃ base, Outlines catalog task base ∧ answer = field.addBase base container := by
  cases looks with
  | mergedEntity found' => simp [plain] at found'
  | merged found' => simp [plain] at found'
  | property _ found' looks =>
    cases found.symm.trans found'
    exact ⟨_, looks, rfl⟩
  | untyped _ absent => simp [found] at absent

theorem of_untyped (plain : field.spliced? catalog = none) (absent : field.source? = none)
    (looks : Outlines catalog (.field field container) answer) :
    answer = field.addBase .string container := by
  cases looks with
  | mergedEntity found => simp [plain] at found
  | merged found => simp [plain] at found
  | property _ found => simp [absent] at found
  | untyped => rfl

/-- A task has one look. -/
theorem unique {other : Schema} (left : Outlines catalog task answer)
    (right : Outlines catalog task other) : answer = other := by
  induction left generalizing other with
  | entity listed =>
    cases right with
    | entity => rfl
    | plain absent => exact absurd listed (Table.get?_eq_none_iff.mp absent)
  | plain absent =>
    cases right with
    | entity listed => exact absurd listed (Table.get?_eq_none_iff.mp absent)
    | plain => rfl
  | named _ ih => cases right with | named right => exact ih right
  | array _ ih => cases right with | array right => rw [ih right]
  | oneOf _ ih => cases right with | oneOf right => exact ih right
  | noVariants => cases right; rfl
  | variant _ _ early late =>
    cases right with
    | variant first rest =>
      obtain rfl := early first
      exact late rest
  | noFields => cases right; rfl
  | oneField _ _ early late =>
    cases right with
    | oneField first rest =>
      obtain rfl := early first
      exact late rest
  | mergedEntity found listed _ ih =>
    obtain ⟨parts, looks, rfl⟩ := of_mergedEntity found listed right
    rw [ih looks]
  | merged found absent _ ih =>
    obtain ⟨parts, looks, rfl⟩ := of_merged found absent right
    rw [ih looks]
  | property plain found _ ih =>
    obtain ⟨base, looks, rfl⟩ := of_property plain found right
    rw [ih looks]
  | untyped plain absent => exact (of_untyped plain absent right).symm

end Outlines

/-- Tasks that add to schemas with alike parts. -/
def Task.Alike : Task → Task → Prop
  | .variants tokens done, task => ∃ done', task = .variants tokens done' ∧
      List.Forall₂ Schema.Alike done done'
  | .field one container, task => ∃ container', task = .field one container' ∧
      container.AlikeParts container'
  | .fields all container, task => ∃ container', task = .fields all container' ∧
      container.AlikeParts container'
  | .entity name, task => task = .entity name
  | .token other, task => task = .token other

/-- Answers that look the same; where fields are added to a schema, beside the schema itself. -/
def Task.AlikeAnswers (first second : Schema) : Task → Prop
  | .entity _ | .token _ | .variants _ _ => first.Alike second
  | .field _ _ | .fields _ _ => first.AlikeParts second

/-- The definition of each entity looks like what its fields add to a new object. -/
def Progress.Orderly (catalog : Catalog) (progress : Progress) : Prop :=
  ∀ entry ∈ progress.definitions, ∃ entity parts, catalog.get? entry.1 = some entity ∧
    Outlines catalog (.fields entity.fields (.namedObject entry.1)) parts ∧ entry.2.AlikeParts parts

theorem Task.Alike.refl (task : Task) : task.Alike task := by
  cases task with
  | entity | token => rfl
  | variants _ done => exact ⟨done, rfl, forall₂_alike_iff.mp rfl⟩
  | field _ container | fields _ container => exact ⟨container, rfl, .refl container⟩

theorem Field.addBase_alikeParts {container container' base base' : Schema}
    (same : container.AlikeParts container') (alike : base.Alike base') :
    (field.addBase base container).AlikeParts (field.addBase base' container') :=
  same.addBase (alike.arrayIf _) field

/-- What a property is made from looks the same: it is an answer, or an object without a name. -/
theorem Introspects.alike_of_source {other : Schema} (found : field.source? = some task)
    (derived : Introspects catalog task progress history answer next)
    (alike : task.AlikeAnswers answer other) : answer.Alike other := by
  rcases Field.source?_cases found with ⟨name, rfl⟩ | ⟨token, -, rfl⟩ | rfl
  · exact alike
  · exact alike
  · exact AlikeParts.alike alike derived.frame.2.1

/-- The whole schema of an entity looks like a reference to it. -/
theorem Introspects.alike_reference {fields : List Field}
    (derived : Introspects catalog (.fields fields (.namedObject name)) progress history answer next) :
    answer.Alike (.reference name) := by
  obtain ⟨type, canonicalName, description, nullable, extensions⟩ := derived.frame
  refine SameReference.alike ⟨?_, ?_, ?_, ?_, ?_, ?_⟩
  · rw [canonicalName]; rfl
  · rw [canonicalName]; rfl
  · unfold plainType
    rw [type]
    rfl
  · rw [description]; rfl
  · rw [nullable]; rfl
  · rw [extensions]; rfl

/-- The answer looks as every task does that is alike, and the progress behind it is orderly. -/
structure Task.Shown (catalog : Catalog) (answer : Schema) (next : Progress) (task : Task) : Prop where
  looks : ∀ other, task.Alike other →
    ∃ answer', Outlines catalog other answer' ∧ task.AlikeAnswers answer answer'
  orderly : next.Orderly catalog

namespace Task.Shown

variable {between container : Schema} {middle : Progress}

theorem walk {entity : Entity} {fields : List Field} (listed : catalog.get? name = some entity)
    (inner : Introspects catalog (.fields fields (.namedObject name)) progress history answer next)
    (shown : (Task.fields entity.fields (.namedObject name)).Shown catalog answer next) :
    (Task.entity name).Shown catalog answer (next.finish name answer) where
  looks := by
    rintro _ rfl
    exact ⟨_, .entity (Table.mem_keys_of_get? listed), inner.alike_reference⟩
  orderly entry member := by
    rcases Table.mem_of_mem_insert member with rfl | member
    · obtain ⟨parts, looks, same⟩ := shown.looks _ (.refl _)
      exact ⟨entity, parts, listed, looks, same⟩
    · exact shown.orderly entry member

theorem named (shown : (Task.entity name).Shown catalog answer next) :
    (Task.token (.named name)).Shown catalog answer next where
  looks := by
    rintro _ rfl
    obtain ⟨answer', looks, same⟩ := shown.looks _ rfl
    exact ⟨answer', .named looks, same⟩
  orderly := shown.orderly

theorem array {item : TypeToken} (shown : (Task.token item).Shown catalog answer next) :
    (Task.token (.arrayOf item)).Shown catalog (.array answer) next where
  looks := by
    rintro _ rfl
    obtain ⟨answer', looks, same⟩ := shown.looks _ rfl
    exact ⟨_, .array looks, Schema.Alike.array same⟩
  orderly := shown.orderly

theorem oneOf {tokens : List TypeToken}
    (shown : (Task.variants tokens []).Shown catalog answer next) :
    (Task.token (.oneOf tokens)).Shown catalog answer next where
  looks := by
    rintro _ rfl
    obtain ⟨answer', looks, same⟩ := shown.looks _ (.refl _)
    exact ⟨answer', .oneOf looks, same⟩
  orderly := shown.orderly

theorem noVariants {done : List Schema} (orderly : progress.Orderly catalog) :
    (Task.variants [] done).Shown catalog (.ofVariants done) progress where
  looks := by
    rintro _ ⟨done', rfl, same⟩
    exact ⟨_, .noVariants, alike_ofVariants same⟩
  orderly := orderly

theorem variant {first : TypeToken} {rest : List TypeToken} {done : List Schema}
    (early : (Task.token first).Shown catalog between middle)
    (late : (Task.variants rest (done ++ [between])).Shown catalog answer next) :
    (Task.variants (first :: rest) done).Shown catalog answer next where
  looks := by
    rintro _ ⟨done', rfl, done⟩
    obtain ⟨variant, looks, same⟩ := early.looks _ rfl
    have more := List.rel_append done (.cons same .nil)
    obtain ⟨answer', others, whole⟩ := late.looks _ ⟨_, rfl, more⟩
    exact ⟨answer', .variant looks others, whole⟩
  orderly := late.orderly

theorem noFields (orderly : progress.Orderly catalog) :
    (Task.fields [] container).Shown catalog container progress where
  looks := by
    rintro _ ⟨container', rfl, same⟩
    exact ⟨container', .noFields, same⟩
  orderly := orderly

theorem oneField {first : Field} {rest : List Field}
    (early : (Task.field first container).Shown catalog between middle)
    (late : (Task.fields rest between).Shown catalog answer next) :
    (Task.fields (first :: rest) container).Shown catalog answer next where
  looks := by
    rintro _ ⟨container', rfl, same⟩
    obtain ⟨between', looks, partly⟩ := early.looks _ ⟨container', rfl, same⟩
    obtain ⟨answer', others, whole⟩ := late.looks _ ⟨between', rfl, partly⟩
    exact ⟨answer', .oneField looks others, whole⟩
  orderly := late.orderly

theorem copied (found : field.spliced? catalog = some (.entity name))
    (defined : progress.definition? name = some answer) (orderly : progress.Orderly catalog) :
    (Task.field field container).Shown catalog (container.mergeProperties answer) progress where
  looks := by
    rintro _ ⟨container', rfl, same⟩
    obtain ⟨entity, parts, listed, looks, copy⟩ := orderly _ (Table.mem_of_get? defined)
    exact ⟨_, .mergedEntity found listed looks, same.mergeProperties copy⟩
  orderly := orderly

/-- What a merge field takes over looks like what the fields of its origin add to a new object. -/
theorem merged (found : field.spliced? catalog = some task)
    (unvisited : ∀ name, task = .entity name → progress.state name = .unvisited)
    (inner : Introspects catalog task progress history answer next)
    (shown : task.Shown catalog answer next) :
    (Task.field field container).Shown catalog (container.mergeProperties answer) next where
  looks := by
    rintro _ ⟨container', rfl, same⟩
    rcases Field.spliced?_cases found with ⟨name, rfl⟩ | rfl
    · cases inner with
      | stub visited => exact absurd (unvisited name rfl) visited
      | plain _ absent =>
        refine ⟨_, .merged found ?_ (.plain absent), same.mergeProperties (.refl _)⟩
        rintro _ ⟨⟩
        exact absent
      | @walk _ after _ _ _ schema _ listed =>
        have member : (name, answer) ∈ (after.finish name answer).definitions :=
          Table.mem_of_get? (by simp [Table.get?_insert])
        obtain ⟨entity, parts, known, looks, taken⟩ := shown.orderly _ member
        exact ⟨_, .mergedEntity found known looks, same.mergeProperties taken⟩
    · obtain ⟨parts, looks, taken⟩ := shown.looks _ (.refl _)
      exact ⟨_, .merged found (fun name impossible => by cases impossible) looks,
        same.mergeProperties taken⟩
  orderly := shown.orderly

theorem property (plain : field.spliced? catalog = none) (found : field.source? = some task)
    (inner : Introspects catalog task progress history answer next)
    (shown : task.Shown catalog answer next) :
    (Task.field field container).Shown catalog (field.addBase answer container) next where
  looks := by
    rintro _ ⟨container', rfl, same⟩
    obtain ⟨base', looks, made⟩ := shown.looks _ (.refl _)
    have baseAlike := inner.alike_of_source found made
    exact ⟨_, .property plain found looks, Field.addBase_alikeParts same baseAlike⟩
  orderly := shown.orderly

theorem untyped (plain : field.spliced? catalog = none) (absent : field.source? = none)
    (orderly : progress.Orderly catalog) :
    (Task.field field container).Shown catalog (field.addBase .string container) progress where
  looks := by
    rintro _ ⟨container', rfl, same⟩
    exact ⟨_, .untyped plain absent, Field.addBase_alikeParts same (.refl _)⟩
  orderly := orderly

end Task.Shown

/-- In an orderly progress a task is answered with what it looks like, and the progress stays
orderly. -/
theorem Introspects.outlines (forward : catalog.MergesForward)
    (derived : Introspects catalog task progress history answer next)
    (coherent : progress.Coherent catalog) (stacked : Stacked catalog progress task)
    (unblocked : task.Unblocked catalog progress) (orderly : progress.Orderly catalog) :
    task.Shown catalog answer next := by
  induction derived with
  | stub visited =>
    exact ⟨by rintro _ rfl; exact ⟨_, .entity (coherent.catalogued _ visited), .refl _⟩, orderly⟩
  | plain _ absent => exact ⟨by rintro _ rfl; exact ⟨_, .plain absent, .refl _⟩, orderly⟩
  | walk fresh listed inner ih =>
    have known := Table.mem_keys_of_get? listed
    exact .walk listed inner (ih (coherent.start fresh known) (stacked.start listed)
      (unblocked_start forward coherent stacked listed) orderly)
  | named _ ih =>
    exact .named (ih coherent (stacked.narrow (fun _ => id) fun _ => .named) trivial orderly)
  | array _ ih =>
    exact .array (ih coherent (stacked.narrow (fun _ => id) fun _ => .item) trivial orderly)
  | oneOf _ ih =>
    exact .oneOf (ih coherent (stacked.narrow (fun _ => id) fun _ => .variants) trivial orderly)
  | noVariants => exact .noVariants orderly
  | variant first _ early late =>
    have shown := early coherent
      (stacked.narrow (fun _ => id) fun _ => .variant List.mem_cons_self) trivial orderly
    exact shown.variant (late (coherent_of_run first.run coherent)
      (stacked.narrow (fun _ => first.inProgress) fun _ => Leads.moreVariants) trivial shown.orderly)
  | noFields => exact .noFields orderly
  | oneField first _ early late =>
    have shown := early coherent (stacked.narrow (fun _ => id) fun _ => .field List.mem_cons_self)
      (unblocked _ List.mem_cons_self) orderly
    exact shown.oneField (late (coherent_of_run first.run coherent)
      (stacked.narrow (fun _ => first.inProgress) fun _ => Leads.moreFields)
      (unblocked.moreFields first) shown.orderly)
  | skipped found walking =>
    -- The only place where the order of visits would show: it needs a merge that leads back.
    exact absurd walking (unblocked _ (Field.merges_of_spliced? found))
  | copied found complete defined => exact .copied found defined orderly
  | merged found unvisited inner ih =>
    exact .merged found unvisited inner (ih coherent
      (stacked.narrow (fun _ => id) fun _ => .spliced found) (unblocked.spliced? found) orderly)
  | property plain found inner ih =>
    exact .property plain found inner (ih coherent
      (stacked.narrow (fun _ => id) fun _ => .source plain found) (unblocked.source? found) orderly)
  | untyped plain absent => exact .untyped plain absent orderly

/-- An answer to anything but fields looks as the task looks without any progress. -/
def Task.LooksLike (catalog : Catalog) (answer : Schema) : Task → Prop
  | .variants tokens done => ∀ done', List.Forall₂ Schema.Alike done done' →
      ∃ look, Outlines catalog (.variants tokens done') look ∧ answer.Alike look
  | .field _ _ | .fields _ _ => True
  | task => ∃ look, Outlines catalog task look ∧ answer.Alike look

/-- What is merged into an entity stays behind its name, so in every coherent progress a type is
answered with what it looks like. -/
theorem Introspects.looksLike (derived : Introspects catalog task progress history answer next)
    (coherent : progress.Coherent catalog) : task.LooksLike catalog answer := by
  induction derived with
  | stub visited => exact ⟨_, .entity (coherent.catalogued _ visited), .refl _⟩
  | plain _ absent => exact ⟨_, .plain absent, .refl _⟩
  | walk _ listed inner => exact ⟨_, .entity (Table.mem_keys_of_get? listed), inner.alike_reference⟩
  | named _ ih =>
    obtain ⟨look, looks, same⟩ := ih coherent
    exact ⟨look, .named looks, same⟩
  | array _ ih =>
    obtain ⟨look, looks, same⟩ := ih coherent
    exact ⟨_, .array looks, Schema.Alike.array same⟩
  | oneOf _ ih =>
    obtain ⟨look, looks, same⟩ := ih coherent [] .nil
    exact ⟨look, .oneOf looks, same⟩
  | noVariants => exact fun done' same => ⟨_, .noVariants, alike_ofVariants same⟩
  | variant first _ early late =>
    intro done' same
    obtain ⟨variant', looks, here⟩ := early coherent
    obtain ⟨look, others, whole⟩ := late (coherent_of_run first.run coherent) (done' ++ [variant'])
      (List.rel_append same (.cons here .nil))
    exact ⟨look, .variant looks others, whole⟩
  | noFields | oneField | skipped | copied | merged | property | untyped => trivial

/-- Two coherent builds answer a type with schemas that look the same, without names if it mentions
no entity, and stay coherent. -/
theorem resolve_alike_of_coherent {progress' : Progress} (coherent : progress.Coherent catalog)
    (coherent' : progress'.Coherent catalog) (token : TypeToken) : ∃ answer next answer' next',
      (Lexicon.resolve { catalog } token).run progress = (answer, next) ∧
        (Lexicon.resolve { catalog } token).run progress' = (answer', next') ∧ answer.Alike answer' ∧
          (¬(Task.token token).MentionsEntity catalog → answer.NamesIn fun _ => False) ∧
            next.Coherent catalog ∧ next'.Coherent catalog := by
  obtain ⟨history, answer, next, ran, derived⟩ := resolve_derived coherent token
  obtain ⟨history', answer', next', ran', derived'⟩ := resolve_derived coherent' token
  obtain ⟨look, looks, same⟩ := derived.looksLike coherent
  obtain ⟨look', looks', same'⟩ := derived'.looksLike coherent'
  obtain rfl := looks.unique looks'
  refine ⟨answer, next, answer', next', ran, ran', Eq.trans same (Eq.symm same'), fun apart => ?_,
    coherent_of_run derived.run coherent, coherent_of_run derived'.run coherent'⟩
  exact derived.nameless coherent apart trivial (by simp) (by simp)

/-- A build between two calls: nothing is in progress, and definitions look as they should. -/
structure Steady (catalog : Catalog) (progress : Progress) : Prop extends Settled catalog progress where
  orderly : progress.Orderly catalog

theorem steady_empty : Steady catalog {} where
  toSettled := settled_empty
  orderly entry member := by cases member

/-- A type is answered with what it looks like, without a name if it mentions no entity, and the build
stays steady. -/
theorem Steady.resolve (forward : catalog.MergesForward) (steady : Steady catalog progress)
    (token : TypeToken) : ∃ answer next,
      (Lexicon.resolve { catalog } token).run progress = (answer, next) ∧
        (∃ look, Outlines catalog (.token token) look ∧ answer.Alike look) ∧
          (¬(Task.token token).MentionsEntity catalog → answer.NamesIn fun _ => False) ∧
            Steady catalog next := by
  obtain ⟨history, answer, next, ran, derived⟩ := resolve_derived steady.toCoherent token
  have stacked : Stacked catalog progress (.token token) :=
    fun outer walking => absurd walking (steady.idle outer)
  have shown := derived.outlines forward steady.toCoherent stacked trivial steady.orderly
  obtain ⟨settled, -, -⟩ := steady.toSettled.behind derived trivial
  refine ⟨answer, next, ran, shown.looks _ rfl, fun apart => ?_, settled, shown.orderly⟩
  exact derived.nameless steady.toCoherent apart trivial (by simp) (by simp)

/-- Two builds answer a type with alike schemas. -/
theorem resolve_alike (forward : catalog.MergesForward) {progress' : Progress}
    (steady : Steady catalog progress) (steady' : Steady catalog progress') (token : TypeToken) :
    ∃ answer next answer' next', (Lexicon.resolve { catalog } token).run progress = (answer, next) ∧
      (Lexicon.resolve { catalog } token).run progress' = (answer', next') ∧ answer.Alike answer' ∧
        (¬(Task.token token).MentionsEntity catalog →
          answer.NamesIn (fun _ => False) ∧ answer'.NamesIn fun _ => False) ∧
            Steady catalog next ∧ Steady catalog next' := by
  obtain ⟨answer, next, ran, ⟨look, looks, same⟩, unnamed, behind⟩ := steady.resolve forward token
  obtain ⟨answer', next', ran', ⟨look', looks', same'⟩, unnamed', behind'⟩ :=
    steady'.resolve forward token
  obtain rfl := looks.unique looks'
  exact ⟨answer, next, answer', next', ran, ran', Eq.trans same (Eq.symm same'),
    fun apart => ⟨unnamed apart, unnamed' apart⟩, behind, behind'⟩

/-- Two builds give an entity definitions that have alike parts. -/
theorem Steady.alikeParts {progress' : Progress} (steady : Steady catalog progress)
    (steady' : Steady catalog progress') {definition definition' : Schema}
    (here : (name, definition) ∈ progress.definitions)
    (there : (name, definition') ∈ progress'.definitions) : definition.AlikeParts definition' := by
  obtain ⟨entity, parts, listed, looks, same⟩ := steady.orderly _ here
  obtain ⟨entity', parts', listed', looks', same'⟩ := steady'.orderly _ there
  obtain rfl := Option.some.inj (listed.symm.trans listed')
  obtain rfl := looks.unique looks'
  exact Eq.trans same (Eq.symm same')

end ApiDoc
