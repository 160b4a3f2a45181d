import ApiDoc.Proofs.Type.Leads

/-! # What a build reaches

An entity reaches another one through the fields that mention it. `Reaches` says so of a catalog
alone, whatever a build does; `Leads` is the same relation, followed task by task (`leads_iff`). A
depth-first walk cuts at entities that were visited, and still misses nothing: an entity that is
newly visited is one that the task leads to (`Introspects.leads_of_visited`), what a task mentions
is visited behind it, and so is what the fields of a complete entity mention
(`Introspects.covers`). Where nothing is in progress these add up to the whole relation
(`session_defines_iff`).
-/

namespace ApiDoc

variable {catalog : Catalog} {task : Task} {progress next : Progress} {history : List VisitEvent}
  {answer : Schema} {field : Field} {name other first : String}

/-- The token names the type, at any depth. -/
inductive TypeToken.Names (name : String) : TypeToken → Prop
  | named : Names name (.named name)
  | item {item : TypeToken} : Names name item → Names name (.arrayOf item)
  | variant {tokens : List TypeToken} {token : TypeToken} : token ∈ tokens → Names name token →
      Names name (.oneOf tokens)

/-- The field merges the catalogued entity that its declared type names. -/
def Field.MergesType (catalog : Catalog) (field : Field) (name : String) : Prop :=
  field.merge = true ∧ field.declaredType = some (.named name) ∧ name ∈ Table.keys catalog

/-- The field mentions the type: its presenter if it has one, otherwise the entity whose parts it
merges, otherwise what its nested fields mention, and what its declared type names if it has
none. -/
inductive Field.Mentions (catalog : Catalog) (name : String) : Field → Prop
  | presenter {field : Field} : field.presenter = some name → Mentions catalog name field
  | merged {field : Field} : field.presenter = none → field.MergesType catalog name →
      Mentions catalog name field
  | nested {field inner : Field} : field.presenter = none →
      (∀ entity, ¬field.MergesType catalog entity) → inner ∈ field.nested →
      Mentions catalog name inner → Mentions catalog name field
  | declared {field : Field} {token : TypeToken} : field.presenter = none →
      (∀ entity, ¬field.MergesType catalog entity) → field.nested = [] →
      field.declaredType = some token → token.Names name → Mentions catalog name field

/-- The catalogued entity reaches another one, or is the same: its fields mention an entity that
does. -/
inductive Catalog.Reaches (catalog : Catalog) : String → String → Prop
  | here {name : String} : name ∈ Table.keys catalog → Reaches catalog name name
  | through {first between last : String} {entity : Entity} {field : Field} :
      catalog.get? first = some entity → field ∈ entity.fields → field.Mentions catalog between →
      Reaches catalog between last → Reaches catalog first last

/-- What is reached is the entity itself, or reached from something that a field of it mentions. -/
theorem Catalog.Reaches.eq_or_through (reaches : catalog.Reaches first other) :
    first = other ∨ ∃ entity, catalog.get? first = some entity ∧ ∃ field ∈ entity.fields,
      ∃ between, field.Mentions catalog between ∧ catalog.Reaches between other := by
  cases reaches with
  | here => exact .inl rfl
  | through listed member mentions later => exact .inr ⟨_, listed, _, member, _, mentions, later⟩

/-- Only entities of the catalog are reached. -/
theorem Catalog.Reaches.mem_keys (reaches : catalog.Reaches first other) : other ∈ Table.keys catalog := by
  induction reaches with
  | here listed => exact listed
  | through _ _ _ _ ih => exact ih

/-- What a task mentions without going into any entity. -/
def Task.Mentions (catalog : Catalog) (name : String) : Task → Prop
  | .entity other => other = name
  | .token other => other.Names name
  | .variants tokens _ => ∃ token ∈ tokens, token.Names name
  | .field other _ => other.Mentions catalog name
  | .fields others _ => ∃ other ∈ others, other.Mentions catalog name

def Field.Origin (catalog : Catalog) (field : Field) (task : Task) : Prop :=
  field.spliced? catalog = some task ∨ field.spliced? catalog = none ∧ field.source? = some task

theorem Field.Origin.unique {another : Task} (origin : field.Origin catalog task)
    (same : field.Origin catalog another) : task = another := by
  rcases origin with spliced | ⟨plain, source⟩ <;> rcases same with spliced' | ⟨plain', source'⟩
  · exact Option.some.inj (spliced.symm.trans spliced')
  · simp [spliced] at plain'
  · simp [plain] at spliced'
  · exact Option.some.inj (source.symm.trans source')

theorem Field.origin_of_presenter (presented : field.presenter = some name) :
    field.Origin catalog (.entity name) := by
  unfold Origin spliced? source? entity?
  cases field.merge <;> simp [presented]

theorem Field.origin_of_mergesType (unpresented : field.presenter = none)
    (merges : field.MergesType catalog name) : field.Origin catalog (.entity name) := by
  obtain ⟨merge, declared, listed⟩ := merges
  have contained : Table.contains catalog name = true := Table.contains_iff_mem_keys.mpr listed
  left
  simp [spliced?, entity?, merge, unpresented, declared, contained]

/-- A field that merges no entity by its type presents none. -/
theorem Field.entity?_eq_none (unpresented : field.presenter = none) (merge : field.merge = true)
    (apart : ∀ entity, ¬field.MergesType catalog entity) : field.entity? catalog = none := by
  unfold entity?
  rw [unpresented]
  dsimp only
  split
  · next entity declared =>
    have absent : ¬Table.contains catalog entity = true := fun contained =>
      apart entity ⟨merge, declared, Table.contains_iff_mem_keys.mp contained⟩
    rw [if_neg absent]
  · rfl

theorem Field.origin_of_nested (unpresented : field.presenter = none)
    (apart : ∀ entity, ¬field.MergesType catalog entity) (parts : field.nested ≠ []) :
    field.Origin catalog (.fields field.nested .object) := by
  have filled : field.nested.isEmpty = false := by simpa using parts
  unfold Origin spliced? source?
  by_cases merge : field.merge = true
  · simp [merge, entity?_eq_none unpresented merge apart, filled]
  · simp [merge, unpresented, filled]

/-- A field with neither presenter nor parts is made from its declared type, if at all. -/
theorem Field.source?_of_leaf (unpresented : field.presenter = none)
    (apart : ∀ entity, ¬field.MergesType catalog entity) (leaf : field.nested = []) :
    field.spliced? catalog = none ∧ field.source? = field.declaredType.map .token := by
  unfold spliced? source?
  by_cases merge : field.merge = true
  · simp [merge, entity?_eq_none unpresented merge apart, leaf, unpresented]
  · simp [merge, unpresented, leaf]

theorem Field.origin_of_declared {token : TypeToken} (unpresented : field.presenter = none)
    (apart : ∀ entity, ¬field.MergesType catalog entity) (leaf : field.nested = [])
    (declared : field.declaredType = some token) : field.Origin catalog (.token token) := by
  obtain ⟨plain, source⟩ := source?_of_leaf unpresented apart leaf
  exact .inr ⟨plain, by rw [source, declared]; rfl⟩

/-- A field that mentions something is made from what mentions it. -/
theorem Field.Mentions.origin (mentions : field.Mentions catalog name) :
    ∃ task, field.Origin catalog task ∧ task.Mentions catalog name := by
  cases mentions with
  | presenter presented => exact ⟨_, origin_of_presenter presented, rfl⟩
  | merged unpresented merges => exact ⟨_, origin_of_mergesType unpresented merges, rfl⟩
  | nested unpresented apart member inner =>
    exact ⟨_, origin_of_nested unpresented apart (List.ne_nil_of_mem member), _, member, inner⟩
  | declared unpresented apart leaf declared names =>
    exact ⟨_, origin_of_declared unpresented apart leaf declared, names⟩

/-- A field mentions what it is made from mentions. -/
theorem Field.mentions_iff (origin : field.Origin catalog task) :
    field.Mentions catalog name ↔ task.Mentions catalog name := by
  constructor
  · intro mentions
    obtain ⟨another, same, here⟩ := mentions.origin
    exact origin.unique same ▸ here
  · intro mentions
    cases presented : field.presenter with
    | some presenter =>
      obtain rfl := origin.unique (origin_of_presenter presented)
      exact .presenter (presented.trans (congrArg some mentions))
    | none =>
      by_cases merges : ∃ entity, field.MergesType catalog entity
      · obtain ⟨entity, merges⟩ := merges
        obtain rfl := origin.unique (origin_of_mergesType presented merges)
        obtain rfl : entity = name := mentions
        exact .merged presented merges
      · have apart : ∀ entity, ¬field.MergesType catalog entity := not_exists.mp merges
        by_cases leaf : field.nested = []
        · obtain ⟨plain, source⟩ := source?_of_leaf presented apart leaf
          rcases origin with spliced | ⟨-, made⟩
          · simp [plain] at spliced
          · rw [source] at made
            obtain ⟨token, declared, rfl⟩ := Option.map_eq_some_iff.mp made
            exact .declared presented apart leaf declared mentions
        · obtain rfl := origin.unique (origin_of_nested presented apart leaf)
          obtain ⟨inner, member, mentions⟩ := mentions
          exact .nested presented apart member mentions

/-- A field leads to what it is made from leads to. -/
theorem Leads.of_origin {target : Schema} (origin : field.Origin catalog task)
    (leads : Leads catalog task other) : Leads catalog (.field field target) other := by
  rcases origin with spliced | ⟨plain, source⟩
  · exact .spliced spliced leads
  · exact .source plain source leads

theorem leads_of_names {token : TypeToken} (names : token.Names name)
    (leads : Leads catalog (.entity name) other) : Leads catalog (.token token) other := by
  induction names with
  | named => exact .named leads
  | item _ ih => exact .item ih
  | variant member _ ih => exact .variants (.variant member ih)

theorem leads_of_field {target : Schema} (mentions : field.Mentions catalog name)
    (leads : Leads catalog (.entity name) other) : Leads catalog (.field field target) other := by
  induction mentions generalizing target with
  | presenter presented => exact .of_origin (Field.origin_of_presenter presented) leads
  | merged unpresented merges => exact .of_origin (Field.origin_of_mergesType unpresented merges) leads
  | nested unpresented apart member _ ih =>
    have parts := List.ne_nil_of_mem member
    have inner : Leads catalog (.field _ .object) other := ih
    exact .of_origin (Field.origin_of_nested unpresented apart parts) (.field member inner)
  | declared unpresented apart leaf declared names =>
    exact .of_origin (Field.origin_of_declared unpresented apart leaf declared) (leads_of_names names leads)

/-- A task leads to all that an entity it mentions leads to. -/
theorem leads_of_mentions (mentions : task.Mentions catalog name)
    (leads : Leads catalog (.entity name) other) : Leads catalog task other := by
  cases task with
  | entity => exact mentions ▸ leads
  | token => exact leads_of_names mentions leads
  | variants =>
    obtain ⟨token, member, names⟩ := mentions
    exact .variant member (leads_of_names names leads)
  | field => exact leads_of_field mentions leads
  | fields _ target =>
    obtain ⟨field, member, inner⟩ := mentions
    have led : Leads catalog (.field field target) other := leads_of_field inner leads
    exact .field member led

/-- A task leads to what is reached from an entity that it mentions. -/
theorem leads_iff : Leads catalog task other ↔
    ∃ first, task.Mentions catalog first ∧ catalog.Reaches first other := by
  constructor
  · intro leads
    induction leads with
    | @here name listed => exact ⟨name, rfl, .here listed⟩
    | @within name other entity target listed _ ih =>
      obtain ⟨between, ⟨field, member, mentions⟩, reaches⟩ := ih
      exact ⟨name, rfl, .through listed member mentions reaches⟩
    | named _ ih =>
      obtain ⟨_, rfl, reaches⟩ := ih
      exact ⟨_, .named, reaches⟩
    | item _ ih =>
      obtain ⟨first, names, reaches⟩ := ih
      exact ⟨first, .item names, reaches⟩
    | variants _ ih =>
      obtain ⟨first, ⟨token, member, names⟩, reaches⟩ := ih
      exact ⟨first, .variant member names, reaches⟩
    | variant member _ ih =>
      obtain ⟨first, names, reaches⟩ := ih
      exact ⟨first, ⟨_, member, names⟩, reaches⟩
    | field member _ ih =>
      obtain ⟨first, mentions, reaches⟩ := ih
      exact ⟨first, ⟨_, member, mentions⟩, reaches⟩
    | spliced found _ ih =>
      obtain ⟨first, mentions, reaches⟩ := ih
      exact ⟨first, (Field.mentions_iff (.inl found)).mpr mentions, reaches⟩
    | source plain found _ ih =>
      obtain ⟨first, mentions, reaches⟩ := ih
      exact ⟨first, (Field.mentions_iff (.inr ⟨plain, found⟩)).mpr mentions, reaches⟩
  · rintro ⟨first, mentions, reaches⟩
    refine leads_of_mentions mentions ?_
    -- The induction is on the chain of entities alone; what the task mentions only starts it.
    clear mentions
    induction reaches with
    | here listed => exact .here listed
    | @through first between last entity field listed member mentions _ ih =>
      have led : Leads catalog (.fields entity.fields .object) last :=
        leads_of_mentions ⟨field, member, mentions⟩ ih
      exact .within listed led

/-- What is newly visited in a task is what the task leads to. -/
theorem Introspects.leads_of_visited (derived : Introspects catalog task progress history answer next)
    (fresh : progress.state name = .unvisited) (visited : next.Visited name) :
    Leads catalog task name := by
  induction derived with
  | stub | plain | noVariants | noFields | skipped | copied | untyped => exact absurd fresh visited
  | named _ ih => exact .named (ih fresh visited)
  | array _ ih => exact .item (ih fresh visited)
  | oneOf _ ih => exact .variants (ih fresh visited)
  | merged found _ _ ih => exact .spliced found (ih fresh visited)
  | property plain found _ ih => exact .source plain found (ih fresh visited)
  | @variant _ middle _ _ _ _ _ _ _ _ _ _ early late =>
    by_cases between : middle.state name = .unvisited
    · exact (late between visited).moreVariants
    · exact .variant List.mem_cons_self (early fresh between)
  | @oneField _ middle _ _ _ _ _ _ _ _ _ _ early late =>
    by_cases between : middle.state name = .unvisited
    · exact (late between visited).moreFields
    · exact .field List.mem_cons_self (early fresh between)
  | @walk _ next started _ _ schema unvisited listed _ ih =>
    by_cases same : started = name
    · exact same ▸ .here (Table.mem_keys_of_get? listed)
    · refine .within listed (ih (by simp [same, fresh]) ?_)
      simpa [Progress.Visited, same] using visited

/-- All catalogued entities that a task mentions were visited. -/
def Progress.Covers (catalog : Catalog) (progress : Progress) (task : Task) : Prop :=
  ∀ name ∈ Table.keys catalog, task.Mentions catalog name → progress.Visited name

/-- All entities that the fields of complete ones mention were visited. -/
def Progress.Closed (catalog : Catalog) (progress : Progress) : Prop :=
  ∀ name entity, progress.state name = .complete → catalog.get? name = some entity →
    progress.Covers catalog (.fields entity.fields .object)

theorem Progress.Covers.later {part : Task} (covers : progress.Covers catalog part)
    (derived : Introspects catalog task progress history answer next) : next.Covers catalog part :=
  fun name listed mentions => derived.visited (covers name listed mentions)

theorem Progress.Closed.start (closed : progress.Closed catalog) :
    (progress.start name).Closed catalog := by
  intro other entity complete listed
  rw [Progress.state_start] at complete
  split at complete
  · cases complete
  · exact fun mentioned known mentions => (closed other entity complete listed mentioned known mentions).start

/-- An entity may be finished once all that its fields mention was visited. -/
theorem Progress.Closed.finish (closed : progress.Closed catalog) {entity : Entity}
    (found : catalog.get? name = some entity) {container schema : Schema}
    (covers : progress.Covers catalog (.fields entity.fields container)) :
    (progress.finish name schema).Closed catalog := by
  intro completed other complete listed mentioned known mentions
  rw [Progress.state_finish] at complete
  split at complete
  · next same =>
    obtain rfl : entity = other := Option.some.inj (found.symm.trans (same ▸ listed))
    exact (covers mentioned known mentions).finish schema
  · exact (closed completed other complete listed mentioned known mentions).finish schema

namespace Progress.Covers

variable {container : Schema}

theorem visited (visited : progress.Visited name) : progress.Covers catalog (.entity name) := by
  rintro _ - rfl
  exact visited

theorem array {item : TypeToken} (covers : progress.Covers catalog (.token item)) :
    progress.Covers catalog (.token (.arrayOf item)) := by
  intro name listed names
  cases names with
  | item names => exact covers name listed names

theorem oneOf {tokens : List TypeToken} {done : List Schema}
    (covers : progress.Covers catalog (.variants tokens done)) :
    progress.Covers catalog (.token (.oneOf tokens)) := by
  intro name listed names
  cases names with
  | variant member names => exact covers name listed ⟨_, member, names⟩

theorem variants {first : TypeToken} {rest : List TypeToken} {done more : List Schema}
    (early : progress.Covers catalog (.token first)) (late : progress.Covers catalog (.variants rest more)) :
    progress.Covers catalog (.variants (first :: rest) done) := by
  rintro name listed ⟨token, member, names⟩
  rcases List.mem_cons.mp member with rfl | member
  · exact early name listed names
  · exact late name listed ⟨token, member, names⟩

theorem fields {first : Field} {rest : List Field} {between : Schema}
    (early : progress.Covers catalog (.field first container))
    (late : progress.Covers catalog (.fields rest between)) :
    progress.Covers catalog (.fields (first :: rest) container) := by
  rintro name listed ⟨field, member, mentions⟩
  rcases List.mem_cons.mp member with rfl | member
  · exact early name listed mentions
  · exact late name listed ⟨field, member, mentions⟩

theorem of_origin (origin : field.Origin catalog task) (covers : progress.Covers catalog task) :
    progress.Covers catalog (.field field container) :=
  fun name listed mentions => covers name listed ((Field.mentions_iff origin).mp mentions)

theorem untyped (plain : field.spliced? catalog = none) (absent : field.source? = none) :
    progress.Covers catalog (.field field container) := by
  intro name _ mentions
  obtain ⟨_, spliced | ⟨_, source⟩, _⟩ := mentions.origin
  · simp [plain] at spliced
  · simp [absent] at source

end Progress.Covers

/-- Behind a task the entities that it mentions were visited, and so were those that the fields of
complete entities mention. -/
theorem Introspects.covers (derived : Introspects catalog task progress history answer next)
    (closed : progress.Closed catalog) : next.Covers catalog task ∧ next.Closed catalog := by
  induction derived with
  | stub visited => exact ⟨.visited visited, closed⟩
  | plain _ absent =>
    refine ⟨fun name listed same => ?_, closed⟩
    exact absurd (same ▸ listed) (Table.get?_eq_none_iff.mp absent)
  | walk _ found _ ih =>
    obtain ⟨covers, behind⟩ := ih closed.start
    exact ⟨.visited (by simp [Progress.Visited]), behind.finish found covers⟩
  | named _ ih =>
    obtain ⟨covers, behind⟩ := ih closed
    refine ⟨fun name listed names => ?_, behind⟩
    cases names
    exact covers _ listed rfl
  | array _ ih => exact (ih closed).imp .array id
  | oneOf _ ih => exact (ih closed).imp .oneOf id
  | noVariants =>
    refine ⟨?_, closed⟩
    rintro name - ⟨_, member, -⟩
    cases member
  | variant _ rest early late =>
    obtain ⟨first, between⟩ := early closed
    obtain ⟨others, behind⟩ := late between
    exact ⟨(first.later rest).variants others, behind⟩
  | noFields =>
    refine ⟨?_, closed⟩
    rintro name - ⟨_, member, -⟩
    cases member
  | oneField _ rest early late =>
    obtain ⟨first, between⟩ := early closed
    obtain ⟨others, behind⟩ := late between
    exact ⟨(first.later rest).fields others, behind⟩
  | skipped found walking =>
    exact ⟨.of_origin (.inl found) (.visited (by simp [Progress.Visited, walking])), closed⟩
  | copied found complete =>
    exact ⟨.of_origin (.inl found) (.visited (by simp [Progress.Visited, complete])), closed⟩
  | merged found _ _ ih => exact (ih closed).imp (.of_origin (.inl found)) id
  | property plain found _ ih => exact (ih closed).imp (.of_origin (.inr ⟨plain, found⟩)) id
  | untyped plain absent => exact ⟨.untyped plain absent, closed⟩

/-- The task mentions a catalogued entity. -/
def Task.MentionsEntity (catalog : Catalog) (task : Task) : Prop :=
  ∃ name ∈ Table.keys catalog, task.Mentions catalog name

/-- A type that mentions no entity is answered without names. -/
theorem Introspects.nameless (derived : Introspects catalog task progress history answer next)
    (coherent : progress.Coherent catalog) (apart : ¬task.MentionsEntity catalog)
    (plain : task.NamesIn fun _ => False) (adds : ∀ field target, task ≠ .field field target)
    (addsAll : ∀ fields target, task ≠ .fields fields target) : answer.NamesIn fun _ => False := by
  induction derived with
  | stub visited => exact absurd ⟨_, coherent.catalogued _ visited, rfl⟩ apart
  | plain => exact Primitive.schema_namesIn _
  | walk _ listed => exact absurd ⟨_, Table.mem_keys_of_get? listed, rfl⟩ apart
  | named _ ih =>
    refine ih coherent ?_ trivial (by simp) (by simp)
    rintro ⟨name, listed, rfl⟩
    exact apart ⟨_, listed, .named⟩
  | array _ ih =>
    refine Schema.NamesIn.array (ih coherent ?_ trivial (by simp) (by simp))
    rintro ⟨name, listed, names⟩
    exact apart ⟨name, listed, .item names⟩
  | oneOf _ ih =>
    refine ih coherent ?_ (fun schema member => by cases member) (by simp) (by simp)
    rintro ⟨name, listed, token, member, names⟩
    exact apart ⟨name, listed, .variant member names⟩
  | noVariants => exact Schema.namesIn_ofVariants plain
  | variant first _ early late =>
    have apartHere : ¬(Task.token _).MentionsEntity catalog :=
      fun ⟨name, listed, names⟩ => apart ⟨name, listed, _, List.mem_cons_self, names⟩
    have here := early coherent apartHere trivial (by simp) (by simp)
    refine late (coherent_of_run first.run coherent) ?_ (fun schema member => ?_) (by simp) (by simp)
    · rintro ⟨name, listed, token, member, names⟩
      exact apart ⟨name, listed, token, List.mem_cons_of_mem _ member, names⟩
    · rcases List.mem_append.mp member with member | member
      · exact plain schema member
      · exact List.mem_singleton.mp member ▸ here
  | noFields | oneField => exact absurd rfl (addsAll _ _)
  | skipped | copied | merged | property | untyped => exact absurd rfl (adds _ _)

/-- Where all complete entities cover what they mention and nothing is in progress, visited entities
reach visited ones only. -/
theorem visited_of_reaches (closed : progress.Closed catalog)
    (idle : ∀ name, progress.state name ≠ .inProgress) (reaches : catalog.Reaches first other)
    (visited : first ∈ Table.keys catalog → progress.Visited first) : progress.Visited other := by
  induction reaches with
  | here listed => exact visited listed
  | @through first between last entity field listed member mentions _ ih =>
    have here := visited (Table.mem_keys_of_get? listed)
    have complete : progress.state first = .complete := by
      cases state : progress.state first with
      | unvisited => exact absurd state here
      | inProgress => exact absurd state (idle first)
      | complete => rfl
    exact ih fun known => closed first entity complete listed between known ⟨field, member, mentions⟩

namespace Session

variable {calls : List Call} {answers : List Schema}

/-- Behind a sequence of calls the entities were visited that the calls mention. -/
theorem covers (session : Session catalog calls progress history answers next)
    (closed : progress.Closed catalog) :
    (∀ call ∈ calls, next.Covers catalog call.task) ∧ next.Closed catalog := by
  induction session with
  | nil => exact ⟨fun call member => (by cases member), closed⟩
  | cons derived rest ih =>
    obtain ⟨first, between⟩ := derived.covers closed
    obtain ⟨others, behind⟩ := ih between
    refine ⟨fun call member name listed mentions => ?_, behind⟩
    rcases List.mem_cons.mp member with rfl | member
    · exact visited_of_run rest.run (first name listed mentions)
    · exact others call member name listed mentions

/-- What is newly visited in a sequence of calls is what one of them leads to. -/
theorem leads_of_visited (session : Session catalog calls progress history answers next)
    (fresh : progress.state name = .unvisited) (visited : next.Visited name) :
    ∃ call ∈ calls, Leads catalog call.task name := by
  induction session with
  | nil => exact absurd fresh visited
  | @cons call _ _ middle _ _ _ _ _ derived _ ih =>
    by_cases between : middle.state name = .unvisited
    · obtain ⟨other, member, leads⟩ := ih between visited
      exact ⟨other, List.mem_cons_of_mem _ member, leads⟩
    · exact ⟨call, List.mem_cons_self, derived.leads_of_visited fresh between⟩

end Session

/-- A sequence of calls defines exactly the entities that the calls lead to. -/
theorem session_defines_iff (catalog : Catalog) (calls : List Call) (name : String) :
    (session catalog calls).2.Defines name ↔ ∃ call ∈ calls, Leads catalog call.task name := by
  obtain ⟨history, derived⟩ := session_history catalog calls
  obtain ⟨settled, -⟩ := derived.settled settled_empty
  constructor
  · intro defined
    exact derived.leads_of_visited rfl (settled.visited defined)
  · rintro ⟨call, member, leads⟩
    obtain ⟨covers, closed⟩ := derived.covers fun other _ complete => by cases complete
    obtain ⟨first, mentions, reaches⟩ := leads_iff.mp leads
    refine defines_of_visited settled.toCoherent settled.idle ?_
    exact visited_of_reaches closed settled.idle reaches fun listed =>
      covers call member first listed mentions

end ApiDoc
