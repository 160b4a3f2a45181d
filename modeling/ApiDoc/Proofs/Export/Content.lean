import ApiDoc.Export.Rendering

/-! # What a schema renders to

The walk that renders a schema does two things at once: it visits the schemas in the use positions
below it, which may define names, and it puts together the text. The text depends on the schema
alone. `plainContent` is that text, `parts` are the use positions in the order of their rendering,
and `content_eq` and `useSite_eq` split the walk into the visits and the text, whatever the table
of definitions is.
-/

namespace ApiDoc.Export

open Json

variable (dialect : Dialect)

/-- The alternatives that a document shows: all of them, or the first one. -/
def shownVariants (schema : Schema) : List Schema :=
  if dialect.supportsOneOf then schema.oneOf else schema.oneOf.take 1

def shownItems (schema : Schema) : List Schema :=
  if schema.isType .array then schema.items.toList else []

/-- The schemas in the use positions of the content of a schema, in the order of their rendering. -/
def parts (schema : Schema) : List Schema :=
  shownVariants dialect schema ++ (Table.values schema.properties ++ shownItems schema)

def refText (name : String) : String := dialect.refBase ++ sanitize name

/-- What a use position of a schema renders to: a reference if the schema has a canonical name,
otherwise its rendered content. -/
def plainUse (site : Schema) (content : Fields) : Json :=
  match site.canonicalName with
  | some name => object (decorate dialect site [("$ref", string (refText dialect name))])
  | none => object (decorate dialect site content)

/-- The fields a schema starts with, from its rendered alternatives. -/
def plainStart (schema : Schema) (variants : List Json) : Fields :=
  if schema.oneOf.isEmpty then typeFields dialect schema
  else if dialect.supportsOneOf then [("oneOf", array variants)]
  else ((variants.headD (object [])).fields?).getD []

/-- The content of a schema, put together from its rendered parts. -/
def plainAssemble (schema : Schema) (start properties : Fields) (items : Json) : Fields :=
  let fields := start.insertSome "description" (schema.description.map string)
  let fields :=
    if schema.properties.isEmpty then fields else fields.insert "properties" (object properties)
  let fields :=
    if schema.required.isEmpty then fields else fields.insert "required" (strings schema.required)
  let fields := if schema.isType .array then fields.insert "items" items else fields
  let fields := Dialect.insertList fields "enum" schema.enumValues
  (fields.insertSome "default" schema.defaultValue).insertSome "example" schema.exampleValue

mutual

def plainContent (dialect : Dialect) : Schema → Fields
  | schema@{ properties := propertiesOf, items := itemsOf, oneOf := variantsOf, .. } =>
    plainAssemble schema (plainStart dialect schema (plainVariants dialect variantsOf))
      (plainProperties dialect propertiesOf []) (plainItems dialect itemsOf)

def plainVariants (dialect : Dialect) : List Schema → List Json
  | [] => []
  | variant :: rest =>
    plainUse dialect variant (plainContent dialect variant) :: plainVariants dialect rest

def plainProperties (dialect : Dialect) : List (String × Schema) → Fields → Fields
  | [], done => done
  | (name, property) :: rest, done =>
    plainProperties dialect rest
      (done.insert name (plainUse dialect property (plainContent dialect property)))

def plainItems (dialect : Dialect) : Option Schema → Json
  | none => object (typeFields dialect .string)
  | some schema => plainUse dialect schema (plainContent dialect schema)

end

/-- Renders a schema at a place of use for what it defines. -/
def visit (table : Definitions) (site : Schema) : Render Unit := do
  let _ ← useSite dialect table site (content dialect table site)

def visitAll (table : Definitions) (sites : List Schema) : Render Unit :=
  sites.forM (visit dialect table)

variable {dialect} {table : Definitions}

@[simp] theorem visitAll_nil : visitAll dialect table [] = pure () := rfl

theorem visitAll_cons (site : Schema) (rest : List Schema) :
    visitAll dialect table (site :: rest) = (do visit dialect table site; visitAll dialect table rest) :=
  rfl

theorem visitAll_append (first second : List Schema) :
    visitAll dialect table (first ++ second) =
      (do visitAll dialect table first; visitAll dialect table second) := by
  induction first with
  | nil => simp
  | cons site rest ih => simp [visitAll_cons, ih]

theorem content_unfold (schema : Schema) : content dialect table schema =
    assemble schema
      (startFields dialect schema (firstVariant dialect table schema.oneOf)
        (variants dialect table schema.oneOf))
      (properties dialect table schema.properties []) (items dialect table schema.items) := by
  cases schema
  rw [content]

theorem plainContent_unfold (schema : Schema) : plainContent dialect schema =
    plainAssemble schema (plainStart dialect schema (plainVariants dialect schema.oneOf))
      (plainProperties dialect schema.properties []) (plainItems dialect schema.items) := by
  cases schema
  rw [plainContent]

def State.reserving (state : State) (name : String) : State where
  names := state.names.insert (sanitize name) name
  definitions := state.definitions.insert (sanitize name) null

theorem reserve_run (name : String) (state : State) : (reserve name).run state =
    match state.names.get? (sanitize name) with
    | some owner =>
      if owner = name then .ok ((sanitize name, false), state)
      else .error (.nameCollision (sanitize name) owner name)
    | none => .ok ((sanitize name, true), state.reserving name) := by
  change reserve name state = _
  simp only [reserve, bind, StateT.bind, get, getThe, MonadStateOf.get, StateT.get, pure,
    Except.pure, Except.bind]
  cases state.names.get? (sanitize name) with
  | none => rfl
  | some owner => by_cases same : owner = name <;> simp [same] <;> rfl

/-- A reservation answers the sanitized form of its name. -/
theorem reserve_bind {α : Type} (name : String) (next : String × Bool → Render α) :
    (reserve name >>= next) =
      (reserve name >>= fun reserved => next (sanitize name, reserved.2)) := by
  funext state
  change (reserve name >>= next).run state = (reserve name >>= _).run state
  rw [StateT.run_bind, StateT.run_bind, reserve_run]
  cases state.names.get? (sanitize name) with
  | none => rfl
  | some owner => by_cases same : owner = name <;> simp only [same, if_true, if_false] <;> rfl

/-- Renders the definition of a name that is met for the first time: the one of the table,
otherwise the content of the site. -/
def defineName (table : Definitions) (name : String) (site : Schema) (body : Render Fields) :
    Render Unit :=
  match table name with
  | some definition => do define (sanitize name) (← definition)
  | none => if site.isStub then fail (.missingDefinition name) else do define (sanitize name) (← body)

/-- Meets a name: reserves it, and defines it the first time. -/
def meet (table : Definitions) (name : String) (site : Schema) (body : Render Fields) :
    Render Unit := do
  let reserved ← reserve name
  if reserved.2 then defineName table name site body

theorem reference_eq (name : String) (site : Schema) (body : Render Fields) :
    reference dialect table name site body = (do
      meet table name site body
      return object (decorate dialect site [("$ref", string (refText dialect name))])) := by
  unfold reference meet
  rw [reserve_bind, bind_assoc]
  congr 1
  funext reserved
  cases reserved.2 with
  | false => rfl
  | true =>
    simp only [if_true, defineName]
    cases table name with
    | some definition => simp only [bind_assoc, refText]
    | none =>
      by_cases stub : site.isStub = true
      · rw [if_pos stub, if_pos stub]
        rfl
      · simp [stub, refText]

/-- At a place of use a name is met, or the schemas in the use positions of the content are visited. -/
theorem visit_eq (site : Schema) : visit dialect table site =
    match site.canonicalName with
    | some name => meet table name site (content dialect table site)
    | none => do
      let _ ← content dialect table site
      return () := by
  unfold visit useSite
  cases site.canonicalName with
  | some name => simp only [reference_eq, bind_assoc, pure_bind, bind_pure_unit]
  | none => simp only [bind_assoc, pure_bind]

theorem useSite_eq_of_content {site : Schema}
    (split : content dialect table site = (do
      visitAll dialect table (parts dialect site)
      return plainContent dialect site)) :
    useSite dialect table site (content dialect table site) = (do
      visit dialect table site
      return plainUse dialect site (plainContent dialect site)) := by
  rw [visit_eq]
  unfold useSite plainUse
  cases site.canonicalName with
  | some name => exact reference_eq name site _
  | none => simp only [split, bind_assoc, pure_bind]

theorem startFields_eq (schema : Schema) (texts : List Json)
    (first : firstVariant dialect table schema.oneOf = (do
      visitAll dialect table (schema.oneOf.take 1)
      return texts.headD (object [])))
    (all : variants dialect table schema.oneOf = (do
      visitAll dialect table schema.oneOf
      return texts)) :
    startFields dialect schema (firstVariant dialect table schema.oneOf)
        (variants dialect table schema.oneOf) = (do
      visitAll dialect table (shownVariants dialect schema)
      return plainStart dialect schema texts) := by
  unfold startFields plainStart shownVariants
  rw [first, all]
  cases alternatives : schema.oneOf with
  | nil => cases dialect.supportsOneOf <;> simp
  | cons variant rest => cases dialect.supportsOneOf <;> simp

/-- The visits of the parts of a content happen in the order in which it is put together. -/
theorem assemble_eq (schema : Schema) (start properties : Fields) (items : Json)
    (inStart inProperties inItems : List Schema) :
    assemble schema (do visitAll dialect table inStart; return start)
        (do visitAll dialect table inProperties; return properties)
        (do visitAll dialect table inItems; return items) = (do
      visitAll dialect table (inStart ++
        ((if schema.properties.isEmpty then [] else inProperties) ++
          if schema.isType .array then inItems else []))
      return plainAssemble schema start properties items) := by
  unfold assemble plainAssemble
  cases schema.properties.isEmpty <;> cases schema.isType .array <;> simp [visitAll_append]

theorem content_eq_of_parts {schema : Schema}
    (first : firstVariant dialect table schema.oneOf = (do
      visitAll dialect table (schema.oneOf.take 1)
      return (plainVariants dialect schema.oneOf).headD (object [])))
    (all : variants dialect table schema.oneOf = (do
      visitAll dialect table schema.oneOf
      return plainVariants dialect schema.oneOf))
    (inProperties : properties dialect table schema.properties [] = (do
      visitAll dialect table (Table.values schema.properties)
      return plainProperties dialect schema.properties []))
    (inItems : items dialect table schema.items = (do
      visitAll dialect table schema.items.toList
      return plainItems dialect schema.items)) :
    content dialect table schema = (do
      visitAll dialect table (parts dialect schema)
      return plainContent dialect schema) := by
  rw [content_unfold, plainContent_unfold, startFields_eq _ _ first all, inProperties, inItems,
    assemble_eq]
  have same : (if schema.properties.isEmpty then [] else Table.values schema.properties) =
      Table.values schema.properties := by
    cases schema.properties <;> rfl
  rw [same]
  rfl

mutual

theorem content_eq : ∀ schema : Schema, content dialect table schema = (do
      visitAll dialect table (parts dialect schema)
      return plainContent dialect schema)
  | schema@{ properties := propertiesOf, items := itemsOf, oneOf := variantsOf, .. } => by
    exact content_eq_of_parts (firstVariant_eq variantsOf) (variants_eq variantsOf)
      (properties_eq propertiesOf []) (items_eq itemsOf)

theorem variants_eq : ∀ schemas : List Schema, variants dialect table schemas = (do
      visitAll dialect table schemas
      return plainVariants dialect schemas)
  | [] => by simp [variants, plainVariants]
  | variant :: rest => by
    rw [variants, useSite_eq_of_content (content_eq variant), variants_eq rest, plainVariants,
      visitAll_cons]
    simp only [bind_assoc, pure_bind]

theorem firstVariant_eq : ∀ schemas : List Schema, firstVariant dialect table schemas = (do
      visitAll dialect table (schemas.take 1)
      return (plainVariants dialect schemas).headD (object []))
  | [] => by simp [firstVariant, plainVariants]
  | variant :: rest => by
    rw [firstVariant, useSite_eq_of_content (content_eq variant), plainVariants]
    simp [visitAll_cons]

theorem properties_eq : ∀ (entries : List (String × Schema)) (done : Fields),
    properties dialect table entries done = (do
      visitAll dialect table (Table.values entries)
      return plainProperties dialect entries done)
  | [], done => by simp [properties, plainProperties, Table.values]
  | (name, property) :: rest, done => by
    rw [properties, useSite_eq_of_content (content_eq property), plainProperties]
    simp only [bind_assoc, pure_bind, properties_eq rest, Table.values, List.map_cons, visitAll_cons]

theorem items_eq : ∀ items? : Option Schema, items dialect table items? = (do
      visitAll dialect table items?.toList
      return plainItems dialect items?)
  | none => by simp [items, plainItems]
  | some schema => by
    rw [items, useSite_eq_of_content (content_eq schema), plainItems]
    simp [visitAll_cons]

end

/-- A schema at a place of use is visited and then renders to its text. -/
theorem useSite_eq (site : Schema) : useSite dialect table site (content dialect table site) = (do
      visit dialect table site
      return plainUse dialect site (plainContent dialect site)) :=
  useSite_eq_of_content (content_eq site)

end ApiDoc.Export
