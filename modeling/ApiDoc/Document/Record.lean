import ApiDoc.Document

/-! # Records with known fields

A record is taken apart by the names of its fields, some of which have a second spelling. A field
given twice, under whatever spellings, is a misfit; entries that are no field are kept apart. Some
records may also be written as a list of their fields in order, the last ones left out, where the
notation of the document allows it.
-/

namespace ApiDoc.Document

/-- The name of a field and its second spelling. -/
structure FieldName where
  name : String
  other : Option String := none

def FieldName.spelled (field : FieldName) (key : String) : Bool :=
  field.name == key || field.other == some key

instance : Coe String FieldName := ⟨fun name => { name }⟩

/-- A record taken apart. -/
structure Parts where
  /-- The given fields under their names. -/
  known : Table String Document := []
  /-- The entries that are no field, in order. -/
  others : List (String × Document) := []

namespace Parts

/-- Adds an entry; none if its field was given before. -/
def add? (fields : List FieldName) (parts : Parts) (key : String) (value : Document) :
    Option Parts :=
  match fields.find? (·.spelled key) with
  | none => some { parts with others := parts.others ++ [(key, value)] }
  | some field =>
    if parts.known.contains field.name then none
    else some { parts with known := parts.known.insert field.name value }

def ofEntries? (fields : List FieldName) (entries : List (Document × Document)) : Option Parts :=
  entries.foldlM (fun parts (key, value) => do add? fields parts (← key.string?) value) {}

/-- Takes a list of fields apart; none if there are more items than fields. -/
def ofItems? (fields : List FieldName) (items : List Document) : Option Parts :=
  if items.length ≤ fields.length then
    some { known := (fields.map FieldName.name).zip items }
  else none

def required? {α : Type} (parts : Parts) (name : String) (read? : Document → Option α) :
    Option α :=
  (parts.known.get? name).bind read?

def orDefault? {α : Type} (parts : Parts) (name : String) (default : α)
    (read? : Document → Option α) : Option α :=
  match parts.known.get? name with
  | some document => read? document
  | none => some default

/-- A field that may be missing or null. -/
def optional? {α : Type} (parts : Parts) (name : String) (read? : Document → Option α) :
    Option (Option α) :=
  parts.orDefault? name none (Document.optional? read?)

/-- The entries that are no field, as free values. -/
def extra? (parts : Parts) : Option (Table String Json) := do
  let entries ← parts.others.mapM fun (key, value) => do some (key, ← value.asideValue?)
  some (Table.ofEntries entries)

end Parts

def record? (fields : List FieldName) (document : Document) : Option Parts := do
  Parts.ofEntries? fields (← document.entries?)

/-- Takes a record apart, which may be written as a positional list. -/
def recordOrList? (fields : List FieldName) (document : Document) : Option Parts :=
  match document with
  | list items true => Parts.ofItems? fields items
  | document => document.record? fields

mutual

def height : Document → Nat
  | list items _ => heightItems items + 1
  | record entries => heightEntries entries + 1
  | _ => 0

def heightItems : List Document → Nat
  | [] => 0
  | item :: rest => max (height item) (heightItems rest)

def heightEntries : List (Document × Document) → Nat
  | [] => 0
  | (_, value) :: rest => max (height value) (heightEntries rest)

end

end ApiDoc.Document
