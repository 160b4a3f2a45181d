import ApiDoc.Proofs.Build.Laws
import ApiDoc.Proofs.Schema.Names
import ApiDoc.Proofs.Type.Reaching

/-! # Ways without names

A nested parameter is put inside of whatever its segments lead through. If that has a canonical name,
the name no longer fits what it stands for. A body is clear along a way if nothing on the way has a
name. Placing another parameter keeps it clear, unless that parameter has a name in its type and its
own segments lead along the way (`insertNested_clearTo`).
-/

namespace ApiDoc

open Schema

/-- A declared type mentions a catalogued entity. -/
def MentionsEntity (catalog : Catalog) (declared : Option TypeToken) : Prop :=
  ∃ token, declared = some token ∧ ∃ name ∈ Table.keys catalog, token.Names name

theorem mentionsEntity_some {catalog : Catalog} {token : TypeToken} :
    MentionsEntity catalog (some token) ↔ (Task.token token).MentionsEntity catalog := by
  constructor
  · rintro ⟨_, ⟨⟩, mentions⟩
    exact mentions
  · intro mentions
    exact ⟨token, rfl, mentions⟩

def Schema.Nameless (schema : Schema) : Prop := schema.NamesIn fun _ => False

theorem Schema.Nameless.unnamed {schema : Schema} (nameless : schema.Nameless) :
    schema.canonicalName = none :=
  Option.eq_none_iff_forall_ne_some.mpr fun name named => nameless.root name named

namespace Route

variable {container leaf property holder : Schema} {path : List String} {name : String}

/-- Neither the schema nor anything that the path leads to in it has a name. The path goes through
properties and through the items of those that are arrays. -/
def ClearTo : Schema → List String → Prop
  | container, [] => container.canonicalName = none
  | container, name :: rest => container.canonicalName = none ∧
      ∀ property, Table.get? container.properties name = some property →
        ClearTo property rest ∧ ∀ items, property.items = some items → ClearTo items rest

/-- A property that a path leads through is clear, and so are its items. -/
def Through (property : Schema) (path : List String) : Prop :=
  ClearTo property path ∧ ∀ items, property.items = some items → ClearTo items path

theorem ClearTo.unnamed (clear : ClearTo container path) : container.canonicalName = none := by
  cases path with
  | nil => exact clear
  | cons => exact clear.1

/-- Whether a path is clear is up to the name and the properties of the schema. -/
theorem ClearTo.of_same {other : Schema} (clear : ClearTo container path)
    (sameName : other.canonicalName = container.canonicalName)
    (sameProperties : other.properties = container.properties) : ClearTo other path := by
  cases path with
  | nil => exact sameName.trans clear
  | cons name rest =>
    refine ⟨sameName.trans clear.1, ?_⟩
    rw [sameProperties]
    exact clear.2

theorem Through.of_same {other : Schema} (through : Through property path)
    (sameName : other.canonicalName = property.canonicalName)
    (sameProperties : other.properties = property.properties) (sameItems : other.items = property.items) :
    Through other path :=
  ⟨through.1.of_same sameName sameProperties, by rw [sameItems]; exact through.2⟩

theorem clearTo_of_nameless (nameless : container.Nameless) : ∀ path, ClearTo container path := by
  intro path
  induction path generalizing container with
  | nil => exact nameless.unnamed
  | cons name rest ih =>
    refine ⟨nameless.unnamed, fun property found => ?_⟩
    have inProperty : property.Nameless := All.properties nameless _ (Table.mem_of_get? found)
    exact ⟨ih inProperty, fun items present => ih (All.items inProperty items present)⟩

theorem through_of_nameless (nameless : property.Nameless) (path : List String) : Through property path :=
  ⟨clearTo_of_nameless nameless path,
    fun items present => clearTo_of_nameless (All.items nameless items present) path⟩

theorem asHolder_through (through : Through property path) (isArray : Bool) :
    Through (asHolder isArray property) path := by
  have object : Schema.object.Nameless := namesIn_object
  unfold asHolder
  split
  · exact through
  · split
    · exact (through_of_nameless object.array path).of_same rfl rfl rfl
    · split
      · exact through
      · exact (through_of_nameless object path).of_same rfl rfl rfl

theorem itemsHolder_clearTo (through : Through holder path) : ClearTo (itemsHolder holder) path := by
  have object : Schema.object.Nameless := namesIn_object
  unfold itemsHolder
  split
  · next items present =>
    split
    · exact through.2 items present
    · exact clearTo_of_nameless object path
  · exact clearTo_of_nameless object path

/-- Writing a property keeps a path clear that does not lead through it, or through it as well. -/
theorem ClearTo.insert {other : String} {rest : List String} (clear : ClearTo container (name :: rest))
    (required : NameSet) (through : other = name → Through property rest) :
    ClearTo { container with
      properties := Table.insert container.properties other property
      required := required } (name :: rest) := by
  refine ⟨clear.1, fun written found => ?_⟩
  rw [Table.get?_insert] at found
  split at found
  · next same =>
    cases found
    exact through same
  · exact clear.2 written found

theorem ClearTo.placeLeaf {name : String} {rest : List String} (clear : ClearTo container (name :: rest))
    (segment : NameSegment) (required : Bool)
    (placed : segment.name = name → Through (leaf.arrayIf segment.isArray) rest) :
    ClearTo (placeLeaf container segment leaf required) (name :: rest) := by
  unfold Route.placeLeaf
  dsimp only
  split
  · next existing found =>
    split
    · refine clear.insert _ fun same => ?_
      have through : Through existing rest := clear.2 existing (same ▸ found)
      exact through.of_same rfl rfl rfl
    · exact clear.insert _ placed
  · exact clear.insert _ placed

theorem ClearTo.through_getD {segment name : String} {rest : List String}
    (clear : ClearTo container (name :: rest)) (same : segment = name) :
    Through ((Table.get? container.properties segment).getD .object) rest := by
  cases found : Table.get? container.properties segment with
  | none => exact through_of_nameless namesIn_object rest
  | some property => exact clear.2 property (same ▸ found)

/-- Placing a parameter keeps a path clear if the parameter has no names, or if its segments do not
lead along the path. -/
theorem insertNested_clearTo (segments : List NameSegment) (required : Bool)
    (clear : ClearTo container path)
    (apart : leaf.Nameless ∨ ¬(segments.map (·.name)) <+: path) :
    ClearTo (insertNested container segments leaf required) path := by
  induction segments generalizing container path with
  | nil => exact clear
  | cons segment segments ih =>
    cases path with
    | nil =>
      obtain ⟨properties, names, same⟩ := insertNested_frame container (segment :: segments) leaf required
      rw [same]
      exact clear
    | cons name rest =>
      have apartBelow : segment.name = name → leaf.Nameless ∨ ¬(segments.map (·.name)) <+: rest := by
        rintro rfl
        refine apart.imp_right fun elsewhere below => elsewhere ?_
        exact (List.cons_prefix_cons).mpr ⟨rfl, below⟩
      cases segments with
      | nil =>
        refine clear.placeLeaf segment required fun same => ?_
        rcases apartBelow same with nameless | elsewhere
        · exact through_of_nameless (NamesIn.arrayIf nameless _) rest
        · exact absurd List.nil_prefix elsewhere
      | cons next more =>
        rw [insertNested]
        refine clear.insert container.required fun same => ?_
        have holder := asHolder_through (clear.through_getD same) segment.isArray
        split
        · refine ⟨holder.1.of_same rfl rfl, fun items present => ?_⟩
          cases present
          exact ih (itemsHolder_clearTo holder) (apartBelow same)
        · refine ⟨ih holder.1 (apartBelow same), fun items present => ?_⟩
          obtain ⟨properties, names, frame⟩ := insertNested_frame
            (asHolder segment.isArray ((Table.get? container.properties segment.name).getD .object))
            (next :: more) leaf required
          rw [frame] at present
          exact holder.2 items present

end Route

end ApiDoc
