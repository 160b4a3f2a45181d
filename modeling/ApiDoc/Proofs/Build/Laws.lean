import ApiDoc.Build
import ApiDoc.Proofs.Build.Lockstep
import ApiDoc.Proofs.Schema.Faces

/-! # Laws of the schemas of a route

A `SiteLaw` is a relation between the schemas that two builds put into the operation of one route:
resolution brings it in, and all that is done to schemas on their way hands it on. `leaf` relates
what is made from a declared type, `inside` the request bodies while nested parameters are placed
in them, and `body` the whole ones. That the nodes of a schema have a property is the law that
relates the schema to itself.
-/

namespace ApiDoc

def Route.segmentNames (name : String) : List String := (Route.splitNested name).map (·.name)

def RouteDescriptor.visibleParams (route : RouteDescriptor) : Table String ParamSpec :=
  route.params.filter fun entry => !entry.2.documentation.hidden

theorem RouteDescriptor.mem_visibleParams {route : RouteDescriptor} {entry : String × ParamSpec} :
    entry ∈ route.visibleParams ↔ entry ∈ route.params ∧ entry.2.documentation.hidden = false := by
  simp [visibleParams]

/-- A relation of schemas that resolution brings in and that hands itself on where a declared type is
made the schema of a parameter, of a header or of an answer. -/
structure LeafLaw (answers : TypeToken → Schema → Schema → Prop)
    (leaf : Option TypeToken → Schema → Schema → Prop) : Prop where
  answered : ∀ {token first second}, answers token first second → leaf (some token) first second
  string : leaf none .string .string
  arrayIf : ∀ {declared first second} wanted, leaf declared first second →
    leaf declared (first.arrayIf wanted) (second.arrayIf wanted)
  restrict : ∀ {declared first second} values, leaf declared first second →
    leaf declared (first.restrict values) (second.restrict values)
  defaulted : ∀ {declared first second} (value? : Option Json), leaf declared first second →
    leaf declared { first with defaultValue := value?.or first.defaultValue }
      { second with defaultValue := value?.or second.defaultValue }
  describe : ∀ {declared first second} description, leaf declared first second →
    leaf declared (first.describe description) (second.describe description)
  file : ∀ {declared first second}, leaf declared first second →
    first.isType .file = second.isType .file

/-- A relation of schemas that also hands itself on where parameters are put into the request body of
a route. `inside` also speaks of the nested parameters that were placed in the body, and a
parameter may be placed with the schema of another one whose segments have the same names. -/
structure SiteLaw (route : RouteDescriptor) (answers : TypeToken → Schema → Schema → Prop)
    (leaf : Option TypeToken → Schema → Schema → Prop)
    (inside : Table String ParamSpec → Schema → Schema → Prop) (body : Schema → Schema → Prop) :
    Prop extends LeafLaw answers leaf where
  start : inside [] .object .object
  insertNested : ∀ {done placed source container container' first second} required,
    route.params.keys.any Route.isNested = true → inside done container container' →
    (done ++ [placed]).Sublist route.visibleParams → source ∈ route.visibleParams →
    Route.segmentNames source.1 = Route.segmentNames placed.1 → leaf source.2.type first second →
    inside (done ++ [placed])
      (Route.insertNested container (Route.splitNested placed.1) first required)
      (Route.insertNested container' (Route.splitNested placed.1) second required)
  whole : ∀ {done container container'}, inside done container container' → body container container'
  addProperty : ∀ {declared container container' first second} name required,
    body container container' → leaf declared first second →
    body (container.addProperty name first required) (container'.addProperty name second required)
  /-- Related bodies agree on what the operation says of its body. -/
  agree : ∀ {first second}, body first second →
    first.properties.isEmpty = second.properties.isEmpty ∧ hasFile first = hasFile second ∧
      first.required.isEmpty = second.required.isEmpty

/-- Both schemas are the same one, and it has the property. -/
def Itself (good : Schema → Prop) (first second : Schema) : Prop := first = second ∧ good first

/-- A property of nodes, which may depend on the declared type, is handed on from schemas to schemas
that are made from them. -/
theorem Schema.NodeLaw.leafLaw {holds : Option TypeToken → Schema → Prop}
    (law : ∀ declared, NodeLaw (holds declared)) :
    LeafLaw (fun token => Itself (Schema.All (holds (some token))))
      (fun declared => Itself (Schema.All (holds declared))) where
  answered here := here
  string := ⟨rfl, (law none).string⟩
  arrayIf := by rintro _ _ _ wanted ⟨rfl, here⟩; exact ⟨rfl, here.arrayIf (law _) wanted⟩
  restrict := by rintro _ _ _ values ⟨rfl, here⟩; exact ⟨rfl, here.restrict (law _).superficial values⟩
  defaulted := by
    rintro _ _ _ value? ⟨rfl, here⟩
    exact ⟨rfl, here.of_face (law _).superficial rfl rfl rfl rfl⟩
  describe := by
    rintro _ _ _ description ⟨rfl, here⟩
    exact ⟨rfl, here.describe (law _).superficial description⟩
  file := by rintro _ _ _ ⟨rfl, -⟩; rfl

/-- Putting a parameter inside a schema leaves everything but its properties and what is required as
it is. -/
theorem Route.insertNested_frame (container : Schema) (segments : List NameSegment) (leaf : Schema)
    (required : Bool) : ∃ properties names, insertNested container segments leaf required =
      { container with properties := properties, required := names } := by
  unfold insertNested
  split
  · exact ⟨container.properties, container.required, by cases container; rfl⟩
  · unfold placeLeaf
    dsimp only
    split
    · split
      · exact ⟨_, _, rfl⟩
      · exact ⟨_, _, rfl⟩
    · exact ⟨_, _, rfl⟩
  · exact ⟨_, _, rfl⟩

end ApiDoc
