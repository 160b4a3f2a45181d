import ApiDoc.Operation

/-! # Described interfaces

The description of a whole interface before it is put into a document of some version. Paths stand
in the order of their first mention and hold at most one operation for each method.
-/

namespace ApiDoc

/-- A tag with its description. -/
structure Tag where
  name : String
  description : Option String := none
deriving DecidableEq, Repr

/-- A path template and its operations. -/
structure PathItem where
  template : String
  operations : Table Method Operation := []
deriving Inhabited

/-- The description of an interface. -/
structure Api where
  title : String
  version : String
  description : Option String := none
  host : Option String := none
  basePath : Option String := none
  schemes : List String := []
  tags : List Tag := []
  paths : List PathItem := []
  /-- Security schemes, which documents show as they are. -/
  securitySchemes : Table String Json := []
  /-- The schemas of named types under their canonical names. -/
  definitions : Table String Schema := []
deriving Inhabited

namespace Api

def path? (api : Api) (template : String) : Option PathItem :=
  api.paths.find? (·.template == template)

/-- Applies `change` to the item of a path, adding an empty one at the end if there is none. -/
def modifyPathIn (template : String) (change : PathItem → PathItem) :
    List PathItem → List PathItem
  | [] => [change { template }]
  | item :: rest =>
    if item.template = template then change item :: rest
    else item :: modifyPathIn template change rest

/-- Applies `change` to the item of a path, adding an empty one at the end if there is none. -/
def modifyPath (api : Api) (template : String) (change : PathItem → PathItem) : Api :=
  { api with paths := modifyPathIn template change api.paths }

/-- Puts an operation on a path, in the place of an earlier one for its method. -/
def putOperation (api : Api) (template : String) (operation : Operation) : Api :=
  api.modifyPath template fun item =>
    { item with operations := Table.insert item.operations operation.method operation }

def operations (api : Api) : List Operation := api.paths.flatMap fun item => item.operations.values

end Api

end ApiDoc
