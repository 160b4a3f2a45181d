import ApiDoc.Entity
import ApiDoc.Operation

/-! # Routes

A route as whatever scanned the host application hands it over: path, method, declared parameters
and headers, and what it answers.
-/

namespace ApiDoc

/-- What is documented of a parameter. -/
structure ParamDocumentation where
  /-- The declared location. -/
  location : Option String := none
  hidden : Bool := false
  collectionFormat : Option String := none
  description : Option String := none
  exampleValue : Option Json := none
  /-- All other entries; those with `x-` keys are vendor extensions. -/
  extra : Table String Json := []
deriving Inhabited

/-- A declared parameter. -/
structure ParamSpec where
  type : Option TypeToken := none
  required : Option Bool := none
  summary : Option String := none
  defaultValue : Option Json := none
  values : List Json := []
  documentation : ParamDocumentation := {}
deriving Inhabited

namespace ParamSpec

def typed (type : String) : ParamSpec := { type := some (.parse type) }

def located (spec : ParamSpec) (location : String) : ParamSpec :=
  { spec with documentation := { spec.documentation with location := some location } }

def hide (spec : ParamSpec) : ParamSpec :=
  { spec with documentation := { spec.documentation with hidden := true } }

def collected (spec : ParamSpec) (format : String) : ParamSpec :=
  { spec with documentation := { spec.documentation with collectionFormat := some format } }

/-- The description of a parameter: its own, otherwise the documented one. -/
def description (spec : ParamSpec) : Option String :=
  spec.summary.or spec.documentation.description

/-- Whether a parameter is declared as a form field. -/
def isForm (spec : ParamSpec) : Bool :=
  match spec.documentation.location with
  | some hint => Location.isForm hint
  | none => false

def isRequired (spec : ParamSpec) : Bool := spec.required.getD false

end ParamSpec

/-- A declared request or response header. -/
structure HeaderSpec where
  description : Option String := none
  type : Option TypeToken := none
  required : Bool := false
deriving Inhabited

/-- A declared response. -/
structure ResponseSpec where
  code : String
  message : Option String := none
  model : Option TypeToken := none
  isArray : Bool := false
  headers : Table String HeaderSpec := []
  examples : Option Json := none
  /-- All other entries; those with `x-` keys are vendor extensions. -/
  extra : Table String Json := []
deriving Inhabited

/-- A declared route. -/
structure RouteDescriptor where
  path : String
  method : Method
  params : Table String ParamSpec := []
  headers : Table String HeaderSpec := []
  /-- The type of what a success answers. -/
  entity : Option TypeToken := none
  isArray : Bool := false
  defaultStatus : Option Nat := none
  successMessage : Option String := none
  responses : List ResponseSpec := []
  summary : Option String := none
  description : Option String := none
  bodyDescription : Option String := none
  tags : List String := []
  deprecated : Bool := false
  hidden : Bool := false
  security : List SecurityRequirement := []
  operationId : Option String := none
  consumes : List String := []
  produces : List String := []
  /-- All other entries; those with `x-` keys are vendor extensions. -/
  extra : Table String Json := []
deriving Inhabited

namespace RouteDescriptor

/-- The route with a parameter, in the place of an earlier one of its name. -/
def withParam (route : RouteDescriptor) (name : String) (spec : ParamSpec) : RouteDescriptor :=
  { route with params := route.params.insert name spec }

def withResponse (route : RouteDescriptor) (response : ResponseSpec) : RouteDescriptor :=
  { route with responses := route.responses ++ [response] }

def extensions (route : RouteDescriptor) : Table String Json := vendorExtensions route.extra

/-- Whether a visible parameter is declared as a form field. -/
def declaresForm (route : RouteDescriptor) : Bool :=
  route.params.values.any fun spec => !spec.documentation.hidden && spec.isForm

end RouteDescriptor

end ApiDoc
