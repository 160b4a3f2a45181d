import ApiDoc.Build
import ApiDoc.Export.Exporters
import ApiDoc.Export.Rendering
import ApiDoc.Manifest

/-! # Generators

A generator holds what all runs share: the resolver chain, the registered versions, the entities
and the configuration. Routes go in, and a document of a version comes out.
-/

namespace ApiDoc

/-- Why no document was generated. -/
inductive GenerateError where
  | config (error : ConfigError)
  | document (error : ExportError)
deriving DecidableEq, Repr

namespace GenerateError

/-- What a generation error says, on its own. -/
def message : GenerateError → String
  | config error => "configuration error: " ++ error.message
  | document error => "export error: " ++ error.message

def causeMessage : GenerateError → String
  | config error => error.message
  | document error => error.message

end GenerateError

/-- What all runs share. -/
structure Generator where
  chain : Chain := Chain.builtIn
  exporters : Exporters := Exporters.builtIn
  catalog : Catalog := []
  config : Config := {}

namespace Generator

/-- What type names mean to the generator. -/
def lexicon (generator : Generator) : Lexicon := ⟨generator.chain, generator.catalog⟩

/-- Takes over the entities of a manifest, which keeps its routes. -/
def registerEntities (generator : Generator) (manifest : Manifest) : Generator × Manifest :=
  ({ generator with catalog := generator.catalog.registerAll manifest.entities },
    { manifest with entities := [] })

def buildApi (generator : Generator) (routes : List RouteDescriptor) : Api :=
  ApiDoc.buildApi generator.config generator.lexicon routes

def dialect? (generator : Generator) (version : String) : Except GenerateError Dialect :=
  (generator.exporters.dialect? version).mapError .config

def exportApi (generator : Generator) (api : Api) (version : String) :
    Except GenerateError Json := do
  let dialect ← generator.dialect? version
  (Export.document dialect api).mapError .document

def generate (generator : Generator) (routes : List RouteDescriptor) (version : String) :
    Except GenerateError Json := do
  generator.exportApi (generator.buildApi routes) version

end Generator

end ApiDoc
