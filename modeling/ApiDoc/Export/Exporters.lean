import ApiDoc.Export.Dialect
import ApiDoc.Text.Blank
import ApiDoc.Type.Chain

/-! # Registered versions

A document is asked for by a version tag. Tags are compared without blanks around them and in
small letters; several tags may stand for one dialect.
-/

namespace ApiDoc

/-- Dialects under their version tags. -/
abbrev Exporters := Table String Dialect

namespace Exporters

/-- The form in which version tags are compared. -/
def tagKey (version : String) : String := Text.asciiLower (Text.trimmed version)

def register (exporters : Exporters) (dialect : Dialect) (versions : List String) : Exporters :=
  versions.foldl (fun table version => table.insert (tagKey version) dialect) exporters

def builtIn : Exporters :=
  let table := register [] .v20 ["2.0", "2", "swagger"]
  let table := register table .v30 ["3.0", "3"]
  register table .v31 ["3.1"]

/-- Takes a tag away; answers the dialect it stood for. -/
def unregister (exporters : Exporters) (version : String) : Option Dialect × Exporters :=
  (exporters.get? (tagKey version), exporters.erase (tagKey version))

def dialect? (exporters : Exporters) (version : String) : Except ConfigError Dialect :=
  match exporters.get? (tagKey version) with
  | some dialect => .ok dialect
  | none => .error (.noExporter version)

def isRegistered (exporters : Exporters) (version : String) : Bool :=
  exporters.contains (tagKey version)

def versions (exporters : Exporters) : List String := exporters.keys

end Exporters

end ApiDoc
