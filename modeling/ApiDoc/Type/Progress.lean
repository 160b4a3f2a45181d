import ApiDoc.Schema

/-! # Progress of a build

A build remembers of every entity whether its fields are still to be walked, are being walked or
were walked, and keeps the full schema of each one that is complete.
-/

namespace ApiDoc

/-- How far an entity was introspected. -/
inductive VisitState where
  | unvisited
  | inProgress
  | complete
deriving DecidableEq, Repr

/-- What a build has introspected so far. -/
structure Progress where
  states : Table String VisitState := []
  /-- The full schemas of the complete entities, in the order of their completion. -/
  definitions : Table String Schema := []

namespace Progress

def state (progress : Progress) (name : String) : VisitState :=
  (progress.states.get? name).getD .unvisited

def start (progress : Progress) (name : String) : Progress :=
  { progress with states := progress.states.insert name .inProgress }

/-- Marks an entity as complete and keeps its schema. -/
def finish (progress : Progress) (name : String) (schema : Schema) : Progress where
  states := progress.states.insert name .complete
  definitions := progress.definitions.insert name schema

/-- The full schema of a complete entity. -/
def definition? (progress : Progress) (name : String) : Option Schema :=
  progress.definitions.get? name

end Progress

/-- A computation that may introspect entities. -/
abbrev Build := StateM Progress

end ApiDoc
