import ApiDoc.Proofs.Schema.Faces
import ApiDoc.Proofs.Type.Sessions

/-! # Named nodes say what their definitions say

A schema that is not a stub may still carry a canonical name: introspection answers the full schema
of an entity on the first visit, and copies of it stand in arrays, in the properties of other
entities and in what merge fields take over. Each such node says the same of its value as the
definition of its name (`Introspects.faithful`). While an entity is walked its schema is still
growing and has no definition; that is the schema the walk adds fields to, and it is part of no other.
-/

namespace ApiDoc

open Schema

variable {catalog : Catalog} {task : Task} {progress next : Progress} {history : List VisitEvent}
  {answer node : Schema} {definitions more : Table String Schema} {field : Field}

/-- A named node that is no stub has the type, the properties in their order and the required names of
the definition of its name. -/
def Schema.FaithfulTo (definitions : Table String Schema) (node : Schema) : Prop :=
  ∀ name, node.canonicalName = some name → node.isStub = false →
    ∃ definition, definitions.get? name = some definition ∧ node.type = definition.type ∧
      Table.keys node.properties = Table.keys definition.properties ∧
        node.required = definition.required

theorem faithful_of_unnamed (unnamed : node.canonicalName = none) : node.FaithfulTo definitions := by
  intro name named
  simp [unnamed] at named

theorem faithful_of_stub (stub : node.isStub = true) : node.FaithfulTo definitions := by
  intro name _ full
  simp [stub] at full

theorem Schema.FaithfulTo.later (grown : definitions <+: more) (here : node.FaithfulTo definitions) :
    node.FaithfulTo more := by
  intro name named full
  obtain ⟨definition, found, same⟩ := here name named full
  exact ⟨definition, Table.get?_of_prefix grown found, same⟩

theorem faithful_law (definitions : Table String Schema) : NodeLaw (FaithfulTo definitions) where
  superficial first second same here name named full := by
    have sameStub : first.isStub = second.isStub := by
      rw [Bool.eq_iff_iff, isStub_iff, isStub_iff, same]
    have sameName : first.canonicalName = second.canonicalName := congrArg Face.canonicalName same
    have sameType : first.type = second.type := congrArg Face.type same
    have sameKeys : Table.keys first.properties = Table.keys second.properties :=
      congrArg Face.properties same
    have sameRequired : first.required = second.required := congrArg Face.required same
    rw [← sameType, ← sameKeys, ← sameRequired]
    exact here name (sameName.trans named) (sameStub.trans full)
  plain schema type same _ := faithful_of_unnamed (congrArg Face.canonicalName same)
  array items := faithful_of_unnamed rfl

/-- All named nodes in definitions are faithful to the definitions. -/
def Progress.Faithful (progress : Progress) : Prop :=
  ∀ entry ∈ progress.definitions, entry.2.All (FaithfulTo progress.definitions)

/-- What a task adds to has faithful parts. -/
def Task.Faithful (definitions : Table String Schema) : Task → Prop
  | .entity _ | .token _ => True
  | .variants _ done => ∀ schema ∈ done, schema.All (FaithfulTo definitions)
  | .field _ target | .fields _ target => target.Below (FaithfulTo definitions)

/-- What a task answers is faithful; where it adds fields, below the schema it adds them to. -/
def Task.FaithfulAnswer (definitions : Table String Schema) (answer : Schema) : Task → Prop
  | .entity _ | .token _ | .variants _ _ => answer.All (FaithfulTo definitions)
  | .field _ _ | .fields _ _ => answer.Below (FaithfulTo definitions)

theorem Task.FaithfulAnswer.below (here : task.FaithfulAnswer definitions answer) :
    answer.Below (FaithfulTo definitions) := by
  cases task with
  | entity | token | variants => exact All.below here
  | field | fields => exact here

theorem Field.spliced?_faithful (found : field.spliced? catalog = some task) :
    task.Faithful definitions := by
  rcases spliced?_cases found with ⟨name, rfl⟩ | rfl
  · trivial
  · exact (faithful_law definitions).object.below

theorem Field.source?_faithful (found : field.source? = some task) : task.Faithful definitions := by
  rcases source?_cases found with ⟨name, rfl⟩ | ⟨token, -, rfl⟩ | rfl
  · trivial
  · trivial
  · exact (faithful_law definitions).object.below

/-- What a property is made from is faithful as a whole: it is an answer, or an object without a
name. -/
theorem Introspects.all_of_source (found : field.source? = some task)
    (derived : Introspects catalog task progress history answer next)
    (here : task.FaithfulAnswer definitions answer) : answer.All (FaithfulTo definitions) := by
  rcases Field.source?_cases found with ⟨name, rfl⟩ | ⟨token, -, rfl⟩ | rfl
  · exact here
  · exact here
  · exact Below.all here (faithful_of_unnamed derived.frame.2.1)

/-- The whole schema of an entity is faithful once it is defined. The node at its top is the one node that no
earlier definition backs. -/
theorem Introspects.all_of_walk {name : String} {fields : List Field}
    (inner : Introspects catalog (.fields fields (.namedObject name)) progress history answer next)
    (grown : next.definitions <+: (next.finish name answer).definitions)
    (here : answer.Below (FaithfulTo next.definitions)) :
    answer.All (FaithfulTo (next.finish name answer).definitions) := by
  refine (Below.imp (fun _ => FaithfulTo.later grown) here).all fun other same _ => ?_
  obtain rfl : name = other := Option.some.inj (inner.frame.2.1.symm.trans same)
  exact ⟨answer, by simp [Table.get?_insert], rfl, rfl, rfl⟩

/-- Tasks answer with faithful schemas, and the definitions stay faithful to themselves. -/
theorem Introspects.faithful (derived : Introspects catalog task progress history answer next)
    (coherent : progress.Coherent catalog) (definitions : progress.Faithful)
    (parts : task.Faithful progress.definitions) :
    task.FaithfulAnswer next.definitions answer ∧ next.Faithful := by
  induction derived with
  | stub => exact ⟨all_of_leaf (faithful_of_stub rfl) rfl rfl rfl, definitions⟩
  | plain => exact ⟨(faithful_law _).primitive _, definitions⟩
  | @walk progress next name entity _ schema fresh listed inner ih =>
    have begins := coherent.start fresh (Table.mem_keys_of_get? listed)
    obtain ⟨here, behind⟩ := ih begins definitions (below_of_leaf rfl rfl rfl)
    have ends := coherent_of_run inner.run begins
    have grown : next.definitions <+: (next.finish name schema).definitions :=
      definitions_prefix_of_run (.single inner.finish) ends
    have whole := inner.all_of_walk grown here
    refine ⟨whole, fun entry member => ?_⟩
    rcases Table.mem_of_mem_insert member with rfl | member
    · exact whole
    · exact (behind entry member).imp fun _ => FaithfulTo.later grown
  | named _ ih => exact ih coherent definitions trivial
  | array _ ih =>
    obtain ⟨here, behind⟩ := ih coherent definitions trivial
    exact ⟨All.array (faithful_law _) here, behind⟩
  | oneOf _ ih => exact ih coherent definitions fun schema member => by cases member
  | noVariants => exact ⟨All.ofVariants (faithful_of_unnamed rfl) parts, definitions⟩
  | variant first _ early late =>
    obtain ⟨here, between⟩ := early coherent definitions trivial
    refine late (coherent_of_run first.run coherent) between fun schema member => ?_
    have grown := definitions_prefix_of_run first.run coherent
    rcases List.mem_append.mp member with member | member
    · exact (parts schema member).imp fun _ => FaithfulTo.later grown
    · exact List.mem_singleton.mp member ▸ here
  | noFields => exact ⟨parts, definitions⟩
  | oneField first _ early late =>
    obtain ⟨here, between⟩ := early coherent definitions parts
    exact late (coherent_of_run first.run coherent) between here
  | skipped => exact ⟨parts, definitions⟩
  | copied _ _ found =>
    have copy := (definitions _ (Table.mem_of_get? found)).below
    exact ⟨Below.mergeProperties parts copy, definitions⟩
  | merged found _ inner ih =>
    obtain ⟨here, behind⟩ := ih coherent definitions (Field.spliced?_faithful found)
    have grown := definitions_prefix_of_run inner.run coherent
    exact ⟨Below.mergeProperties (Below.imp (fun _ => FaithfulTo.later grown) parts) here.below, behind⟩
  | property _ found inner ih =>
    obtain ⟨here, behind⟩ := ih coherent definitions (Field.source?_faithful found)
    have grown := definitions_prefix_of_run inner.run coherent
    have base := (inner.all_of_source found here).arrayIf (faithful_law _)
    exact ⟨Below.addField (faithful_law _).superficial (base _)
      (Below.imp (fun _ => FaithfulTo.later grown) parts) _, behind⟩
  | untyped =>
    refine ⟨Below.addField (faithful_law _).superficial ?_ parts _, definitions⟩
    exact All.arrayIf (faithful_law _) (faithful_law _).string _

/-- A sequence of calls answers with schemas that are faithful to the definitions behind it. -/
theorem Session.faithful {calls : List Call} {answers : List Schema}
    (session : Session catalog calls progress history answers next)
    (coherent : progress.Coherent catalog) (definitions : progress.Faithful) :
    (∀ answer ∈ answers, answer.All (FaithfulTo next.definitions)) ∧ next.Faithful := by
  induction session with
  | nil => exact ⟨fun answer member => (by cases member), definitions⟩
  | @cons call _ progress middle next _ _ _ _ derived rest ih =>
    have parts : call.task.Faithful progress.definitions := by cases call <;> trivial
    obtain ⟨here, between⟩ := derived.faithful coherent definitions parts
    have behind := coherent_of_run derived.run coherent
    obtain ⟨others, last⟩ := ih behind between
    refine ⟨fun other member => ?_, last⟩
    rcases List.mem_cons.mp member with rfl | member
    · have whole : other.All (FaithfulTo middle.definitions) := by cases call <;> exact here
      exact whole.imp fun _ => FaithfulTo.later (definitions_prefix_of_run rest.run behind)
    · exact others other member

end ApiDoc
