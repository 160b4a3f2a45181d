import ApiDoc.Proofs.Build.Placing
import ApiDoc.Proofs.Export.References
import ApiDoc.Proofs.Type.Sessions

/-! # The extensions of introspected schemas

Extensions come into a schema with the documentation of a field only, which keeps those under keys that
start with `x-`. So whatever introspection answers and defines is marked (`Introspects.marked`), and
stays so wherever routes put it (`marked_objectLaw`).
-/

namespace ApiDoc

open Schema

theorem startsWith_extension {key : String} :
    key.startsWith "x-" = true ↔ ∃ rest, key = "x-" ++ rest := by
  rw [String.startsWith_string_iff]
  constructor
  · rintro ⟨rest, same⟩
    exact ⟨String.ofList rest, String.toList_injective (by simpa using same.symm)⟩
  · rintro ⟨rest, rfl⟩
    exact ⟨rest.toList, String.toList_append.symm⟩

variable {catalog : Catalog} {task : Task} {progress next : Progress} {history : List VisitEvent}
  {answer schema : Schema} {field : Field}

theorem marked_iff_face : (∀ key ∈ Table.keys schema.extensions, ∃ rest, key = "x-" ++ rest) ↔
    schema.face.marked = true := by
  simp only [face, List.all_eq_true, startsWith_extension]

/-- Nothing that is done to a node brings in an extension under another key. -/
theorem marked_objectLaw :
    ObjectLaw fun node => ∀ key ∈ Table.keys node.extensions, ∃ rest, key = "x-" ++ rest where
  superficial first second same here :=
    marked_iff_face.mpr ((congrArg Face.marked same).symm.trans (marked_iff_face.mp here))
  plain schema type same _ := marked_iff_face.mpr (congrArg Face.marked same)
  array items := fun key member => (by cases member)
  receives _ here _ _ _ _ _ := here
  withItems _ _ here _ := here

def Task.Marked : Task → Prop
  | .entity _ | .token _ => True
  | .variants _ done => ∀ schema ∈ done, schema.Marked
  | .field _ target | .fields _ target => target.Marked

theorem Field.source?_marked (found : field.source? = some task) : task.Marked := by
  rcases source?_cases found with ⟨name, rfl⟩ | ⟨token, -, rfl⟩ | rfl
  · trivial
  · trivial
  · exact marked_objectLaw.object

theorem Field.spliced?_marked (found : field.spliced? catalog = some task) : task.Marked := by
  rcases spliced?_cases found with ⟨name, rfl⟩ | rfl
  · trivial
  · exact marked_objectLaw.object

theorem Field.addBase_marked {base target : Schema} (inBase : base.Marked) (inTarget : target.Marked) :
    (field.addBase base target).Marked :=
  All.addField marked_objectLaw.superficial (All.arrayIf marked_objectLaw.toNodeLaw inBase _) inTarget
    field fun _ _ => inTarget.root

theorem Schema.Marked.mergeProperties {other : Schema} (marked : schema.Marked) (inOther : other.Marked) :
    (schema.mergeProperties other).Marked :=
  All.mergeProperties marked inOther marked.root

def Progress.Marked (progress : Progress) : Prop := ∀ entry ∈ progress.definitions, entry.2.Marked

/-- A task is answered with a marked schema, and all definitions stay marked. -/
theorem Introspects.marked (derived : Introspects catalog task progress history answer next)
    (definitions : progress.Marked) (marked : task.Marked) : answer.Marked ∧ next.Marked := by
  -- Merge fields copy from definitions, so these are carried through the derivation.
  induction derived with
  | stub => exact ⟨all_of_leaf (by simp [Schema.reference, Table.keys]) rfl rfl rfl, definitions⟩
  | plain => exact ⟨marked_objectLaw.primitive _, definitions⟩
  | @walk _ _ name _ _ _ _ _ _ ih =>
    have fresh : (namedObject name).Marked :=
      all_of_leaf (by simp [namedObject, Schema.object, Table.keys]) rfl rfl rfl
    obtain ⟨here, behind⟩ := ih definitions fresh
    refine ⟨here, fun entry member => ?_⟩
    rcases Table.mem_of_mem_insert member with rfl | member
    · exact here
    · exact behind entry member
  | named _ ih => exact ih definitions trivial
  | array _ ih =>
    obtain ⟨here, behind⟩ := ih definitions trivial
    exact ⟨All.array marked_objectLaw.toNodeLaw here, behind⟩
  | oneOf _ ih => exact ih definitions (fun schema member => by cases member)
  | noVariants =>
    exact ⟨All.ofVariants (by simp [Schema.ofVariants, Table.keys]) marked, definitions⟩
  | variant _ _ early late =>
    obtain ⟨here, between⟩ := early definitions trivial
    refine late between fun schema member => ?_
    rcases List.mem_append.mp member with old | new
    · exact marked schema old
    · exact List.mem_singleton.mp new ▸ here
  | noFields | skipped => exact ⟨marked, definitions⟩
  | oneField _ _ early late =>
    obtain ⟨here, between⟩ := early definitions marked
    exact late between here
  | copied _ _ found =>
    exact ⟨marked.mergeProperties (definitions _ (Table.mem_of_get? found)), definitions⟩
  | merged found _ _ ih =>
    obtain ⟨here, behind⟩ := ih definitions (Field.spliced?_marked found)
    exact ⟨Schema.Marked.mergeProperties marked here, behind⟩
  | property _ found _ ih =>
    obtain ⟨here, behind⟩ := ih definitions (Field.source?_marked found)
    exact ⟨Field.addBase_marked here marked, behind⟩
  | untyped => exact ⟨Field.addBase_marked marked_objectLaw.string marked, definitions⟩

/-- A sequence of calls is answered with marked schemas, and all definitions stay marked. -/
theorem Session.marked {calls : List Call} {answers : List Schema}
    (session : Session catalog calls progress history answers next) (definitions : progress.Marked) :
    (∀ answer ∈ answers, answer.Marked) ∧ next.Marked := by
  induction session with
  | nil => exact ⟨fun answer member => (by cases member), definitions⟩
  | @cons call _ _ _ _ _ _ _ _ derived _ ih =>
    have adds : call.task.Marked := by cases call <;> trivial
    obtain ⟨here, between⟩ := derived.marked definitions adds
    obtain ⟨others, behind⟩ := ih between
    refine ⟨fun answer member => ?_, behind⟩
    rcases List.mem_cons.mp member with rfl | member
    · exact here
    · exact others answer member

end ApiDoc
