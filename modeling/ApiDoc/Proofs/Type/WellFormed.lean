import ApiDoc.Proofs.Schema.WellFormed
import ApiDoc.Proofs.Type.Sessions
import ApiDoc.Proofs.Type.Tokens

/-! # Introspection answers well-formed schemas

If alternatives are several wherever a declared type has them, all that introspection answers and
all definitions it makes are well formed (`Introspects.wellFormed`), whatever was visited before.
-/

namespace ApiDoc

open Schema

variable {catalog : Catalog} {task : Task} {progress next : Progress} {history : List VisitEvent}
  {answer : Schema} {field : Field}

/-- Wherever the field declares alternatives, they are several. -/
def Field.Branching (field : Field) : Prop := ∀ token, field.Declares token → token.Branching

theorem Field.Branching.nested (branching : field.Branching) :
    ∀ inner ∈ field.nested, inner.Branching :=
  fun _ member token declares => branching token (.nested member declares)

/-- Wherever a field of the catalog declares alternatives, they are several. -/
def Catalog.Branching (catalog : Catalog) : Prop :=
  ∀ entry ∈ catalog, ∀ field ∈ entry.2.fields, field.Branching

/-- A task has several alternatives wherever it has any, and adds to well-formed schemas only. -/
def Task.WellFormed : Task → Prop
  | .entity _ => True
  | .token other => other.Branching
  | .variants tokens done => (∀ token ∈ tokens, token.Branching) ∧
      (∀ schema ∈ done, schema.WellFormed) ∧ 2 ≤ done.length + tokens.length
  | .field other target => other.Branching ∧ target.WellFormed ∧ target.type = some .object
  | .fields others target => (∀ other ∈ others, other.Branching) ∧ target.WellFormed ∧
      target.type = some .object

theorem Field.spliced?_wellFormed (branching : field.Branching)
    (found : field.spliced? catalog = some task) : task.WellFormed := by
  rcases spliced?_cases found with ⟨name, rfl⟩ | rfl
  · trivial
  · exact ⟨branching.nested, consistent_law.object, rfl⟩

theorem Field.source?_wellFormed (branching : field.Branching) (found : field.source? = some task) :
    task.WellFormed := by
  rcases source?_cases found with ⟨name, rfl⟩ | ⟨token, declared, rfl⟩ | rfl
  · trivial
  · exact branching token (.own declared)
  · exact ⟨branching.nested, consistent_law.object, rfl⟩

def Progress.WellFormed (progress : Progress) : Prop :=
  ∀ entry ∈ progress.definitions, entry.2.WellFormed

theorem Progress.WellFormed.finish {name : String} (definitions : progress.WellFormed)
    (here : answer.WellFormed) : (progress.finish name answer).WellFormed := by
  intro entry member
  rcases Table.mem_of_mem_insert member with rfl | member
  · exact here
  · exact definitions entry member

/-- Behind the first alternative the others have several alternatives, with the answer among them. -/
theorem Task.WellFormed.moreVariants {first : TypeToken} {rest : List TypeToken} {done : List Schema}
    (formed : (Task.variants (first :: rest) done).WellFormed) (here : answer.WellFormed) :
    (Task.variants rest (done ++ [answer])).WellFormed := by
  obtain ⟨tokens, done, several⟩ := formed
  refine ⟨fun token member => tokens token (List.mem_cons_of_mem _ member), ?_, ?_⟩
  · intro schema member
    rcases List.mem_append.mp member with member | member
    · exact done schema member
    · exact List.mem_singleton.mp member ▸ here
  · simp only [List.length_append, List.length_cons, List.length_nil] at several ⊢
    omega

/-- A task is answered with a well-formed schema, and all definitions stay well formed. -/
theorem Introspects.wellFormed (branching : catalog.Branching)
    (derived : Introspects catalog task progress history answer next)
    (definitions : progress.WellFormed) (formed : task.WellFormed) :
    answer.WellFormed ∧ next.WellFormed := by
  induction derived with
  | stub => exact ⟨wellFormed_reference _, definitions⟩
  | plain => exact ⟨consistent_law.primitive _, definitions⟩
  | walk _ listed _ ih =>
    have declared := branching _ (Table.mem_of_get? listed)
    obtain ⟨here, behind⟩ := ih definitions ⟨declared, wellFormed_namedObject _, rfl⟩
    exact ⟨here, behind.finish here⟩
  | named _ ih => exact ih definitions trivial
  | array _ ih =>
    cases formed with
    | item formed =>
      obtain ⟨here, behind⟩ := ih definitions formed
      exact ⟨All.array consistent_law here, behind⟩
  | oneOf _ ih =>
    cases formed with
    | variants several formed => exact ih definitions ⟨formed, by simp, by simpa using several⟩
  | noVariants =>
    obtain ⟨-, done, several⟩ := formed
    exact ⟨wellFormed_ofVariants several done, definitions⟩
  | variant _ _ early late =>
    obtain ⟨here, between⟩ := early definitions (formed.1 _ List.mem_cons_self)
    exact late between (formed.moreVariants here)
  | noFields => exact ⟨formed.2.1, definitions⟩
  | oneField first _ early late =>
    obtain ⟨fields, target, object⟩ := formed
    obtain ⟨here, between⟩ := early definitions ⟨fields _ List.mem_cons_self, target, object⟩
    refine late between ⟨fun field member => fields field (List.mem_cons_of_mem _ member), here, ?_⟩
    exact first.frame.1.trans object
  | skipped => exact ⟨formed.2.1, definitions⟩
  | copied _ _ found =>
    obtain ⟨-, target, object⟩ := formed
    exact ⟨target.mergeProperties object (definitions _ (Table.mem_of_get? found)), definitions⟩
  | merged found _ _ ih =>
    obtain ⟨declared, target, object⟩ := formed
    obtain ⟨here, behind⟩ := ih definitions (Field.spliced?_wellFormed declared found)
    exact ⟨target.mergeProperties object here, behind⟩
  | property _ found _ ih =>
    obtain ⟨declared, target, object⟩ := formed
    obtain ⟨here, behind⟩ := ih definitions (Field.source?_wellFormed declared found)
    exact ⟨WellFormed.addField (All.arrayIf consistent_law here _) target object _, behind⟩
  | untyped =>
    obtain ⟨-, target, object⟩ := formed
    exact ⟨WellFormed.addField (All.arrayIf consistent_law consistent_law.string _) target object _,
      definitions⟩

/-- A sequence of calls is answered with well-formed schemas, and all definitions stay well formed. -/
theorem Session.wellFormed {calls : List Call} {answers : List Schema}
    (branching : catalog.Branching) (session : Session catalog calls progress history answers next)
    (formed : ∀ call ∈ calls, call.task.WellFormed) (definitions : progress.WellFormed) :
    (∀ answer ∈ answers, answer.WellFormed) ∧ next.WellFormed := by
  induction session with
  | nil => exact ⟨fun answer member => (by cases member), definitions⟩
  | cons derived _ ih =>
    obtain ⟨here, between⟩ := derived.wellFormed branching definitions (formed _ List.mem_cons_self)
    obtain ⟨others, behind⟩ :=
      ih (fun call member => formed call (List.mem_cons_of_mem _ member)) between
    refine ⟨fun answer member => ?_, behind⟩
    rcases List.mem_cons.mp member with rfl | member
    · exact here
    · exact others answer member

end ApiDoc
