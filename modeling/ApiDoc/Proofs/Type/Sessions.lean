import Mathlib.Data.List.Forall2
import ApiDoc.Proofs.Type.Settled

/-! # Sequences of calls

A build makes calls one after the other, each to resolve a token or to introspect an entity. All
calls of a sequence are derived (`session_derived`): each one ends, whatever cycles the catalog has.
The main statement (`session_walks_once`) says what a sequence does to entities: every entity is
walked at most once, from unvisited over in progress to complete, and behind every call the build is
settled, with the definitions of the calls before it in front.
-/

namespace ApiDoc

/-- A call of a build. -/
inductive Call where
  | resolve (token : TypeToken)
  | introspect (name : String)

def Call.task : Call → Task
  | resolve token => .token token
  | introspect name => .entity name

def Call.build (catalog : Catalog) : Call → Build Schema
  | resolve token => Lexicon.resolve { catalog } token
  | introspect name => Lexicon.entitySchema { catalog } name

/-- Makes calls in turn, in a build that starts with nothing. -/
def session (catalog : Catalog) (calls : List Call) : List Schema × Progress :=
  (calls.mapM (Call.build catalog)).run {}

/-- Calls that are derived one after the other. -/
inductive Session (catalog : Catalog) :
    List Call → Progress → List VisitEvent → List Schema → Progress → Prop
  | nil {progress : Progress} : Session catalog [] progress [] [] progress
  | cons {call : Call} {calls : List Call} {progress middle next : Progress}
      {early late : List VisitEvent} {answer : Schema} {answers : List Schema} :
      Introspects catalog call.task progress early answer middle →
      Session catalog calls middle late answers next →
      Session catalog (call :: calls) progress (early ++ late) (answer :: answers) next

variable {catalog : Catalog} {task : Task} {call : Call} {calls : List Call}
  {progress next : Progress} {history : List VisitEvent} {answer : Schema} {answers : List Schema}
  {name : String}

theorem Call.build_derived (coherent : progress.Coherent catalog) (call : Call) :
    Answered catalog (call.build catalog) call.task progress := by
  cases call with
  | resolve token => exact resolve_derived coherent token
  | introspect name => exact entitySchema_derived coherent name

/-- Every sequence of calls is derived. -/
theorem session_derived (calls : List Call) (coherent : progress.Coherent catalog) :
    ∃ history answers next, (calls.mapM (Call.build catalog)).run progress = (answers, next) ∧
      Session catalog calls progress history answers next := by
  induction calls generalizing progress with
  | nil => exact ⟨[], [], progress, rfl, .nil⟩
  | cons call calls ih =>
    obtain ⟨early, answer, middle, ran, derived⟩ := Call.build_derived coherent call
    obtain ⟨late, answers, next, ranRest, rest⟩ := ih (coherent_of_run derived.run coherent)
    refine ⟨early ++ late, answer :: answers, next, ?_, .cons derived rest⟩
    rw [List.mapM_cons, run_bind_of_run ran, run_bind_of_run ranRest, pure_run]

theorem session_history (catalog : Catalog) (calls : List Call) :
    ∃ history, Session catalog calls {} history (session catalog calls).1 (session catalog calls).2 := by
  have empty : Progress.Coherent catalog {} := Progress.coherent_empty
  obtain ⟨history, answers, next, ran, derived⟩ := session_derived calls empty
  have whole : session catalog calls = (answers, next) := ran
  exact ⟨history, by rw [whole]; exact derived⟩

def eventsOf (name : String) (history : List VisitEvent) : List VisitEvent :=
  history.filter fun event => event.entity = name

theorem eventsOf_append (first second : List VisitEvent) :
    eventsOf name (first ++ second) = eventsOf name first ++ eventsOf name second :=
  List.filter_append ..

/-- Nothing happens to an entity, or it is walked from start to end. -/
inductive AtMostOnce (name : String) : VisitState → VisitState → List VisitEvent → Prop
  | untouched {state : VisitState} : AtMostOnce name state state []
  | walked {schema : Schema} :
      AtMostOnce name .unvisited .complete [.start name, .finish name schema]

theorem AtMostOnce.append {before middle after : VisitState} {early late : List VisitEvent}
    (first : AtMostOnce name before middle early) (second : AtMostOnce name middle after late) :
    AtMostOnce name before after (early ++ late) := by
  cases first with
  | untouched => exact second
  | walked =>
    cases second with
    | untouched => exact .walked

/-- What was visited is not touched. -/
theorem AtMostOnce.eq_nil {before after : VisitState} {events : List VisitEvent}
    (once : AtMostOnce name before after events) (visited : before ≠ .unvisited) : events = [] := by
  cases once with
  | untouched => rfl
  | walked => exact absurd rfl visited

/-- A task walks an entity at most once, and not at all if it was visited before. -/
theorem Introspects.once (derived : Introspects catalog task progress history answer next)
    (name : String) :
    AtMostOnce name (progress.state name) (next.state name) (eventsOf name history) := by
  induction derived with
  | stub | plain | noVariants | noFields | skipped | copied | untyped => exact .untouched
  | named _ ih | array _ ih | oneOf _ ih | merged _ _ _ ih | property _ _ _ ih => exact ih
  | variant _ _ early late | oneField _ _ early late =>
    rw [eventsOf_append]
    exact early.append late
  | @walk progress next started entity history schema fresh _ _ ih =>
    by_cases same : started = name
    · subst same
      have inside : eventsOf started history = [] := ih.eq_nil (by simp)
      have events : eventsOf started (.start started :: (history ++ [.finish started schema])) =
          [.start started, .finish started schema] := by
        rw [← List.singleton_append, eventsOf_append, eventsOf_append, inside]
        simp [eventsOf, VisitEvent.entity]
      rw [events, fresh]
      simpa using AtMostOnce.walked
    · have events : eventsOf name (.start started :: (history ++ [.finish started schema])) =
          eventsOf name history := by
        rw [← List.singleton_append, eventsOf_append, eventsOf_append]
        simp [eventsOf, VisitEvent.entity, same]
      rw [events]
      simpa [same] using ih

namespace Session

theorem run (session : Session catalog calls progress history answers next) :
    Run (VisitStep catalog) progress history next := by
  induction session with
  | nil => exact .done _
  | cons derived _ ih => exact derived.run.append ih

theorem once (session : Session catalog calls progress history answers next) (name : String) :
    AtMostOnce name (progress.state name) (next.state name) (eventsOf name history) := by
  induction session with
  | nil => exact .untouched
  | cons derived _ ih =>
    rw [eventsOf_append]
    exact (derived.once name).append ih

/-- Each answer of a sequence is as it should be, if it is so wherever a single call is derived. -/
theorem forall₂ {right : Call → Schema → Prop}
    (session : Session catalog calls progress history answers next)
    (coherent : progress.Coherent catalog)
    (each : ∀ call ∈ calls, ∀ progress history answer next, progress.Coherent catalog →
      Introspects catalog call.task progress history answer next → right call answer) :
    List.Forall₂ right calls answers := by
  induction session with
  | nil => exact .nil
  | cons derived _ ih =>
    refine .cons (each _ List.mem_cons_self _ _ _ _ coherent derived) ?_
    refine ih (coherent_of_run derived.run coherent) fun call member => ?_
    exact each call (List.mem_cons_of_mem _ member)

/-- Behind a sequence of calls a build is settled, and all answers have names of definitions. -/
theorem settled (session : Session catalog calls progress history answers next)
    (before : Settled catalog progress) :
    Settled catalog next ∧ ∀ answer ∈ answers, answer.NamesIn next.Defines := by
  induction session with
  | nil => exact ⟨before, fun answer member => by cases member⟩
  | @cons call _ progress middle next _ _ _ _ derived rest ih =>
    have names : call.task.NamesIn progress.Defines := by cases call <;> trivial
    obtain ⟨settled, inAnswer, -⟩ := before.behind derived names
    obtain ⟨after, inAnswers⟩ := ih settled
    have kept : ∀ name, middle.Defines name → next.Defines name := by
      intro name defined
      have grown := definitions_prefix_of_run rest.run settled.toCoherent
      exact (grown.map Prod.fst).subset defined
    refine ⟨after, fun answer member => ?_⟩
    rcases List.mem_cons.mp member with rfl | member
    · exact inAnswer.imp kept
    · exact inAnswers answer member

end Session

/-- Later calls go on where earlier ones end. -/
theorem session_append (catalog : Catalog) (first second : List Call) :
    (session catalog (first ++ second)).2 =
      ((second.mapM (Call.build catalog)).run (session catalog first).2).2 := by
  unfold session
  rw [List.mapM_append]
  rfl

/-- Definitions are only ever put behind those of earlier calls. -/
theorem session_definitions_prefix (catalog : Catalog) (first second : List Call) :
    (session catalog first).2.definitions <+: (session catalog (first ++ second)).2.definitions := by
  have empty : Progress.Coherent catalog {} := Progress.coherent_empty
  obtain ⟨_, _, middle, ranFirst, early⟩ := session_derived first empty
  have behind := coherent_of_run early.run empty
  obtain ⟨_, _, last, ranSecond, late⟩ := session_derived second behind
  have start : (session catalog first).2 = middle := congrArg Prod.snd ranFirst
  rw [session_append, start, ranSecond]
  exact definitions_prefix_of_run late.run behind

/-- Whatever the catalog and the calls are, every call ends. Each entity is walked at most once:
its events are none, or a start and an end. Behind the calls nothing is in progress, the complete
entities are those with a definition, and every canonical name in a definition or an answer has a
definition. Definitions are only ever put behind those of earlier calls. -/
theorem session_walks_once (catalog : Catalog) (calls : List Call) : ∃ history,
    Session catalog calls {} history (session catalog calls).1 (session catalog calls).2 ∧
      Run (VisitStep catalog) {} history (session catalog calls).2 ∧
      (∀ name, AtMostOnce name .unvisited ((session catalog calls).2.state name)
        (eventsOf name history)) ∧
      Settled catalog (session catalog calls).2 ∧
      (session catalog calls).2.definitions = history.filterMap VisitEvent.definition? ∧
      (∀ answer ∈ (session catalog calls).1, answer.NamesIn (session catalog calls).2.Defines) ∧
      ∀ first second, calls = first ++ second →
        (session catalog first).2.definitions <+: (session catalog calls).2.definitions := by
  have empty : Progress.Coherent catalog {} := Progress.coherent_empty
  obtain ⟨history, answers, next, ran, derived⟩ := session_derived calls empty
  have whole : session catalog calls = (answers, next) := ran
  obtain ⟨settled, inAnswers⟩ := derived.settled settled_empty
  have definitions := definitions_of_run derived.run empty
  rw [List.nil_append] at definitions
  have later (first second : List Call) (split : calls = first ++ second) :
      (session catalog first).2.definitions <+: (session catalog calls).2.definitions :=
    split ▸ session_definitions_prefix catalog first second
  rw [whole] at later ⊢
  exact ⟨history, derived, derived.run, derived.once, settled, definitions, inAnswers, later⟩

end ApiDoc
