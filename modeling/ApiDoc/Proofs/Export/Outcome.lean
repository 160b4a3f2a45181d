import ApiDoc.Proofs.Export.References

/-! # What becomes of an export

The trail of the walk decides what an export gives. A run of it that cannot go on from where it ends is
the whole walk, and the export gives the reason if there is one, otherwise the document with the
definitions that the run leaves behind (`document_of_run`).
-/

namespace ApiDoc.Export

open Json

variable {dialect : Dialect} {api : Api} {visits : List Visit} {last : Agenda}

/-- What an export gives whose walk ends at an agenda, behind some visits. -/
def outcome (dialect : Dialect) (api : Api) (visits : List Visit) (last : Agenda) :
    Except ExportError Json :=
  match last.failure? api with
  | some error => .error error
  | none => .ok (documentText dialect api (defined dialect visits))

/-- The agenda is one at which the walk ends. -/
def Agenda.Stuck (dialect : Dialect) (api : Api) (agenda : Agenda) : Prop :=
  ∀ one next, ¬WalkStep dialect api agenda one next

theorem Agenda.stuck_iff : Agenda.Stuck dialect api last ↔
    last.pending = [] ∨ ∃ error, last.failure? api = some error := by
  constructor
  · intro stuck
    cases failed : last.failure? api with
    | some error => exact .inr ⟨error, rfl⟩
    | none =>
      rcases (@Agenda.failure?_eq_none_iff dialect _ _).mp failed with empty | ⟨one, next, move⟩
      · exact .inl empty
      · exact absurd move (stuck one next)
  · rintro (empty | ⟨error, failed⟩) one next move
    · obtain ⟨rest, split, -⟩ := move.pending_eq
      rw [empty] at split
      cases split
    · have fine := Agenda.failure?_eq_none_iff.mpr (.inr ⟨one, next, move⟩)
      exact absurd (fine.symm.trans failed) (by simp)

theorem Agenda.failure?_of_empty (empty : last.pending = []) : last.failure? api = none :=
  (@Agenda.failure?_eq_none_iff .v20 _ _).mpr (.inl empty)

/-- The walk of an export ends at some agenda, and the export gives what that end decides. -/
theorem document_trail (dialect : Dialect) (api : Api) : ∃ visits last,
    Run (WalkStep dialect api) (.start api) visits last ∧ last.Stuck dialect api ∧
      document dialect api = outcome dialect api visits last := by
  obtain ⟨visits, last, run, ends⟩ := walk_trail dialect api
  refine ⟨visits, last, run, ends.stuck, ?_⟩
  unfold document outcome
  rw [walk_eq] at ends ⊢
  cases visited : (visitPositions dialect (definitionsOf dialect api) (Agenda.start api).pending).run {} with
  | error error =>
    rw [run_bind_of_error visited] at ends ⊢
    have failed : last.failure? api = some error := ends
    rw [failed]
    rfl
  | ok result =>
    obtain ⟨⟨⟩, after⟩ := result
    rw [run_bind_of_ok visited] at ends ⊢
    obtain ⟨empty, left⟩ := ends
    rw [Agenda.failure?_of_empty empty, ← left]
    rfl

/-- The end of any run that cannot go on decides what an export gives. -/
theorem document_of_run (run : Run (WalkStep dialect api) (.start api) visits last)
    (stuck : last.Stuck dialect api) : document dialect api = outcome dialect api visits last := by
  obtain ⟨others, other, whole, ended, exported⟩ := document_trail dialect api
  rw [exported]
  rcases run.comparable WalkStep.deterministic whole with ⟨rest, rfl, more⟩ | ⟨rest, rfl, more⟩
  · cases more with
    | done => rw [List.append_nil]
    | step move => exact absurd move (stuck _ _)
  · cases more with
    | done => rw [List.append_nil]
    | step move => exact absurd move (ended _ _)

/-- A document is put together from the text of the paths and the definitions that a walk to the end
begins. -/
theorem document_text {text : Json} (exported : document dialect api = .ok text) : ∃ visits last,
    Run (WalkStep dialect api) (.start api) visits last ∧ last.pending = [] ∧
      text = documentText dialect api (defined dialect visits) := by
  obtain ⟨visits, last, run, stuck, decided⟩ := document_trail dialect api
  rw [exported] at decided
  unfold outcome at decided
  rcases Agenda.stuck_iff.mp stuck with empty | ⟨error, failed⟩
  · rw [Agenda.failure?_of_empty empty] at decided
    exact ⟨visits, last, run, empty, Except.ok.inj decided⟩
  · rw [failed] at decided
    cases decided

end ApiDoc.Export
