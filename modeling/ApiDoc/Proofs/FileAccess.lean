import ApiDoc.Command

/-! # Access to files

Commands reach files through what they are given for it. What they rely on is little: looking changes
nothing, making a directory changes no file, and writing changes the file under one path
(`FileAccess.Lawful`). It follows that saving, which first makes the directory for a file, changes one file
at most (`FileAccess.Lawful.save_saves`). Files in memory are such an access (`Files.access_lawful`), and
whatever else keeps to this is one, too.
-/

namespace ApiDoc

variable {σ Place : Type}

/-- What there is to see of files. A place is where a file stands, whatever paths lead to it. -/
structure FileView (Place : Type) where
  /-- Whether anything is at a path. -/
  present : String → Bool
  /-- The content of the file at a path, if it can be read. -/
  read? : String → Option ByteArray
  /-- The place of the file that is written under a path. -/
  place? : String → Option Place
  /-- The content of the file at a place. -/
  content? : Place → Option ByteArray

/-- Of all files, only the one under a path was written, with some content. -/
def FileView.Wrote (before : FileView Place) (path : String) (content : ByteArray) (after : FileView Place) :
    Prop :=
  ∃ place, before.place? path = some place ∧ after.content? place = some content ∧
    ∀ other, other ≠ place → after.content? other = before.content? other

/-- Access to files that changes what is seen of them in no other way than it says. -/
structure FileAccess.Lawful (access : FileAccess (StateM σ)) (view : σ → FileView Place) : Prop where
  present_run : ∀ path files, (access.present path).run files = ((view files).present path, files)
  read_run : ∀ path files, (access.read? path).run files = ((view files).read? path, files)
  makeDirectory_keeps : ∀ path files,
    (view ((access.makeDirectory path).run files).2).content? = (view files).content?
  write_writes : ∀ path content files, ((access.write path content).run files).1 = true →
    (view files).Wrote path content (view ((access.write path content).run files).2)

namespace FileAccess

section
variable {m : Type → Type} [Monad m] (access : FileAccess m)

/-- Makes the directory that a path leads into, if there is one to be made. -/
def makeWay (path : String) : m Bool :=
  match Path.directory? path with
  | none => return true
  | some directory => access.makeDirectory directory

/-- Writes a file, once the directory for it is there. -/
def save (path : String) (content : ByteArray) : m Bool := do
  if ← access.makeWay path then access.write path content else return false

end

/-- Only the file under a path was saved, with some content. The path leads to it once the directory for it
is there. -/
def Saved (access : FileAccess (StateM σ)) (view : σ → FileView Place) (files : σ) (path : String)
    (content : ByteArray) (after : σ) : Prop :=
  ∃ place, (view ((access.makeWay path).run files).2).place? path = some place ∧
    (view after).content? place = some content ∧
      ∀ other, other ≠ place → (view after).content? other = (view files).content? other

variable {access : FileAccess (StateM σ)} {view : σ → FileView Place} {files between : σ} {path : String}
  {content : ByteArray}

theorem save_run : (access.save path content).run files =
    if ((access.makeWay path).run files).1 then
      (access.write path content).run ((access.makeWay path).run files).2
    else (false, ((access.makeWay path).run files).2) := by
  unfold save
  rw [StateT.run_bind]
  rcases (access.makeWay path).run files with ⟨there, between⟩
  cases there <;> rfl

theorem save_of_none (way : Path.directory? path = none) :
    (access.save path content).run files = (access.write path content).run files := by
  unfold save makeWay
  rw [way]
  rfl

theorem save_of_some {directory : String} {there : Bool} (way : Path.directory? path = some directory)
    (made : (access.makeDirectory directory).run files = (there, between)) :
    (access.save path content).run files =
      if there then (access.write path content).run between else (false, between) := by
  unfold save makeWay
  rw [way, StateT.run_bind, made]
  cases there <;> rfl

namespace Lawful

theorem makeWay_keeps (lawful : access.Lawful view) (path : String) (files : σ) :
    (view ((access.makeWay path).run files).2).content? = (view files).content? := by
  unfold makeWay
  cases Path.directory? path with
  | none => rfl
  | some directory => exact lawful.makeDirectory_keeps directory files

/-- A save that works changes one file, since the directories that are made for it change none. -/
theorem save_saves (lawful : access.Lawful view) (succeeds : ((access.save path content).run files).1 = true) :
    access.Saved view files path content ((access.save path content).run files).2 := by
  rw [save_run] at succeeds ⊢
  split at succeeds
  · next way =>
    rw [if_pos way]
    obtain ⟨place, leads, holds, others⟩ := lawful.write_writes path content _ succeeds
    refine ⟨place, leads, holds, fun other different => ?_⟩
    rw [others other different, lawful.makeWay_keeps]
  · cases succeeds

end Lawful

end FileAccess

namespace Files

/-- What there is to see of files in memory. -/
def view (files : Files) : FileView Location where
  present := files.present
  read? := files.read?
  place? := files.file? true
  content? := files.get?

theorem write?_writes {files later : Files} {path : String} {content : ByteArray}
    (written : files.write? path content = some later) : files.view.Wrote path content later.view := by
  unfold write? at written
  obtain ⟨location, leads, written⟩ := Option.bind_eq_some_iff.mp written
  split at written
  · cases written
  · cases written
    refine ⟨location, leads, ?_, fun other different => ?_⟩
    · exact (Table.get?_insert files location location content).trans (if_pos rfl)
    · exact (Table.get?_insert files location other content).trans (if_neg (Ne.symm different))

theorem access_write_run (files : Files) (path : String) (content : ByteArray) :
    (access.write path content).run files =
      match files.write? path content with
      | some later => (true, later)
      | none => (false, files) := by
  change StateT.run (match files.write? path content with
    | some later => do set later; return true
    | none => return false) files = _
  cases files.write? path content <;> rfl

theorem access_lawful : access.Lawful view where
  present_run _ _ := rfl
  read_run _ _ := rfl
  makeDirectory_keeps _ _ := rfl
  write_writes path content files succeeds := by
    rw [access_write_run] at succeeds ⊢
    cases written : files.write? path content with
    | none =>
      rw [written] at succeeds
      cases succeeds
    | some later => exact write?_writes written

end Files

end ApiDoc
