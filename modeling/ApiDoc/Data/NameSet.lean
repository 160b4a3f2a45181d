/-! # Ordered sets of names

A list of names in the order of their first addition. Adding a name that is present changes
nothing, so `mem_add` and `nodup_add` hold for every set.
-/

namespace ApiDoc

/-- Names in the order of their first addition. -/
abbrev NameSet := List String

namespace NameSet

/-- Adds `name` at the end unless it is present. -/
def add (names : NameSet) (name : String) : NameSet :=
  if name ∈ names then names else names ++ [name]

/-- Removes `name`; the names behind it move up. -/
def remove (names : NameSet) (name : String) : NameSet := names.erase name

def addAll (names : NameSet) (more : List String) : NameSet := more.foldl add names

theorem mem_add {names : NameSet} {name other : String} :
    other ∈ add names name ↔ other ∈ names ∨ other = name := by
  unfold add
  split
  · next present =>
    constructor
    · exact Or.inl
    · rintro (known | rfl)
      · exact known
      · exact present
  · simp

theorem nodup_add {names : NameSet} (distinct : names.Nodup) (name : String) :
    (add names name).Nodup := by
  unfold add
  split
  · exact distinct
  · next absent =>
    refine List.nodup_append.2 ⟨distinct, by simp, ?_⟩
    intro a inNames b inNew
    simp only [List.mem_singleton] at inNew
    rintro rfl
    exact absent (inNew ▸ inNames)

theorem mem_addAll {names : NameSet} {more : List String} {name : String} :
    name ∈ names.addAll more ↔ name ∈ names ∨ name ∈ more := by
  induction more generalizing names with
  | nil => simp [addAll]
  | cons first rest ih =>
    change name ∈ (names.add first).addAll rest ↔ _
    rw [ih, mem_add, List.mem_cons, or_assoc]

theorem nodup_addAll {names : NameSet} (distinct : names.Nodup) (more : List String) :
    (names.addAll more).Nodup := by
  induction more generalizing names with
  | nil => exact distinct
  | cons first rest ih => exact ih (nodup_add distinct first)

end NameSet

end ApiDoc
