/-! # Ordered tables

A table is a list of key and value pairs that keeps the order in which its keys first came.
Writing under a key that is present replaces the value where it stands; writing under a new key
goes to the end; erasing closes the gap. `get?_insert` and `keys_insert` say what a write does to
the two views of a table, its look-up and its keys, and `nodup_keys_insert` that a write never
makes a key occur twice. Writing a whole table keeps every key and every value from one of the two
(`mem_keys_extend`, `mem_of_mem_extend`).
-/

namespace ApiDoc

universe u v w

/-- Key and value pairs in the order of the first write of each key. -/
abbrev Table (κ : Type u) (β : Type v) := List (κ × β)

namespace Table

variable {κ : Type u} {β : Type v} {γ : Type w}

def keys (table : Table κ β) : List κ := table.map Prod.fst

def values (table : Table κ β) : List β := table.map Prod.snd

def mapValues (f : β → γ) (table : Table κ β) : Table κ γ :=
  table.map fun entry => (entry.1, f entry.2)

variable [DecidableEq κ]

def get? : Table κ β → κ → Option β
  | [], _ => none
  | (first, value) :: rest, key => if first = key then some value else get? rest key

def contains (table : Table κ β) (key : κ) : Bool := (get? table key).isSome

/-- Writes `value` under `key`: in place if the key is present, otherwise at the end. -/
def insert : Table κ β → κ → β → Table κ β
  | [], key, value => [(key, value)]
  | (first, old) :: rest, key, value =>
    if first = key then (key, value) :: rest else (first, old) :: insert rest key value

/-- Removes `key`; the entries behind it move up. -/
def erase : Table κ β → κ → Table κ β
  | [], _ => []
  | (first, value) :: rest, key =>
    if first = key then rest else (first, value) :: erase rest key

/-- Writes the entries of `more` into `table`, one after the other. -/
def extend (table more : Table κ β) : Table κ β :=
  more.foldl (fun acc entry => insert acc entry.1 entry.2) table

/-- The table that writing `entries` in turn makes: a repeated key keeps its first position and
takes its last value. -/
def ofEntries (entries : List (κ × β)) : Table κ β := extend [] entries

def insertSome (table : Table κ β) (key : κ) : Option β → Table κ β
  | none => table
  | some value => insert table key value

theorem get?_insert (table : Table κ β) (key other : κ) (value : β) :
    get? (insert table key value) other = if key = other then some value else get? table other := by
  induction table with
  | nil => simp [insert, get?]
  | cons entry rest ih =>
    obtain ⟨first, old⟩ := entry
    by_cases here : first = key
    · subst here
      by_cases same : first = other <;> simp [insert, get?, same]
    · by_cases same : first = other
      · subst same
        simp [insert, get?, here, Ne.symm here]
      · simp [insert, get?, here, same, ih]

theorem contains_iff_mem_keys {table : Table κ β} {key : κ} :
    contains table key = true ↔ key ∈ keys table := by
  induction table with
  | nil => simp [contains, get?, keys]
  | cons entry rest ih =>
    obtain ⟨first, value⟩ := entry
    by_cases here : first = key
    · subst here
      simp [contains, get?, keys]
    · simpa [contains, get?, keys, here, Ne.symm here] using ih

theorem keys_insert (table : Table κ β) (key : κ) (value : β) :
    keys (insert table key value) = if key ∈ keys table then keys table else keys table ++ [key] := by
  induction table with
  | nil => simp [insert, keys]
  | cons entry rest ih =>
    obtain ⟨first, old⟩ := entry
    by_cases here : first = key
    · subst here
      simp [insert, keys]
    · simp only [insert, here, if_false]
      simp only [keys, List.map_cons, List.mem_cons] at ih ⊢
      rw [ih]
      by_cases later : key ∈ List.map Prod.fst rest <;> simp [later, Ne.symm here]

theorem nodup_keys_insert {table : Table κ β} (distinct : (keys table).Nodup) (key : κ)
    (value : β) : (keys (insert table key value)).Nodup := by
  rw [keys_insert]
  split
  · exact distinct
  · next absent =>
    refine List.nodup_append.2 ⟨distinct, by simp, ?_⟩
    intro a inTable b inNew
    simp only [List.mem_singleton] at inNew
    rintro rfl
    exact absent (inNew ▸ inTable)

theorem get?_eq_none_iff {table : Table κ β} {key : κ} :
    get? table key = none ↔ key ∉ keys table := by
  rw [← contains_iff_mem_keys, contains, Option.not_isSome_iff_eq_none]

theorem mem_of_get? {table : Table κ β} {key : κ} {value : β} (found : get? table key = some value) :
    (key, value) ∈ table := by
  induction table with
  | nil => simp [get?] at found
  | cons entry rest ih =>
    obtain ⟨first, old⟩ := entry
    rw [get?] at found
    split at found
    · next here =>
      cases found
      exact here ▸ List.mem_cons_self
    · exact List.mem_cons_of_mem _ (ih found)

/-- In a table without repeated keys every entry is found. -/
theorem get?_of_mem {table : Table κ β} (distinct : (keys table).Nodup) {key : κ} {value : β}
    (member : (key, value) ∈ table) : get? table key = some value := by
  induction table with
  | nil => cases member
  | cons entry rest ih =>
    obtain ⟨first, old⟩ := entry
    simp only [keys, List.map_cons, List.nodup_cons] at distinct
    rw [get?]
    rcases List.mem_cons.mp member with same | later
    · cases same
      rw [if_pos rfl]
    · have apart : first ≠ key := by
        rintro rfl
        exact distinct.1 (List.mem_map_of_mem later)
      rw [if_neg apart, ih distinct.2 later]

/-- What is found in front is found in the whole table. -/
theorem get?_of_prefix {table more : Table κ β} (before : table <+: more) {key : κ} {value : β}
    (found : get? table key = some value) : get? more key = some value := by
  obtain ⟨rest, rfl⟩ := before
  induction table with
  | nil => cases found
  | cons entry table ih =>
    rw [List.cons_append, get?]
    rw [get?] at found
    split
    · next here => rwa [if_pos here] at found
    · next apart => exact ih (by rwa [if_neg apart] at found)

theorem mem_keys_of_get? {table : Table κ β} {key : κ} {value : β}
    (found : get? table key = some value) : key ∈ keys table :=
  List.mem_map_of_mem (f := Prod.fst) (mem_of_get? found)

theorem insert_of_not_mem {table : Table κ β} {key : κ} (absent : key ∉ keys table) (value : β) :
    insert table key value = table ++ [(key, value)] := by
  induction table with
  | nil => rfl
  | cons entry rest ih =>
    obtain ⟨first, old⟩ := entry
    simp only [keys, List.map_cons, List.mem_cons, not_or] at absent
    rw [insert, if_neg (Ne.symm absent.1), ih absent.2, List.cons_append]

/-- A key that stands behind `table` is written where it stands. -/
theorem insert_append_cons {table : Table κ β} {key : κ} (absent : key ∉ keys table) (old value : β)
    (rest : Table κ β) :
    insert (table ++ (key, old) :: rest) key value = table ++ (key, value) :: rest := by
  induction table with
  | nil => simp [insert]
  | cons entry more ih =>
    obtain ⟨first, other⟩ := entry
    simp only [keys, List.map_cons, List.mem_cons, not_or] at absent
    rw [List.cons_append, insert, if_neg (Ne.symm absent.1), ih absent.2, List.cons_append]

theorem insert_ne_nil (table : Table κ β) (key : κ) (value : β) : insert table key value ≠ [] := by
  cases table with
  | nil => simp [insert]
  | cons entry rest =>
    rw [insert]
    split <;> simp

theorem mem_of_mem_insert {table : Table κ β} {key : κ} {value : β} {entry : κ × β}
    (member : entry ∈ insert table key value) : entry = (key, value) ∨ entry ∈ table := by
  induction table with
  | nil => exact .inl (List.mem_singleton.mp member)
  | cons head rest ih =>
    obtain ⟨first, old⟩ := head
    rw [insert] at member
    split at member
    · rcases List.mem_cons.mp member with rfl | member
      · exact .inl rfl
      · exact .inr (List.mem_cons_of_mem _ member)
    · rcases List.mem_cons.mp member with rfl | member
      · exact .inr List.mem_cons_self
      · exact (ih member).imp_right (List.mem_cons_of_mem _)

theorem mem_keys_insert {table : Table κ β} {key other : κ} {value : β} :
    other ∈ keys (insert table key value) ↔ other = key ∨ other ∈ keys table := by
  rw [keys_insert]
  split
  · next present => exact ⟨.inr, fun either => either.elim (fun same => same ▸ present) id⟩
  · rw [List.mem_append, List.mem_singleton, or_comm]

theorem mem_keys_extend {table more : Table κ β} {key : κ} :
    key ∈ keys (extend table more) ↔ key ∈ keys table ∨ key ∈ keys more := by
  induction more generalizing table with
  | nil => simp [extend, keys]
  | cons entry rest ih =>
    change key ∈ keys (extend (insert table entry.1 entry.2) rest) ↔ _ ∨ key ∈ entry.1 :: keys rest
    rw [ih, mem_keys_insert, List.mem_cons]
    constructor
    · rintro ((here | early) | late)
      · exact .inr (.inl here)
      · exact .inl early
      · exact .inr (.inr late)
    · rintro (early | here | late)
      · exact .inl (.inr early)
      · exact .inl (.inl here)
      · exact .inr late

/-- Entries under new keys, none of them twice, are written behind the table. -/
theorem extend_of_nodup {table more : Table κ β} (distinct : (keys (table ++ more)).Nodup) :
    extend table more = table ++ more := by
  induction more generalizing table with
  | nil => exact (List.append_nil table).symm
  | cons entry rest ih =>
    have absent : entry.1 ∉ keys table := by
      intro present
      rw [keys, List.map_append, List.nodup_append] at distinct
      exact distinct.2.2 _ present _ List.mem_cons_self rfl
    have written : extend table (entry :: rest) = extend (insert table entry.1 entry.2) rest := rfl
    rw [List.append_cons] at distinct ⊢
    rw [written, insert_of_not_mem absent, ih distinct]

theorem extend_nil {entries : Table κ β} (distinct : (keys entries).Nodup) : extend [] entries = entries :=
  extend_of_nodup distinct

theorem mem_of_mem_extend {table more : Table κ β} {entry : κ × β}
    (member : entry ∈ extend table more) : entry ∈ table ∨ entry ∈ more := by
  induction more generalizing table with
  | nil => exact .inl member
  | cons head rest ih =>
    have either : entry ∈ insert table head.1 head.2 ∨ entry ∈ rest := ih member
    rcases either with early | late
    · exact (mem_of_mem_insert early).elim (fun same => .inr (same ▸ List.mem_cons_self)) .inl
    · exact .inr (List.mem_cons_of_mem _ late)

theorem get?_extend_of_not_mem {table more : Table κ β} {key : κ} (absent : key ∉ keys more) :
    get? (extend table more) key = get? table key := by
  induction more generalizing table with
  | nil => rfl
  | cons entry rest ih =>
    simp only [keys, List.map_cons, List.mem_cons, not_or] at absent
    rw [extend, List.foldl_cons]
    exact (ih absent.2).trans (by rw [get?_insert, if_neg (Ne.symm absent.1)])

end Table

end ApiDoc
