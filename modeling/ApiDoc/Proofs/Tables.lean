import Mathlib.Data.List.Forall2
import Mathlib.Data.List.Induction
import ApiDoc.Data.Table

/-! # Related tables

Lists and optional values are related item by item. Two tables are related if they have the same keys
in the same order and related values under each of them. Writing, erasing and looking up keep tables
in step (`Related.insert`, `Related.erase`, `Related.get?`), so what is computed from two related
tables can be compared key by key.
-/

namespace ApiDoc

universe u v w

/-- Every item of a list is related to one of a related list. -/
theorem exists_of_mem_left {β : Type v} {γ : Type w} {matching : β → γ → Prop} {left : List β}
    {right : List γ} (related : List.Forall₂ matching left right) {value : β} (member : value ∈ left) :
    ∃ other ∈ right, matching value other := by
  induction related with
  | nil => cases member
  | cons here _ ih =>
    rcases List.mem_cons.mp member with rfl | member
    · exact ⟨_, List.mem_cons_self, here⟩
    · obtain ⟨other, listed, related⟩ := ih member
      exact ⟨other, List.mem_cons_of_mem _ listed, related⟩

/-- To every item of a list one of a related list is related. -/
theorem exists_of_mem_right {β : Type v} {γ : Type w} {matching : β → γ → Prop} {left : List β}
    {right : List γ} (related : List.Forall₂ matching left right) {value : γ} (member : value ∈ right) :
    ∃ other ∈ left, matching other value :=
  exists_of_mem_left related.flip member

theorem optionRel_imp {β : Type v} {γ : Type w} {matching matching' : β → γ → Prop} {first? : Option β}
    {second? : Option γ} (weaker : ∀ first second, matching first second → matching' first second)
    (related : Option.Rel matching first? second?) : Option.Rel matching' first? second? := by
  cases related with
  | none => exact .none
  | some here => exact .some (weaker _ _ here)

theorem map_eq_of_optionRel {α : Type*} {β : Type v} {γ : Type w} {matching : β → γ → Prop}
    {first? : Option β} {second? : Option γ} {f : β → α} {g : γ → α}
    (same : ∀ first second, matching first second → f first = g second)
    (related : Option.Rel matching first? second?) : first?.map f = second?.map g := by
  cases related with
  | none => rfl
  | some here => rw [Option.map_some, Option.map_some, same _ _ here]

theorem map_eq_of_forall₂ {α : Type*} {β : Type v} {γ : Type w} {matching : β → γ → Prop} {left : List β}
    {right : List γ} {f : β → α} {g : γ → α}
    (same : ∀ first second, matching first second → f first = g second)
    (related : List.Forall₂ matching left right) : left.map f = right.map g := by
  induction related with
  | nil => rfl
  | cons here _ ih => rw [List.map_cons, List.map_cons, same _ _ here, ih]

theorem forall₂_toList {β : Type v} {γ : Type w} {matching : β → γ → Prop} {first? : Option β}
    {second? : Option γ} (related : Option.Rel matching first? second?) :
    List.Forall₂ matching first?.toList second?.toList := by
  cases related with
  | none => exact .nil
  | some here => exact .cons here .nil

theorem forall₂_elim {α α' : Type*} {β : Type v} {γ : Type w} {matching : β → γ → Prop}
    {same : α → α' → Prop} {first? : Option β} {second? : Option γ} {f : β → List α} {g : γ → List α'}
    (inside : ∀ first second, matching first second → List.Forall₂ same (f first) (g second))
    (related : Option.Rel matching first? second?) :
    List.Forall₂ same (first?.elim [] f) (second?.elim [] g) := by
  cases related with
  | none => exact .nil
  | some here => exact inside _ _ here

/-- Beside a value stands a related one. -/
theorem exists_of_eq_some {β : Type v} {γ : Type w} {matching : β → γ → Prop} {first? : Option β}
    {second? : Option γ} (related : Option.Rel matching first? second?) {first : β}
    (present : first? = some first) : ∃ second, second? = some second ∧ matching first second := by
  cases related with
  | none => cases present
  | some here =>
    cases present
    exact ⟨_, rfl, here⟩

namespace Table

variable {κ : Type u} {β : Type v} {γ : Type w} {holds holds' : κ → β → γ → Prop}
  {left : Table κ β} {right : Table κ γ}

/-- The tables have the same keys in order, and the values under each key are related. -/
def Related (holds : κ → β → γ → Prop) (left : Table κ β) (right : Table κ γ) : Prop :=
  List.Forall₂ (fun first second => first.1 = second.1 ∧ holds first.1 first.2 second.2) left right

namespace Related

theorem imp (weaker : ∀ key first second, holds key first second → holds' key first second)
    (related : Related holds left right) : Related holds' left right :=
  List.Forall₂.imp (fun _ _ here => ⟨here.1, weaker _ _ _ here.2⟩) related

protected theorem refl {holds : κ → β → β → Prop} (here : ∀ key value, holds key value value)
    (table : Table κ β) : Related holds table table :=
  List.forall₂_same.mpr fun entry _ => ⟨rfl, here entry.1 entry.2⟩

protected theorem ite {left' : Table κ β} {right' : Table κ γ} (condition : Prop) [Decidable condition]
    (yes : condition → Related holds left right) (no : ¬condition → Related holds left' right') :
    Related holds (if condition then left else left') (if condition then right else right') := by
  split
  · next here => exact yes here
  · next absent => exact no absent

theorem keys_eq (related : Related holds left right) : keys left = keys right := by
  induction related with
  | nil => rfl
  | cons here _ ih => simp only [keys, List.map_cons] at ih ⊢; rw [here.1, ih]

theorem isEmpty_eq (related : Related holds left right) : left.isEmpty = right.isEmpty := by
  cases related <;> rfl

theorem values {matching : β → γ → Prop} (related : Related (fun _ => matching) left right) :
    List.Forall₂ matching (Table.values left) (Table.values right) := by
  induction related with
  | nil => exact .nil
  | cons here _ ih => exact .cons here.2 ih

theorem mapValues_eq {α : Type*} {matching : β → γ → Prop} {f : β → α} {g : γ → α}
    (same : ∀ first second, matching first second → f first = g second)
    (related : Related (fun _ => matching) left right) : mapValues f left = mapValues g right :=
  map_eq_of_forall₂ (fun _ _ here => Prod.ext here.1 (same _ _ here.2)) related

variable [DecidableEq κ]

theorem get? (related : Related holds left right) (key : κ) :
    Table.get? left key = none ∧ Table.get? right key = none ∨
      ∃ first second, Table.get? left key = some first ∧ Table.get? right key = some second ∧
        holds key first second := by
  induction related with
  | nil => exact .inl ⟨rfl, rfl⟩
  | @cons first second _ _ here _ ih =>
    obtain ⟨same, values⟩ := here
    simp only [Table.get?, ← same]
    by_cases found : first.1 = key
    · exact .inr ⟨first.2, second.2, by rw [if_pos found], by rw [if_pos found], found ▸ values⟩
    · simpa only [if_neg found] using ih

theorem contains (related : Related holds left right) (key : κ) :
    Table.contains left key = Table.contains right key := by
  unfold Table.contains
  rcases related.get? key with ⟨here, there⟩ | ⟨first, second, here, there, -⟩ <;> rw [here, there] <;> rfl

theorem insert (related : Related holds left right) {key : κ} {first : β} {second : γ}
    (values : holds key first second) :
    Related holds (Table.insert left key first) (Table.insert right key second) := by
  induction related with
  | nil => exact .cons ⟨rfl, values⟩ .nil
  | @cons head other _ _ here rest ih =>
    rw [Table.insert, Table.insert, ← here.1]
    split
    · exact .cons ⟨rfl, values⟩ rest
    · exact .cons ⟨rfl, here.2⟩ ih

/-- A related value may be written anew. -/
theorem insert_right (related : Related holds left right) {key : κ} {first : β} {second : γ}
    (found : Table.get? left key = some first) (values : holds key first second) :
    Related holds left (Table.insert right key second) := by
  induction related with
  | nil => cases found
  | @cons head other _ _ here rest ih =>
    rw [Table.get?] at found
    rw [Table.insert, ← here.1]
    split at found
    · next atHead =>
      cases found
      rw [if_pos atHead]
      exact .cons ⟨atHead, atHead ▸ values⟩ rest
    · next apart =>
      rw [if_neg apart]
      exact .cons ⟨rfl, here.2⟩ (ih found)

theorem extend {more : Table κ β} {more' : Table κ γ} (related : Related holds left right)
    (others : Related holds more more') :
    Related holds (Table.extend left more) (Table.extend right more') := by
  induction others generalizing left right with
  | nil => exact related
  | @cons head other _ _ here _ ih =>
    obtain ⟨same, values⟩ := here
    have written := related.insert values
    rw [same] at written
    unfold Table.extend
    rw [List.foldl_cons, List.foldl_cons]
    exact ih (same ▸ written)

theorem insertSome (related : Related holds left right) {key : κ} {first? : Option β} {second? : Option γ}
    (values : Option.Rel (holds key) first? second?) :
    Related holds (Table.insertSome left key first?) (Table.insertSome right key second?) := by
  cases values with
  | none => exact related
  | some here => exact related.insert here

theorem erase (related : Related holds left right) (key : κ) :
    Related holds (Table.erase left key) (Table.erase right key) := by
  induction related with
  | nil => exact .nil
  | @cons head other _ _ here rest ih =>
    rw [Table.erase, Table.erase, ← here.1]
    split
    · exact rest
    · exact .cons ⟨rfl, here.2⟩ ih

end Related

/-- A table goes on with other keys only. -/
theorem eq_of_prefix {table more : Table κ β} (before : table <+: more) (distinct : (keys more).Nodup)
    (known : ∀ key ∈ keys more, key ∈ keys table) : table = more := by
  obtain ⟨rest, rfl⟩ := before
  have split : keys (table ++ rest) = keys table ++ keys rest := List.map_append
  rw [split] at distinct known
  cases rest with
  | nil => exact (List.append_nil table).symm
  | cons entry rest =>
    have here : entry.1 ∈ keys (entry :: rest) := List.mem_cons_self
    have early := known entry.1 (List.mem_append_right _ here)
    exact absurd rfl ((List.nodup_append.mp distinct).2.2 _ early _ here)

variable {δ : Type*}

/-- The keys of entries that are made of items. -/
theorem keys_map {ι : Type*} (entry : ι → κ × β) (items : List ι) :
    keys (items.map entry) = items.map fun item => (entry item).1 := List.map_map

theorem mapValues_map {ι : Type*} (f : β → δ) (entry : ι → κ × β) (items : List ι) :
    mapValues f (items.map entry) = items.map fun item => ((entry item).1, f (entry item).2) :=
  List.map_map

theorem keys_mapValues (f : β → δ) (table : Table κ β) : keys (mapValues f table) = keys table :=
  keys_map _ table

variable [DecidableEq κ]

theorem nodup_keys_extend {table : Table κ β} (distinct : (keys table).Nodup) (more : Table κ β) :
    (keys (extend table more)).Nodup := by
  induction more generalizing table with
  | nil => exact distinct
  | cons entry rest ih => exact ih (nodup_keys_insert distinct entry.1 entry.2)

/-- What is written last is found, and behind it what was there before. -/
theorem get?_extend {more : Table κ β} (distinct : (keys more).Nodup) (table : Table κ β) (key : κ) :
    get? (extend table more) key = (get? more key).or (get? table key) := by
  induction more generalizing table with
  | nil => rfl
  | cons entry rest ih =>
    simp only [keys, List.map_cons, List.nodup_cons] at distinct
    have written : extend table (entry :: rest) = extend (insert table entry.1 entry.2) rest := rfl
    rw [written, ih distinct.2, get?_insert, get?]
    by_cases here : entry.1 = key
    · have absent : get? rest key = none := get?_eq_none_iff.mpr (here ▸ distinct.1)
      rw [if_pos here, if_pos here, absent, Option.none_or, Option.some_or]
    · rw [if_neg here, if_neg here]

theorem get?_erase_of_ne (table : Table κ β) {key other : κ} (apart : key ≠ other) :
    get? (erase table key) other = get? table other := by
  induction table with
  | nil => rfl
  | cons entry rest ih =>
    rw [erase, get?]
    split
    · next here => rw [if_neg (here ▸ apart)]
    · rw [get?, ih]

theorem mem_of_mem_erase {table : Table κ β} {key : κ} {entry : κ × β}
    (member : entry ∈ erase table key) : entry ∈ table := by
  induction table with
  | nil => cases member
  | cons first rest ih =>
    rw [erase] at member
    split at member
    · exact List.mem_cons_of_mem _ member
    · rcases List.mem_cons.mp member with rfl | later
      · exact List.mem_cons_self
      · exact List.mem_cons_of_mem _ (ih later)

theorem get?_insertSome (table : Table κ β) (key other : κ) (value? : Option β) :
    get? (insertSome table key value?) other =
      if key = other then value?.or (get? table other) else get? table other := by
  cases value? with
  | none => simp [insertSome]
  | some value => simp [insertSome, get?_insert]

theorem nodup_keys_insertSome {table : Table κ β} (distinct : (keys table).Nodup) (key : κ)
    (value? : Option β) : (keys (insertSome table key value?)).Nodup := by
  cases value? with
  | none => exact distinct
  | some value => exact nodup_keys_insert distinct key value

theorem mapValues_insert (f : β → δ) (table : Table κ β) (key : κ) (value : β) :
    mapValues f (insert table key value) = insert (mapValues f table) key (f value) := by
  induction table with
  | nil => rfl
  | cons entry rest ih =>
    unfold mapValues at ih ⊢
    rw [insert, List.map_cons, insert]
    split
    · rfl
    · rw [List.map_cons, ih]

theorem mapValues_extend (f : β → δ) (table more : Table κ β) :
    mapValues f (extend table more) = extend (mapValues f table) (mapValues f more) := by
  induction more generalizing table with
  | nil => rfl
  | cons entry rest ih =>
    refine (ih (insert table entry.1 entry.2)).trans ?_
    rw [mapValues_insert]
    rfl

/-- Values may be changed before or after the entries are written. -/
theorem ofEntries_mapValues (f : β → δ) (entries : Table κ β) :
    ofEntries (mapValues f entries) = mapValues f (ofEntries entries) :=
  (mapValues_extend f [] entries).symm

theorem keys_ofEntries_mapValues (f : β → δ) (entries : Table κ β) :
    keys (ofEntries (mapValues f entries)) = keys (ofEntries entries) := by
  rw [ofEntries_mapValues, keys_mapValues]

theorem mem_of_mem_ofEntries {entries : Table κ β} {entry : κ × β} (member : entry ∈ ofEntries entries) :
    entry ∈ entries :=
  (mem_of_mem_extend member).resolve_left List.not_mem_nil

theorem ofEntries_ne_nil {entries : Table κ β} (some : entries ≠ []) : ofEntries entries ≠ [] := by
  obtain ⟨entry, rest, rfl⟩ := List.exists_cons_of_ne_nil some
  have written : entry.1 ∈ keys (ofEntries (entry :: rest)) :=
    mem_keys_extend.mpr (.inr List.mem_cons_self)
  intro none
  rw [none] at written
  cases written

theorem ofEntries_of_nodup {entries : Table κ β} (distinct : (keys entries).Nodup) :
    ofEntries entries = entries :=
  extend_nil distinct

theorem forall_keys_insert {holds : κ → Prop} {table : Table κ β} (all : ∀ key ∈ keys table, holds key)
    {key : κ} (here : holds key) (value : β) : ∀ other ∈ keys (insert table key value), holds other := by
  intro other member
  rcases mem_keys_insert.mp member with rfl | old
  · exact here
  · exact all other old

theorem insert_append {table : Table κ β} {key : κ} (absent : key ∉ keys table) (more : Table κ β)
    (value : β) : insert (table ++ more) key value = table ++ insert more key value := by
  induction table with
  | nil => rfl
  | cons entry rest ih =>
    simp only [keys, List.map_cons, List.mem_cons, not_or] at absent
    rw [List.cons_append, insert, if_neg (Ne.symm absent.1), ih absent.2, List.cons_append]

/-- Entries under other keys than those of a table are written behind it. -/
theorem extend_append {table more : Table κ β} (apart : ∀ key ∈ keys more, key ∉ keys table)
    (written : Table κ β) : extend (table ++ written) more = table ++ extend written more := by
  induction more generalizing written with
  | nil => rfl
  | cons entry rest ih =>
    have absent : entry.1 ∉ keys table := apart _ List.mem_cons_self
    have later := ih (fun key member => apart key (List.mem_cons_of_mem _ member))
      (insert written entry.1 entry.2)
    rw [← insert_append absent] at later
    exact later

theorem extend_eq_append {table more : Table κ β} (apart : ∀ key ∈ keys more, key ∉ keys table) :
    extend table more = table ++ ofEntries more := by
  have written := extend_append apart []
  rwa [List.append_nil] at written

omit [DecidableEq κ] in
theorem eraseDups_concat_of_mem [BEq κ] [LawfulBEq κ] {written : List κ} {key : κ}
    (known : key ∈ written) : (written ++ [key]).eraseDups = written.eraseDups := by
  have nothing : [key].removeAll written = [] := by simp [List.removeAll, known]
  rw [List.eraseDups_append, nothing, List.eraseDups_nil, List.append_nil]

omit [DecidableEq κ] in
theorem eraseDups_concat_of_not_mem [BEq κ] [LawfulBEq κ] {written : List κ} {key : κ}
    (fresh : key ∉ written) : (written ++ [key]).eraseDups = written.eraseDups ++ [key] := by
  have single : [key].removeAll written = [key] := by simp [List.removeAll, fresh]
  rw [List.eraseDups_append, single]
  rfl

omit [DecidableEq κ] in
theorem nodup_eraseDups [BEq κ] [LawfulBEq κ] (written : List κ) : written.eraseDups.Nodup := by
  induction written using List.reverseRecOn with
  | nil => exact List.nodup_nil
  | append_singleton before key ih =>
    by_cases known : key ∈ before
    · rw [eraseDups_concat_of_mem known]
      exact ih
    · rw [eraseDups_concat_of_not_mem known]
      refine List.nodup_append.mpr ⟨ih, by simp, fun other member last here => ?_⟩
      rw [List.mem_singleton] at here
      rintro rfl
      exact known (List.mem_eraseDups.mp (here ▸ member))

/-- A write under the key that comes last keeps the keys of a table in the order of their first
occurrences. -/
theorem keys_insert_eraseDups [BEq κ] [LawfulBEq κ] {table : Table κ β} {written : List κ}
    (ordered : keys table = written.eraseDups) (key : κ) (value : β) :
    keys (insert table key value) = (written ++ [key]).eraseDups := by
  rw [keys_insert, ordered]
  by_cases known : key ∈ written
  · rw [if_pos (List.mem_eraseDups.mpr known), eraseDups_concat_of_mem known]
  · rw [if_neg (mt List.mem_eraseDups.mp known), eraseDups_concat_of_not_mem known]

theorem ofEntries_concat (entries : Table κ β) (entry : κ × β) :
    ofEntries (entries ++ [entry]) = insert (ofEntries entries) entry.1 entry.2 :=
  List.foldl_concat ..

/-- The keys of written entries stand in the order of their first occurrences. -/
theorem keys_ofEntries [BEq κ] [LawfulBEq κ] (entries : Table κ β) :
    keys (ofEntries entries) = (keys entries).eraseDups := by
  induction entries using List.reverseRecOn with
  | nil => rfl
  | append_singleton entries entry ih =>
    rw [ofEntries_concat, keys_insert_eraseDups ih]
    unfold keys
    rw [List.map_append]
    rfl

/-- Of the entries under one key the last one is kept. -/
theorem last_of_mem_ofEntries {entries : Table κ β} {entry : κ × β} (member : entry ∈ ofEntries entries) :
    ∃ before after, entries = before ++ entry :: after ∧ entry.1 ∉ keys after := by
  induction entries using List.reverseRecOn with
  | nil => cases member
  | append_singleton entries written ih =>
    rw [ofEntries_concat] at member
    obtain ⟨key, value⟩ := entry
    by_cases same : written.1 = key
    · have empty : (keys ([] : Table κ β)).Nodup := List.nodup_nil
      have distinct := nodup_keys_extend empty entries
      have found := get?_of_mem (nodup_keys_insert distinct written.1 written.2) member
      rw [get?_insert, if_pos same] at found
      have here : written = (key, value) := Prod.ext same (Option.some.inj found)
      exact ⟨entries, [], here ▸ rfl, List.not_mem_nil⟩
    · have early : (key, value) ∈ ofEntries entries :=
        (mem_of_mem_insert member).resolve_left fun here => same (congrArg Prod.fst here).symm
      obtain ⟨before, after, split, last⟩ := ih early
      refine ⟨before, after ++ [written], by rw [split, List.append_assoc, List.cons_append], ?_⟩
      unfold keys at last ⊢
      simpa using ⟨fun later here => last (List.mem_map.mpr ⟨_, here, rfl⟩), Ne.symm same⟩

end Table

end ApiDoc
