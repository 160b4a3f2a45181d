import Mathlib.Data.List.DropRight
import ApiDoc.TypeToken

/-! # Brackets and commas

A text is cut at its commas outside of brackets. `depthBehind?` counts the brackets that are open behind
a text, so that cutting a longer text is cutting what comes behind (`splitCommas_append`). Printed texts
of tokens that are put in one list are cut out of it again if each of them closes its brackets, apart
from the last one (`items_printAll_of_cut`).
-/

namespace ApiDoc.TypeToken

open Text (trim isBlank joined)

variable {tokens : List TypeToken} {text item : List Char} {depth behind : Nat}

/-- How many brackets are open behind a text where `depth` of them are open before it, unless a comma of
the text stands outside of all brackets. -/
def depthBehind? (depth : Nat) : List Char → Option Nat
  | [] => some depth
  | c :: rest =>
    if c = ',' ∧ depth = 0 then none
    else depthBehind? (if c = '[' then depth + 1 else if c = ']' then depth - 1 else depth) rest

/-- Cutting at the commas outside brackets leaves the text whole. -/
def Undivided (text : List Char) : Prop := splitCommas 0 text = [text]

/-- Neither brackets nor commas are in the text. -/
def Unpunctuated (text : List Char) : Prop := ∀ c ∈ text, c ≠ '[' ∧ c ≠ ']' ∧ c ≠ ','

theorem depthBehind?_append (depth : Nat) (first second : List Char) :
    depthBehind? depth (first ++ second) = (depthBehind? depth first).bind (depthBehind? · second) := by
  induction first generalizing depth with
  | nil => rfl
  | cons c rest ih =>
    rw [List.cons_append, depthBehind?, depthBehind?]
    split
    · rfl
    · exact ih _

theorem depthBehind?_enclosed (depth : Nat) (text : List Char) :
    depthBehind? depth ('[' :: (text ++ [']'])) = (depthBehind? (depth + 1) text).map (· - 1) := by
  have closing (opened : Nat) : depthBehind? opened [']'] = some (opened - 1) := by simp [depthBehind?]
  have opening : depthBehind? depth ('[' :: (text ++ [']'])) = depthBehind? (depth + 1) (text ++ [']']) := by
    simp [depthBehind?]
  rw [opening, depthBehind?_append]
  cases depthBehind? (depth + 1) text with
  | none => rfl
  | some behind => exact closing behind

theorem unpunctuated_nil : Unpunctuated [] := fun _ member => nomatch member

theorem Unpunctuated.depthBehind? (plain : Unpunctuated text) (depth : Nat) :
    depthBehind? depth text = some depth := by
  induction text with
  | nil => rfl
  | cons c rest ih =>
    obtain ⟨opening, closing, comma⟩ := plain c List.mem_cons_self
    rw [TypeToken.depthBehind?, if_neg fun divides => comma divides.1, if_neg opening, if_neg closing]
    exact ih fun other member => plain other (List.mem_cons_of_mem c member)

/-- Where no comma stands outside of all brackets, cutting goes on behind the text. -/
theorem splitCommas_append (passed : depthBehind? depth text = some behind) (rest : List Char) :
    splitCommas depth (text ++ rest) = (splitCommas behind rest).modifyHead (text ++ ·) := by
  induction text generalizing depth with
  | nil =>
    obtain rfl := Option.some.inj passed
    cases parts : splitCommas depth rest <;> simp [parts]
  | cons c more ih =>
    rw [depthBehind?] at passed
    split at passed
    · cases passed
    · next within =>
      rw [List.cons_append, splitCommas, if_neg within]
      dsimp only
      rw [ih passed, List.modifyHead_modifyHead]
      rfl

/-- Texts that a longer text is cut into: a comma stands outside of all brackets behind each of them but
the last one. -/
inductive Cut : Nat → List (List Char) → Prop
  | last {depth behind : Nat} {piece : List Char} : depthBehind? depth piece = some behind → Cut depth [piece]
  | more {depth : Nat} {piece : List Char} {pieces : List (List Char)} :
      depthBehind? depth piece = some 0 → Cut 0 pieces → Cut depth (piece :: pieces)

theorem cut_of_closed {pieces : List (List Char)} (closed : ∀ piece ∈ pieces, depthBehind? 0 piece = some 0)
    (filled : pieces ≠ []) : Cut 0 pieces := by
  induction pieces with
  | nil => exact absurd rfl filled
  | cons piece rest ih =>
    have here := closed piece List.mem_cons_self
    cases rest with
    | nil => exact .last here
    | cons next rest =>
      exact .more here (ih (fun other member => closed other (List.mem_cons_of_mem _ member)) (by simp))

theorem Cut.ne_nil {pieces : List (List Char)} (cut : Cut depth pieces) : pieces ≠ [] := by
  cases cut <;> simp

theorem cut_splitCommas (depth : Nat) (text : List Char) : Cut depth (splitCommas depth text) := by
  induction text generalizing depth with
  | nil => exact .last rfl
  | cons c rest ih =>
    rw [splitCommas]
    split
    · next divides =>
      refine .more ?_ (ih 0)
      rw [divides.2]
      rfl
    · next within =>
      have passes (piece : List Char) : depthBehind? depth (c :: piece) =
          depthBehind? (if c = '[' then depth + 1 else if c = ']' then depth - 1 else depth) piece := by
        rw [depthBehind?, if_neg within]
      generalize (if c = '[' then depth + 1 else if c = ']' then depth - 1 else depth) = inner at passes ⊢
      have cut := ih inner
      dsimp only
      generalize splitCommas inner rest = pieces at cut ⊢
      cases cut with
      | last passed => exact .last ((passes _).trans passed)
      | more passed others => exact .more ((passes _).trans passed) others

/-- With commas between them, the pieces of a text are the text. -/
theorem joined_splitCommas (depth : Nat) (text : List Char) : joined ',' (splitCommas depth text) = text := by
  induction text generalizing depth with
  | nil => rfl
  | cons c rest ih =>
    rw [splitCommas]
    split
    · next divides =>
      obtain ⟨rfl, -⟩ := divides
      have filled := (cut_splitCommas 0 rest).ne_nil
      cases pieces : splitCommas 0 rest with
      | nil => exact absurd pieces filled
      | cons piece more => rw [joined, ← pieces, ih]; rfl
    · dsimp only
      rw [Text.joined_modifyHead ',' c (cut_splitCommas _ rest).ne_nil, ih]

theorem undivided_iff : Undivided text ↔ ∃ behind, depthBehind? 0 text = some behind := by
  constructor
  · intro whole
    have cut := cut_splitCommas 0 text
    rw [whole] at cut
    cases cut with
    | last passed => exact ⟨_, passed⟩
    | more _ others => exact absurd rfl others.ne_nil
  · rintro ⟨behind, passed⟩
    have parts := splitCommas_append passed []
    rw [List.append_nil] at parts
    simpa [Undivided, splitCommas] using parts

theorem trim_eq_self (starts : ∀ c ∈ text.head?, isBlank c = false)
    (ends : ∀ c ∈ text.getLast?, isBlank c = false) : trim text = text := by
  have front : Text.trimStart text = text := by
    cases text with
    | nil => rfl
    | cons c rest => simp [Text.trimStart, starts c rfl]
  have back : Text.trimEnd text = text := by
    unfold Text.trimEnd
    rw [List.getLast?_eq_head?_reverse] at ends
    cases backwards : text.reverse with
    | nil => simpa using backwards
    | cons c rest =>
      rw [backwards] at ends
      rw [List.dropWhile_cons_of_neg (by simp [ends c rfl]), ← backwards, List.reverse_reverse]
  unfold trim
  rw [front, back]

theorem trim_cons_of_blank {c : Char} (blank : isBlank c = true) : trim (c :: text) = trim text := by
  simp [trim, Text.trimStart, blank]

theorem trim_enclosed (text : List Char) : trim ('[' :: (text ++ [']'])) = '[' :: (text ++ [']']) := by
  refine trim_eq_self ?_ ?_ <;> intro c here
  · obtain rfl := Option.some.inj here
    decide
  · rw [← List.cons_append, List.getLast?_concat] at here
    obtain rfl := Option.some.inj here
    decide

theorem exists_trim (text : List Char) : ∃ before after, text = before ++ (trim text ++ after) ∧
    (∀ c ∈ before, isBlank c = true) ∧ ∀ c ∈ after, isBlank c = true := by
  refine ⟨text.takeWhile isBlank, (Text.trimStart text).rtakeWhile isBlank, ?_, ?_, ?_⟩
  · have front : text = text.takeWhile isBlank ++ Text.trimStart text :=
      List.takeWhile_append_dropWhile.symm
    have back : Text.trimStart text = trim text ++ (Text.trimStart text).rtakeWhile isBlank :=
      List.rdropWhile_append_rtakeWhile.symm
    rw [← back, ← front]
  · exact fun c member => List.mem_takeWhile_imp member
  · exact fun c member => List.mem_rtakeWhile_imp member

theorem not_blank_of_head? {c : Char} (first : (trim text).head? = some c) : isBlank c = false := by
  obtain ⟨rest, starts⟩ := List.head?_eq_some_iff.mp first
  have within : trim text <+: Text.trimStart text := List.rdropWhile_prefix isBlank (Text.trimStart text)
  obtain ⟨after, whole⟩ := within
  have front := List.head?_dropWhile_not isBlank text
  rw [show text.dropWhile isBlank = c :: (rest ++ after) by rw [← List.cons_append, ← starts]; exact whole.symm]
    at front
  exact front

theorem not_blank_of_getLast? {c : Char} (last : (trim text).getLast? = some c) : isBlank c = false := by
  have filled : trim text ≠ [] := by
    intro empty
    simp [empty] at last
  have final : ¬isBlank ((trim text).getLast filled) = true :=
    List.rdropWhile_last_not isBlank (Text.trimStart text) filled
  rw [List.getLast?_eq_some_getLast filled] at last
  obtain rfl := Option.some.inj last
  exact Bool.eq_false_iff.mpr final

theorem trim_trim (text : List Char) : trim (trim text) = trim text :=
  trim_eq_self (fun _ first => not_blank_of_head? first) fun _ last => not_blank_of_getLast? last

theorem unpunctuated_of_blank (blank : ∀ c ∈ text, isBlank c = true) : Unpunctuated text := by
  intro c member
  have here := blank c member
  refine ⟨?_, ?_, ?_⟩ <;> rintro rfl <;> exact absurd here (by decide)

theorem unpunctuated_of_trim_eq_nil (empty : trim text = []) : Unpunctuated text := by
  obtain ⟨before, after, split, front, back⟩ := exists_trim text
  rw [empty, List.nil_append] at split
  rw [split]
  intro c member
  rcases List.mem_append.mp member with member | member
  · exact unpunctuated_of_blank front c member
  · exact unpunctuated_of_blank back c member

theorem toList_print_arrayOf (item : TypeToken) :
    (print (.arrayOf item)).toList = '[' :: ((print item).toList ++ [']']) := by
  simp [print]

theorem toList_print_oneOf (variants : List TypeToken) :
    (print (.oneOf variants)).toList = '[' :: ((printAll variants).toList ++ [']']) := by
  simp [print]

theorem toList_printAll_cons (first second : TypeToken) (rest : List TypeToken) :
    (printAll (first :: second :: rest)).toList =
      (print first).toList ++ ',' :: ' ' :: (printAll (second :: rest)).toList := by
  simp [printAll]

/-- Cut at the commas, a list of texts gives these, all but the first behind a blank. -/
theorem splitCommas_printAll_of_cut
    (cut : Cut depth (tokens.map fun token => (print token).toList)) :
    ∃ first rest, tokens = first :: rest ∧ splitCommas depth (printAll tokens).toList =
      (print first).toList :: rest.map fun token => ' ' :: (print token).toList := by
  induction tokens generalizing depth with
  | nil => exact absurd rfl cut.ne_nil
  | cons first rest ih =>
    refine ⟨first, rest, rfl, ?_⟩
    cases rest with
    | nil =>
      cases cut with
      | last passed =>
        have whole := splitCommas_append passed []
        simpa [printAll, splitCommas] using whole
      | more _ others => exact absurd rfl others.ne_nil
    | cons second rest =>
      cases cut with
      | more passed others =>
        obtain ⟨_, _, same, parts⟩ := ih others
        obtain ⟨rfl, rfl⟩ := List.cons.inj same
        have comma (text : List Char) : splitCommas 0 (',' :: text) = [] :: splitCommas 0 text := by
          rw [splitCommas, if_pos ⟨rfl, rfl⟩]
        have blank (text : List Char) :
            splitCommas 0 (' ' :: text) = (splitCommas 0 text).modifyHead (' ' :: ·) := by
          have passed : depthBehind? 0 [' '] = some 0 := rfl
          exact splitCommas_append passed text
        rw [toList_printAll_cons, splitCommas_append passed, comma, blank, parts]
        simp

/-- The items of a list of texts without blanks around them are these texts. -/
theorem items_printAll_of_cut (cut : Cut 0 (tokens.map fun token => (print token).toList))
    (each : ∀ token ∈ tokens, trim (print token).toList = (print token).toList ∧ (print token).toList ≠ []) :
    items (printAll tokens).toList = tokens.map fun token => (print token).toList := by
  obtain ⟨first, rest, rfl, parts⟩ := splitCommas_printAll_of_cut cut
  have trimmed : (rest.map fun token => ' ' :: (print token).toList).map trim =
      rest.map fun token => (print token).toList := by
    rw [List.map_map]
    refine List.map_congr_left fun token member => ?_
    exact (trim_cons_of_blank (by decide)).trans (each token (List.mem_cons_of_mem first member)).1
  unfold items
  rw [parts, List.map_cons, trimmed, (each first List.mem_cons_self).1]
  refine List.filter_eq_self.mpr fun item member => ?_
  obtain ⟨token, listed, rfl⟩ : ∃ token ∈ first :: rest, (print token).toList = item := List.mem_map.mp member
  simp [(each token listed).2]

theorem items_of_undivided (whole : Undivided text) (trimmed : trim text = text) (filled : text ≠ []) :
    items text = [text] := by
  unfold items
  rw [whole, List.map_singleton, trimmed]
  simp [filled]

end ApiDoc.TypeToken
