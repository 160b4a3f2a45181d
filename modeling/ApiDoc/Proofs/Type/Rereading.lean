import ApiDoc.Proofs.Type.TokenForms

/-! # Reading what was printed

What is read from any text is printed in the bracket notation. Printing tidies the text up: blanks and
empty items go and long spellings become short, but every bracket stays (`tidied_print`). So the items of
a list are cut out of the printed text where they were cut out of the text.

An array in the long spelling is another matter: what stands in `Array[…]` is read whole, while the short
form in which it is printed is cut at the commas. `parse_print_parse` says that a text is read again as
the same token exactly if this cuts no item of such an array.
-/

namespace ApiDoc.TypeToken

open Text (trim enclosed? dropLast? joined)

variable {text tidy body item : List Char} {depth : Nat}

/-- The second text opens and closes the brackets of the first one, has no commas outside of them that the
first one has not, and no more commas altogether. -/
structure Tidied (text tidy : List Char) : Prop where
  depth : ∀ depth behind, depthBehind? depth text = some behind → depthBehind? depth tidy = some behind
  commas : tidy.count ',' ≤ text.count ','

theorem Tidied.refl (text : List Char) : Tidied text text := ⟨fun _ _ passed => passed, Nat.le_refl _⟩

theorem Tidied.trans {between : List Char} (first : Tidied text between) (second : Tidied between tidy) :
    Tidied text tidy :=
  ⟨fun depth behind passed => second.depth depth behind (first.depth depth behind passed),
    Nat.le_trans second.commas first.commas⟩

theorem Tidied.append {more tidyMore : List Char} (first : Tidied text tidy) (second : Tidied more tidyMore) :
    Tidied (text ++ more) (tidy ++ tidyMore) where
  depth depth behind passed := by
    rw [depthBehind?_append] at passed ⊢
    obtain ⟨between, early, late⟩ := Option.bind_eq_some_iff.mp passed
    rw [first.depth depth between early]
    exact second.depth between behind late
  commas := by
    rw [List.count_append, List.count_append]
    exact Nat.add_le_add first.commas second.commas

theorem tidied_of_unpunctuated (plain : Unpunctuated text) (plain' : Unpunctuated tidy) :
    Tidied text tidy where
  depth depth behind passed := by
    rw [plain.depthBehind?] at passed
    rw [plain'.depthBehind?, passed]
  commas := by
    have none : tidy.count ',' = 0 := List.count_eq_zero.mpr fun member => (plain' _ member).2.2 rfl
    omega

theorem Tidied.enclosed (within : Tidied text tidy) :
    Tidied ('[' :: (text ++ [']'])) ('[' :: (tidy ++ [']'])) :=
  (Tidied.refl ['[']).append (within.append (.refl [']']))

theorem tidied_trim (text : List Char) : Tidied text (trim text) := by
  obtain ⟨before, after, split, front, back⟩ := exists_trim text
  have tidied : Tidied (before ++ (trim text ++ after)) ([] ++ (trim text ++ [])) :=
    (tidied_of_unpunctuated (unpunctuated_of_blank front) unpunctuated_nil).append
      ((Tidied.refl _).append (tidied_of_unpunctuated (unpunctuated_of_blank back) unpunctuated_nil))
  rwa [← split, List.nil_append, List.append_nil] at tidied

/-- An empty item goes with its comma. -/
theorem tidied_comma (plain : Unpunctuated text) : Tidied (text ++ [',']) [] where
  depth depth behind passed := by
    rw [depthBehind?_append, plain.depthBehind?, Option.bind_some, depthBehind?] at passed
    split at passed
    · cases passed
    · exact passed
  commas := Nat.zero_le _

theorem toList_print_ofParts (parts : List TypeToken) : (print (ofParts parts)).toList =
    '[' :: ((if parts.isEmpty then "String" else printAll parts).toList ++ [']']) := by
  match parts with
  | [] => rfl
  | [part] => exact toList_print_arrayOf part
  | first :: second :: rest => exact toList_print_oneOf (first :: second :: rest)

theorem enclosed?_eq_some (list : enclosed? '[' ']' text = some body) : text = '[' :: (body ++ [']']) := by
  unfold enclosed? dropLast? at list
  split at list
  · cases list
  · split at list
    · next opens =>
      split at list
      · next closes =>
        obtain ⟨inner, rfl⟩ := List.getLast?_eq_some_iff.mp closes
        obtain rfl := Option.some.inj list
        rw [opens, List.dropLast_concat]
      · cases list
    · cases list

theorem arrayBody?_eq_some (array : arrayBody? text = some body) :
    text = "Array".toList ++ ('[' :: (body ++ [']'])) := by
  unfold arrayBody? at array
  split at array
  · next rest =>
    have inner : enclosed? '[' ']' ('[' :: rest) = some body := array
    rw [← enclosed?_eq_some inner]
    rfl
  · cases array

def kept (pieces : List (List Char)) : List (List Char) := (pieces.map trim).filter fun item => !item.isEmpty

theorem kept_cons_of_eq_nil {piece : List Char} {pieces : List (List Char)} (empty : trim piece = []) :
    kept (piece :: pieces) = kept pieces := by
  simp [kept, empty]

theorem kept_cons_of_ne_nil {piece : List Char} {pieces : List (List Char)} (filled : trim piece ≠ []) :
    kept (piece :: pieces) = trim piece :: kept pieces := by
  simp [kept, filled]

/-- Items are put back together with commas between them. -/
theorem tidied_printAll {pieces : List (List Char)}
    (each : ∀ item ∈ kept pieces, Tidied item (print (parseChars item)).toList) :
    Tidied (joined ',' pieces) (printAll ((kept pieces).map parseChars)).toList := by
  induction pieces with
  | nil => exact .refl []
  | cons piece rest ih =>
    by_cases empty : trim piece = []
    · rw [kept_cons_of_eq_nil empty] at each ⊢
      have plain := unpunctuated_of_trim_eq_nil empty
      cases rest with
      | nil => exact tidied_of_unpunctuated plain unpunctuated_nil
      | cons next rest =>
        have others := (tidied_comma plain).append (ih each)
        rwa [List.append_assoc, List.nil_append] at others
    · rw [kept_cons_of_ne_nil empty] at each ⊢
      have here : Tidied piece (print (parseChars (trim piece))).toList :=
        (tidied_trim piece).trans (each _ List.mem_cons_self)
      cases rest with
      | nil => exact here
      | cons next rest =>
        have others := ih fun item member => each item (List.mem_cons_of_mem _ member)
        generalize kept (next :: rest) = items at others
        cases items with
        | nil =>
          have nothing : Tidied [','] [] := tidied_comma unpunctuated_nil
          have all := here.append (nothing.append others)
          simpa [joined, printAll] using all
        | cons first items =>
          have blank : Tidied [] [' '] :=
            tidied_of_unpunctuated unpunctuated_nil (unpunctuated_of_blank (List.forall_mem_singleton.mpr rfl))
          have comma : Tidied [','] [',', ' '] := (Tidied.refl [',']).append blank
          have all := here.append (comma.append others)
          rw [List.map_cons, List.map_cons, toList_printAll_cons]
          simpa [joined] using all

theorem unpunctuated_string : Unpunctuated "String".toList := by
  simp [Unpunctuated]

/-- Printing what was read from a text tidies the text up. -/
theorem tidied_print (text : List Char) : Tidied text (print (parseChars text)).toList := by
  have long : Tidied "Array".toList [] :=
    tidied_of_unpunctuated (by simp [Unpunctuated]) unpunctuated_nil
  induction text using parseChars.induct with
  | case1 text body array empty =>
    have plain := unpunctuated_of_trim_eq_nil (List.isEmpty_iff.mp empty)
    refine (tidied_trim text).trans ?_
    rw [parseChars_of_array array, if_pos empty, arrayBody?_eq_some array, toList_print_arrayOf]
    exact long.append (tidied_of_unpunctuated plain unpunctuated_string).enclosed
  | case2 text body array filled ih =>
    refine (tidied_trim text).trans ?_
    rw [parseChars_of_array array, if_neg filled, arrayBody?_eq_some array, toList_print_arrayOf]
    exact long.append ih.enclosed
  | case3 text single body list ih =>
    have within : Tidied body (printAll ((items body).map parseChars)).toList := by
      have each : ∀ item ∈ kept (splitCommas 0 body), Tidied item (print (parseChars item)).toList :=
        fun item member => ih ⟨item, member⟩
      have joins := tidied_printAll each
      rwa [joined_splitCommas] at joins
    refine (tidied_trim text).trans ?_
    rw [parseChars_of_list single list, enclosed?_eq_some list, toList_print_ofParts]
    refine Tidied.enclosed ?_
    split
    · next none =>
      rw [List.isEmpty_iff.mp none] at within
      exact within.trans (tidied_of_unpunctuated unpunctuated_nil unpunctuated_string)
    · exact within
  | case4 text single plain =>
    rw [parseChars_of_name single plain, print, String.toList_ofList]
    exact tidied_trim text

theorem toList_of_parseChars_eq_named {name : String} (read : parseChars text = .named name) :
    name.toList = trim text := by
  cases array : arrayBody? (trim text) with
  | some body =>
    rw [parseChars_of_array array] at read
    split at read <;> cases read
  | none =>
    cases list : enclosed? '[' ']' (trim text) with
    | some body =>
      rw [parseChars_of_list array list] at read
      generalize (items body).map parseChars = parts at read
      match parts with
      | [] => cases read
      | [_] => cases read
      | _ :: _ :: _ => cases read
    | none =>
      rw [parseChars_of_name array list] at read
      cases read
      rw [String.toList_ofList]

theorem trim_print (text : List Char) :
    trim (print (parseChars text)).toList = (print (parseChars text)).toList := by
  cases read : parseChars text with
  | named name =>
    rw [print, toList_of_parseChars_eq_named read]
    exact trim_trim text
  | arrayOf inner =>
    rw [toList_print_arrayOf]
    exact trim_enclosed _
  | oneOf variants =>
    rw [toList_print_oneOf]
    exact trim_enclosed _

theorem print_ne_nil (filled : trim text ≠ []) : (print (parseChars text)).toList ≠ [] := by
  cases read : parseChars text with
  | named name =>
    rw [print, toList_of_parseChars_eq_named read]
    exact filled
  | arrayOf inner => simp [print]
  | oneOf variants => simp [print]

/-- What is printed of the pieces of a text could be cut out of a text, too. -/
theorem Cut.kept {pieces : List (List Char)} (cut : Cut depth pieces) : kept pieces = [] ∨
    Cut depth (((TypeToken.kept pieces).map parseChars).map fun token => (print token).toList) := by
  induction cut with
  | @last depth behind piece passed =>
    by_cases empty : trim piece = []
    · exact .inl (kept_cons_of_eq_nil empty)
    · rw [kept_cons_of_ne_nil empty]
      exact .inr (.last (((tidied_trim piece).trans (tidied_print _)).depth _ _ passed))
  | @more depth piece pieces passed others ih =>
    by_cases empty : trim piece = []
    · rw [(unpunctuated_of_trim_eq_nil empty).depthBehind?] at passed
      obtain rfl := Option.some.inj passed
      rw [kept_cons_of_eq_nil empty]
      exact ih
    · have here := ((tidied_trim piece).trans (tidied_print _)).depth _ _ passed
      rw [kept_cons_of_ne_nil empty]
      rcases ih with none | cut
      · rw [none]
        exact .inr (.last here)
      · exact .inr (.more here cut)

theorem trim_of_mem_kept {pieces : List (List Char)} (member : item ∈ kept pieces) :
    trim item = item ∧ item ≠ [] := by
  obtain ⟨listed, filled⟩ := List.mem_filter.mp member
  obtain ⟨piece, -, rfl⟩ := List.mem_map.mp listed
  exact ⟨trim_trim piece, by simpa using filled⟩

/-- The items of what is printed of items are what is printed of each. -/
theorem items_printAll_items (filled : items body ≠ []) :
    items (printAll ((items body).map parseChars)).toList =
      ((items body).map parseChars).map fun token => (print token).toList := by
  refine items_printAll_of_cut ((cut_splitCommas 0 body).kept.resolve_left filled) fun token member => ?_
  obtain ⟨item, listed, rfl⟩ := List.mem_map.mp member
  obtain ⟨trimmed, some_text⟩ := trim_of_mem_kept listed
  exact ⟨trim_print item, print_ne_nil (trimmed.symm ▸ some_text)⟩

/-- A text has all commas of each of its pieces. -/
theorem count_le_joined {piece : List Char} {pieces : List (List Char)} (listed : piece ∈ pieces) :
    piece.count ',' ≤ (joined ',' pieces).count ',' := by
  induction pieces with
  | nil => cases listed
  | cons first rest ih =>
    cases rest with
    | nil =>
      obtain rfl := List.mem_singleton.mp listed
      exact Nat.le_refl _
    | cons second rest =>
      rw [joined, List.count_append, List.count_cons_self]
      rcases List.mem_cons.mp listed with rfl | later
      · omega
      · have inRest := ih later
        omega

/-- A text of several pieces has more commas than each of them. -/
theorem count_lt_joined {piece : List Char} {pieces : List (List Char)} (listed : piece ∈ pieces)
    (several : 2 ≤ pieces.length) : piece.count ',' < (joined ',' pieces).count ',' := by
  match pieces with
  | [_] => simp at several
  | first :: second :: rest =>
    rw [joined, List.count_append, List.count_cons_self]
    rcases List.mem_cons.mp listed with rfl | later
    · omega
    · have inRest := count_le_joined later
      omega

/-- An item of a text that is cut has fewer commas. -/
theorem count_lt_of_mem_items (divided : ¬Undivided text) (member : item ∈ items text) :
    item.count ',' < text.count ',' := by
  obtain ⟨piece, listed, rfl⟩ := List.mem_map.mp (List.mem_filter.mp member).1
  have several : 2 ≤ (splitCommas 0 text).length := by
    by_contra short
    have joins := joined_splitCommas 0 text
    have filled := (cut_splitCommas 0 text).ne_nil
    generalize parts : splitCommas 0 text = pieces at short joins filled
    match pieces with
    | [] => exact filled rfl
    | [whole] => exact divided (parts.trans (congrArg ([·]) joins))
    | _ :: _ :: _ => simp at short
  have fewer := count_lt_joined listed several
  rw [joined_splitCommas] at fewer
  have trimmed := (tidied_trim piece).commas
  omega

/-- An array of what is read from a text is read again exactly if that is, and stays one item. -/
theorem parseChars_print_arrayOf_iff (filled : trim body ≠ []) :
    parseChars (print (.arrayOf (parseChars body))).toList = .arrayOf (parseChars body) ↔
      Undivided (print (parseChars body)).toList ∧
        parseChars (print (parseChars body)).toList = parseChars body := by
  have single (whole : Undivided (print (parseChars body)).toList) :
      items (print (parseChars body)).toList = [(print (parseChars body)).toList] :=
    items_of_undivided whole (trim_print body) (print_ne_nil filled)
  rw [toList_print_arrayOf, parseChars_enclosed]
  constructor
  · intro same
    have whole : Undivided (print (parseChars body)).toList := by
      by_contra divided
      cases parts : items (print (parseChars body)).toList with
      | nil =>
        rw [parts] at same
        have string : parseChars body = .named "String" := (TypeToken.arrayOf.inj same).symm
        rw [string] at divided
        exact divided (by unfold Undivided; decide)
      | cons item rest =>
        cases rest with
        | nil =>
          have member : item ∈ items (print (parseChars body)).toList := parts ▸ List.mem_cons_self
          have fewer := count_lt_of_mem_items divided member
          have more := (tidied_print item).commas
          rw [parts] at same
          rw [show parseChars item = parseChars body from TypeToken.arrayOf.inj same] at more
          omega
        | cons second rest =>
          rw [parts] at same
          cases same
    rw [single whole] at same
    exact ⟨whole, TypeToken.arrayOf.inj same⟩
  · rintro ⟨whole, again⟩
    rw [single whole]
    exact congrArg TypeToken.arrayOf again

/-- Parts that are changed make the same token if no part is. -/
theorem ofParts_map_eq_iff (parts : List TypeToken) (change : TypeToken → TypeToken) :
    ofParts (parts.map change) = ofParts parts ↔ ∀ part ∈ parts, change part = part := by
  have same_iff : parts.map change = parts ↔ ∀ part ∈ parts, change part = part := by
    have equal := @List.map_inj_left _ _ parts change id
    rwa [List.map_id] at equal
  rw [← same_iff]
  match parts with
  | [] => simp
  | [_] => simp [ofParts]
  | _ :: _ :: _ => simp [ofParts]

/-- A list of what is read from items is read again exactly if each of them is. -/
theorem parseChars_print_ofParts_iff (body : List Char) :
    parseChars (print (ofParts ((items body).map parseChars))).toList = ofParts ((items body).map parseChars) ↔
      ∀ item ∈ items body, parseChars (print (parseChars item)).toList = parseChars item := by
  by_cases none : items body = []
  · have strings : WellFormed (.arrayOf (.named "String")) := .arrayOf (.named (by decide))
    rw [none]
    exact iff_of_true strings.parseChars_print fun item member => by cases member
  · have some_part : ((items body).map parseChars).isEmpty = false := by
      simpa [List.isEmpty_eq_false_iff] using none
    rw [toList_print_ofParts, some_part, if_neg Bool.false_ne_true, parseChars_enclosed,
      items_printAll_items none, List.map_map, ofParts_map_eq_iff, List.forall_mem_map]
    rfl

/-- Reading the text takes the body for what stands in an array in the long spelling. -/
inductive LongArray (body : List Char) : List Char → Prop
  | here {text : List Char} : arrayBody? (trim text) = some body → trim body ≠ [] → LongArray body text
  | within {text inner : List Char} : arrayBody? (trim text) = some inner → trim inner ≠ [] →
      LongArray body inner → LongArray body text
  | item {text inner item : List Char} : arrayBody? (trim text) = none →
      enclosed? '[' ']' (trim text) = some inner → item ∈ items inner → LongArray body item →
      LongArray body text

theorem longArray_iff_of_array {inner : List Char} (array : arrayBody? (trim text) = some inner)
    (filled : trim inner ≠ []) : LongArray body text ↔ body = inner ∨ LongArray body inner := by
  constructor
  · intro long
    cases long with
    | here found => exact .inl (Option.some.inj (found.symm.trans array))
    | within found _ long =>
      obtain rfl := Option.some.inj (found.symm.trans array)
      exact .inr long
    | item single => simp [array] at single
  · rintro (rfl | long)
    · exact .here array filled
    · exact .within array filled long

theorem longArray_iff_of_list {inner : List Char} (single : arrayBody? (trim text) = none)
    (list : enclosed? '[' ']' (trim text) = some inner) :
    LongArray body text ↔ ∃ item ∈ items inner, LongArray body item := by
  constructor
  · intro long
    cases long with
    | here found => simp [single] at found
    | within found => simp [single] at found
    | item _ found member long =>
      obtain rfl := Option.some.inj (found.symm.trans list)
      exact ⟨_, member, long⟩
  · rintro ⟨item, member, long⟩
    exact .item single list member long

/-- A text is read again as the same token exactly if no array in the long spelling holds an item that is
printed with a comma outside brackets. -/
theorem parseChars_print_iff (text : List Char) :
    parseChars (print (parseChars text)).toList = parseChars text ↔
      ∀ body, LongArray body text → Undivided (print (parseChars body)).toList := by
  have strings : WellFormed (.arrayOf (.named "String")) := .arrayOf (.named (by decide))
  induction text using parseChars.induct with
  | case1 text body array empty =>
    rw [parseChars_of_array array, if_pos empty]
    refine iff_of_true strings.parseChars_print fun other long => ?_
    cases long with
    | here found filled =>
      obtain rfl := Option.some.inj (found.symm.trans array)
      exact absurd (List.isEmpty_iff.mp empty) filled
    | within found filled =>
      obtain rfl := Option.some.inj (found.symm.trans array)
      exact absurd (List.isEmpty_iff.mp empty) filled
    | item single => simp [array] at single
  | case2 text body array filled ih =>
    have some_text : trim body ≠ [] := fun empty => filled (List.isEmpty_iff.mpr empty)
    rw [parseChars_of_array array, if_neg filled, parseChars_print_arrayOf_iff some_text]
    simp only [longArray_iff_of_array array some_text, forall_eq_or_imp]
    exact and_congr_right' ih
  | case3 text single body list ih =>
    rw [parseChars_of_list single list, parseChars_print_ofParts_iff]
    simp only [longArray_iff_of_list single list, forall_exists_index, and_imp]
    constructor
    · exact fun each other item member => (ih ⟨item, member⟩).mp (each item member) other
    · exact fun each item member => (ih ⟨item, member⟩).mpr fun other => each other item member
  | case4 text single plain =>
    have name : parseChars (trim text) = .named (String.ofList (trim text)) := by
      rw [parseChars_of_name] <;> rw [trim_trim] <;> assumption
    rw [parseChars_of_name single plain, print, String.toList_ofList]
    refine iff_of_true name fun other long => ?_
    cases long with
    | here found => simp [single] at found
    | within found => simp [single] at found
    | item _ found => simp [plain] at found

/-- Any text is read again, from what is printed of it, as the token that it was read as, exactly if no
array in the long spelling, at any depth of the text, holds an item that is printed with a comma outside
brackets. So it is in every text where no array in the long spelling has such a comma. -/
theorem parse_print_parse (text : String) :
    (parse (parse text).print = parse text ↔
        ∀ body, LongArray body text.toList → Undivided (parseChars body).print.toList) ∧
      ((∀ body, LongArray body text.toList → Undivided body) →
        parse (parse text).print = parse text) := by
  have exact_iff := parseChars_print_iff text.toList
  refine ⟨exact_iff, fun whole => exact_iff.mpr fun body long => ?_⟩
  obtain ⟨behind, closed⟩ := undivided_iff.mp (whole body long)
  exact undivided_iff.mpr ⟨behind, (tidied_print body).depth 0 behind closed⟩

/-- An array in the long spelling takes several types for one name, and is printed as alternatives. -/
theorem long_array_hides_alternatives :
    parse "Array[String, Integer]" = .arrayOf (.named "String, Integer") ∧
      (parse "Array[String, Integer]").print = "[String, Integer]" ∧
      parse "[String, Integer]" = .oneOf [.named "String", .named "Integer"] ∧
      ¬∀ text, parse (parse text).print = parse text := by
  have inner : parseChars "String, Integer".toList = .named "String, Integer" :=
    parseChars_of_name (by decide) (by decide)
  have long : parse "Array[String, Integer]" = .arrayOf (.named "String, Integer") := by
    have array : arrayBody? (trim "Array[String, Integer]".toList) = some "String, Integer".toList := by
      decide
    refine (parseChars_of_array array).trans ?_
    rw [if_neg (by decide), inner]
  have plain (name : String) (spelled : PlainName name) : parseChars name.toList = .named name :=
    parseChars_name spelled
  have short : parse "[String, Integer]" = .oneOf [.named "String", .named "Integer"] := by
    have parts : items "String, Integer".toList = ["String".toList, "Integer".toList] := by decide
    refine (parseChars_enclosed "String, Integer".toList).trans ?_
    rw [parts, List.map_cons, List.map_singleton, plain "String" (by decide), plain "Integer" (by decide)]
    rfl
  have printed : (parse "Array[String, Integer]").print = "[String, Integer]" := by
    rw [long]
    decide
  refine ⟨long, printed, short, fun always => ?_⟩
  have same := always "Array[String, Integer]"
  rw [printed, short, long] at same
  cases same

end ApiDoc.TypeToken
