import ApiDoc.Manifest
import ApiDoc.Proofs.Type.Brackets
import Mathlib.Data.List.Forall2

/-! # The two forms of a type token

A declared type is written as a text in the bracket notation or as a list of types. A token whose
names the brackets and commas cannot be mistaken in, and whose alternatives are several, is read
back from both (`parse_print_listForm`).

What carries the text form is that every printed text closes the brackets that it opens, whatever is
nested in it, so that the commas between the alternatives are the only ones outside of brackets.
-/

namespace ApiDoc.TypeToken

open Text (trim isBlank enclosed? dropLast?)

variable {token : TypeToken} {tokens : List TypeToken} {text : List Char}

/-- A name that the bracket notation can carry. -/
structure PlainName (name : String) : Prop where
  filled : name ≠ ""
  starts : ∀ c ∈ name.toList.head?, isBlank c = false
  ends : ∀ c ∈ name.toList.getLast?, isBlank c = false
  unbroken : ∀ c ∈ name.toList, c ≠ '[' ∧ c ≠ ']' ∧ c ≠ ','

theorem plainName_iff {name : String} : PlainName name ↔ name ≠ "" ∧
    name.toList.head?.all (!isBlank ·) = true ∧ name.toList.getLast?.all (!isBlank ·) = true ∧
      name.toList.all (fun c => c ≠ '[' && c ≠ ']' && c ≠ ',') = true := by
  simp only [Option.all_eq_true, List.all_eq_true, Bool.not_eq_true', Bool.and_eq_true, decide_eq_true_iff,
    and_assoc]
  constructor
  · exact fun plain => ⟨plain.filled, plain.starts, plain.ends, plain.unbroken⟩
  · exact fun ⟨filled, starts, ends, unbroken⟩ => ⟨filled, starts, ends, unbroken⟩

instance (name : String) : Decidable (PlainName name) := decidable_of_iff _ plainName_iff.symm

/-- Tokens whose names the bracket notation can carry and whose alternatives are several. -/
inductive WellFormed : TypeToken → Prop
  | named {name : String} (plain : PlainName name) : WellFormed (.named name)
  | arrayOf {item : TypeToken} (within : WellFormed item) : WellFormed (.arrayOf item)
  | oneOf {variants : List TypeToken} (several : 2 ≤ variants.length)
      (each : ∀ variant ∈ variants, WellFormed variant) : WellFormed (.oneOf variants)

/-- The documents in the list form of a token: a name is a string, an array a list of one type and
alternatives are a list of them. -/
inductive ListForm : TypeToken → Document → Prop
  | named {name : String} {document : Document} (spells : document.ownString? = some name) :
      ListForm (.named name) document
  | arrayOf {item : TypeToken} {document : Document} {positional : Bool}
      (within : ListForm item document) : ListForm (.arrayOf item) (.list [document] positional)
  | oneOf {variants : List TypeToken} {documents : List Document} {positional : Bool}
      (each : List.Forall₂ ListForm variants documents) :
      ListForm (.oneOf variants) (.list documents positional)

/-- A list of texts inside of a bracket closes its brackets if each of them does. -/
theorem depthBehind?_printAll (each : ∀ token ∈ tokens, ∀ depth,
      depthBehind? depth (print token).toList = some depth) (depth : Nat) :
    depthBehind? (depth + 1) (printAll tokens).toList = some (depth + 1) := by
  induction tokens with
  | nil => rfl
  | cons first rest ih =>
    cases rest with
    | nil => exact each first List.mem_cons_self (depth + 1)
    | cons second rest =>
      have comma : depthBehind? (depth + 1) [',', ' '] = some (depth + 1) := by simp [depthBehind?]
      have others := ih fun token member => each token (List.mem_cons_of_mem first member)
      rw [toList_printAll_cons, depthBehind?_append, each first List.mem_cons_self, Option.bind_some]
      change depthBehind? (depth + 1) ([',', ' '] ++ (printAll (second :: rest)).toList) = some (depth + 1)
      rw [depthBehind?_append, comma, Option.bind_some, others]

/-- The printed text of a token closes its brackets, and has no comma outside of them. -/
theorem WellFormed.depthBehind?_print (wellFormed : token.WellFormed) (depth : Nat) :
    depthBehind? depth (print token).toList = some depth := by
  induction wellFormed generalizing depth with
  | named plain => exact Unpunctuated.depthBehind? plain.unbroken depth
  | arrayOf within ih =>
    rw [toList_print_arrayOf, depthBehind?_enclosed, ih]
    rfl
  | oneOf several each ih =>
    rw [toList_print_oneOf, depthBehind?_enclosed, depthBehind?_printAll ih]
    rfl

/-- The printed text of a token has no blanks around it. -/
theorem WellFormed.trim_print (wellFormed : token.WellFormed) :
    trim (print token).toList = (print token).toList := by
  cases wellFormed with
  | named plain => exact trim_eq_self plain.starts plain.ends
  | arrayOf within =>
    rw [toList_print_arrayOf]
    exact trim_enclosed _
  | oneOf several each =>
    rw [toList_print_oneOf]
    exact trim_enclosed _

theorem WellFormed.print_ne_nil (wellFormed : token.WellFormed) : (print token).toList ≠ [] := by
  cases wellFormed with
  | named plain => simpa [print] using plain.filled
  | arrayOf within => simp [print]
  | oneOf several each => simp [print]

/-- The items of a list of texts are these texts. -/
theorem items_printAll (each : ∀ token ∈ tokens, token.WellFormed) (filled : tokens ≠ []) :
    items (printAll tokens).toList = tokens.map fun token => (print token).toList := by
  have closed : Cut 0 (tokens.map fun token => (print token).toList) := by
    refine cut_of_closed (List.forall_mem_map.mpr fun token member => ?_) (by simpa using filled)
    exact (each token member).depthBehind?_print 0
  exact items_printAll_of_cut closed fun token member =>
    ⟨(each token member).trim_print, (each token member).print_ne_nil⟩

theorem parseChars_enclosed (text : List Char) :
    parseChars ('[' :: (text ++ [']'])) = ofParts ((items text).map parseChars) := by
  refine parseChars_of_list ?_ ?_
  · simp [trim_enclosed, arrayBody?]
  · simp [trim_enclosed, enclosed?, dropLast?]

theorem parseChars_name {name : String} (plain : PlainName name) :
    parseChars name.toList = .named name := by
  have trimmed : trim name.toList = name.toList := trim_eq_self plain.starts plain.ends
  have unopened : '[' ∉ name.toList := fun member => (plain.unbroken _ member).1 rfl
  rw [parseChars_of_name, trimmed, String.ofList_toList]
  · rw [trimmed]
    unfold arrayBody?
    split
    · next opened => simp [opened] at unopened
    · rfl
  · rw [trimmed]
    unfold enclosed?
    split
    · rfl
    · next c rest here =>
      refine if_neg fun opens => ?_
      simp [here, opens] at unopened

theorem ofParts_of_several (several : 2 ≤ tokens.length) : ofParts tokens = .oneOf tokens := by
  match tokens with
  | [] => simp at several
  | [_] => simp at several
  | _ :: _ :: _ => rfl

/-- The printed text of a token is read back as the token. -/
theorem WellFormed.parseChars_print (wellFormed : token.WellFormed) :
    parseChars (print token).toList = token := by
  induction wellFormed with
  | named plain => exact parseChars_name plain
  | @arrayOf item within ih =>
    have each : ∀ token ∈ [item], token.WellFormed := by simpa using within
    have single : items (print item).toList = [(print item).toList] := by
      simpa [printAll] using items_printAll each (List.cons_ne_nil item [])
    rw [toList_print_arrayOf, parseChars_enclosed, single]
    exact congrArg (fun part => ofParts [part]) ih
  | @oneOf variants several each ih =>
    have filled : variants ≠ [] := List.ne_nil_of_length_pos (by omega)
    have parts : (variants.map fun token => (print token).toList).map parseChars = variants := by
      rw [List.map_map]
      exact (List.map_congr_left ih).trans (List.map_id variants)
    rw [toList_print_oneOf, parseChars_enclosed, items_printAll each filled, parts,
      ofParts_of_several several]

theorem typeToken?_of_ownString? {document : Document} {spelling : String}
    (spells : document.ownString? = some spelling) : document.typeToken? = some (parse spelling) := by
  cases document with
  | text | plain =>
    rw [Document.typeToken?, spells]
    · rfl
    · intro items positional same
      cases same
  | _ => cases spells

theorem typeTokens?_of_listForm {documents : List Document}
    (reads : ∀ token ∈ tokens, ∀ document, ListForm token document → document.typeToken? = some token)
    (each : List.Forall₂ ListForm tokens documents) : Document.typeTokens? documents = some tokens := by
  induction each with
  | nil => rfl
  | cons form _ ih =>
    have here := reads _ List.mem_cons_self _ form
    have further := ih fun token member => reads token (List.mem_cons_of_mem _ member)
    simp [Document.typeTokens?, here, further]

/-- A document in the list form of a token is read as the token. -/
theorem WellFormed.typeToken?_of_listForm (wellFormed : token.WellFormed) {document : Document}
    (form : ListForm token document) : document.typeToken? = some token := by
  induction wellFormed generalizing document with
  | named plain =>
    cases form with
    | named spells =>
      rw [typeToken?_of_ownString? spells]
      exact congrArg some (parseChars_name plain)
  | arrayOf within ih =>
    cases form with
    | arrayOf form => simp [Document.typeToken?, Document.typeTokens?, ih form, ofParts]
  | oneOf several each ih =>
    cases form with
    | oneOf forms =>
      rw [Document.typeToken?, typeTokens?_of_listForm (fun token member _ => ih token member) forms]
      exact congrArg some (ofParts_of_several several)

/-- Every token has a list form. -/
theorem WellFormed.exists_listForm (wellFormed : token.WellFormed) :
    ∃ document, ListForm token document := by
  induction wellFormed with
  | @named name plain => exact ⟨.text name, .named rfl⟩
  | arrayOf within ih =>
    obtain ⟨document, form⟩ := ih
    exact ⟨.list [document] true, .arrayOf form⟩
  | @oneOf variants several each ih =>
    clear several each
    suffices forms : ∃ documents, List.Forall₂ ListForm variants documents by
      obtain ⟨documents, forms⟩ := forms
      exact ⟨.list documents true, .oneOf forms⟩
    induction variants with
    | nil => exact ⟨[], .nil⟩
    | cons variant rest more =>
      obtain ⟨document, form⟩ := ih variant List.mem_cons_self
      obtain ⟨documents, forms⟩ := more fun token member => ih token (List.mem_cons_of_mem variant member)
      exact ⟨document :: documents, .cons form forms⟩

/-- A token whose names are plain and that has several alternatives wherever it has any is read back from the
text it is printed as, and from every document in its list form. So both forms of a manifest denote
one type. -/
theorem parse_print_listForm (token : TypeToken) (wellFormed : token.WellFormed) :
    parse token.print = token ∧
      (∀ document : Document, document.ownString? = some token.print →
        document.typeToken? = some token) ∧
      (∃ document, ListForm token document) ∧
      ∀ document, ListForm token document → document.typeToken? = some token := by
  have read : parse token.print = token := wellFormed.parseChars_print
  refine ⟨read, fun document spells => ?_, wellFormed.exists_listForm, fun document form => ?_⟩
  · rw [typeToken?_of_ownString? spells, read]
  · exact wellFormed.typeToken?_of_listForm form

theorem parse_print_listForm_nested :
    let token : TypeToken :=
      .oneOf [.arrayOf (.named "Line item"), .named "File", .oneOf [.named "Array", .arrayOf (.named "Owner")]]
    let listed : Document :=
      .list [.list [.plain "Line item"] false, .text "File",
        .list [.text "Array", .list [.plain "Owner"] true] false] true
    token.WellFormed ∧ token.print = "[[Line item], File, [Array, [Owner]]]" ∧
      parse "[[Line item], File, [Array, [Owner]]]" = token ∧ listed.typeToken? = some token := by
  intro token listed
  have printed : token.print = "[[Line item], File, [Array, [Owner]]]" := by decide
  have wellFormed : token.WellFormed := by
    have lineItem : PlainName "Line item" := by decide
    have file : PlainName "File" := by decide
    have array : PlainName "Array" := by decide
    have owner : PlainName "Owner" := by decide
    have inner : WellFormed (.oneOf [.named "Array", .arrayOf (.named "Owner")]) := by
      refine .oneOf (by decide) ?_
      simpa using ⟨.named array, .arrayOf (.named owner)⟩
    refine .oneOf (by decide) ?_
    simpa using ⟨.arrayOf (.named lineItem), .named file, inner⟩
  have form : ListForm token listed := by
    have lineItem : ListForm (.named "Line item") (.plain "Line item") := .named (by decide)
    have owner : ListForm (.named "Owner") (.plain "Owner") := .named (by decide)
    have inner : List.Forall₂ ListForm [.named "Array", .arrayOf (.named "Owner")]
        [.text "Array", .list [.plain "Owner"] true] := .cons (.named rfl) (.cons (.arrayOf owner) .nil)
    exact .oneOf (.cons (.arrayOf lineItem) (.cons (.named rfl) (.cons (.oneOf inner) .nil)))
  obtain ⟨read, -, -, reads⟩ := parse_print_listForm token wellFormed
  exact ⟨wellFormed, printed, printed ▸ read, reads listed form⟩

end ApiDoc.TypeToken
