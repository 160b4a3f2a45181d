/-! # Cutting texts at a separator

`pieces` cuts a text at every separator and `joined` puts one back between neighbours;
`joined_pieces` says that nothing is lost.
-/

namespace ApiDoc.Text

/-- The parts of a text between the separators, one more than there are separators. -/
def pieces (separator : Char) : List Char → List (List Char)
  | [] => [[]]
  | c :: rest =>
    if c = separator then [] :: pieces separator rest
    else (pieces separator rest).modifyHead (c :: ·)

def joined (separator : Char) : List (List Char) → List Char
  | [] => []
  | [part] => part
  | part :: next :: rest => part ++ separator :: joined separator (next :: rest)

/-- The part of a text before its last `first` that is followed by `second`. -/
def beforeLast? (first second : Char) : List Char → Option (List Char)
  | [] => none
  | c :: rest =>
    match beforeLast? first second rest with
    | some kept => some (c :: kept)
    | none => if c = first ∧ rest.head? = some second then some [] else none

/-- The part of a text behind its last two characters `first` and `second`. -/
def afterLast? (first second : Char) : List Char → Option (List Char)
  | [] => none
  | c :: rest =>
    match afterLast? first second rest with
    | some kept => some kept
    | none => if c = first ∧ rest.head? = some second then some rest.tail else none

/-- What stands before a closing character at the very end. -/
def dropLast? (close : Char) (text : List Char) : Option (List Char) :=
  if text.getLast? = some close then some text.dropLast else none

/-- What stands between an opening character and a closing character at the two ends. -/
def enclosed? (opening close : Char) : List Char → Option (List Char)
  | [] => none
  | c :: rest => if c = opening then dropLast? close rest else none

theorem pieces_ne_nil (separator : Char) (text : List Char) : pieces separator text ≠ [] := by
  induction text with
  | nil => simp [pieces]
  | cons c rest ih =>
    unfold pieces
    split
    · simp
    · cases parts : pieces separator rest with
      | nil => exact absurd parts ih
      | cons => simp

theorem joined_modifyHead (separator : Char) (c : Char) {parts : List (List Char)}
    (some_part : parts ≠ []) :
    joined separator (parts.modifyHead (c :: ·)) = c :: joined separator parts := by
  match parts with
  | [] => exact absurd rfl some_part
  | [part] => simp [joined]
  | part :: next :: rest => simp [joined]

/-- Cutting and joining gives the text back. -/
theorem joined_pieces (separator : Char) (text : List Char) :
    joined separator (pieces separator text) = text := by
  induction text with
  | nil => rfl
  | cons c rest ih =>
    unfold pieces
    split
    · next here =>
      subst here
      cases parts : pieces c rest with
      | nil => exact absurd parts (pieces_ne_nil c rest)
      | cons part more => rw [joined, ← parts, ih]; rfl
    · rw [joined_modifyHead separator c (pieces_ne_nil separator rest), ih]

end ApiDoc.Text
