import ApiDoc.Text.Blank
import ApiDoc.Text.Pieces

/-! # Type tokens

A type token is a declared type as routes and entities write it: a name, an array `[T]` (also
written `Array[T]`), or several alternatives `[A, B]`. `parse` reads every text and `print` writes
the bracket form. The list form of a manifest is turned into a token by `ofParts`.
-/

namespace ApiDoc

open Text (trim enclosed? dropLast?)

/-- A declared type. -/
inductive TypeToken where
  | named (name : String)
  | arrayOf (item : TypeToken)
  | oneOf (variants : List TypeToken)
deriving Repr, Inhabited

namespace TypeToken

mutual

def same : TypeToken → TypeToken → Bool
  | named a, named b => a == b
  | arrayOf a, arrayOf b => same a b
  | oneOf as, oneOf bs => sameAll as bs
  | _, _ => false

def sameAll : List TypeToken → List TypeToken → Bool
  | [], [] => true
  | a :: as, b :: bs => same a b && sameAll as bs
  | _, _ => false

end

mutual

theorem eq_of_same : ∀ {a b : TypeToken}, same a b = true → a = b
  | named _, named _, agree => by simpa [same] using agree
  | arrayOf a, arrayOf b, agree => by
    have items : a = b := eq_of_same (by simpa [same] using agree)
    rw [items]
  | oneOf as, oneOf bs, agree => by
    have variants : as = bs := eq_of_sameAll (by simpa [same] using agree)
    rw [variants]
  | named _, arrayOf _, agree => by simp [same] at agree
  | named _, oneOf _, agree => by simp [same] at agree
  | arrayOf _, named _, agree => by simp [same] at agree
  | arrayOf _, oneOf _, agree => by simp [same] at agree
  | oneOf _, named _, agree => by simp [same] at agree
  | oneOf _, arrayOf _, agree => by simp [same] at agree

theorem eq_of_sameAll : ∀ {as bs : List TypeToken}, sameAll as bs = true → as = bs
  | [], [], _ => rfl
  | [], _ :: _, agree => by simp [sameAll] at agree
  | _ :: _, [], agree => by simp [sameAll] at agree
  | a :: as, b :: bs, agree => by
    simp only [sameAll, Bool.and_eq_true] at agree
    rw [eq_of_same agree.1, eq_of_sameAll agree.2]

end

mutual

theorem same_self : ∀ a : TypeToken, same a a = true
  | named _ => by simp [same]
  | arrayOf a => by simp [same, same_self a]
  | oneOf as => by simp [same, sameAll_self as]

theorem sameAll_self : ∀ as : List TypeToken, sameAll as as = true
  | [] => rfl
  | a :: as => by simp [sameAll, same_self a, sameAll_self as]

end

instance : DecidableEq TypeToken := fun a b =>
  if agree : same a b then isTrue (eq_of_same agree)
  else isFalse fun equal => agree (equal ▸ same_self a)

mutual

def print : TypeToken → String
  | named name => name
  | arrayOf item => "[" ++ print item ++ "]"
  | oneOf variants => "[" ++ printAll variants ++ "]"

/-- The text forms of alternatives, with commas between them. -/
def printAll : List TypeToken → String
  | [] => ""
  | [variant] => print variant
  | variant :: next :: rest => print variant ++ ", " ++ printAll (next :: rest)

end

/-- The token for a list of types: none is an array of strings, one is an array of it, several are
alternatives. -/
def ofParts : List TypeToken → TypeToken
  | [] => arrayOf (named "String")
  | [part] => arrayOf part
  | parts => oneOf parts

/-- Cuts a text at the commas outside brackets, `depth` brackets being open. A closing bracket
without an open one does not count. -/
def splitCommas (depth : Nat) : List Char → List (List Char)
  | [] => [[]]
  | c :: rest =>
    if c = ',' ∧ depth = 0 then [] :: splitCommas 0 rest
    else
      let inner := if c = '[' then depth + 1 else if c = ']' then depth - 1 else depth
      (splitCommas inner rest).modifyHead (c :: ·)

/-- The non-empty items between the commas outside brackets, without blanks around them. -/
def items (text : List Char) : List (List Char) :=
  ((splitCommas 0 text).map trim).filter fun item => !item.isEmpty

/-- What stands in an array written `Array[…]`. -/
def arrayBody? : List Char → Option (List Char)
  | 'A' :: 'r' :: 'r' :: 'a' :: 'y' :: '[' :: rest => dropLast? ']' rest
  | _ => none

theorem length_dropLast?_lt {close : Char} {text body : List Char}
    (found : dropLast? close text = some body) : body.length < text.length := by
  unfold dropLast? at found
  split at found
  · next last =>
    obtain rfl := Option.some.inj found
    cases text with
    | nil => simp at last
    | cons => simp
  · simp at found

theorem length_arrayBody?_lt {text body : List Char} (found : arrayBody? text = some body) :
    body.length < text.length := by
  unfold arrayBody? at found
  split at found
  · have := length_dropLast?_lt found
    simp only [List.length_cons]
    omega
  · simp at found

theorem length_enclosed?_lt {opening close : Char} {text body : List Char}
    (found : enclosed? opening close text = some body) : body.length < text.length := by
  unfold enclosed? at found
  split at found
  · simp at found
  · split at found
    · have := length_dropLast?_lt found
      simp only [List.length_cons]
      omega
    · simp at found

theorem length_le_of_mem_splitCommas (text : List Char) :
    ∀ (depth : Nat) (part : List Char), part ∈ splitCommas depth text →
      part.length ≤ text.length := by
  induction text with
  | nil => intro depth part mem; simp [splitCommas] at mem; simp [mem]
  | cons c rest ih =>
    intro depth part mem
    unfold splitCommas at mem
    split at mem
    · rcases List.mem_cons.1 mem with rfl | mem
      · simp
      · exact Nat.le_succ_of_le (ih _ _ mem)
    · cases parts : splitCommas (if c = '[' then depth + 1 else if c = ']' then depth - 1 else depth) rest with
      | nil => simp [parts] at mem
      | cons first more =>
        simp only [parts, List.modifyHead_cons, List.mem_cons] at mem
        rcases mem with rfl | mem
        · have := ih _ first (parts ▸ List.mem_cons_self)
          simp only [List.length_cons]
          omega
        · exact Nat.le_succ_of_le (ih _ _ (parts ▸ List.mem_cons_of_mem _ mem))

theorem length_le_of_mem_items {text item : List Char} (mem : item ∈ items text) :
    item.length ≤ text.length := by
  unfold items at mem
  obtain ⟨part, inParts, rfl⟩ := List.mem_map.1 (List.mem_filter.1 mem).1
  exact Nat.le_trans (Text.length_trim_le part) (length_le_of_mem_splitCommas text 0 part inParts)

def parseChars (text : List Char) : TypeToken :=
  match _array : arrayBody? (trim text) with
  | some body =>
    if (trim body).isEmpty then arrayOf (named "String") else arrayOf (parseChars body)
  | none =>
    match _list : enclosed? '[' ']' (trim text) with
    | some body => ofParts ((items body).attach.map fun item => parseChars item.1)
    | none => named (String.ofList (trim text))
termination_by text.length
decreasing_by
  · exact Nat.lt_of_lt_of_le (length_arrayBody?_lt _array) (Text.length_trim_le text)
  · exact Nat.lt_of_le_of_lt (length_le_of_mem_items item.2)
      (Nat.lt_of_lt_of_le (length_enclosed?_lt _list) (Text.length_trim_le text))

theorem parseChars_of_array {text body : List Char} (array : arrayBody? (trim text) = some body) :
    parseChars text =
      if (trim body).isEmpty then arrayOf (named "String") else arrayOf (parseChars body) := by
  rw [parseChars]
  split
  · next found =>
    obtain rfl := Option.some.inj (array.symm.trans found)
    rfl
  · next absent => simp [array] at absent

theorem parseChars_of_list {text body : List Char} (single : arrayBody? (trim text) = none)
    (list : enclosed? '[' ']' (trim text) = some body) :
    parseChars text = ofParts ((items body).map parseChars) := by
  rw [parseChars]
  split
  · next found => simp [single] at found
  · split
    · next found =>
      obtain rfl := Option.some.inj (list.symm.trans found)
      rw [List.attach_map_val (f := parseChars)]
    · next absent => simp [list] at absent

theorem parseChars_of_name {text : List Char} (single : arrayBody? (trim text) = none)
    (plain : enclosed? '[' ']' (trim text) = none) :
    parseChars text = named (String.ofList (trim text)) := by
  rw [parseChars]
  split
  · next found => simp [single] at found
  · split
    · next found => simp [plain] at found
    · rfl

def parse (text : String) : TypeToken := parseChars text.toList

end TypeToken

end ApiDoc
