import ApiDoc.Text.LetterCase

/-! # Words and camel case

Words end at characters that are neither letters nor numbers, where a small letter meets a capital
(`userGroup`), and before the last of several capitals that a small letter follows (`XMLFile`).
Camel case puts the words together: the first in small letters, every other one capitalized.
-/

namespace ApiDoc.Text

/-- The letter case that the word read so far has reached. -/
inductive WordCase where
  /-- No letter with a case was read. -/
  | undecided
  /-- The last cased letter is small. -/
  | lower
  /-- The last cased letter is a capital. -/
  | upper
deriving DecidableEq, Repr

def WordCase.step (reached : WordCase) (c : Char) : WordCase :=
  if isLower c then .lower else if isUpper c then .upper else reached

/-- The words of a run of letters and numbers. `word` holds, back to front, what was read of the
current word and `reached` its case. -/
def caseWords (reached : WordCase) (word : List Char) : List Char → List (List Char)
  | [] => []
  | [c] => [(c :: word).reverse]
  | c :: next :: rest =>
    if reached.step c = .lower ∧ isUpper next then
      (c :: word).reverse :: caseWords .undecided [] (next :: rest)
    else if reached = .upper ∧ isUpper c ∧ isLower next then
      word.reverse :: caseWords .undecided [c] (next :: rest)
    else
      caseWords (reached.step c) (c :: word) (next :: rest)

/-- The maximal runs of letters and numbers; empty runs count. -/
def letterRuns : List Char → List (List Char)
  | [] => [[]]
  | c :: rest =>
    if isAlphanumeric c then (letterRuns rest).modifyHead (c :: ·) else [] :: letterRuns rest

def words (text : List Char) : List (List Char) :=
  (letterRuns text).flatMap (caseWords .undecided [])

/-- A word in small letters; a capital sigma at the end takes its final form. -/
def lowerWord : List Char → List Char
  | [] => []
  | ['\u03a3'] => ['\u03c2']
  | c :: rest => toLower c ++ lowerWord rest

def capitalWord : List Char → List Char
  | [] => []
  | c :: rest => toUpper c ++ lowerWord rest

/-- The words of a text in camel case, starting small. -/
def camelCase (text : List Char) : List Char :=
  match words text with
  | [] => []
  | first :: rest => lowerWord first ++ (rest.map capitalWord).flatten

end ApiDoc.Text
