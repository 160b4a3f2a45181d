import ApiDoc.Document

/-! # Written scalars of YAML texts

A string is written without quotes where that reads back as the same string, in single quotes where
quotes are enough, and in double quotes where characters have to be escaped. A string of several
lines is written as an indented block of them if its blanks survive there.
-/

namespace ApiDoc.Yaml

/-- How a string is written. -/
inductive ScalarStyle where
  | plain
  | singleQuoted
  | doubleQuoted
  /-- The lines of the string, indented. -/
  | literal
deriving DecidableEq, Repr

/-- Whether a character ends a line, in any spelling. -/
def endsLine (c : Char) : Bool :=
  c = '\n' ∨ c = '\r' ∨ c = '\u0085' ∨ c = '\u2028' ∨ c = '\u2029'

def isPrintable (c : Char) : Bool :=
  c = '\n' ∨ (' ' ≤ c ∧ c ≤ '~') ∨
    ('\u00a0' ≤ c ∧ c ≠ '\ufeff' ∧ c ≠ '\ufffe' ∧ c ≠ '\uffff')

/-- Whether a text is over or goes on with a character that parts words. -/
def atWordEnd : List Char → Bool
  | [] => true
  | c :: _ => c = ' ' || c = '\t' || c = '\x00' || endsLine c

def hasNeighbours (p q : Char → Bool) : List Char → Bool
  | c :: next :: rest => (p c && q next) || hasNeighbours p q (next :: rest)
  | _ => false

/-- Whether the start of a text has a meaning of its own in YAML. -/
def startsMarked : List Char → Bool
  | '-' :: '-' :: '-' :: _ => true
  | '.' :: '.' :: '.' :: _ => true
  | c :: rest =>
    ['#', ',', '[', ']', '\x7b', '\x7d', '&', '*', '!', '|', '>', '\x27', '\x22', '%', '@',
      '\x60'].contains c ||
    (['?', ':', '-'].contains c && atWordEnd rest)
  | [] => false

/-- Whether a text holds a colon that would end a key, or the start of a comment; `parted` says
whether a word ended in front of it. -/
def holdsMark (parted : Bool) : List Char → Bool
  | [] => false
  | c :: rest =>
    (c = ':' && atWordEnd rest) || (c = '#' && parted) || holdsMark (atWordEnd (c :: rest)) rest

/-- Whether an unquoted scalar with this spelling reads as the string. -/
def readsAsItself (text : List Char) : Bool :=
  match Plain.value? (String.ofList text) with
  | some (.string _) => !Plain.isZeroPadded text
  | _ => false

/-- Whether a string may stand without quotes. -/
def isPlainSafe (text : List Char) : Bool :=
  readsAsItself text && text.all (fun c => isPrintable c && !endsLine c) &&
  text.head? != some ' ' && text.getLast? != some ' ' && !startsMarked text &&
  !holdsMark false text

/-- Whether a string may stand in single quotes. -/
def isQuoteSafe (text : List Char) : Bool :=
  text.all isPrintable && !hasNeighbours endsLine (· = ' ') text &&
  !hasNeighbours (· = ' ') endsLine text

/-- Whether a string may stand as a block of lines. -/
def isBlockSafe (text : List Char) : Bool :=
  text.all isPrintable && text.getLast? != some ' ' && !hasNeighbours (· = ' ') endsLine text

def ScalarStyle.of (text : List Char) : ScalarStyle :=
  if text.contains '\n' then
    if isBlockSafe text then literal else doubleQuoted
  else if isPlainSafe text then plain
  else if isQuoteSafe text then singleQuoted
  else doubleQuoted

def spaces (count : Nat) : String := String.ofList (List.replicate count ' ')

/-- A number in base sixteen, filled up to `width` digits. -/
def hexText (width n : Nat) : List Char :=
  let digits := (Nat.toDigits 16 n).map Char.toUpper
  List.replicate (width - digits.length) '0' ++ digits

def escapeChar (c : Char) : List Char :=
  if isPrintable c && !endsLine c && c != '\x22' && c != '\x5c' then [c]
  else
    '\x5c' ::
      match c with
      | '\x00' => ['0']
      | '\x07' => ['a']
      | '\x08' => ['b']
      | '\t' => ['t']
      | '\n' => ['n']
      | '\x0b' => ['v']
      | '\x0c' => ['f']
      | '\r' => ['r']
      | '\x1b' => ['e']
      | '\x22' => ['\x22']
      | '\x5c' => ['\x5c']
      | '\u0085' => ['N']
      | '\u2028' => ['L']
      | '\u2029' => ['P']
      | c =>
        if c.toNat ≤ 0xff then 'x' :: hexText 2 c.toNat
        else if c.toNat ≤ 0xffff then 'u' :: hexText 4 c.toNat
        else 'U' :: hexText 8 c.toNat

/-- The text between single quotes: quotes are doubled, and what follows a line end is indented;
`fresh` says whether a line has just ended. -/
def singleQuotedText (indent : Nat) (fresh : Bool) : List Char → List Char
  | [] => if fresh then List.replicate indent ' ' else []
  | c :: rest =>
    if endsLine c then c :: singleQuotedText indent true rest
    else
      (if fresh then List.replicate indent ' ' else []) ++
        (if c = '\x27' then ['\x27', '\x27'] else [c]) ++ singleQuotedText indent false rest

/-- The lines of a block, indented except for empty ones; `fresh` says whether a line has just
ended. -/
def literalText (indent : Nat) (fresh : Bool) : List Char → List Char
  | [] => if fresh then [] else ['\n']
  | c :: rest =>
    if endsLine c then c :: literalText indent true rest
    else
      (if fresh then List.replicate indent ' ' else []) ++ c :: literalText indent false rest

/-- What is said of a block of lines up front: its indentation if it starts with a blank, and what
becomes of the line ends behind its last line. -/
def blockHints (text : List Char) : String :=
  let startsBlank := text.head?.any fun c => c = ' ' || endsLine c
  let indentation := if startsBlank then "2" else ""
  let ending :=
    match text.reverse with
    | last :: rest =>
      if !endsLine last then "-"
      else if rest.head?.all endsLine then "+"
      else ""
    | [] => "-"
  indentation ++ ending

/-- A string as a scalar whose further lines are indented by `indent`, up to the end of its last
line. -/
def stringText (indent : Nat) (text : String) : String :=
  let chars := text.toList
  match ScalarStyle.of chars with
  | .plain => text ++ "\n"
  | .singleQuoted => "'" ++ String.ofList (singleQuotedText indent false chars) ++ "'\n"
  | .doubleQuoted => "\"" ++ String.ofList (chars.flatMap escapeChar) ++ "\"\n"
  | .literal => "|" ++ blockHints chars ++ "\n" ++ String.ofList (literalText indent true chars)

def keyText (text : String) : String :=
  let chars := text.toList
  match ScalarStyle.of chars with
  | .plain => text
  | .singleQuoted => "'" ++ String.ofList (singleQuotedText 0 false chars) ++ "'"
  | .doubleQuoted | .literal => "\"" ++ String.ofList (chars.flatMap escapeChar) ++ "\""

/-- Whether a key may stand in front of its colon: it is one line, and a short one. -/
def isSimpleKey (text : String) : Bool := !text.toList.any endsLine && text.utf8ByteSize ≤ 128

end ApiDoc.Yaml
