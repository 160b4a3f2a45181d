import ApiDoc.Document

/-! # Tokens of YAML texts

A YAML text is cut into tokens that make its indentation explicit: a block opens where a line is
indented deeper than the block around it, and closes where a line is indented less. What stands
before a colon is known as a key only once the colon is met, so the place of a possible key is
kept, and the key token is put there afterwards. A possible key is at most one line long and 1024
bytes of UTF-8; inside a block, one that starts a line has to become a key.

Anchors, aliases, tags and directives are not part of the notation that is read.
-/

namespace ApiDoc.Yaml

/-- A token. -/
inductive Token where
  | documentStart
  | documentEnd
  | blockSequence
  | blockMapping
  | blockEnd
  | blockEntry
  | key
  | value
  | flowSequence
  | flowSequenceEnd
  | flowMapping
  | flowMappingEnd
  | flowEntry
  | scalar (content : Document)

def isBlank (c : Char) : Bool := c = ' ' ∨ c = '\t'

/-- Line ends, other spellings of the plain one being replaced before. -/
def isBreak (c : Char) : Bool := c = '\n' ∨ c = '\u2028' ∨ c = '\u2029'

/-- Whether a text is over or goes on with a blank or a line end. -/
def atGap : List Char → Bool
  | [] => true
  | c :: _ => isBlank c || isBreak c

def isAllowed (c : Char) : Bool :=
  let n := c.toNat
  n == 0x9 || n == 0xa || n == 0xd || (0x20 ≤ n && n ≤ 0x7e) || n == 0x85 ||
  (0xa0 ≤ n && n ≤ 0xfffd) || 0x10000 ≤ n

/-- The text with one spelling of the plain line end. -/
def normalizeBreaks : List Char → List Char
  | '\r' :: '\n' :: rest => '\n' :: normalizeBreaks rest
  | c :: rest => (if c = '\r' ∨ c = '\u0085' then '\n' else c) :: normalizeBreaks rest
  | [] => []

/-- Whether a line starts with a mark that separates documents. -/
def atDocumentMark : List Char → Bool
  | '-' :: '-' :: '-' :: rest => atGap rest
  | '.' :: '.' :: '.' :: rest => atGap rest
  | _ => false

def utf8Len : List Char → Nat
  | [] => 0
  | c :: rest => utf8Len rest + c.utf8Size

/-- A position in a text: what follows, and where it stands. The offset counts bytes of UTF-8, the
column characters. -/
structure Cursor where
  rest : List Char
  offset : Nat := 0
  line : Nat := 0
  column : Nat := 0

namespace Cursor

def advance (cursor : Cursor) (count : Nat) : Cursor :=
  { cursor with
    rest := cursor.rest.drop count
    offset := cursor.offset + utf8Len (cursor.rest.take count)
    column := cursor.column + count }

def nextLine (cursor : Cursor) : Cursor :=
  { rest := cursor.rest.drop 1
    offset := cursor.offset + utf8Len (cursor.rest.take 1)
    line := cursor.line + 1
    column := 0 }

/-- Goes over the characters of a line that satisfy `p`. -/
def skipWhile (p : Char → Bool) (cursor : Cursor) : Cursor :=
  cursor.advance (cursor.rest.takeWhile p).length

/-- The characters up to the end of the line, and the position there. -/
def restOfLine (cursor : Cursor) : List Char × Cursor :=
  let text := cursor.rest.takeWhile fun c => !isBreak c
  (text, cursor.advance text.length)

def atMark (cursor : Cursor) : Bool := cursor.column == 0 && atDocumentMark cursor.rest

end Cursor

/-- Blanks and line ends inside a scalar: the blanks before the first line end, the line ends, and
the least column of a tab behind a line end. -/
structure Gap where
  blanks : List Char := []
  breaks : List Char := []
  tabColumn : Option Nat := none

namespace Gap

/-- What a gap stands for: its blanks on one line; a single plain line end is a space, and of
several the first one is dropped. -/
def folded (gap : Gap) : List Char :=
  match gap.breaks with
  | [] => gap.blanks
  | ['\n'] => [' ']
  | '\n' :: more => more
  | breaks => breaks

end Gap

/-- Reads blanks and line ends, at most as many as there are steps. -/
def readGap : Nat → Gap → Cursor → Gap × Cursor
  | 0, gap, cursor => (gap, cursor)
  | steps + 1, gap, cursor =>
    match cursor.rest with
    | [] => (gap, cursor)
    | c :: _ =>
      if isBreak c then
        readGap steps { gap with breaks := gap.breaks ++ [c] } cursor.nextLine
      else if isBlank c then
        let gap :=
          if gap.breaks.isEmpty then { gap with blanks := gap.blanks ++ [c] }
          else if c = '\t' then
            { gap with tabColumn := some (min cursor.column (gap.tabColumn.getD cursor.column)) }
          else gap
        readGap steps gap (cursor.advance 1)
      else (gap, cursor)

/-- The character a single letter behind a backslash stands for. -/
def escaped? (c : Char) : Option Char :=
  [('0', '\x00'), ('a', '\x07'), ('b', '\x08'), ('t', '\t'), ('\t', '\t'), ('n', '\n'),
    ('v', '\x0b'), ('f', '\x0c'), ('r', '\r'), ('e', '\x1b'), (' ', ' '), ('\x22', '\x22'),
    ('/', '/'), ('\x5c', '\x5c'), ('N', '\u0085'), ('_', '\u00a0'), ('L', '\u2028'),
    ('P', '\u2029')].lookup c

/-- How many digits of base sixteen follow a letter behind a backslash. -/
def escapeLength? (c : Char) : Option Nat := [('x', 2), ('u', 4), ('U', 8)].lookup c

/-- Reads an escape behind its backslash: the character, and how many characters it took. -/
def readEscape? : List Char → Option (Char × Nat)
  | [] => none
  | c :: rest =>
    match escapeLength? c with
    | none => (escaped? c).map (·, 1)
    | some length =>
      let digits := rest.take length
      if digits.length = length then
        match Plain.nat? 16 digits with
        | some code => if code.isValidChar then some (Char.ofNat code, length + 1) else none
        | none => none
      else none

/-- Reads the rest of a scalar in single or double quotes. `read` holds what was read, back to
front. -/
def readQuoted? (double : Bool) : Nat → List Char → Cursor → Option (String × Cursor)
  | 0, _, _ => none
  | steps + 1, read, cursor =>
    if cursor.atMark then none
    else
      match cursor.rest with
      | [] => none
      | c :: rest =>
        if double ∧ c = '\x22' then some (String.ofList read.reverse, cursor.advance 1)
        else if double ∧ c = '\x5c' then
          match rest with
          | next :: _ =>
            if isBreak next then
              let (gap, cursor) :=
                readGap cursor.rest.length { breaks := ['\n'] } (cursor.advance 1).nextLine
              readQuoted? double steps ((gap.breaks.drop 1).reverse ++ read) cursor
            else do
              let (c, length) ← readEscape? rest
              readQuoted? double steps (c :: read) (cursor.advance (length + 1))
          | [] => none
        else if !double ∧ c = '\x27' then
          if rest.head? = some '\x27' then
            readQuoted? double steps ('\x27' :: read) (cursor.advance 2)
          else some (String.ofList read.reverse, cursor.advance 1)
        else if isBlank c || isBreak c then
          let (gap, cursor) := readGap cursor.rest.length {} cursor
          readQuoted? double steps (gap.folded.reverse ++ read) cursor
        else readQuoted? double steps (c :: read) (cursor.advance 1)

/-- Characters that end a plain scalar inside brackets. -/
def isFlowMark (c : Char) : Bool := c = ',' ∨ c = '[' ∨ c = ']' ∨ c = '\x7b' ∨ c = '\x7d'

/-- Whether a plain scalar ends before the text. -/
def endsPlain (inFlow : Bool) : List Char → Bool
  | [] => true
  | c :: rest => (c = ':' && atGap rest) || (inFlow && isFlowMark c)

/-- Reads a run of characters without gaps; none if a colon stands before a bracket. -/
def readPlainRun? (inFlow : Bool) : List Char → Option (List Char)
  | [] => some []
  | c :: rest =>
    if isBlank c || isBreak c || endsPlain inFlow (c :: rest) then some []
    else if inFlow ∧ c = ':' ∧ rest.head?.any (fun next => isFlowMark next || next = '?') then none
    else (readPlainRun? inFlow rest).map (c :: ·)

/-- A plain scalar as read: its text, the position behind it, and whether it ended behind a line
end. -/
structure PlainScalar where
  text : List Char
  cursor : Cursor
  acrossLines : Bool

/-- Reads a plain scalar inside a block of indentation `indent`. `gap` was read before and becomes
part of the scalar if the scalar goes on. -/
def readPlain? (inFlow : Bool) (indent : Int) : Nat → List Char → Gap → Cursor →
    Option PlainScalar
  | 0, _, _, _ => none
  | steps + 1, read, gap, cursor =>
    let finished := some ⟨read, cursor, !gap.breaks.isEmpty⟩
    if cursor.atMark || cursor.rest.head? = some '#' then finished
    else do
      let run ← readPlainRun? inFlow cursor.rest
      let read := if run.isEmpty then read else read ++ gap.folded ++ run
      let gap := if run.isEmpty then gap else {}
      let cursor := cursor.advance run.length
      if !cursor.rest.isEmpty && atGap cursor.rest then
        let (gap, cursor) := readGap cursor.rest.length {} cursor
        let tooEarly (column : Nat) : Bool := (column : Int) < indent + 1
        if gap.tabColumn.any tooEarly then none
        else if !inFlow && tooEarly cursor.column then
          some ⟨read, cursor, !gap.breaks.isEmpty⟩
        else readPlain? inFlow indent steps read gap cursor
      else some ⟨read, cursor, !gap.breaks.isEmpty⟩

/-- What becomes of the line ends behind a block scalar. -/
inductive Chomping where
  | strip
  | clip
  | keep
deriving DecidableEq

/-- The header of a block scalar. -/
structure BlockHeader where
  chomping : Chomping := .clip
  increment : Option Nat := none

def chompingOf? (c : Char) : Option Chomping := [('+', Chomping.keep), ('-', .strip)].lookup c

def incrementOf? (c : Char) : Option Nat :=
  if c.isDigit && c != '0' then some (c.toNat - '0'.toNat) else none

/-- Reads the marks behind the indicator of a block scalar; answers how many there are. -/
def readHeader (text : List Char) : BlockHeader × Nat :=
  match text with
  | [] => ({}, 0)
  | a :: rest =>
    let second := rest.head?
    match chompingOf? a with
    | some chomping =>
      match second.bind incrementOf? with
      | some increment => (⟨chomping, some increment⟩, 2)
      | none => ({ chomping }, 1)
    | none =>
      match incrementOf? a with
      | some increment =>
        match second.bind chompingOf? with
        | some chomping => (⟨chomping, some increment⟩, 2)
        | none => ({ increment := some increment }, 1)
      | none => ({}, 0)

/-- Empty lines in front of a line of a block scalar. -/
structure BlockGap where
  breaks : List Char := []
  /-- The deepest column reached. -/
  deepest : Nat := 0

/-- Goes over the indentation and empty lines. Without a known indentation all spaces count. None
if a tab stands in the indentation. -/
def readIndentation? (indent : Option Nat) : Nat → BlockGap → Cursor → Option (BlockGap × Cursor)
  | 0, gap, cursor => some (gap, cursor)
  | steps + 1, gap, cursor =>
    let spaces := (cursor.rest.takeWhile (· == ' ')).length
    let taken :=
      match indent with
      | some indent => min spaces (indent - cursor.column)
      | none => spaces
    let cursor := cursor.advance taken
    let gap := { gap with deepest := max gap.deepest cursor.column }
    let inside : Bool :=
      match indent with
      | some indent => cursor.column < indent
      | none => true
    match cursor.rest with
    | c :: _ =>
      if inside && c = '\t' then none
      else if isBreak c then
        readIndentation? indent steps { gap with breaks := gap.breaks ++ [c] } cursor.nextLine
      else some (gap, cursor)
    | [] => some (gap, cursor)

/-- The content of a block scalar as far as it is read. -/
structure BlockText where
  text : List Char := []
  /-- The line end behind the last line. -/
  lineEnd : List Char := []
  /-- The empty lines behind it. -/
  emptyLines : List Char := []
  /-- Whether the last line started with a blank. -/
  indentedMore : Bool := false

/-- Reads the lines of a block scalar of a known indentation. -/
def readLines? (literal : Bool) (indent : Nat) : Nat → BlockText → Cursor →
    Option (BlockText × Cursor)
  | 0, block, cursor => some (block, cursor)
  | steps + 1, block, cursor =>
    if cursor.column = indent ∧ !cursor.rest.isEmpty then do
      let startsBlank := cursor.rest.head?.any isBlank
      let joint : List Char :=
        if !literal && block.lineEnd == ['\n'] && !block.indentedMore && !startsBlank then
          if block.emptyLines.isEmpty then [' '] else block.emptyLines
        else block.lineEnd ++ block.emptyLines
      let (line, cursor) := cursor.restOfLine
      let lineEnd := cursor.rest.take 1
      let cursor := if lineEnd.isEmpty then cursor else cursor.nextLine
      let (gap, cursor) ← readIndentation? (some indent) cursor.rest.length {} cursor
      readLines? literal indent steps
        ⟨block.text ++ joint ++ line, lineEnd, gap.breaks, startsBlank⟩ cursor
    else some (block, cursor)

/-- Reads a block scalar behind its indicator, inside a block of indentation `indent`. -/
def readBlock? (literal : Bool) (indent : Int) (cursor : Cursor) :
    Option (String × Cursor) := do
  let (header, length) := readHeader cursor.rest
  let cursor := (cursor.advance length).skipWhile isBlank
  let cursor := if cursor.rest.head? = some '#' then cursor.restOfLine.2 else cursor
  let cursor ←
    match cursor.rest with
    | [] => some cursor
    | c :: _ => if isBreak c then some cursor.nextLine else none
  let known : Option Nat := header.increment.map fun increment => indent.toNat + increment
  let (gap, cursor) ← readIndentation? known cursor.rest.length {} cursor
  let column := known.getD (max gap.deepest (max (indent + 1).toNat 1))
  let (block, cursor) ←
    readLines? literal column cursor.rest.length { emptyLines := gap.breaks } cursor
  let ending :=
    match header.chomping with
    | .strip => []
    | .clip => block.lineEnd
    | .keep => block.lineEnd ++ block.emptyLines
  some (String.ofList (block.text ++ ending), cursor)

/-- A place where a key may turn out to start. -/
structure PossibleKey where
  /-- The number of tokens before it. -/
  token : Nat
  line : Nat
  column : Nat
  offset : Nat
  /-- Whether it has to become a key. -/
  required : Bool

/-- The state of scanning a text. -/
structure Scanner where
  cursor : Cursor
  /-- The indentation of the innermost block, -1 outside all. -/
  indent : Int := -1
  /-- The indentations of the blocks around it. -/
  outer : List Int := []
  /-- Whether a key may start here. -/
  keyAllowed : Bool := true
  /-- The possible key of each pair of brackets, the innermost first, and that of the block. -/
  keys : List (Option PossibleKey) := [none]
  tokens : Array Token := #[]

namespace Scanner

def inFlow (scanner : Scanner) : Bool := 1 < scanner.keys.length

def push (scanner : Scanner) (token : Token) : Scanner :=
  { scanner with tokens := scanner.tokens.push token }

def advance (scanner : Scanner) (count : Nat) : Scanner :=
  { scanner with cursor := scanner.cursor.advance count }

def possibleKey? (scanner : Scanner) : Option PossibleKey := scanner.keys.head?.join

/-- Replaces the possible key of the innermost brackets. -/
def setKey (scanner : Scanner) (key : Option PossibleKey) : Scanner :=
  { scanner with keys := key :: scanner.keys.tail }

/-- Gives up the possible key; none if it had to become one. -/
def dropKey? (scanner : Scanner) : Option Scanner :=
  match scanner.possibleKey? with
  | some { required := true, .. } => none
  | _ => some (scanner.setKey none)

/-- Gives up the possible keys that are too far back, on an earlier line or more than 1024 bytes
away; none if one had to become a key. -/
def dropStaleKeys? (scanner : Scanner) : Option Scanner := do
  let keys ← scanner.keys.mapM fun key =>
    match key with
    | none => some none
    | some key =>
      if key.line < scanner.cursor.line ∨ key.offset + 1024 < scanner.cursor.offset then
        if key.required then none else some none
      else some (some key)
  some { scanner with keys }

/-- Notes that a key may start here. -/
def noteKey? (scanner : Scanner) : Option Scanner := do
  if scanner.keyAllowed then
    let scanner ← scanner.dropKey?
    let cursor := scanner.cursor
    let required := !scanner.inFlow && scanner.indent == cursor.column
    some (scanner.setKey
      (some ⟨scanner.tokens.size, cursor.line, cursor.column, cursor.offset, required⟩))
  else some scanner

/-- Closes the blocks that are indented deeper than `column`. -/
def closeBlocks (column : Int) : List Int → Scanner → Scanner
  | [], scanner => scanner
  | indent :: outer, scanner =>
    if column < scanner.indent then
      closeBlocks column outer ({ scanner with indent, outer }.push .blockEnd)
    else scanner

/-- Closes the blocks that end before the position. -/
def unroll (scanner : Scanner) (column : Int) : Scanner :=
  if scanner.inFlow then scanner else closeBlocks column scanner.outer scanner

/-- Opens a block if `column` is deeper than the innermost one, its token becoming number
`token`. -/
def openBlock (scanner : Scanner) (column token : Nat) (start : Token) : Scanner :=
  if !scanner.inFlow && scanner.indent < column then
    { scanner with
      indent := column
      outer := scanner.indent :: scanner.outer
      tokens := scanner.tokens.insertIdxIfInBounds token start }
  else scanner

/-- Goes over blanks, comments and empty lines. -/
def skipGap : Nat → Scanner → Scanner
  | 0, scanner => scanner
  | steps + 1, scanner =>
    let tabs := scanner.inFlow || !scanner.keyAllowed
    let cursor := scanner.cursor.skipWhile fun c => c = ' ' || (tabs && c = '\t')
    let cursor := if cursor.rest.head? = some '#' then cursor.restOfLine.2 else cursor
    if cursor.rest.head?.any isBreak then
      let keyAllowed := scanner.keyAllowed || !scanner.inFlow
      skipGap steps { scanner with cursor := cursor.nextLine, keyAllowed }
    else { scanner with cursor }

def documentMark? (scanner : Scanner) (token : Token) : Option Scanner := do
  let scanner ← (scanner.unroll (-1)).dropKey?
  some (({ scanner with keyAllowed := false }.push token).advance 3)

def openFlow? (scanner : Scanner) (token : Token) : Option Scanner := do
  let scanner ← scanner.noteKey?
  let scanner := { scanner with keys := none :: scanner.keys, keyAllowed := true }
  some ((scanner.push token).advance 1)

def closeFlow? (scanner : Scanner) (token : Token) : Option Scanner := do
  let scanner ← scanner.dropKey?
  let keys := if scanner.inFlow then scanner.keys.tail else scanner.keys
  some (({ scanner with keys, keyAllowed := false }.push token).advance 1)

def comma? (scanner : Scanner) : Option Scanner := do
  let scanner ← scanner.dropKey?
  some (({ scanner with keyAllowed := true }.push .flowEntry).advance 1)

def dash? (scanner : Scanner) : Option Scanner := do
  if !scanner.inFlow && !scanner.keyAllowed then none
  else
    let scanner := scanner.openBlock scanner.cursor.column scanner.tokens.size .blockSequence
    let scanner ← scanner.dropKey?
    some (({ scanner with keyAllowed := true }.push .blockEntry).advance 1)

def question? (scanner : Scanner) : Option Scanner := do
  if !scanner.inFlow && !scanner.keyAllowed then none
  else
    let scanner := scanner.openBlock scanner.cursor.column scanner.tokens.size .blockMapping
    let scanner ← scanner.dropKey?
    some (({ scanner with keyAllowed := !scanner.inFlow }.push .key).advance 1)

def colon? (scanner : Scanner) : Option Scanner := do
  match scanner.possibleKey? with
  | some key =>
    let scanner :=
      { scanner with tokens := scanner.tokens.insertIdxIfInBounds key.token .key }
    let scanner := (scanner.openBlock key.column key.token .blockMapping).setKey none
    some (({ scanner with keyAllowed := false }.push .value).advance 1)
  | none =>
    if !scanner.inFlow && !scanner.keyAllowed then none
    else
      let scanner := scanner.openBlock scanner.cursor.column scanner.tokens.size .blockMapping
      some (({ scanner with keyAllowed := !scanner.inFlow }.push .value).advance 1)

def blockScalar? (scanner : Scanner) (literal : Bool) : Option Scanner := do
  let scanner ← scanner.dropKey?
  let (text, cursor) ← readBlock? literal scanner.indent (scanner.cursor.advance 1)
  some ({ scanner with cursor, keyAllowed := true }.push (.scalar (.text text)))

def quotedScalar? (scanner : Scanner) (double : Bool) : Option Scanner := do
  let scanner ← scanner.noteKey?
  let cursor := scanner.cursor.advance 1
  let (text, cursor) ← readQuoted? double (cursor.rest.length + 1) [] cursor
  some ({ scanner with cursor, keyAllowed := false }.push (.scalar (.text text)))

def plainScalar? (scanner : Scanner) : Option Scanner := do
  let scanner ← scanner.noteKey?
  let plain ← readPlain? scanner.inFlow scanner.indent (scanner.cursor.rest.length + 1) [] {}
    scanner.cursor
  let scanner := { scanner with cursor := plain.cursor, keyAllowed := plain.acrossLines }
  some (scanner.push (.scalar (.plain (String.ofList plain.text))))

/-- Whether a plain scalar may start with the text. -/
def startsPlain (inFlow : Bool) : List Char → Bool
  | [] => false
  | c :: rest =>
    if isBlank c || isBreak c then false
    else if c = '-' then !rest.head?.any isBlank
    else if c = '?' || c = ':' then !inFlow && !atGap rest
    else
      !([',', '[', ']', '\x7b', '\x7d', '#', '&', '*', '!', '|', '>', '\x27', '\x22', '%', '@',
        '\x60'].contains c)

def token? (scanner : Scanner) : Option Scanner :=
  match scanner.cursor.rest with
  | [] => none
  | c :: rest =>
    if scanner.cursor.column = 0 ∧ c = '%' then none
    else if scanner.cursor.atMark then
      scanner.documentMark? (if c = '-' then .documentStart else .documentEnd)
    else if c = '[' then scanner.openFlow? .flowSequence
    else if c = '\x7b' then scanner.openFlow? .flowMapping
    else if c = ']' then scanner.closeFlow? .flowSequenceEnd
    else if c = '\x7d' then scanner.closeFlow? .flowMappingEnd
    else if c = ',' then scanner.comma?
    else if c = '-' ∧ atGap rest then scanner.dash?
    else if c = '?' ∧ (scanner.inFlow ∨ atGap rest) then scanner.question?
    else if c = ':' ∧ (scanner.inFlow ∨ atGap rest) then scanner.colon?
    else if c = '|' ∧ !scanner.inFlow then scanner.blockScalar? true
    else if c = '>' ∧ !scanner.inFlow then scanner.blockScalar? false
    else if c = '\x27' then scanner.quotedScalar? false
    else if c = '\x22' then scanner.quotedScalar? true
    else if startsPlain scanner.inFlow (c :: rest) then scanner.plainScalar?
    else none

/-- Reads all tokens, at most as many as there are steps. -/
def run? : Nat → Scanner → Option (Array Token)
  | 0, _ => none
  | steps + 1, scanner => do
    let scanner ← (skipGap (scanner.cursor.rest.length + 1) scanner).dropStaleKeys?
    if scanner.cursor.rest.isEmpty then
      let scanner ← (scanner.unroll (-1)).dropKey?
      some scanner.tokens
    else run? steps (← (scanner.unroll scanner.cursor.column).token?)

end Scanner

/-- The tokens of a text. A byte order mark in front is no content, but takes a column. -/
def tokens? (text : String) : Option (List Token) :=
  let chars := normalizeBreaks text.toList
  let start : Cursor := { rest := chars }
  let cursor := if chars.head? = some '\ufeff' then start.advance 1 else start
  if chars.all isAllowed then
    (Scanner.run? (chars.length + 1) { cursor }).map Array.toList
  else none

end ApiDoc.Yaml
