import ApiDoc.Yaml.Token

/-! # Reading YAML texts

A text of one document becomes a tree of scalars, lists and records. A missing value is an empty
plain scalar, and a text without any content is one too. Containers inside 128 others have no
value. This is a reader of a part of YAML: a text with anchors, aliases, tags or directives is not
read. Programs take it as one of their codecs, and what is said of them holds for any other reader.

Every reader takes the rest of the tokens and answers what it read with what follows; the bound on
the number of steps is met by the number of tokens.
-/

namespace ApiDoc.Yaml

def missing : Document := .plain ""

/-- The number of containers around the innermost readable one. -/
def maxDepth : Nat := 128

def contained (depth : Nat) (document : Document) : Document :=
  if depth < maxDepth then document else .unreadable

/-- Whether a missing value stands in front of the tokens, as the key or the value of a block. -/
def missingInMapping : List Token → Bool
  | .key :: _ | .value :: _ | .blockEnd :: _ => true
  | _ => false

/-- Whether a missing item stands in front of the tokens. -/
def missingItem : List Token → Bool
  | .blockEntry :: _ | .blockEnd :: _ => true
  | _ => false

/-- Whether a missing item of a list without an indentation of its own stands in front of the
tokens. -/
def missingFlatItem : List Token → Bool
  | .blockEntry :: _ | .key :: _ | .value :: _ | .blockEnd :: _ => true
  | _ => false

/-- Whether a missing key stands in front of the tokens, inside brackets. -/
def missingFlowKey : List Token → Bool
  | .value :: _ | .flowEntry :: _ | .flowSequenceEnd :: _ | .flowMappingEnd :: _ => true
  | _ => false

/-- Whether a missing value stands in front of the tokens, inside brackets. -/
def missingFlowValue : List Token → Bool
  | .flowEntry :: _ | .flowSequenceEnd :: _ | .flowMappingEnd :: _ => true
  | _ => false

/-- Where a node stands. -/
inductive Site where
  /-- Inside brackets, where there are no blocks. -/
  | flow
  /-- An item of a block. -/
  | item
  /-- A key or a value of a block, which may be a list without an indentation of its own. -/
  | entry
deriving DecidableEq

mutual

/-- Reads a node inside `depth` containers. -/
def readNode? : Nat → Site → Nat → List Token → Option (Document × List Token)
  | 0, _, _, _ => none
  | steps + 1, site, depth, tokens =>
    match tokens with
    | .scalar content :: rest => some (content, rest)
    | .flowSequence :: rest => do
      let (items, rest) ← readFlowItems? steps (depth + 1) true rest
      some (contained depth (.list items), rest)
    | .flowMapping :: rest => do
      let (entries, rest) ← readFlowEntries? steps (depth + 1) true rest
      some (contained depth (.record entries), rest)
    | .blockEntry :: _ => do
      if site = .entry then
        let (items, rest) ← readFlatItems? steps (depth + 1) tokens
        some (contained depth (.list items), rest)
      else none
    | .blockSequence :: rest => do
      if site ≠ .flow then
        let (items, rest) ← readItems? steps (depth + 1) rest
        some (contained depth (.list items), rest)
      else none
    | .blockMapping :: rest => do
      if site ≠ .flow then
        let (entries, rest) ← readEntries? steps (depth + 1) rest
        some (contained depth (.record entries), rest)
      else none
    | _ => none

def readItems? : Nat → Nat → List Token → Option (List Document × List Token)
  | 0, _, _ => none
  | steps + 1, depth, tokens =>
    match tokens with
    | .blockEntry :: rest => do
      let (item, rest) ←
        if missingItem rest then some (missing, rest)
        else readNode? steps .item depth rest
      let (items, rest) ← readItems? steps depth rest
      some (item :: items, rest)
    | .blockEnd :: rest => some ([], rest)
    | _ => none

def readFlatItems? : Nat → Nat → List Token → Option (List Document × List Token)
  | 0, _, _ => none
  | steps + 1, depth, tokens =>
    match tokens with
    | .blockEntry :: rest => do
      let (item, rest) ←
        if missingFlatItem rest then some (missing, rest)
        else readNode? steps .item depth rest
      let (items, rest) ← readFlatItems? steps depth rest
      some (item :: items, rest)
    | rest => some ([], rest)

def readEntries? : Nat → Nat → List Token → Option (List (Document × Document) × List Token)
  | 0, _, _ => none
  | steps + 1, depth, tokens =>
    match tokens with
    | .key :: rest => do
      let (key, rest) ←
        if missingInMapping rest then some (missing, rest)
        else readNode? steps .entry depth rest
      let (value, rest) ←
        match rest with
        | .value :: rest =>
          if missingInMapping rest then some (missing, rest)
          else readNode? steps .entry depth rest
        | rest => some (missing, rest)
      let (entries, rest) ← readEntries? steps depth rest
      some ((key, value) :: entries, rest)
    | .blockEnd :: rest => some ([], rest)
    | _ => none

/-- Reads the value of an entry inside brackets, if there is one. -/
def readFlowValue? : Nat → Nat → List Token → Option (Document × List Token)
  | 0, _, _ => none
  | steps + 1, depth, tokens =>
    match tokens with
    | .value :: rest =>
      if missingFlowValue rest then some (missing, rest)
      else readNode? steps .flow depth rest
    | rest => some (missing, rest)

def readFlowItems? : Nat → Nat → Bool → List Token → Option (List Document × List Token)
  | 0, _, _, _ => none
  | steps + 1, depth, first, tokens => do
    let tokens ←
      match tokens with
      | .flowSequenceEnd :: _ => some tokens
      | .flowEntry :: rest => if first then some tokens else some rest
      | _ => if first then some tokens else none
    match tokens with
    | .flowSequenceEnd :: rest => some ([], rest)
    | .key :: rest =>
      let (key, rest) ←
        if missingFlowKey rest then some (missing, rest)
        else readNode? steps .flow (depth + 1) rest
      let (value, rest) ← readFlowValue? steps (depth + 1) rest
      let (items, rest) ← readFlowItems? steps depth false rest
      some (contained depth (.record [(key, value)]) :: items, rest)
    | _ =>
      let (item, rest) ← readNode? steps .flow depth tokens
      let (items, rest) ← readFlowItems? steps depth false rest
      some (item :: items, rest)

def readFlowEntries? :
    Nat → Nat → Bool → List Token → Option (List (Document × Document) × List Token)
  | 0, _, _, _ => none
  | steps + 1, depth, first, tokens => do
    let tokens ←
      match tokens with
      | .flowMappingEnd :: _ => some tokens
      | .flowEntry :: rest => if first then some tokens else some rest
      | _ => if first then some tokens else none
    match tokens with
    | .flowMappingEnd :: rest => some ([], rest)
    | .key :: rest =>
      let (key, rest) ←
        if missingFlowKey rest then some (missing, rest)
        else readNode? steps .flow depth rest
      let (value, rest) ← readFlowValue? steps depth rest
      let (entries, rest) ← readFlowEntries? steps depth false rest
      some ((key, value) :: entries, rest)
    | _ =>
      let (key, rest) ← readNode? steps .flow depth tokens
      let (entries, rest) ← readFlowEntries? steps depth false rest
      some ((key, missing) :: entries, rest)

end

def readContent? (steps : Nat) (tokens : List Token) : Option (Document × List Token) :=
  match tokens with
  | [] => some (missing, [])
  | .documentStart :: _ | .documentEnd :: _ => some (missing, tokens)
  | tokens => readNode? steps .item 0 tokens

/-- Drops the marks behind a document. -/
def skipDocumentEnds : List Token → List Token
  | .documentEnd :: rest => skipDocumentEnds rest
  | tokens => tokens

/-- Reads a whole YAML text. -/
def readDocument? (text : String) : Option Document := do
  let tokens := skipDocumentEnds (← tokens? text)
  let content :=
    match tokens with
    | .documentStart :: rest => rest
    | tokens => tokens
  let (document, rest) ← readContent? (2 * tokens.length + 2) content
  if (skipDocumentEnds rest).isEmpty then some document else none

end ApiDoc.Yaml
