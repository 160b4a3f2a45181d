import ApiDoc.Entity
import ApiDoc.Manifest

/-! # The tokens that texts and manifests write

A token can hold a list of alternatives of any length, but whoever reads one from a text or from a
manifest takes a list of one type for an array (`TypeToken.ofParts`). So in every token that was
written, at any depth, alternatives are several (`TypeToken.Written.branching`).
-/

namespace ApiDoc

variable {token : TypeToken}

namespace TypeToken

/-- Wherever a token has alternatives, it has several. -/
inductive Branching : TypeToken → Prop
  | named (name : String) : Branching (.named name)
  | item {item : TypeToken} : Branching item → Branching (.arrayOf item)
  | variants {tokens : List TypeToken} : 2 ≤ tokens.length → (∀ token ∈ tokens, Branching token) →
      Branching (.oneOf tokens)

theorem branching_ofParts {parts : List TypeToken} (branching : ∀ part ∈ parts, part.Branching) :
    (ofParts parts).Branching := by
  match parts with
  | [] => exact .item (.named "String")
  | [part] => exact .item (branching part List.mem_cons_self)
  | first :: second :: rest => exact .variants (by simp) branching

theorem branching_parseChars (text : List Char) : (parseChars text).Branching := by
  induction text using parseChars.induct with
  | case1 text body array empty =>
    rw [parseChars_of_array array, if_pos empty]
    exact .item (.named "String")
  | case2 text body array filled ih =>
    rw [parseChars_of_array array, if_neg filled]
    exact .item ih
  | case3 text single body list ih =>
    rw [parseChars_of_list single list]
    refine branching_ofParts fun part member => ?_
    obtain ⟨item, inside, rfl⟩ := List.mem_map.mp member
    exact ih ⟨item, inside⟩
  | case4 text single plain =>
    rw [parseChars_of_name single plain]
    exact .named _

mutual

theorem branching_typeToken? : ∀ {document : Document} {token : TypeToken},
    document.typeToken? = some token → token.Branching
  | document, token, read => by
    unfold Document.typeToken? at read
    split at read
    · obtain ⟨parts, found, rfl⟩ := Option.map_eq_some_iff.mp read
      exact branching_ofParts (branching_typeTokens? found)
    · obtain ⟨text, -, rfl⟩ := Option.map_eq_some_iff.mp read
      exact branching_parseChars text.toList

theorem branching_typeTokens? : ∀ {documents : List Document} {tokens : List TypeToken},
    Document.typeTokens? documents = some tokens → ∀ token ∈ tokens, token.Branching
  | [], tokens, read => by
    cases read
    intro token member
    cases member
  | document :: rest, tokens, read => by
    rw [Document.typeTokens?] at read
    obtain ⟨first, found, read⟩ := Option.bind_eq_some_iff.mp read
    obtain ⟨others, foundRest, same⟩ := Option.bind_eq_some_iff.mp read
    cases same
    intro token member
    rcases List.mem_cons.mp member with rfl | member
    · exact branching_typeToken? found
    · exact branching_typeTokens? foundRest token member

end

/-- The token was read from a text in the bracket notation, or from a manifest. -/
inductive Written : TypeToken → Prop
  | text (text : String) : Written (.parse text)
  | manifest {document : Document} {token : TypeToken} : document.typeToken? = some token →
      Written token

theorem Written.branching (written : token.Written) : token.Branching := by
  cases written with
  | text text => exact branching_parseChars text.toList
  | manifest read => exact branching_typeToken? read

end TypeToken

/-- The type is declared for the field or for a field nested in it. -/
inductive Field.Declares (token : TypeToken) : Field → Prop
  | own {field : Field} : field.declaredType = some token → Declares token field
  | nested {field inner : Field} : inner ∈ field.nested → Declares token inner → Declares token field

end ApiDoc
