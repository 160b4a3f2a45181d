import ApiDoc.Proofs.Build.Parameters
import Mathlib.Data.List.TakeWhile

/-! # Writing nested parameter names

Segments are written as the name of the root and a bracket group for each further one, with an empty
group behind each that is an array (`writeNested`). A name is read by taking its groups one after the
other; an empty one looks back at the segment before it. The written name is read as its segments
exactly if the root opens no bracket and every other segment has a name that closes none; and every text
is read as segments of this kind (`splitNested_writeNested_iff`), one with unclosed brackets, repeated
empty groups or something behind a bracket too.
-/

namespace ApiDoc.Route

variable {segment : NameSegment} {group inside text : List Char}

/-- The empty group behind the name of an array. -/
def NameSegment.mark (segment : NameSegment) : List Char :=
  if segment.isArray then ['[', ']'] else []

def NameSegment.bracketed (segment : NameSegment) : List Char :=
  '[' :: segment.name.toList ++ ']' :: segment.mark

def writeNested : List NameSegment → String
  | [] => ""
  | root :: rest => String.ofList (root.name.toList ++ root.mark ++ rest.flatMap NameSegment.bracketed)

/-- A segment behind the root: it has a name, which does not close the brackets around it. -/
def NameSegment.Inner (segment : NameSegment) : Prop := segment.name ≠ "" ∧ ']' ∉ segment.name.toList

/-- A root that opens no bracket, and segments behind it that have names and close none. -/
inductive Nestable : List NameSegment → Prop
  | intro {root : NameSegment} {rest : List NameSegment} :
      '[' ∉ root.name.toList → (∀ segment ∈ rest, segment.Inner) → Nestable (root :: rest)

theorem bracketGroups_inside (closed : ']' ∉ group) :
    bracketGroups (some inside) (group ++ ']' :: text) =
      (inside.reverse ++ group) :: bracketGroups none text := by
  induction group generalizing inside with
  | nil => simp [bracketGroups]
  | cons c group ih =>
    obtain ⟨apart, later⟩ := not_or.mp (mt List.mem_cons.mpr closed)
    calc
      bracketGroups (some inside) (c :: group ++ ']' :: text) =
          bracketGroups (some (c :: inside)) (group ++ ']' :: text) := by
        simp [bracketGroups, Ne.symm apart]
      _ = (inside.reverse ++ c :: group) :: bracketGroups none text := by
        rw [ih later, List.reverse_cons, List.append_assoc, List.singleton_append]

theorem bracketGroups_group (closed : ']' ∉ group) :
    bracketGroups none ('[' :: (group ++ ']' :: text)) = group :: bracketGroups none text :=
  bracketGroups_inside closed

/-- The mark of a segment is read back into it. -/
theorem segmentsFrom_mark (segment : NameSegment) (text : List Char) :
    segmentsFrom ⟨segment.name, false⟩ (bracketGroups none (segment.mark ++ text)) =
      segmentsFrom segment (bracketGroups none text) := by
  obtain ⟨name, isArray⟩ := segment
  cases isArray with
  | false => rfl
  | true => rfl

theorem segmentsFrom_bracketed {next : NameSegment} (inner : next.Inner) :
    segmentsFrom segment (bracketGroups none (next.bracketed ++ text)) =
      segment :: segmentsFrom next (bracketGroups none text) := by
  obtain ⟨named, closed⟩ := inner
  have nonempty : ¬next.name.toList.isEmpty := by
    rw [List.isEmpty_iff]
    exact fun empty => named (String.toList_eq_nil_iff.mp empty)
  have written : next.bracketed ++ text = '[' :: (next.name.toList ++ ']' :: (next.mark ++ text)) := by
    simp [NameSegment.bracketed]
  rw [written, bracketGroups_group closed, segmentsFrom, if_neg nonempty, String.ofList_toList,
    segmentsFrom_mark]

theorem segmentsFrom_flatMap_bracketed {rest : List NameSegment} (inner : ∀ next ∈ rest, next.Inner) :
    segmentsFrom segment (bracketGroups none (rest.flatMap NameSegment.bracketed)) = segment :: rest := by
  induction rest generalizing segment with
  | nil => rfl
  | cons next rest ih =>
    rw [List.flatMap_cons, segmentsFrom_bracketed (inner next List.mem_cons_self),
      ih fun later member => inner later (List.mem_cons_of_mem _ member)]

/-- What follows a name that opens no bracket is all that stands behind its root. -/
theorem splitNested_append {name : String} {behind : List Char} (opens : '[' ∉ name.toList)
    (bracket : ∀ c ∈ behind.head?, c = '[') :
    splitNested (String.ofList (name.toList ++ behind)) =
      segmentsFrom ⟨name, false⟩ (bracketGroups none behind) := by
  have kept : ∀ c ∈ name.toList, (c != '[') = true := by
    rintro c member
    rw [bne_iff_ne]
    rintro rfl
    exact opens member
  have stops : behind.takeWhile (· != '[') = [] ∧ behind.dropWhile (· != '[') = behind := by
    cases behind with
    | nil => exact ⟨rfl, rfl⟩
    | cons c behind =>
      obtain rfl := bracket c rfl
      exact ⟨rfl, rfl⟩
  unfold splitNested
  dsimp only
  rw [String.toList_ofList, List.takeWhile_append_of_pos kept, List.dropWhile_append_of_pos kept, stops.1,
    stops.2, List.append_nil, String.ofList_toList]

theorem splitNested_writeNested {segments : List NameSegment} (nestable : Nestable segments) :
    splitNested (writeNested segments) = segments := by
  obtain @⟨root, rest, opens, inner⟩ := nestable
  have bracket : ∀ c ∈ (root.mark ++ rest.flatMap NameSegment.bracketed).head?, c = '[' := by
    unfold NameSegment.mark
    cases root.isArray with
    | true => simp
    | false => cases rest <;> simp [NameSegment.bracketed]
  rw [writeNested, List.append_assoc, splitNested_append opens bracket, segmentsFrom_mark,
    segmentsFrom_flatMap_bracketed inner]

/-- No group has the bracket in it that closes it. -/
theorem not_mem_of_mem_bracketGroups {open? : Option (List Char)} (closed : ∀ inside ∈ open?, ']' ∉ inside) :
    ∀ group ∈ bracketGroups open? text, ']' ∉ group := by
  fun_induction bracketGroups open? text with
  | case1 rest ih => exact ih (by simp)
  | case2 => simp
  | case3 inside rest ih =>
    rw [List.forall_mem_cons, List.mem_reverse]
    exact ⟨closed inside rfl, ih (by simp)⟩
  | case4 inside c rest apart ih =>
    refine ih ?_
    rintro _ ⟨⟩
    rw [List.mem_cons, not_or]
    exact ⟨Ne.symm apart, closed inside rfl⟩
  | case5 => simp

/-- Each segment behind the first one is a group that is not empty. -/
theorem inner_of_mem_tail {groups : List (List Char)} (closed : ∀ group ∈ groups, ']' ∉ group)
    (segment : NameSegment) : ∀ next ∈ (segmentsFrom segment groups).tail, next.Inner := by
  induction groups generalizing segment with
  | nil => simp [segmentsFrom]
  | cons group groups ih =>
    rw [List.forall_mem_cons] at closed
    rw [segmentsFrom]
    split
    · exact ih closed.2 _
    · next nonempty =>
      obtain ⟨isArray, rest, split⟩ := segmentsFrom_cons ⟨String.ofList group, false⟩ groups
      have later := ih closed.2 ⟨String.ofList group, false⟩
      rw [split] at later
      rw [List.tail_cons, split, List.forall_mem_cons]
      refine ⟨⟨?_, ?_⟩, later⟩
      · exact fun empty => nonempty (List.isEmpty_iff.mpr (String.ofList_eq_empty_iff.mp empty))
      · rw [String.toList_ofList]
        exact closed.1

/-- A name is read as a root, which is the text in front of its first opening bracket, and segments that
have names. -/
theorem splitNested_eq_cons (name : String) : ∃ root rest behind, splitNested name = root :: rest ∧
    name.toList = root.name.toList ++ behind ∧ '[' ∉ root.name.toList ∧ (∀ c ∈ behind.head?, c = '[') ∧
      ∀ segment ∈ rest, segment.Inner := by
  obtain ⟨isArray, rest, split⟩ := splitNested_cons name
  refine ⟨_, rest, name.toList.dropWhile (· != '['), split, ?_, ?_, ?_, ?_⟩
  · rw [rootName, String.toList_ofList, List.takeWhile_append_dropWhile]
  · rw [rootName, String.toList_ofList]
    intro member
    simpa using List.mem_takeWhile_imp member
  · intro c first
    have stopped := List.head?_dropWhile_not (· != '[') name.toList
    rw [Option.mem_def.mp first] at stopped
    simpa using stopped
  · have tail : rest = (splitNested name).tail := by rw [split, List.tail_cons]
    rw [tail]
    exact inner_of_mem_tail (not_mem_of_mem_bracketGroups (by simp)) _

/-- Segments are read back from what they are written as exactly if the root opens no bracket and every
other segment has a name that closes none; so they are if no name has brackets and none behind the root
is empty. Whatever the text, it is read as at least one segment, the first one being what stands in front
of its first opening bracket, and the others having names. Written again, these segments are read as the
same. -/
theorem splitNested_writeNested_iff :
    (∀ segments, splitNested (writeNested segments) = segments ↔ Nestable segments) ∧
      ∀ name, ∃ root rest behind, splitNested name = root :: rest ∧
        name.toList = root.name.toList ++ behind ∧ '[' ∉ root.name.toList ∧ (∀ c ∈ behind.head?, c = '[') ∧
          (∀ segment ∈ rest, segment.name ≠ "") ∧ splitNested (writeNested (root :: rest)) = root :: rest := by
  refine ⟨fun segments => ⟨fun back => ?_, splitNested_writeNested⟩, fun name => ?_⟩
  · obtain ⟨root, rest, -, split, -, opens, -, inner⟩ := splitNested_eq_cons (writeNested segments)
    rw [← back, split]
    exact .intro opens inner
  · obtain ⟨root, rest, behind, split, whole, opens, bracket, inner⟩ := splitNested_eq_cons name
    exact ⟨root, rest, behind, split, whole, opens, bracket, fun segment member => (inner segment member).1,
      splitNested_writeNested (.intro opens inner)⟩

example : splitNested "items[][name]x[id]" = [⟨"items", true⟩, ⟨"name", false⟩] := by decide

end ApiDoc.Route
