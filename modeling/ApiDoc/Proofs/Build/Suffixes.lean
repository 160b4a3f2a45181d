import ApiDoc.Proofs.Build.Templates

/-! # Format suffixes of paths

A path is published segment by segment, and a format suffix at its end is left out. The suffix is looked
for in the whole path: it starts at the last `(.`, and what ends it is a parenthesis at the end of the
path, wherever that one was opened (`FormatSuffix`, `dropFormat_cases`). So the path keeps its segments,
the last one without a group at its end, exactly if what was cut stands in the last segment and is a group
(`normalize_keepsSegments_iff`); a suffix in the middle and some other parenthesis at the end take all
segments between them along (`parenthesis_cuts_segments`).
-/

namespace ApiDoc

namespace Text

variable {first second separator : Char} {text kept suffix : List Char}

theorem pair_prefix_iff {c : Char} {rest : List Char} :
    [first, second] <+: c :: rest ↔ c = first ∧ rest.head? = some second := by
  cases rest with
  | nil => simp
  | cons d rest => simp [eq_comm]

theorem beforeLast?_eq_none_iff : beforeLast? first second text = none ↔ ¬[first, second] <:+: text := by
  induction text with
  | nil => simp [beforeLast?]
  | cons c rest ih =>
    rw [List.infix_cons_iff, pair_prefix_iff, beforeLast?]
    cases later : beforeLast? first second rest with
    | some kept =>
      have here : [first, second] <:+: rest := by
        by_contra absent
        rw [ih.mpr absent] at later
        cases later
      simp [here]
    | none =>
      have absent := ih.mp later
      by_cases here : c = first ∧ rest.head? = some second <;> simp [here, absent]

theorem beforeLast?_append (rest : List Char) (last : ¬[first, second] <:+: second :: rest) :
    beforeLast? first second (kept ++ first :: second :: rest) = some kept := by
  induction kept with
  | nil =>
    rw [List.nil_append, beforeLast?, beforeLast?_eq_none_iff.mpr last]
    exact if_pos ⟨rfl, rfl⟩
  | cons c kept ih => rw [List.cons_append, beforeLast?, ih]

theorem eq_append_of_beforeLast? (found : beforeLast? first second text = some kept) :
    ∃ rest, text = kept ++ first :: second :: rest ∧ ¬[first, second] <:+: second :: rest := by
  induction text generalizing kept with
  | nil => cases found
  | cons c tail ih =>
    rw [beforeLast?] at found
    cases later : beforeLast? first second tail with
    | some before =>
      rw [later] at found
      cases found
      obtain ⟨rest, rfl, last⟩ := ih later
      exact ⟨rest, rfl, last⟩
    | none =>
      rw [later] at found
      dsimp only at found
      split at found
      · next here =>
        cases found
        obtain ⟨rfl, follows⟩ := here
        obtain ⟨rest, rfl⟩ := List.head?_eq_some_iff.mp follows
        exact ⟨rest, rfl, beforeLast?_eq_none_iff.mp later⟩
      · cases found

theorem length_pieces (separator : Char) (text : List Char) :
    (pieces separator text).length = text.count separator + 1 := by
  induction text with
  | nil => rfl
  | cons c rest ih =>
    rw [pieces]
    split
    · next here =>
      subst here
      rw [List.length_cons, ih, List.count_cons_self]
    · next apart => rw [List.length_modifyHead, ih, List.count_cons_of_ne apart]

theorem joined_concat_append (separator : Char) (front : List (List Char)) (last suffix : List Char) :
    joined separator (front ++ [last]) ++ suffix = joined separator (front ++ [last ++ suffix]) := by
  induction front with
  | nil => rfl
  | cons part front ih =>
    cases front with
    | nil => simp [joined]
    | cons next front =>
      simp only [List.cons_append, joined] at ih ⊢
      rw [List.append_assoc, List.cons_append, ih]

/-- What has no separator in it goes to the last piece of the text in front of it. -/
theorem pieces_append {front : List (List Char)} {last : List Char}
    (cut : pieces separator text = front ++ [last]) (free : separator ∉ suffix) :
    pieces separator (text ++ suffix) = front ++ [last ++ suffix] := by
  have whole : text ++ suffix = joined separator (front ++ [last ++ suffix]) := by
    rw [← joined_concat_append, ← cut, joined_pieces]
  have parts : ∀ part ∈ front ++ [last], separator ∉ part := cut ▸ not_mem_of_mem_pieces
  rw [whole]
  refine pieces_joined separator (by simp) fun part member => ?_
  rcases List.mem_append.mp member with early | late
  · exact parts part (List.mem_append_left _ early)
  · obtain rfl := List.mem_singleton.mp late
    rw [List.mem_append, not_or]
    exact ⟨parts last (by simp), free⟩

theorem exists_pieces_eq_concat (separator : Char) (text : List Char) :
    ∃ front last, pieces separator text = front ++ [last] := by
  rcases List.eq_nil_or_concat (pieces separator text) with none | ⟨front, last, cut⟩
  · exact absurd none (pieces_ne_nil separator text)
  · exact ⟨front, last, cut.trans List.concat_eq_append⟩

end Text

namespace Route

open Text

variable {isGroup : List Char → Prop} {path kept suffix segment shown published : List Char}

/-- The format suffix that is cut off a path: all from the last `(.` of the path on, if the path ends with a
parenthesis. -/
structure FormatSuffix (path kept suffix : List Char) : Prop where
  whole : path = kept ++ suffix
  opens : ['(', '.'] <+: suffix
  last : ¬['(', '.'] <:+: suffix.tail
  closes : suffix.getLast? = some ')'

theorem FormatSuffix.ne_nil (cut : FormatSuffix path kept suffix) : suffix ≠ [] := by
  rintro rfl
  cases cut.closes

theorem FormatSuffix.dropFormat_eq (cut : FormatSuffix path kept suffix) : dropFormat path = kept := by
  obtain ⟨rfl, ⟨rest, rfl⟩, last, closes⟩ := cut
  have found : beforeLast? '(' '.' (kept ++ (['(', '.'] ++ rest)) = some kept :=
    beforeLast?_append rest last
  have ends : (kept ++ (['(', '.'] ++ rest)).getLast? = some ')' := by
    rw [List.getLast?_append, closes, Option.some_or]
  rw [dropFormat, if_pos ends, found, Option.getD_some]

/-- What is left of a path is what stands in front of its format suffix, or all of a path without one. -/
theorem dropFormat_cases (path : List Char) : (∃ suffix, FormatSuffix path (dropFormat path) suffix) ∨
    dropFormat path = path ∧ ∀ kept suffix, ¬FormatSuffix path kept suffix := by
  by_cases cut : ∃ kept suffix, FormatSuffix path kept suffix
  · obtain ⟨kept, suffix, cut⟩ := cut
    exact .inl ⟨suffix, cut.dropFormat_eq.symm ▸ cut⟩
  · refine .inr ⟨?_, fun kept suffix here => cut ⟨kept, suffix, here⟩⟩
    unfold dropFormat
    split
    · next ends =>
      cases found : beforeLast? '(' '.' path with
      | none => rfl
      | some kept =>
        obtain ⟨rest, rfl, last⟩ := eq_append_of_beforeLast? found
        have closes : ('(' :: '.' :: rest).getLast? = some ')' := by
          rw [← ends, List.getLast?_append_of_ne_nil _ (List.cons_ne_nil _ _)]
        exact absurd ⟨kept, _, rfl, ⟨rest, rfl⟩, last, closes⟩ cut
    · rfl

/-- A segment is shown as it is, or a variable in its published form. -/
inductive ShownAs : (segment shown : List Char) → Prop
  | pathVariable {name : List Char} : name ≠ [] → ShownAs (':' :: name) (braced name)
  | literal {segment : List Char} : (∀ name, name ≠ [] → segment ≠ ':' :: name) → ShownAs segment segment

theorem shownAs_iff : ShownAs segment shown ↔ publishSegment segment = shown := by
  constructor
  · rintro (nonempty | literal)
    · obtain ⟨c, rest, rfl⟩ := List.exists_cons_of_ne_nil nonempty
      rfl
    · unfold publishSegment
      split
      · next c rest => exact absurd rfl (literal (c :: rest) (List.cons_ne_nil c rest))
      · rfl
  · rintro rfl
    unfold publishSegment
    split
    · next c rest => exact .pathVariable (List.cons_ne_nil c rest)
    · next other =>
      refine .literal fun name nonempty same => ?_
      obtain ⟨c, rest, rfl⟩ := List.exists_cons_of_ne_nil nonempty
      exact other c rest same

theorem forall₂_shownAs_iff {segments published : List (List Char)} :
    List.Forall₂ ShownAs segments published ↔ segments.map publishSegment = published := by
  have same : ShownAs = fun segment shown => publishSegment segment = shown :=
    funext fun segment => funext fun shown => propext shownAs_iff
  rw [same, ← List.forall₂_map_left_iff (R := Eq), List.forall₂_eq_eq_eq]

/-- A path is published with its own segments, each shown as it is or as a variable; the last one may
lose a group at its end. A path of which nothing is left is the root. -/
def KeepsSegments (isGroup : List Char → Prop) (path published : List Char) : Prop :=
  ∃ front last kept shown, pieces '/' path = front ++ [last] ∧
    (last = kept ∨ ∃ group, isGroup group ∧ last = kept ++ group) ∧
    List.Forall₂ ShownAs (front ++ [kept]) shown ∧
    (shown = [[]] ∧ published = ['/'] ∨ shown ≠ [[]] ∧ pieces '/' published = shown)

/-- Unless nothing is left of it, a path keeps the number of its segments. -/
theorem KeepsSegments.length_eq (keeps : KeepsSegments isGroup path published) (some_left : published ≠ ['/']) :
    (pieces '/' published).length = (pieces '/' path).length := by
  obtain ⟨front, last, kept, shown, cut, -, forms, ⟨-, root⟩ | ⟨-, rfl⟩⟩ := keeps
  · exact absurd root some_left
  · rw [← forms.length_eq, cut, List.length_append, List.length_append]
    rfl

theorem braced_injective : Function.Injective braced := fun first second same => by
  rw [braced, braced, List.cons_append, List.cons_append, List.cons.injEq] at same
  exact List.append_cancel_right same.2

/-- A text that starts with a colon and one that is in braces do not both start a segment. -/
theorem not_prefix_braced {name other : List Char} (begins : ':' :: name <+: segment) :
    ¬braced other <+: segment := by
  rintro ⟨rest', rfl⟩
  obtain ⟨rest, same⟩ := begins
  rw [braced, List.cons_append, List.cons_append, List.cons_append, List.cons.injEq] at same
  exact absurd same.1 (by decide)

theorem publishSegment_cases (segment : List Char) :
    (∃ name, segment = ':' :: name ∧ publishSegment segment = braced name) ∨ publishSegment segment = segment := by
  unfold publishSegment
  split
  · exact .inl ⟨_, rfl, rfl⟩
  · exact .inr rfl

/-- Two beginnings of one segment are published alike only if they are the same. -/
theorem eq_of_publishSegment_eq {first second : List Char} (begins : first <+: segment)
    (begins' : second <+: segment) (same : publishSegment first = publishSegment second) :
    first = second := by
  rcases publishSegment_cases first with ⟨name, rfl, shown⟩ | shown <;>
    rcases publishSegment_cases second with ⟨name', rfl, shown'⟩ | shown' <;> rw [shown, shown'] at same
  · rw [braced_injective same]
  · exact absurd begins' (same ▸ not_prefix_braced begins)
  · exact absurd begins (same ▸ not_prefix_braced begins')
  · exact same

/-- The published form has the published segments of what is left of a path, or is the root if nothing is. -/
theorem normalize_cases (path : String) :
    let shown := (pieces '/' (dropFormat path.toList)).map publishSegment
    dropFormat path.toList = [] ∧ shown = [[]] ∧ (normalize path).toList = ['/'] ∨
      shown ≠ [[]] ∧ pieces '/' (normalize path).toList = shown := by
  unfold normalize
  dsimp only
  generalize dropFormat path.toList = left
  by_cases empty : left = []
  · subst empty
    exact .inl ⟨rfl, rfl, rfl⟩
  · have nonempty : joined '/' ((pieces '/' left).map publishSegment) ≠ [] := mt published_eq_nil empty
    refine .inr ⟨fun single => nonempty (by rw [single]; rfl), ?_⟩
    rw [if_neg (mt List.isEmpty_iff.mp nonempty), String.toList_ofList, pieces_published]

theorem dropFormat_begins (path : List Char) : dropFormat path <+: path := by
  rcases dropFormat_cases path with ⟨suffix, cut⟩ | ⟨whole, -⟩
  · exact ⟨suffix, cut.whole.symm⟩
  · exact ⟨[], by rw [whole, List.append_nil]⟩

theorem length_pieces_dropFormat_le (path : List Char) :
    (pieces '/' (dropFormat path)).length ≤ (pieces '/' path).length := by
  rw [length_pieces, length_pieces]
  exact Nat.succ_le_succ ((dropFormat_begins path).sublist.count_le '/')

/-- A path of which nothing is left does not start with a slash. -/
theorem head?_of_dropFormat_eq_nil (empty : dropFormat path = []) : path.head? ≠ some '/' := by
  rcases dropFormat_cases path with ⟨suffix, cut⟩ | ⟨whole, -⟩
  · obtain ⟨rest, rfl⟩ := cut.opens
    rw [cut.whole, empty]
    exact fun same => absurd (Option.some.inj same) (by decide)
  · rw [← whole, empty]
    exact Option.some_ne_none _ ∘ Eq.symm

/-- A path keeps its segments exactly if those of what is left of it are its own, up to a group at the end
of the last one. -/
theorem keepsSegments_normalize_iff {path : String} : KeepsSegments isGroup path.toList (normalize path).toList ↔
    ∃ front last kept, pieces '/' path.toList = front ++ [last] ∧
      (last = kept ∨ ∃ group, isGroup group ∧ last = kept ++ group) ∧
      (front ++ [kept]).map publishSegment = (pieces '/' (dropFormat path.toList)).map publishSegment := by
  constructor
  · rintro ⟨front, last, kept, shown, cut, lost, forms, ends⟩
    refine ⟨front, last, kept, cut, lost, ?_⟩
    rw [forall₂_shownAs_iff] at forms
    rw [forms]
    rcases normalize_cases path with ⟨nothing, empty, root⟩ | ⟨-, left⟩
    · rcases ends with ⟨here, -⟩ | ⟨-, here⟩
      · rw [here, empty]
      · -- The root has two empty segments, as a path has that starts with a slash.
        have segments : front.map publishSegment ++ [publishSegment kept] = [[]] ++ [[]] := by
          rw [← List.map_singleton, ← List.map_append, forms, ← here, root]
          rfl
        obtain ⟨segment, rfl, unnamed⟩ := List.map_eq_singleton_iff.mp (List.append_inj_left' segments rfl)
        rw [publishSegment_eq_nil unnamed] at cut
        have slash : path.toList = '/' :: last := by
          rw [← joined_pieces '/' path.toList, cut]
          rfl
        exact absurd (congrArg List.head? slash) (head?_of_dropFormat_eq_nil nothing)
    · rcases ends with ⟨single, root⟩ | ⟨-, here⟩
      · have two : ((pieces '/' (dropFormat path.toList)).map publishSegment).length = 2 := by
          rw [← left, root]
          rfl
        have fewer := length_pieces_dropFormat_le path.toList
        have one : (front ++ [kept]).length = 1 := by
          rw [← List.length_map publishSegment, forms, single]
          rfl
        rw [List.length_map] at two
        rw [two, cut] at fewer
        rw [List.length_append, List.length_singleton] at one fewer
        omega
      · exact here.symm.trans left
  · rintro ⟨front, last, kept, cut, lost, same⟩
    refine ⟨front, last, kept, _, cut, lost, forall₂_shownAs_iff.mpr rfl, ?_⟩
    rw [same]
    exact (normalize_cases path).imp_left fun ⟨_, empty, root⟩ => ⟨empty, root⟩

/-- Whatever counts as a group, a path keeps its segments exactly if the format suffix that is cut off it, if
any, stands in its last segment and is a group. If all texts from `(.` to a parenthesis are groups, the
suffix is one in any case. -/
theorem normalize_keepsSegments_iff (isGroup : List Char → Prop) (path : String) :
    KeepsSegments isGroup path.toList (normalize path).toList ↔
      ∀ kept suffix, FormatSuffix path.toList kept suffix → '/' ∉ suffix ∧ isGroup suffix := by
  rw [keepsSegments_normalize_iff]
  constructor
  · rintro ⟨front, last, kept, cut, lost, shown⟩ left suffix found
    rw [found.dropFormat_eq] at shown
    have free : '/' ∉ suffix := by
      have counts : (pieces '/' (left ++ suffix)).length = (pieces '/' left).length := by
        have shorter := congrArg List.length shown
        rw [List.length_map, List.length_map, List.length_append] at shorter
        rw [← found.whole, cut, ← shorter, List.length_append]
        rfl
      rw [length_pieces, length_pieces, List.count_append] at counts
      exact List.count_eq_zero.mp (by omega)
    obtain ⟨front', last', cut'⟩ := exists_pieces_eq_concat '/' left
    have grown := pieces_append cut' free
    rw [← found.whole, cut] at grown
    obtain ⟨rfl, same⟩ := List.append_inj' grown rfl
    obtain rfl := List.singleton_inj.mp same
    rw [cut', List.map_append, List.map_append] at shown
    have alike : publishSegment kept = publishSegment last' :=
      List.singleton_inj.mp (List.append_cancel_left shown)
    have begins : kept <+: last' ++ suffix := by
      rcases lost with whole | ⟨group, -, grown⟩
      · exact whole ▸ List.prefix_rfl
      · exact grown ▸ List.prefix_append kept group
    obtain rfl := eq_of_publishSegment_eq begins (List.prefix_append last' suffix) alike
    rcases lost with whole | ⟨group, counts, grown⟩
    · exact absurd (List.append_right_eq_self.mp whole) found.ne_nil
    · exact ⟨free, List.append_cancel_left grown ▸ counts⟩
  · intro groups
    rcases dropFormat_cases path.toList with ⟨suffix, found⟩ | ⟨whole, -⟩
    · obtain ⟨free, group⟩ := groups _ suffix found
      obtain ⟨front, last, cut⟩ := exists_pieces_eq_concat '/' (dropFormat path.toList)
      refine ⟨front, last ++ suffix, last, ?_, .inr ⟨suffix, group, rfl⟩, by rw [cut]⟩
      have grown := pieces_append cut free
      rwa [← found.whole] at grown
    · obtain ⟨front, last, cut⟩ := exists_pieces_eq_concat '/' path.toList
      exact ⟨front, last, last, cut, .inl rfl, by rw [whole, cut]⟩

/-- A suffix in the middle of a path and a parenthesis at its end take the segment between them along, so
that the path is published as that of all items. -/
theorem parenthesis_cuts_segments :
    normalize "/items(.json)/tags(all)" = "/items" ∧
      ∀ isGroup, ¬KeepsSegments isGroup "/items(.json)/tags(all)".toList
        (normalize "/items(.json)/tags(all)").toList := by
  have published : normalize "/items(.json)/tags(all)" = "/items" := by decide
  refine ⟨published, fun isGroup keeps => ?_⟩
  rw [published] at keeps
  exact absurd (keeps.length_eq (by decide)) (by decide)

end Route

end ApiDoc
