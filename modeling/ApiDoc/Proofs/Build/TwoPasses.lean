import ApiDoc.Proofs.Build.Flat
import Mathlib.Data.List.TakeWhile

/-! # The two passes over a route with nested names

The parameters of a route with nested names are visited twice: the first pass resolves the roots, and the
second one publishes every parameter, taking the roots that wait in their order. Where no name has a
bracket the two passes do what one pass does (`addAllNested_eq_addAllFlat`). So the order of resolution,
the locations and the published names of such parameters do not depend on whether another name of the route
has brackets.
-/

namespace ApiDoc

namespace Route

open Schema Publication

variable {lexicon : Lexicon} {names : Names} {name : String} {params : Table String ParamSpec} {draft : Draft}
  {published : List Publication} {entry : String × ParamSpec}

def Unbracketed (name : String) : Prop := '[' ∉ name.toList

instance (name : String) : Decidable (Unbracketed name) := inferInstanceAs (Decidable ('[' ∉ name.toList))

theorem Unbracketed.takeWhile_eq (unbracketed : Unbracketed name) :
    name.toList.takeWhile (· != '[') = name.toList :=
  List.takeWhile_eq_self_iff.mpr fun c member => by
    rw [bne_iff_ne]
    rintro rfl
    exact unbracketed member

theorem Unbracketed.splitNested_eq (unbracketed : Unbracketed name) : splitNested name = [⟨name, false⟩] := by
  have rest : name.toList.dropWhile (· != '[') = [] := by
    have whole := List.takeWhile_append_dropWhile (p := (· != '[')) (l := name.toList)
    rw [unbracketed.takeWhile_eq] at whole
    exact List.append_right_eq_self.mp whole
  unfold splitNested
  rw [unbracketed.takeWhile_eq, rest]
  dsimp only
  rw [String.ofList_toList]
  rfl

theorem Unbracketed.rootName_eq (unbracketed : Unbracketed name) : rootName name = name := by
  unfold rootName
  rw [unbracketed.takeWhile_eq, String.ofList_toList]

theorem hiddenRoots_cons (entry : String × ParamSpec) (rest : Table String ParamSpec) :
    hiddenRoots (entry :: rest) = hiddenRoots [entry] ++ hiddenRoots rest := by
  simp [hiddenRoots]

theorem hiddenRoots_of_unbracketed (unbracketed : ∀ name ∈ Table.keys params, Unbracketed name) :
    hiddenRoots params = Table.keys (params.filter (·.2.documentation.hidden)) := by
  induction params with
  | nil => rfl
  | cons entry rest ih =>
    have own : Unbracketed entry.1 := unbracketed _ List.mem_cons_self
    have hidden : hiddenRoots [entry] = if entry.2.documentation.hidden then [entry.1] else [] := by
      simp [hiddenRoots, own.splitNested_eq, own.rootName_eq]
    rw [hiddenRoots_cons, hidden, ih fun name member => unbracketed name (List.mem_cons_of_mem _ member),
      List.filter_cons]
    split <;> rfl

namespace Publication

/-- What waits for the second pass. -/
def waiting (publication : Publication) : String × Location × Schema :=
  (publication.entry.1, publication.location, publication.schema)

end Publication

theorem resolveVisible_append (before after : Table String ParamSpec) :
    resolveVisible lexicon names (before ++ after) = do
      return (← resolveVisible lexicon names before) ++ (← resolveVisible lexicon names after) := by
  unfold resolveVisible
  rw [List.filter_append, List.mapM_append]

theorem noteRoot_of_unbracketed (unbracketed : Unbracketed entry.1) (roots : Roots) :
    noteRoot lexicon names roots entry.1 entry.2 = do
      return ⟨roots.hidden ++ hiddenRoots [entry],
        Table.extend roots.visible ((← resolveVisible lexicon names [entry]).map waiting)⟩ := by
  unfold noteRoot resolveVisible
  rw [unbracketed.splitNested_eq]
  cases hides : entry.2.documentation.hidden with
  | true =>
    simp [hides, hiddenRoots, unbracketed.splitNested_eq, unbracketed.rootName_eq, Table.extend]
  | false =>
    simp [hides, hiddenRoots, publicationIn, waiting, Table.extend]

theorem noteRoot_of_several (several : 1 < (splitNested entry.1).length) (roots : Roots) :
    noteRoot lexicon names roots entry.1 entry.2 = pure roots := by
  unfold noteRoot
  split
  · next single => simp [single] at several
  · rfl

/-- The first pass resolves the parameters that are not hidden in their order. -/
theorem foldlM_noteRoot (unbracketed : ∀ name ∈ Table.keys params, Unbracketed name) (roots : Roots) :
    params.foldlM (fun roots entry => noteRoot lexicon names roots entry.1 entry.2) roots = do
      return ⟨roots.hidden ++ hiddenRoots params,
        Table.extend roots.visible ((← resolveVisible lexicon names params).map waiting)⟩ := by
  induction params generalizing roots with
  | nil => simp [resolveVisible, hiddenRoots, Table.extend]
  | cons entry rest ih =>
    have own : Unbracketed entry.1 := unbracketed _ List.mem_cons_self
    have split : resolveVisible lexicon names (entry :: rest) = do
        return (← resolveVisible lexicon names [entry]) ++ (← resolveVisible lexicon names rest) :=
      resolveVisible_append [entry] rest
    rw [List.foldlM_cons, noteRoot_of_unbracketed own, hiddenRoots_cons entry rest, split]
    simp [ih fun name member => unbracketed name (List.mem_cons_of_mem _ member), Table.extend]

theorem addNested_of_hidden (hides : entry.2.documentation.hidden = true) (roots : Roots)
    (state : Draft × Table String (Location × Schema)) :
    addNested lexicon names roots state entry.1 entry.2 = pure state := by
  simp [addNested, hides]

/-- A parameter without brackets takes the root that waits under its name. -/
theorem addNested_of_waiting {roots : Roots} {publication : Publication}
    (unbracketed : Unbracketed publication.entry.1)
    (shows : publication.entry.2.documentation.hidden = false)
    (apart : publication.entry.1 ∉ roots.hidden) (draft : Draft)
    (pending : Table String (Location × Schema)) :
    addNested lexicon names roots (draft, publication.waiting :: pending) publication.entry.1
      publication.entry.2 = pure (publish names draft publication, pending) := by
  unfold addNested
  simp [shows, unbracketed.splitNested_eq, unbracketed.rootName_eq, apart, waiting, Table.get?, Table.erase,
    publish]

/-- The second pass publishes what waits, in the order of the parameters. -/
theorem foldlM_addNested (lexicon : Lexicon) {roots : Roots}
    (unbracketed : ∀ name ∈ Table.keys params, Unbracketed name)
    (each : List.Forall₂ (PublishedAs names)
      (params.filter fun entry => !entry.2.documentation.hidden) published)
    (apart : ∀ entry ∈ params, entry.2.documentation.hidden = false → entry.1 ∉ roots.hidden) (draft : Draft)
    (more : Table String (Location × Schema)) :
    params.foldlM (fun state entry => addNested lexicon names roots state entry.1 entry.2)
      (draft, published.map waiting ++ more) = pure (published.foldl (publish names) draft, more) := by
  induction params generalizing draft published with
  | nil =>
    cases each
    rfl
  | cons entry rest ih =>
    have unbracketedRest : ∀ name ∈ Table.keys rest, Unbracketed name :=
      fun name member => unbracketed name (List.mem_cons_of_mem _ member)
    have apartRest : ∀ entry ∈ rest, entry.2.documentation.hidden = false → entry.1 ∉ roots.hidden :=
      fun entry member => apart entry (List.mem_cons_of_mem _ member)
    rw [List.foldlM_cons]
    cases hides : entry.2.documentation.hidden with
    | true =>
      rw [List.filter_cons_of_neg (by simp [hides])] at each
      rw [addNested_of_hidden hides, pure_bind]
      exact ih unbracketedRest each apartRest draft
    | false =>
      rw [List.filter_cons_of_pos (by simp [hides])] at each
      obtain ⟨publication, published, here, others, rfl⟩ := List.forall₂_cons_left_iff.mp each
      obtain ⟨rfl, -⟩ := here
      have own : Unbracketed publication.entry.1 := unbracketed _ List.mem_cons_self
      rw [List.map_cons, List.cons_append,
        addNested_of_waiting own hides (apart _ List.mem_cons_self hides), pure_bind]
      exact ih unbracketedRest others apartRest _

theorem publish_eq_publishFlat {publication : Publication} (unbracketed : Unbracketed publication.entry.1)
    (absent : publication.entry.1 ∉ Table.keys draft.body.properties) :
    publish names draft publication = publishFlat names draft publication := by
  have free : Table.get? draft.body.properties publication.entry.1 = none := Table.get?_eq_none_iff.mpr absent
  unfold publish publishFlat placeNested
  simp only [unbracketed.splitNested_eq, insertNested, placeLeaf, free]
  rfl

/-- Parameters without brackets whose names are new in the body are published as on a route without nested
names. -/
theorem foldl_publish_eq (unbracketed : ∀ publication ∈ published, Unbracketed publication.entry.1)
    (distinct : (Table.keys draft.body.properties ++ published.map (·.entry.1)).Nodup) :
    published.foldl (publish names) draft = published.foldl (publishFlat names) draft := by
  induction published generalizing draft with
  | nil => rfl
  | cons publication rest ih =>
    have own : Unbracketed publication.entry.1 := unbracketed _ List.mem_cons_self
    have absent : publication.entry.1 ∉ Table.keys draft.body.properties := fun present =>
      (List.nodup_append.mp distinct).2.2 _ present _ List.mem_cons_self rfl
    rw [List.foldl_cons, List.foldl_cons, publish_eq_publishFlat own absent]
    refine ih (fun other member => unbracketed other (List.mem_cons_of_mem _ member)) ?_
    unfold publishFlat
    split
    · have keys : Table.keys (addTo draft.body publication).properties =
          Table.keys draft.body.properties ++ [publication.entry.1] :=
        (Table.keys_insert ..).trans (if_neg absent)
      rw [keys, List.append_assoc]
      exact distinct
    · exact distinct.sublist (List.Sublist.append_left (List.sublist_cons_self _ _) _)

/-- What the roots of the parameters are after the first pass. -/
def rootsBehind (params : Table String ParamSpec) (published : List Publication) : Roots :=
  ⟨hiddenRoots params, published.map waiting⟩

/-- Resolves a parameter behind the first pass, if it is shown. -/
def publicationInside (lexicon : Lexicon) (names : Names) (roots : Roots) (entry : String × ParamSpec) :
    Build (List Publication) := do
  if entry.2.documentation.hidden || roots.hidden.contains (rootName entry.1) then return []
  let schema ← paramSchema lexicon entry.2
  let location :=
    match roots.visible.get? (rootName entry.1) with
    | some (location, _) => location
    | none => locate names entry.1 entry.2 schema
  return [⟨entry, location, schema⟩]

theorem addNested_of_several {roots : Roots} (several : 1 < (splitNested entry.1).length) (draft : Draft)
    (pending : Table String (Location × Schema)) :
    addNested lexicon names roots (draft, pending) entry.1 entry.2 = do
      return ((← publicationInside lexicon names roots entry).foldl (publish names) draft, pending) := by
  unfold addNested publicationInside
  dsimp only
  split
  · rfl
  · rw [if_neg (Nat.ne_of_gt several), bind_assoc]
    exact congrArg (paramSchema lexicon entry.2 >>= ·) (funext fun schema => rfl)

section

variable (distinct : (Table.keys params).Nodup) (unbracketed : ∀ name ∈ Table.keys params, Unbracketed name)
include distinct unbracketed

/-- The first pass over parameters without brackets finds what each of them resolves to. -/
theorem foldlM_noteRoot_eq :
    params.foldlM (fun roots entry => noteRoot lexicon names roots entry.1 entry.2) {} =
      do return rootsBehind params (← resolveVisible lexicon names params) := by
  rw [foldlM_noteRoot unbracketed]
  refine (resolveVisible_publishedAs lexicon names params).bind_congr fun published each => ?_
  have keys : Table.keys (published.map waiting) = published.map (·.entry.1) := List.map_map
  have noted : Table.extend [] (published.map waiting) = published.map waiting :=
    Table.extend_nil (keys ▸ distinct.sublist (sublist_of_publishedAs each))
  have behind : (⟨[] ++ hiddenRoots params, Table.extend [] (published.map waiting)⟩ : Roots) =
      rootsBehind params published := by
    rw [noted]
    rfl
  exact congrArg pure behind

/-- A parameter without brackets is hidden only by itself. -/
theorem not_mem_hiddenRoots (member : entry ∈ params) (shows : entry.2.documentation.hidden = false) :
    entry.1 ∉ hiddenRoots params := by
  rw [hiddenRoots_of_unbracketed unbracketed]
  intro among
  obtain ⟨other, listed, same⟩ := List.mem_map.mp among
  obtain ⟨here, hides⟩ := List.mem_filter.mp listed
  obtain rfl := List.inj_on_of_nodup_map distinct here member same
  rw [shows] at hides
  cases hides

/-- Parameters without brackets are published in their order. -/
theorem addAllNested_of_unbracketed (draft : Draft) : addAllNested lexicon names params draft =
    do return (← resolveVisible lexicon names params).foldl (publish names) draft := by
  unfold addAllNested
  simp only [foldlM_noteRoot_eq distinct unbracketed, bind_assoc, pure_bind]
  refine (resolveVisible_publishedAs lexicon names params).bind_congr fun published each => ?_
  have apart : ∀ entry ∈ params, entry.2.documentation.hidden = false →
      entry.1 ∉ (rootsBehind params published).hidden :=
    fun entry => not_mem_hiddenRoots distinct unbracketed
  have second := foldlM_addNested lexicon unbracketed each apart draft []
  rw [List.append_nil] at second
  exact congrArg (fun last => last >>= fun state => pure state.1) second

/-- Where a name of several segments stands among parameters without brackets, these are published in their
order, and its parameter is published in its place. -/
theorem addAllNested_of_bracketed {before after : Table String ParamSpec} (split : params = before ++ after)
    {bracketed : String × ParamSpec} (several : 1 < (splitNested bracketed.1).length) (draft : Draft) :
    addAllNested lexicon names (before ++ bracketed :: after) draft = do
      let early ← resolveVisible lexicon names before
      let late ← resolveVisible lexicon names after
      let own ← publicationInside lexicon names (rootsBehind params (early ++ late)) bracketed
      return (early ++ own ++ late).foldl (publish names) draft := by
  have first : (before ++ bracketed :: after).foldlM
      (fun roots entry => noteRoot lexicon names roots entry.1 entry.2) {} =
        do return rootsBehind params (← resolveVisible lexicon names params) := by
    rw [← foldlM_noteRoot_eq distinct unbracketed, split, List.foldlM_append, List.foldlM_append]
    simp only [List.foldlM_cons, noteRoot_of_several several, pure_bind]
  have resolved : resolveVisible lexicon names params = do
      return (← resolveVisible lexicon names before) ++ (← resolveVisible lexicon names after) :=
    split ▸ resolveVisible_append before after
  unfold addAllNested
  simp only [first, resolved, bind_assoc, pure_bind]
  refine (resolveVisible_publishedAs lexicon names before).bind_congr fun early eachEarly => ?_
  refine (resolveVisible_publishedAs lexicon names after).bind_congr fun late eachLate => ?_
  -- Neither part has a name with brackets or a hidden root, so the second pass takes from each what waits.
  have keys : Table.keys params = Table.keys before ++ Table.keys after := split ▸ List.map_append
  have earlyNames : ∀ name ∈ Table.keys before, Unbracketed name := fun name member =>
    unbracketed name (keys ▸ List.mem_append_left _ member)
  have lateNames : ∀ name ∈ Table.keys after, Unbracketed name := fun name member =>
    unbracketed name (keys ▸ List.mem_append_right _ member)
  have earlyApart : ∀ entry ∈ before, entry.2.documentation.hidden = false →
      entry.1 ∉ (rootsBehind params (early ++ late)).hidden := fun entry member =>
    not_mem_hiddenRoots distinct unbracketed (split ▸ List.mem_append_left _ member)
  have lateApart : ∀ entry ∈ after, entry.2.documentation.hidden = false →
      entry.1 ∉ (rootsBehind params (early ++ late)).hidden := fun entry member =>
    not_mem_hiddenRoots distinct unbracketed (split ▸ List.mem_append_right _ member)
  have ahead := foldlM_addNested lexicon earlyNames eachEarly earlyApart draft (late.map waiting)
  have behind (draft : Draft) := foldlM_addNested lexicon lateNames eachLate lateApart draft []
  rw [← List.map_append] at ahead
  simp only [List.append_nil] at behind
  have waits : (rootsBehind params (early ++ late)).visible = (early ++ late).map waiting := rfl
  rw [waits, List.foldlM_append, ahead]
  simp [addNested_of_several several, behind]

end

/-- Where no name has a bracket, the two passes over a route with nested names build what one pass builds,
and resolve the same types in the same order. One name of several segments changes nothing for the others:
they are published as before, with what they resolve to without it, and its own parameter in its place. -/
theorem addAllNested_eq_addAllFlat (lexicon : Lexicon) (names : Names) (distinct : (Table.keys params).Nodup)
    (unbracketed : ∀ name ∈ Table.keys params, Unbracketed name) (empty : draft.body.properties = []) :
    addAllNested lexicon names params draft = addAllFlat lexicon names params draft ∧
      ∀ before bracketed after, params = before ++ after → 1 < (splitNested bracketed.1).length →
        (addAllFlat lexicon names params draft = do
          let early ← resolveVisible lexicon names before
          let late ← resolveVisible lexicon names after
          return (early ++ late).foldl (publish names) draft) ∧
        addAllNested lexicon names (before ++ bracketed :: after) draft = do
          let early ← resolveVisible lexicon names before
          let late ← resolveVisible lexicon names after
          let own ← publicationInside lexicon names (rootsBehind params (early ++ late)) bracketed
          return (early ++ own ++ late).foldl (publish names) draft := by
  have both : addAllNested lexicon names params draft = addAllFlat lexicon names params draft := by
    rw [addAllNested_of_unbracketed distinct unbracketed, addAllFlat_eq]
    refine (resolveVisible_publishedAs lexicon names params).bind_congr fun published each => ?_
    have within := sublist_of_publishedAs each
    refine congrArg pure (foldl_publish_eq (fun publication member => ?_) ?_)
    · exact unbracketed _ (within.subset (List.mem_map_of_mem member))
    · rw [empty]
      exact distinct.sublist within
  refine ⟨both, fun before bracketed after split several => ⟨?_, ?_⟩⟩
  · rw [← both, addAllNested_of_unbracketed distinct unbracketed, split, resolveVisible_append]
    simp
  · exact addAllNested_of_bracketed distinct unbracketed split several draft

/-- Parameters of all kinds: a hidden variable of the path, an entity, a file, and two that are published
under one name. -/
def readerParams : Table String ParamSpec :=
  [("book", { documentation := { hidden := true } }),
    ("owner", { type := some (.named "Owner"), documentation := { location := some "body" } }),
    ("scan", { type := some (.named "File"), required := some true }), ("page", {}), ("offset", {})]

theorem addAllNested_eq_addAllFlat_readers :
    let names : Names := ⟨["book"], [("page", "position"), ("offset", "position")]⟩
    (Table.keys readerParams).Nodup ∧ (∀ name ∈ Table.keys readerParams, Unbracketed name) ∧
      1 < (splitNested "owner[name]").length ∧
      addAllNested {} names readerParams {} = addAllFlat {} names readerParams {} ∧
      addAllNested {} names (readerParams ++ [("owner[name]", bodyParam)]) {} = do
        let early ← resolveVisible {} names readerParams
        let late ← resolveVisible {} names []
        let own ← publicationInside {} names (rootsBehind readerParams (early ++ late))
          ("owner[name]", bodyParam)
        return (early ++ own ++ late).foldl (publish names) {} := by
  intro names
  have distinct : (Table.keys readerParams).Nodup := by decide
  have unbracketed : ∀ name ∈ Table.keys readerParams, Unbracketed name := by decide
  have several : 1 < (splitNested "owner[name]").length := by decide
  have empty : ({} : Draft).body.properties = [] := rfl
  obtain ⟨both, bracketed⟩ := addAllNested_eq_addAllFlat {} names distinct unbracketed empty
  have last := (bracketed readerParams ("owner[name]", bodyParam) [] (List.append_nil _).symm several).2
  exact ⟨distinct, unbracketed, several, both, last⟩

end Route

end ApiDoc
