import ApiDoc.Proofs.Build.Paths
import ApiDoc.Proofs.Build.Regular

/-! # Published paths and their variables

A route writes a variable of its path as `:name` or as `{name}`. Its template has the published name of
the variable in braces instead, and every other segment as it is (`Publishes`, `template_toList`). The
operation of the route takes each of its variables as a required path parameter of that name, whatever
is declared of it (`DraftLaw`, `buildOperation_takesVariables`). So no template of an interface has a
variable that one of its operations does not take (`buildApi_templates`).
-/

namespace ApiDoc

namespace Text

theorem pieces_eq_splitOn (separator : Char) (text : List Char) :
    pieces separator text = text.splitOn separator := by
  induction text with
  | nil => rfl
  | cons c rest ih =>
    rw [pieces, List.splitOn_cons_eq_if_modifyHead, ih]
    simp only [beq_iff_eq]

theorem joined_eq_intercalate (separator : Char) (parts : List (List Char)) :
    joined separator parts = [separator].intercalate parts := by
  induction parts with
  | nil => rfl
  | cons part rest ih =>
    cases rest with
    | nil => simp [joined]
    | cons next rest =>
      rw [joined, ih, List.intercalate_cons_cons]
      simp

/-- Parts without a separator are the pieces of what they are joined to. -/
theorem pieces_joined (separator : Char) {parts : List (List Char)} (nonempty : parts ≠ [])
    (free : ∀ part ∈ parts, separator ∉ part) : pieces separator (joined separator parts) = parts := by
  rw [pieces_eq_splitOn, joined_eq_intercalate]
  exact List.splitOn_intercalate separator free nonempty

theorem not_mem_of_mem_pieces {separator : Char} {text : List Char} :
    ∀ part ∈ pieces separator text, separator ∉ part := by
  induction text with
  | nil => simp [pieces]
  | cons c rest ih =>
    unfold pieces
    split
    · intro part member
      rcases List.mem_cons.mp member with rfl | member
      · exact List.not_mem_nil
      · exact ih part member
    · next apart =>
      cases parts : pieces separator rest with
      | nil => exact absurd parts (pieces_ne_nil separator rest)
      | cons first more =>
        rw [parts] at ih
        intro part member
        rcases List.mem_cons.mp member with rfl | member
        · exact List.not_mem_cons_of_ne_of_not_mem (Ne.symm apart) (ih first List.mem_cons_self)
        · exact ih part (List.mem_cons_of_mem _ member)

end Text

/-- The name that a path variable is published under. -/
def Config.published (config : Config) (pathVariable : String) : String :=
  (config.paramAliases.get? pathVariable).getD pathVariable

namespace Route

open Text

variable {config : Config} {segment name : List Char}

/-- The segments that stand for a variable. -/
inductive StandsFor : (segment name : List Char) → Prop
  | colon {name : List Char} : name ≠ [] → StandsFor (':' :: name) name
  | braces {name : List Char} : name ≠ [] → StandsFor (braced name) name

/-- What the segments of a path are published as, and the variables among them: a variable in braces
under its published name, every other segment as it is. -/
inductive Publishes (config : Config) : (segments published : List (List Char)) → List String → Prop
  | nil : Publishes config [] [] []
  | pathVariable {segment name : List Char} {segments published : List (List Char)} {names : List String} :
      StandsFor segment name → Publishes config segments published names →
      Publishes config (segment :: segments)
        (braced (config.published (String.ofList name)).toList :: published) (String.ofList name :: names)
  | literal {segment : List Char} {segments published : List (List Char)} {names : List String} :
      (∀ name, ¬StandsFor segment name) → Publishes config segments published names →
      Publishes config (segment :: segments) (segment :: published) names

theorem bracedName?_braced (name : List Char) : bracedName? (braced name) = some name := by
  simp [bracedName?, braced, enclosed?, dropLast?]

theorem eq_braced_of_bracedName? (found : bracedName? segment = some name) : segment = braced name := by
  unfold bracedName? enclosed? at found
  cases segment with
  | nil => cases found
  | cons c rest =>
    dsimp only at found
    split at found
    · next opened =>
      unfold dropLast? at found
      split at found
      · next closed =>
        cases found
        rw [braced, opened, List.cons_append, List.dropLast_append_getLast? _ (Option.mem_def.mpr closed)]
      · cases found
    · cases found

theorem standsFor_iff : StandsFor segment name ↔ name ≠ [] ∧ variableName? segment = some name := by
  constructor
  · rintro (nonempty | nonempty)
    · exact ⟨nonempty, rfl⟩
    · exact ⟨nonempty, bracedName?_braced name⟩
  · rintro ⟨nonempty, found⟩
    unfold variableName? at found
    split at found
    · cases found
      exact .colon nonempty
    · rw [eq_braced_of_bracedName? found]
      exact .braces nonempty

theorem StandsFor.publishSegment_eq (stands : StandsFor segment name) :
    publishSegment segment = braced name := by
  cases stands with
  | colon nonempty =>
    obtain ⟨c, rest, rfl⟩ := List.exists_cons_of_ne_nil nonempty
    rfl
  | braces => rfl

theorem publishSegment_of_literal (literal : ∀ name, ¬StandsFor segment name) :
    publishSegment segment = segment := by
  unfold publishSegment
  split
  · next c rest => exact absurd (.colon (List.cons_ne_nil c rest)) (literal (c :: rest))
  · rfl

theorem aliasSegment_braced (config : Config) (name : List Char) :
    aliasSegment config.paramAliases (braced name) =
      braced (config.published (String.ofList name)).toList := by
  unfold aliasSegment Config.published
  rw [bracedName?_braced]
  dsimp only
  cases config.paramAliases.get? (String.ofList name) with
  | none => rw [Option.getD_none, String.toList_ofList]
  | some published => rw [Option.getD_some]

/-- Where nothing is published under the empty name, braces with nothing between them stay. -/
theorem aliasSegment_of_literal (unnamed : "" ∉ Table.keys config.paramAliases)
    (literal : ∀ name, ¬StandsFor segment name) : aliasSegment config.paramAliases segment = segment := by
  unfold aliasSegment
  cases found : bracedName? segment with
  | none => rfl
  | some name =>
    have same := eq_braced_of_bracedName? found
    have empty : name = [] := by
      by_contra nonempty
      exact literal name (same ▸ .braces nonempty)
    have absent : config.paramAliases.get? (String.ofList name) = none := by
      rw [empty]
      exact Table.get?_eq_none_iff.mpr unnamed
    dsimp only
    rw [absent]

def variableNames (segments : List (List Char)) : List String :=
  (segments.filterMap variableName?).filterMap fun name =>
    if name.isEmpty then none else some (String.ofList name)

theorem variableNames_cons (stands : StandsFor segment name) (rest : List (List Char)) :
    variableNames (segment :: rest) = String.ofList name :: variableNames rest := by
  obtain ⟨nonempty, found⟩ := standsFor_iff.mp stands
  unfold variableNames
  rw [List.filterMap_cons_some found, List.filterMap_cons_some]
  rw [if_neg (mt List.isEmpty_iff.mp nonempty)]

theorem variableNames_cons_of_literal (literal : ∀ name, ¬StandsFor segment name)
    (rest : List (List Char)) : variableNames (segment :: rest) = variableNames rest := by
  unfold variableNames
  cases found : variableName? segment with
  | none => rw [List.filterMap_cons_none found]
  | some name =>
    have empty : name = [] := by
      by_contra nonempty
      exact literal name (standsFor_iff.mpr ⟨nonempty, found⟩)
    subst empty
    rw [List.filterMap_cons_some found, List.filterMap_cons_none]
    rfl

theorem publishes (unnamed : "" ∉ Table.keys config.paramAliases) (segments : List (List Char)) :
    Publishes config segments (segments.map fun segment =>
      aliasSegment config.paramAliases (publishSegment segment)) (variableNames segments) := by
  induction segments with
  | nil => exact .nil
  | cons segment rest ih =>
    by_cases stands : ∃ name, StandsFor segment name
    · obtain ⟨name, here⟩ := stands
      rw [List.map_cons, here.publishSegment_eq, aliasSegment_braced, variableNames_cons here]
      exact .pathVariable here ih
    · have literal := not_exists.mp stands
      rw [List.map_cons, publishSegment_of_literal literal, aliasSegment_of_literal unnamed literal,
        variableNames_cons_of_literal literal]
      exact .literal literal ih

theorem publishSegment_eq_nil (empty : publishSegment segment = []) : segment = [] := by
  unfold publishSegment at empty
  split at empty
  · cases empty
  · exact empty

theorem not_mem_publishSegment (free : '/' ∉ segment) : '/' ∉ publishSegment segment := by
  unfold publishSegment
  split
  · next c rest =>
    intro member
    simp only [braced, List.cons_append, List.mem_cons, List.mem_append, List.not_mem_nil] at member free
    have apart : ('/' : Char) ≠ '\x7b' ∧ ('/' : Char) ≠ '\x7d' := by decide
    tauto
  · exact free

/-- The segments of the published form are the published segments. -/
theorem pieces_published (path : List Char) :
    pieces '/' (joined '/' ((pieces '/' path).map publishSegment)) = (pieces '/' path).map publishSegment := by
  refine pieces_joined '/' (mt List.map_eq_nil_iff.mp (pieces_ne_nil '/' path)) fun part member => ?_
  obtain ⟨segment, listed, rfl⟩ := List.mem_map.mp member
  exact not_mem_publishSegment (not_mem_of_mem_pieces segment listed)

theorem published_eq_nil {path : List Char}
    (empty : joined '/' ((pieces '/' path).map publishSegment) = []) : path = [] := by
  have single : (pieces '/' path).map publishSegment = [[]] := by
    rw [← pieces_published, empty]
    rfl
  obtain ⟨segment, alone, published⟩ := List.map_eq_singleton_iff.mp single
  rw [← joined_pieces '/' path, alone, publishSegment_eq_nil published]
  rfl

end Route

open Route Text

variable {config : Config} {lexicon : Lexicon} {route : RouteDescriptor} {routes : List RouteDescriptor}

/-- The template of a route has its published segments, and is never empty. -/
theorem RouteDescriptor.template_toList (config : Config) (route : RouteDescriptor) :
    (route.template config).toList =
      if dropFormat route.path.toList = [] then ['/']
      else joined '/' ((pieces '/' (dropFormat route.path.toList)).map fun segment =>
        aliasSegment config.paramAliases (publishSegment segment)) := by
  unfold template applyAliases Route.normalize
  dsimp only
  rw [String.toList_ofList]
  generalize dropFormat route.path.toList = path
  by_cases empty : path = []
  · subst empty
    rfl
  · have nonempty : joined '/' ((pieces '/' path).map publishSegment) ≠ [] := mt published_eq_nil empty
    rw [if_neg (mt List.isEmpty_iff.mp nonempty), if_neg empty, String.toList_ofList, pieces_published,
      List.map_map]
    rfl

namespace Route

/-- Every parameter stands under its location and its name, and is required if it is in the path. -/
def Draft.Keyed (draft : Draft) : Prop :=
  ∀ entry ∈ draft.bucket, entry.1 = (entry.2.location, entry.2.name) ∧
    (entry.2.location = .path → entry.2.required = true)

theorem keyed_draftLaw (names : Names) : DraftLaw names Draft.Keyed where
  start entry member := by cases member
  put draft parameter outside keyed entry member := by
    rcases Table.mem_of_mem_insert member with rfl | old
    · refine ⟨rfl, fun inPath => ?_⟩
      cases outside with
      | header => cases inPath
      | declared name spec schema _ =>
        have located : (parameterOf names name _ spec schema).location = .path := inPath
        simp [parameterOf] at located
        simp [parameterOf, located]
    · exact keyed entry old
  addProperty _ _ _ _ keyed := keyed
  insertNested _ _ _ _ keyed := keyed

/-- What a keyed draft ends in takes every variable of the path: as it is declared, or else as a string. -/
theorem Draft.Keyed.finish {draft : Draft} (keyed : draft.Keyed) {names : Names} {pathVariable : String}
    (listed : pathVariable ∈ names.pathVariables) : ∃ parameter ∈ (draft.finish names).2,
      parameter.location = .path ∧ parameter.name = names.published pathVariable ∧
        parameter.required = true := by
  by_cases declared : draft.bucket.contains (.path, names.published pathVariable)
  · obtain ⟨⟨_, parameter⟩, member, rfl⟩ := List.mem_map.mp (Table.contains_iff_mem_keys.mp declared)
    obtain ⟨key, required⟩ := keyed _ member
    obtain ⟨location, name⟩ := Prod.mk.inj key
    refine ⟨parameter, List.mem_append_right _ (List.mem_map_of_mem member), location.symm, name.symm, ?_⟩
    exact required location.symm
  · let parameter : Parameter :=
      { name := names.published pathVariable, location := .path, required := true, schema := .string }
    have added : parameter ∈ undeclared names draft :=
      List.mem_filterMap.mpr ⟨pathVariable, listed, if_neg declared⟩
    exact ⟨parameter, List.mem_append_left _ added, rfl, rfl, rfl⟩

end Route

/-- The operation has a required path parameter for each variable of the route, under its published
name. -/
def Operation.TakesVariables (config : Config) (route : RouteDescriptor) (operation : Operation) : Prop :=
  ∀ pathVariable ∈ pathVariables route.path, ∃ parameter ∈ operation.parameters,
    parameter.location = .path ∧ parameter.name = config.published pathVariable ∧
      parameter.required = true

theorem RouteDescriptor.buildOperation_takesVariables (config : Config) (lexicon : Lexicon)
    (route : RouteDescriptor) :
    Always (Operation.TakesVariables config route) (route.buildOperation config lexicon) := by
  have keyed := (keyed_draftLaw _).buildParams lexicon config.paramAliases route rfl
  refine keyed.bind fun built ⟨draft, keyed, made⟩ => .after fun success => .after fun responses => .pure ?_
  subst made
  intro pathVariable listed
  rw [Operation.insertResponses_keeps (·.parameters) fun _ _ => rfl]
  exact keyed.finish listed

/-- The template of a route is published of its path, and its operation takes all variables, whatever is
declared of them and whatever was introspected before. An interface has an operation for every visible
route at its template, and every operation at a template takes the variables of a route with this
template. -/
theorem buildApi_templates (config : Config) (unnamed : "" ∉ Table.keys config.paramAliases)
    (lexicon : Lexicon) (routes : List RouteDescriptor) :
    (∀ route ∈ routes,
      (∃ published,
        Publishes config (pieces '/' (dropFormat route.path.toList)) published (pathVariables route.path) ∧
          (route.template config).toList =
            if dropFormat route.path.toList = [] then ['/'] else joined '/' published) ∧
      ∀ progress,
        ((route.buildOperation config lexicon).run progress).1.TakesVariables config route) ∧
    (∀ route ∈ visibleRoutes routes, ∃ item ∈ (buildApi config lexicon routes).paths,
      item.template = route.template config ∧ route.method ∈ Table.keys item.operations) ∧
    ∀ item ∈ (buildApi config lexicon routes).paths, ∀ entry ∈ item.operations,
      ∃ route ∈ visibleRoutes routes, route.place config = (item.template, entry.1) ∧
        entry.2.TakesVariables config route := by
  have placed := draftOf_placed config lexicon routes
  refine ⟨fun route _ => ⟨⟨_, publishes unnamed _, route.template_toList config⟩,
    route.buildOperation_takesVariables config lexicon⟩, fun route visible => ?_, ?_⟩
  · obtain ⟨item, listed, here⟩ := placed.exists_item visible
    have present := placed.present route visible
    rw [← here, placed.at_eq listed] at present
    exact ⟨item, listed, here, present⟩
  · rintro item listed ⟨method, operation⟩ held
    obtain ⟨before, route, last, id, rfl⟩ := placed.last item.template method operation
      (placed.get?_of_mem listed held)
    exact ⟨route, last.mem_visibleRoutes, last.here,
      route.buildOperation_takesVariables config lexicon (progressOf config lexicon before)⟩

/-- Published paths of an archive: a variable with an alias that is declared with another location, one
that is declared through bracket names only, and one of which nothing is declared. -/
def archiveConfig : Config := { paramAliases := [("id", "folder_id")] }

def archiveRoutes : List RouteDescriptor :=
  [{ path := "/folders/:id/\x7bpage\x7d/:line(.:format)"
     method := .get
     params := [("id", (ParamSpec.typed "Integer").located "query"), ("page[size]", .typed "Integer")] }]

theorem buildApi_templates_archive :
    "" ∉ Table.keys archiveConfig.paramAliases ∧
      (∃ item ∈ (buildApi archiveConfig {} archiveRoutes).paths,
        item.template = "/folders/\x7bfolder_id\x7d/\x7bpage\x7d/\x7bline\x7d") ∧
      ∀ item ∈ (buildApi archiveConfig {} archiveRoutes).paths, ∀ entry ∈ item.operations,
        ∃ route ∈ visibleRoutes archiveRoutes, route.place archiveConfig = (item.template, entry.1) ∧
          entry.2.TakesVariables archiveConfig route := by
  have unnamed : "" ∉ Table.keys archiveConfig.paramAliases := by decide
  obtain ⟨-, stand, take⟩ := buildApi_templates archiveConfig unnamed {} archiveRoutes
  obtain ⟨item, listed, here, -⟩ := stand _ List.mem_cons_self
  exact ⟨unnamed, ⟨item, listed, here.trans (by decide)⟩, take⟩

end ApiDoc
