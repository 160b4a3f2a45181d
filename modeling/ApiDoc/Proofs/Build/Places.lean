import ApiDoc.Proofs.Build.Alike
import ApiDoc.Proofs.Build.Interface
import ApiDoc.Proofs.Reordered

/-! # Where the operations of an interface stand

If the visible routes have places of their own, that is a path and a method, and ids of their own,
then each operation stands at the place of its route, under the id of the route, and nothing else
stands anywhere (`Gathers`).
-/

namespace ApiDoc

variable {config : Config} {lexicon : Lexicon} {route : RouteDescriptor} {operation : Operation}
  {template : String}

/-- The operation of a route has its method and its id. -/
theorem RouteDescriptor.buildOperation_frame (config : Config) (lexicon : Lexicon) (progress : Progress) :
    ((route.buildOperation config lexicon).run progress).1.method = route.method ∧
      ((route.buildOperation config lexicon).run progress).1.operationId = route.operationId := by
  unfold buildOperation
  exact ⟨Operation.insertResponses_keeps (·.method) (fun _ _ => rfl) _ _,
    Operation.insertResponses_keeps (·.operationId) (fun _ _ => rfl) _ _⟩

/-- The operations of all paths under their templates. -/
def Api.byPath (api : Api) : Table String (Table Method Operation) :=
  api.paths.map fun item => (item.template, item.operations)

/-- The operations of a path; there are none if there is no such path. -/
def Api.at (api : Api) (template : String) : Table Method Operation :=
  (Table.get? api.byPath template).getD []

theorem Api.byPath_putOperation (api : Api) (template : String) (operation : Operation) :
    (api.putOperation template operation).byPath =
      Table.insert api.byPath template (Table.insert (api.at template) operation.method operation) := by
  unfold putOperation modifyPath «at» byPath
  dsimp only
  induction api.paths with
  | nil => rfl
  | cons item rest ih =>
    rw [modifyPathIn, List.map_cons, Table.insert, Table.get?]
    split
    · next here =>
      rw [List.map_cons, here]
      rfl
    · rw [List.map_cons, ih]

theorem Api.at_putOperation (api : Api) (template other : String) (operation : Operation) :
    (api.putOperation template operation).at other =
      if template = other then Table.insert (api.at template) operation.method operation
      else api.at other := by
  unfold «at»
  rw [byPath_putOperation, Table.get?_insert]
  split <;> rfl

/-- A write under a method of a path is seen at that place only. -/
theorem Api.get?_putOperation (api : Api) (template other : String) (method : Method)
    (operation : Operation) : Table.get? ((api.putOperation template operation).at other) method =
      if (template, operation.method) = (other, method) then some operation
      else Table.get? (api.at other) method := by
  rw [at_putOperation]
  by_cases same : template = other
  · rw [if_pos same, Table.get?_insert, same]
    simp
  · rw [if_neg same, if_neg fun place => same (Prod.mk.inj place).1]

def place (config : Config) (entry : RouteDescriptor × Operation) : String × Method :=
  (entry.1.template config, entry.2.method)

/-- The draft holds the operations that were built, each at its place, and nothing else. -/
structure Gathers (config : Config) (built : List (RouteDescriptor × Operation)) (draft : ApiDraft) :
    Prop where
  paths : (Table.keys draft.api.byPath).Nodup
  methods : ∀ template, (Table.keys (draft.api.at template)).Nodup
  filled : ∀ template ∈ Table.keys draft.api.byPath, draft.api.at template ≠ []
  operation_iff : ∀ template method operation,
    Table.get? (draft.api.at template) method = some operation ↔
      ∃ entry ∈ built, place config entry = (template, method) ∧ entry.2 = operation
  tagsDistinct : draft.tags.Nodup
  tags_iff : ∀ tag, tag ∈ draft.tags ↔ ∃ entry ∈ built, tag ∈ entry.2.tags
  ids : ∀ id ∈ draft.ids, ∃ entry ∈ built, entry.2.operationId = some id
  frame : draft.api = { emptyApi config with paths := draft.api.paths }

theorem gathers_empty (config : Config) : Gathers config [] { api := emptyApi config } where
  paths := List.nodup_nil
  methods _ := List.nodup_nil
  filled template member := by cases member
  operation_iff template method operation := by simp [Api.at, Api.byPath, emptyApi, Table.get?]
  tagsDistinct := List.nodup_nil
  tags_iff tag := by simp
  ids id member := by cases member
  frame := rfl

variable {built : List (RouteDescriptor × Operation)} {draft : ApiDraft}

/-- An operation keeps an id that no operation of the draft has. -/
theorem Gathers.put_eq (gathers : Gathers config built draft) (template : String) {id : String}
    (named : operation.operationId = some id)
    (unused : ∀ other ∈ built, other.2.operationId ≠ some id) :
    ∃ ids, draft.put template operation =
        { api := draft.api.putOperation template operation
          tags := draft.tags.addAll operation.tags
          ids := ids } ∧ ∀ other ∈ ids, other = id ∨ other ∈ draft.ids := by
  have released : ∀ other ∈ draft.releasedIds template operation.method, other ∈ draft.ids := by
    intro other member
    unfold ApiDraft.releasedIds at member
    split at member
    · exact List.mem_of_mem_erase member
    · exact member
  have free : id ∉ draft.releasedIds template operation.method := by
    intro member
    obtain ⟨other, listed, taken⟩ := gathers.ids id (released id member)
    exact unused other listed taken
  refine ⟨(draft.releasedIds template operation.method).add id, ?_, fun other member => ?_⟩
  · have unchanged : ({ operation with operationId := some id } : Operation) = operation := by
      rw [← named]
    unfold ApiDraft.put OperationId.unique
    rw [named, Option.getD_some]
    dsimp only
    rw [if_neg free, unchanged]
  · exact (NameSet.mem_add.mp member).symm.imp_right (released other)

/-- An operation that is put at an unused place is found there, and all others where they were. -/
theorem Gathers.operation_put_iff (gathers : Gathers config built draft)
    {entry : RouteDescriptor × Operation}
    (free : ∀ other ∈ built, place config other ≠ place config entry) (template : String)
    (method : Method) (operation : Operation) :
    Table.get? ((draft.api.putOperation (entry.1.template config) entry.2).at template) method =
        some operation ↔
      ∃ other ∈ built ++ [entry], place config other = (template, method) ∧ other.2 = operation := by
  have others := gathers.operation_iff template method operation
  rw [Api.at_putOperation]
  simp only [List.mem_append, List.mem_singleton, or_and_right, exists_or, exists_eq_left]
  -- Nothing stood at the place of the entry, and nothing moves from any other place.
  by_cases here : place config entry = (template, method)
  · obtain ⟨rfl, rfl⟩ := Prod.mk.inj here
    rw [if_pos rfl, Table.get?_insert, if_pos rfl, Option.some.injEq]
    constructor
    · exact fun same => .inr ⟨rfl, same⟩
    · rintro (⟨other, listed, there, -⟩ | ⟨-, same⟩)
      · exact absurd there (free other listed)
      · exact same
  · simp only [here, false_and, or_false]
    rw [← others]
    split
    · next same =>
      have apart : entry.2.method ≠ method := by
        rintro rfl
        exact here (Prod.ext same rfl)
      rw [Table.get?_insert, if_neg apart, same]
    · rfl

/-- An operation with an unused place and an unused id is put where it belongs. -/
theorem Gathers.put (gathers : Gathers config built draft) {entry : RouteDescriptor × Operation}
    {id : String} (named : entry.2.operationId = some id)
    (unused : ∀ other ∈ built, other.2.operationId ≠ some id)
    (free : ∀ other ∈ built, place config other ≠ place config entry) :
    Gathers config (built ++ [entry]) (draft.put (entry.1.template config) entry.2) := by
  obtain ⟨ids, put, known⟩ := gathers.put_eq (entry.1.template config) named unused
  rw [put]
  exact
    { paths := by
        rw [Api.byPath_putOperation]
        exact Table.nodup_keys_insert gathers.paths _ _
      methods template := by
        rw [Api.at_putOperation]
        split
        · exact Table.nodup_keys_insert (gathers.methods _) _ _
        · exact gathers.methods template
      filled template member := by
        rw [Api.byPath_putOperation, Table.mem_keys_insert] at member
        rw [Api.at_putOperation]
        split
        · exact Table.insert_ne_nil _ _ _
        · next apart => exact gathers.filled template (member.resolve_left (Ne.symm apart))
      operation_iff := gathers.operation_put_iff free
      tagsDistinct := NameSet.nodup_addAll gathers.tagsDistinct _
      tags_iff tag := by
        rw [NameSet.mem_addAll, gathers.tags_iff]
        simp only [List.mem_append, List.mem_singleton, or_and_right, exists_or, exists_eq_left]
      ids other member := by
        rcases known other member with rfl | old
        · exact ⟨entry, List.mem_append_right _ List.mem_cons_self, named⟩
        · obtain ⟨listed, member, taken⟩ := gathers.ids other old
          exact ⟨listed, List.mem_append_left _ member, taken⟩
      frame := by
        rw [gathers.frame]
        rfl }

/-- Operations with places and ids of their own are all put where they belong. -/
theorem Gathers.putAll {done : List (RouteDescriptor × Operation)} (gathers : Gathers config done draft)
    (named : ∀ entry ∈ built, ∃ id, entry.2.operationId = some id)
    (places : ((done ++ built).map (place config)).Nodup)
    (ids : ((done ++ built).map fun entry => entry.2.operationId).Nodup) :
    Gathers config (done ++ built) (draft.putAll config built) := by
  induction built generalizing done draft with
  | nil =>
    rw [List.append_nil]
    exact gathers
  | cons entry rest ih =>
    obtain ⟨id, hasId⟩ := named entry List.mem_cons_self
    have unused : ∀ other ∈ done, other.2.operationId ≠ some id := by
      intro other listed same
      rw [List.map_append, List.nodup_append] at ids
      exact ids.2.2 _ (List.mem_map_of_mem listed) _ List.mem_cons_self (same.trans hasId.symm)
    have free : ∀ other ∈ done, place config other ≠ place config entry := by
      intro other listed same
      rw [List.map_append, List.nodup_append] at places
      exact places.2.2 _ (List.mem_map_of_mem listed) _ List.mem_cons_self same
    rw [List.append_cons] at places ids ⊢
    exact ih (gathers.put hasId unused free)
      (fun other member => named other (List.mem_cons_of_mem _ member)) places ids

end ApiDoc
