import ApiDoc.Proofs.Build.Templates

/-! # Parameters with one location and name

The location and the name of a parameter outside the body are its slot. A route with several parameters
for one slot keeps the last one, so declared parameters and headers never share a slot. Path variables
that nobody declares are filled in one by one, without a look at each other: two of them that are
published under one name share their slot (`repeated_variable_shares_slot`), and nothing else does
(`buildParams_slots`).
-/

namespace ApiDoc

def Parameter.slot (parameter : Parameter) : Location × String := (parameter.location, parameter.name)

namespace Route

variable {names : Names} {draft : Draft}

/-- The parameter of a path variable that nobody declares. -/
def filledIn (name : String) : Parameter := { name, location := .path, required := true, schema := .string }

/-- Every parameter of the draft stands under its slot, and no other under the same. -/
structure Draft.Slotted (draft : Draft) : Prop where
  keyed : draft.Keyed
  distinct : (Table.keys draft.bucket).Nodup

theorem slotted_draftLaw (names : Names) : DraftLaw names Draft.Slotted where
  start := ⟨(keyed_draftLaw names).start, List.nodup_nil⟩
  put draft parameter outside slotted :=
    ⟨(keyed_draftLaw names).put draft parameter outside slotted.keyed,
      Table.nodup_keys_insert slotted.distinct _ _⟩
  addProperty _ _ _ _ slotted := ⟨slotted.keyed, slotted.distinct⟩
  insertNested _ _ _ _ slotted := ⟨slotted.keyed, slotted.distinct⟩

theorem Draft.Slotted.slots_eq (slotted : draft.Slotted) :
    draft.bucket.values.map Parameter.slot = Table.keys draft.bucket := by
  unfold Table.values Table.keys
  rw [List.map_map]
  exact List.map_congr_left fun entry member => (slotted.keyed entry member).1.symm

/-- The names that path variables are published under and that nobody declares. -/
def missing (names : Names) (draft : Draft) : List String :=
  (names.pathVariables.map names.published).filter fun name => !draft.bucket.contains (.path, name)

theorem undeclared_eq_map (names : Names) (draft : Draft) :
    undeclared names draft = (missing names draft).map filledIn := by
  unfold undeclared missing
  induction names.pathVariables with
  | nil => rfl
  | cons pathVariable rest ih =>
    rw [List.filterMap_cons, List.map_cons, List.filter_cons, ih]
    dsimp only
    cases draft.bucket.contains (.path, names.published pathVariable) <;> rfl

def inSlot (slot : Location × String) (parameters : List Parameter) : List Parameter :=
  parameters.filter (·.slot == slot)

/-- Declared parameters do not share their slot. -/
theorem length_inSlot_values (slotted : draft.Slotted) (slot : Location × String) :
    (inSlot slot draft.bucket.values).length ≤ 1 := by
  have counted : (inSlot slot draft.bucket.values).length = (Table.keys draft.bucket).count slot := by
    rw [← slotted.slots_eq, List.count, List.countP_map, List.countP_eq_length_filter]
    rfl
  rw [counted]
  exact List.nodup_iff_count_le_one.mp slotted.distinct slot

theorem inSlot_values_eq_nil (slotted : draft.Slotted) {slot : Location × String}
    (free : ¬draft.bucket.contains slot = true) : inSlot slot draft.bucket.values = [] := by
  refine List.filter_eq_nil_iff.mpr fun parameter member => ?_
  rw [beq_iff_eq]
  rintro rfl
  refine free (Table.contains_iff_mem_keys.mpr ?_)
  rw [← slotted.slots_eq]
  exact List.mem_map_of_mem member

/-- A slot that somebody declares is not filled in. -/
theorem inSlot_undeclared_eq_nil {slot : Location × String} (taken : draft.bucket.contains slot = true) :
    inSlot slot (undeclared names draft) = [] := by
  refine List.filter_eq_nil_iff.mpr fun parameter member => ?_
  rw [undeclared_eq_map] at member
  obtain ⟨name, listed, rfl⟩ := List.mem_map.mp member
  rw [beq_iff_eq]
  rintro rfl
  have free := (List.mem_filter.mp listed).2
  rw [show (Location.path, name) = (filledIn name).slot from rfl, taken] at free
  cases free

theorem inSlot_undeclared_of_ne {slot : Location × String} (apart : slot.1 ≠ .path) :
    inSlot slot (undeclared names draft) = [] := by
  refine List.filter_eq_nil_iff.mpr fun parameter member => ?_
  rw [undeclared_eq_map] at member
  obtain ⟨name, -, rfl⟩ := List.mem_map.mp member
  rw [beq_iff_eq]
  rintro rfl
  exact apart rfl

/-- A slot that nobody declares is filled in for each path variable that is published under its name. -/
theorem inSlot_undeclared {name : String} (free : ¬draft.bucket.contains (.path, name) = true) :
    inSlot (.path, name) (undeclared names draft) =
      List.replicate ((names.pathVariables.map names.published).count name) (filledIn name) := by
  have chosen : ((fun parameter : Parameter => parameter.slot == (.path, name)) ∘ filledIn) =
      (· == name) := by
    funext other
    rw [Function.comp_apply, Bool.eq_iff_iff, beq_iff_eq, beq_iff_eq]
    simp [Parameter.slot, filledIn]
  unfold inSlot
  rw [undeclared_eq_map, List.filter_map, chosen, List.filter_beq, List.map_replicate]
  unfold missing
  rw [List.count_filter (by simpa using free)]

/-- A draft ends in parameters of which none share a slot, except path variables that are filled in. -/
theorem Draft.Slotted.finish (slotted : draft.Slotted) (names : Names) (slot : Location × String) :
    (inSlot slot (draft.finish names).2).length ≤ 1 ∨ slot.1 = .path ∧
      inSlot slot (draft.finish names).2 =
        List.replicate ((names.pathVariables.map names.published).count slot.2) (filledIn slot.2) := by
  have split : inSlot slot (draft.finish names).2 =
      inSlot slot (undeclared names draft) ++ inSlot slot draft.bucket.values := List.filter_append ..
  rw [split]
  by_cases taken : draft.bucket.contains slot = true
  · rw [inSlot_undeclared_eq_nil taken, List.nil_append]
    exact .inl (length_inSlot_values slotted slot)
  · rw [inSlot_values_eq_nil slotted taken, List.append_nil]
    obtain ⟨location, name⟩ := slot
    by_cases inPath : location = .path
    · subst inPath
      exact .inr ⟨rfl, inSlot_undeclared taken⟩
    · rw [inSlot_undeclared_of_ne inPath]
      exact .inl (Nat.zero_le 1)

/-- No two parameters of a route share their location and their name, whatever resolves the types, with
one exception: path variables that nobody declares are filled in once for each time that the path has a
variable published under the name. -/
theorem buildParams_slots (lexicon : Lexicon) (aliases : Table String String) (route : RouteDescriptor)
    (progress : Progress) (slot : Location × String) :
    let names : Names := ⟨pathVariables route.path, aliases⟩
    let sharing := inSlot slot ((buildParams lexicon aliases route).run progress).1.2
    sharing.length ≤ 1 ∨ slot.1 = .path ∧
      sharing = List.replicate ((names.pathVariables.map names.published).count slot.2) (filledIn slot.2) := by
  intro names
  obtain ⟨draft, slotted, built⟩ := (slotted_draftLaw names).buildParams lexicon aliases route rfl progress
  rw [built]
  exact slotted.finish names slot

/-- A route that writes one variable twice. -/
def copyRoute : RouteDescriptor where
  path := "/copies/:id/of/:id"
  method := .get

/-- A variable that is written twice is filled in twice. -/
theorem repeated_variable_shares_slot : ¬∀ (lexicon : Lexicon) (aliases : Table String String)
    (route : RouteDescriptor) (progress : Progress),
      (((buildParams lexicon aliases route).run progress).1.2.map Parameter.slot).Nodup := by
  intro distinct
  have built : ((buildParams {} [] copyRoute).run {}).1.2.map Parameter.slot =
      [(.path, "id"), (.path, "id")] := rfl
  have twice := distinct {} [] copyRoute {}
  rw [built] at twice
  exact absurd twice (by decide)

end Route

end ApiDoc
