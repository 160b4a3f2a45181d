import ApiDoc.Export.Dialect
import ApiDoc.Proofs.Tables

/-! # Related document values

Two documents that differ in a few places are compared from the outside in. `Agree` names the keys of an
object under which the values may differ, and how; under all others they are equal. `Rows` and
`Columns` compare the items of arrays and the fields of objects that were made from given things, one
for each.
-/

namespace ApiDoc

namespace Json

variable {α : Type} {holds : String → Json → Json → Prop} {parts : Table String (Json → Json → Prop)}

/-- Objects with the same keys in one order, and related values under them. -/
def RelatedFields (holds : String → Json → Json → Prop) (first second : Json) : Prop :=
  ∃ left right, first = object left ∧ second = object right ∧ Table.Related holds left right

/-- What stands under a key in two objects: values as `parts` relates them if it has the key, otherwise
equal ones. -/
def Under (parts : Table String (Json → Json → Prop)) (key : String) (left right : Json) : Prop :=
  match Table.get? parts key with
  | some holds => holds left right
  | none => left = right

/-- Objects with the same keys in one order, and equal values under all of them but those of `parts`. -/
def Agree (parts : Table String (Json → Json → Prop)) : Json → Json → Prop := RelatedFields (Under parts)

def Rows (all : List α) (holds : α → Json → Json → Prop) (first second : Json) : Prop :=
  ∃ pairs : List (Json × Json), first = array (pairs.map Prod.fst) ∧ second = array (pairs.map Prod.snd) ∧
    List.Forall₂ (fun one pair => holds one pair.1 pair.2) all pairs

/-- Objects with one field for each key of `all`, in order; of equal keys the last one counts. -/
def Columns (all : Table String α) (holds : α → Json → Json → Prop) (first second : Json) : Prop :=
  ∃ columns : Table String (Json × Json), first = object (Table.mapValues Prod.fst columns) ∧
    second = object (Table.mapValues Prod.snd columns) ∧
      Table.Related (fun _ one pair => holds one pair.1 pair.2) (Table.ofEntries all) columns

theorem Under.same {key : String} (absent : Table.get? parts key = none) (value : Json) :
    Under parts key value value := by
  unfold Under
  rw [absent]

theorem Under.here {key : String} {related : Json → Json → Prop} (found : Table.get? parts key = some related)
    {left right : Json} (here : related left right) : Under parts key left right := by
  unfold Under
  rw [found]
  exact here

variable {fields fields' : Fields}

theorem related_insertObject (related : Table.Related holds fields fields') {key : String}
    {value value' : Fields} (same : value.isEmpty = value'.isEmpty)
    (here : holds key (object value) (object value')) :
    Table.Related holds (Dialect.insertObject fields key value)
      (Dialect.insertObject fields' key value') := by
  unfold Dialect.insertObject
  rw [same]
  split
  · exact related
  · exact related.insert here

theorem related_insertList (related : Table.Related holds fields fields') {key : String}
    {items items' : List Json} (same : items.isEmpty = items'.isEmpty)
    (here : holds key (array items) (array items')) :
    Table.Related holds (Dialect.insertList fields key items)
      (Dialect.insertList fields' key items') := by
  unfold Dialect.insertList
  rw [same]
  split
  · exact related
  · exact related.insert here

/-- Objects with one value under each of some keys. -/
theorem relatedFields_constant {related : Json → Json → Prop} {left right : Json} (here : related left right)
    (keys : List String) : RelatedFields (fun _ => related)
      (object (Table.ofEntries (keys.map fun key => (key, left))))
      (object (Table.ofEntries (keys.map fun key => (key, right)))) := by
  refine ⟨_, _, rfl, rfl, Table.Related.extend .nil ?_⟩
  unfold Table.Related
  rw [List.forall₂_map_left_iff, List.forall₂_map_right_iff]
  exact List.forall₂_same.mpr fun key _ => ⟨rfl, here⟩

theorem rows_map {all : List α} {related : α → Json → Json → Prop} {f g : α → Json}
    (each : ∀ one ∈ all, related one (f one) (g one)) :
    Rows all related (array (all.map f)) (array (all.map g)) := by
  refine ⟨all.map fun one => (f one, g one), ?_, ?_, ?_⟩
  · rw [List.map_map]
    rfl
  · rw [List.map_map]
    rfl
  · exact List.forall₂_map_right_iff.mpr (List.forall₂_same.mpr each)

theorem columns_map {all : Table String α} {related : α → Json → Json → Prop} {f g : α → Json}
    (each : ∀ key one, (key, one) ∈ all → related one (f one) (g one)) :
    Columns all related (object (Table.ofEntries (Table.mapValues f all)))
      (object (Table.ofEntries (Table.mapValues g all))) := by
  refine ⟨Table.mapValues (fun one => (f one, g one)) (Table.ofEntries all), ?_, ?_, ?_⟩
  · rw [Table.ofEntries_mapValues, Table.mapValues, Table.mapValues, Table.mapValues, List.map_map]
    rfl
  · rw [Table.ofEntries_mapValues, Table.mapValues, Table.mapValues, Table.mapValues, List.map_map]
    rfl
  · unfold Table.Related Table.mapValues
    rw [List.forall₂_map_right_iff]
    refine List.forall₂_same.mpr fun entry member => ⟨rfl, ?_⟩
    exact each entry.1 entry.2 (Table.mem_of_mem_ofEntries member)

/-- Columns are empty together. -/
theorem Columns.isEmpty_eq {all : Table String α} {related : α → Json → Json → Prop}
    (columns : Columns all related (object fields) (object fields')) : fields.isEmpty = fields'.isEmpty := by
  obtain ⟨pairs, left, right, -⟩ := columns
  rw [object.inj left, object.inj right, Table.mapValues, Table.mapValues, List.isEmpty_map, List.isEmpty_map]

end Json

namespace Table.Related

open Json

variable {parts : Table String (Json → Json → Prop)} {left right : Fields}

theorem insertSame (related : Related (Under parts) left right) (key : String)
    (absent : Table.get? parts key = none) (value : Json) :
    Related (Under parts) (Table.insert left key value) (Table.insert right key value) :=
  related.insert (.same absent value)

theorem insertSameSome (related : Related (Under parts) left right) (key : String)
    (absent : Table.get? parts key = none) (value? : Option Json) :
    Related (Under parts) (Table.insertSome left key value?) (Table.insertSome right key value?) := by
  cases value? with
  | none => exact related
  | some value => exact related.insertSame key absent value

theorem insertSameList (related : Related (Under parts) left right) (key : String)
    (absent : Table.get? parts key = none) (items : List Json) :
    Related (Under parts) (Dialect.insertList left key items) (Dialect.insertList right key items) :=
  related_insertList related rfl (.same absent (array items))

theorem insertSameObject (related : Related (Under parts) left right) (key : String)
    (absent : Table.get? parts key = none) (value : Fields) :
    Related (Under parts) (Dialect.insertObject left key value) (Dialect.insertObject right key value) :=
  related_insertObject related rfl (.same absent (object value))

theorem insertPart {holds : Json → Json → Prop} (related : Related (Under parts) left right) (key : String)
    (found : Table.get? parts key = some holds) {first second : Json} (here : holds first second) :
    Related (Under parts) (Table.insert left key first) (Table.insert right key second) :=
  related.insert (.here found here)

theorem insertPartObject {holds : Json → Json → Prop} (related : Related (Under parts) left right)
    (key : String) (found : Table.get? parts key = some holds) {value value' : Fields}
    (same : value.isEmpty = value'.isEmpty) (here : holds (object value) (object value')) :
    Related (Under parts) (Dialect.insertObject left key value) (Dialect.insertObject right key value') :=
  related_insertObject related same (.here found here)

theorem insertPartList {holds : Json → Json → Prop} (related : Related (Under parts) left right)
    (key : String) (found : Table.get? parts key = some holds) {items items' : List Json}
    (same : items.isEmpty = items'.isEmpty) (here : holds (array items) (array items')) :
    Related (Under parts) (Dialect.insertList left key items) (Dialect.insertList right key items') :=
  related_insertList related same (.here found here)

end Table.Related

end ApiDoc
