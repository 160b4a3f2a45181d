import ApiDoc.Operation
import ApiDoc.Proofs.Tables

/-! # The order of responses

A code ranks by the number it writes, and all codes that write none rank last and alike. Each response is
written into the table of an operation as if the table were then sorted by rank, stably
(`responses_insertResponse`). A table that is sorted by rank is determined by its entries of each rank
(`eq_of_ranks`), and a write touches those of one rank only. So a sequence of responses ends in what a
single sort makes of the codes in the order of their first response, each with its last one
(`insertResponses_orders`).
-/

namespace ApiDoc

section
variable {α ρ : Type*} [DecidableEq ρ] (rank : α → ρ) {le : α → α → Bool}

/-- Lists that have the same items of each rank have the same items. -/
theorem mem_iff_of_ranks {left right : List α}
    (same : ∀ value, left.filter (rank · = value) = right.filter (rank · = value)) (item : α) :
    item ∈ left ↔ item ∈ right := by
  have inRank : item ∈ left.filter (rank · = rank item) ↔ item ∈ right.filter (rank · = rank item) := by
    rw [same]
  simpa using inRank

/-- Lists in order are equal if they have the same items of each rank. -/
theorem eq_of_ranks (alike : ∀ first second, le first second = true → le second first = true →
      rank first = rank second) {left right : List α} (sortedLeft : left.Pairwise (le · · = true))
    (sortedRight : right.Pairwise (le · · = true))
    (same : ∀ value, left.filter (rank · = value) = right.filter (rank · = value)) : left = right := by
  have members := mem_iff_of_ranks rank same
  induction left generalizing right with
  | nil => exact (List.eq_nil_iff_forall_not_mem.mpr fun item => (members item).not.mp List.not_mem_nil).symm
  | cons first rest ih =>
    obtain ⟨second, others, rfl⟩ : ∃ second others, right = second :: others :=
      List.exists_cons_of_ne_nil (List.ne_nil_of_mem ((members first).mp List.mem_cons_self))
    rw [List.pairwise_cons] at sortedLeft sortedRight
    -- Each of the two first items stands somewhere in the other list, so neither ranks behind the other.
    have level : rank first = rank second := by
      rcases List.mem_cons.mp ((members first).mp List.mem_cons_self) with here | behind
      · rw [here]
      rcases List.mem_cons.mp ((members second).mpr List.mem_cons_self) with here | behind'
      · rw [here]
      · exact alike first second (sortedLeft.1 second behind') (sortedRight.1 first behind)
    have heads := same (rank second)
    rw [List.filter_cons_of_pos (by simpa using level), List.filter_cons_of_pos (by simp)] at heads
    obtain rfl : first = second := (List.cons.inj heads).1
    have tails (value : ρ) : rest.filter (rank · = value) = others.filter (rank · = value) := by
      have whole := same value
      rw [List.filter_cons, List.filter_cons] at whole
      split at whole
      · exact (List.cons.inj whole).2
      · exact whole
    rw [ih sortedLeft.2 sortedRight.2 tails (mem_iff_of_ranks rank tails)]

/-- Sorting leaves the items of one rank in their order. -/
theorem filter_mergeSort (le : α → α → Bool)
    (trans : ∀ a b c, le a b = true → le b c = true → le a c = true)
    (total : ∀ a b, (le a b || le b a) = true) (level : ∀ a b, rank a = rank b → le a b = true)
    (items : List α) (value : ρ) :
    (items.mergeSort le).filter (rank · = value) = items.filter (rank · = value) := by
  have ordered : (items.filter (rank · = value)).Pairwise (le · · = true) := by
    refine List.pairwise_of_forall_mem_list fun first inFirst second inSecond => level _ _ ?_
    rw [of_decide_eq_true (List.mem_filter.mp inFirst).2, of_decide_eq_true (List.mem_filter.mp inSecond).2]
  have inSorted := (List.sublist_mergeSort trans total ordered List.filter_sublist).filter (rank · = value)
  rw [List.filter_filter, List.filter_congr fun item _ => Bool.and_self _] at inSorted
  refine (inSorted.eq_of_length ?_).symm
  exact ((List.mergeSort_perm items le).filter _).length_eq.symm

end

namespace Response

variable {a b c : String}

/-- A code may stand before a number only if it writes a number that is not greater. -/
theorem codeLe_iff : codeLe a b = true ↔
    ∀ n, statusNumber? b = some n → ∃ m, statusNumber? a = some m ∧ m ≤ n := by
  unfold codeLe
  cases statusNumber? a <;> cases statusNumber? b <;> simp

theorem codeLe_of_eq (same : statusNumber? a = statusNumber? b) : codeLe a b = true :=
  codeLe_iff.mpr fun n writes => ⟨n, same.trans writes, Nat.le_refl n⟩

theorem codeLe_trans (first : codeLe a b = true) (second : codeLe b c = true) : codeLe a c = true := by
  rw [codeLe_iff] at *
  intro n writes
  obtain ⟨m, between, less⟩ := second n writes
  obtain ⟨l, early, lesser⟩ := first m between
  exact ⟨l, early, Nat.le_trans lesser less⟩

theorem codeLe_total (a b : String) : (codeLe a b || codeLe b a) = true := by
  unfold codeLe
  cases statusNumber? a <;> cases statusNumber? b <;> simp
  exact Nat.le_total _ _

/-- Codes that may stand before each other rank alike. -/
theorem statusNumber?_eq_of_codeLe (first : codeLe a b = true) (second : codeLe b a = true) :
    statusNumber? a = statusNumber? b := by
  have writes {a b : String} (first : codeLe a b = true) (second : codeLe b a = true) (n : Nat)
      (written : statusNumber? a = some n) : statusNumber? b = some n := by
    obtain ⟨m, other, less⟩ := codeLe_iff.mp second n written
    obtain ⟨n', own, lesser⟩ := codeLe_iff.mp first m other
    obtain rfl : n' = n := Option.some.inj (own.symm.trans written)
    rw [other, Nat.le_antisymm less lesser]
  exact Option.ext fun n => ⟨writes first second n, writes second first n⟩

/-- Whether an entry may stand before another one. -/
def entryLe (first second : String × Response) : Bool := codeLe first.1 second.1

theorem entryLe_trans (first second third : String × Response) :
    entryLe first second = true → entryLe second third = true → entryLe first third = true :=
  codeLe_trans

theorem entryLe_total (first second : String × Response) :
    (entryLe first second || entryLe second first) = true :=
  codeLe_total first.1 second.1

/-- Whether a table stands in the order of the ranks of its codes. -/
def InOrder (responses : Table String Response) : Prop := responses.Pairwise (entryLe · · = true)

/-- A table in the order of the ranks of its codes; those of one rank keep theirs. -/
def sortByCode (responses : Table String Response) : Table String Response := responses.mergeSort entryLe

def ofRank (rank : Option Nat) (responses : Table String Response) : Table String Response :=
  responses.filter fun entry => statusNumber? entry.1 = rank

variable {responses responses' : Table String Response} {response : Response} {rank : Option Nat}

theorem inOrder_sortByCode (responses : Table String Response) : InOrder (sortByCode responses) :=
  List.pairwise_mergeSort entryLe_trans entryLe_total responses

theorem ofRank_sortByCode (rank : Option Nat) (responses : Table String Response) :
    ofRank rank (sortByCode responses) = ofRank rank responses :=
  filter_mergeSort (fun entry : String × Response => statusNumber? entry.1) entryLe entryLe_trans
    entryLe_total (fun _ _ => codeLe_of_eq) responses rank

/-- Tables in order are equal if their entries of each rank are. -/
theorem InOrder.eq (ordered : InOrder responses) (ordered' : InOrder responses')
    (same : ∀ rank, ofRank rank responses = ofRank rank responses') : responses = responses' :=
  eq_of_ranks (fun entry : String × Response => statusNumber? entry.1)
    (fun _ _ => statusNumber?_eq_of_codeLe) ordered ordered' same

/-- A write touches the entries of its own rank. -/
theorem ofRank_insert (responses : Table String Response) (code : String) (response : Response)
    (rank : Option Nat) : ofRank rank (responses.insert code response) =
      if statusNumber? code = rank then (ofRank rank responses).insert code response
      else ofRank rank responses := by
  unfold ofRank
  induction responses with
  | nil => by_cases own : statusNumber? code = rank <;> simp [Table.insert, own]
  | cons entry rest ih =>
    obtain ⟨first, old⟩ := entry
    by_cases here : first = code
    · subst here
      by_cases own : statusNumber? first = rank <;> simp [Table.insert, own]
    · by_cases own : statusNumber? code = rank <;> by_cases other : statusNumber? first = rank <;>
        simp [Table.insert, here, own, other, ih]

theorem keys_ofRank (rank : Option Nat) (responses : Table String Response) :
    (ofRank rank responses).keys = responses.keys.filter (statusNumber? · = rank) := by
  unfold ofRank Table.keys
  rw [List.filter_map]
  rfl

/-- A look-up is one among the entries of the rank of its code. -/
theorem get?_ofRank (responses : Table String Response) (code : String) :
    (ofRank (statusNumber? code) responses).get? code = responses.get? code := by
  unfold ofRank
  induction responses with
  | nil => rfl
  | cons entry rest ih =>
    by_cases here : entry.1 = code
    · rw [List.filter_cons_of_pos (by simp [here]), Table.get?, Table.get?, if_pos here, if_pos here]
    · rw [List.filter_cons]
      split
      · rw [Table.get?, Table.get?, if_neg here, if_neg here, ih]
      · rw [ih, Table.get?, if_neg here]

/-- The order is one of the codes. -/
theorem inOrder_iff : InOrder responses ↔ responses.keys.Pairwise (codeLe · · = true) :=
  (List.pairwise_map (R := fun a b => codeLe a b = true)).symm

/-- Writing under a present code keeps the order. -/
theorem InOrder.insert (ordered : InOrder responses) (present : response.code ∈ responses.keys) :
    InOrder (responses.insert response.code response) := by
  rw [inOrder_iff, Table.keys_insert, if_pos present, ← inOrder_iff]
  exact ordered

theorem mem_placeResponse {entry : String × Response} :
    entry ∈ Operation.placeResponse response responses ↔
      entry = (response.code, response) ∨ entry ∈ responses := by
  induction responses with
  | nil => simp [Operation.placeResponse]
  | cons first rest ih =>
    rw [Operation.placeResponse]
    split
    · rw [List.mem_cons, ih, List.mem_cons]
      exact or_left_comm
    · exact List.mem_cons

theorem InOrder.placeResponse (ordered : InOrder responses) (response : Response) :
    InOrder (Operation.placeResponse response responses) := by
  unfold InOrder at ordered ⊢
  induction responses with
  | nil => exact List.pairwise_singleton _ _
  | cons first rest ih =>
    rw [List.pairwise_cons] at ordered
    rw [Operation.placeResponse]
    split
    · next before =>
      refine List.pairwise_cons.mpr ⟨fun entry member => ?_, ih ordered.2⟩
      rcases mem_placeResponse.mp member with rfl | old
      · exact before
      · exact ordered.1 entry old
    · next behind =>
      have front : codeLe response.code first.1 = true :=
        (Bool.or_eq_true _ _ |>.mp (codeLe_total first.1 response.code)).resolve_left behind
      refine List.pairwise_cons.mpr ⟨fun entry member => ?_, List.pairwise_cons.mpr ordered⟩
      rcases List.mem_cons.mp member with rfl | old
      · exact front
      · exact codeLe_trans front (ordered.1 entry old)

/-- A new code comes behind those of its rank. -/
theorem ofRank_placeResponse (ordered : InOrder responses) (response : Response) (rank : Option Nat) :
    ofRank rank (Operation.placeResponse response responses) = ofRank rank responses ++
      if statusNumber? response.code = rank then [(response.code, response)] else [] := by
  unfold InOrder at ordered
  unfold ofRank
  induction responses with
  | nil =>
    rw [Operation.placeResponse, List.filter_cons]
    simp
  | cons first rest ih =>
    rw [List.pairwise_cons] at ordered
    rw [Operation.placeResponse]
    split
    · rw [List.filter_cons, List.filter_cons, ih ordered.2]
      split <;> simp
    · next behind =>
      -- Nothing from here on ranks like the new code, since all of it follows an entry that does not.
      have apart (entry : String × Response) (member : entry ∈ first :: rest) :
          statusNumber? entry.1 ≠ statusNumber? response.code := by
        intro same
        refine behind ?_
        rcases List.mem_cons.mp member with rfl | later
        · exact codeLe_of_eq same
        · exact codeLe_trans (ordered.1 entry later) (codeLe_of_eq same)
      by_cases own : statusNumber? response.code = rank
      · have none : (first :: rest).filter (fun entry => decide (statusNumber? entry.1 = rank)) = [] :=
          List.filter_eq_nil_iff.mpr fun entry member => by simpa using own ▸ apart entry member
        rw [List.filter_cons_of_pos (by simpa using own), none, if_pos own, List.nil_append]
      · rw [List.filter_cons_of_neg (by simpa using own), if_neg own, List.append_nil]

end Response

namespace Operation

open Response

variable {operation : Operation}

theorem inOrder_insertResponse (ordered : InOrder operation.responses) (response : Response) :
    InOrder (operation.insertResponse response).responses := by
  unfold insertResponse
  dsimp only
  split
  · next present => exact ordered.insert (Table.contains_iff_mem_keys.mp present)
  · exact ordered.placeResponse response

theorem ofRank_insertResponse (ordered : InOrder operation.responses) (response : Response)
    (rank : Option Nat) : ofRank rank (operation.insertResponse response).responses =
      ofRank rank (operation.responses.insert response.code response) := by
  unfold insertResponse
  dsimp only
  split
  · rfl
  · next absent =>
    have fresh : response.code ∉ operation.responses.keys := mt Table.contains_iff_mem_keys.mpr absent
    rw [ofRank_placeResponse ordered, ofRank_insert]
    split
    · refine (Table.insert_of_not_mem (fun member => fresh ?_) response).symm
      rw [keys_ofRank] at member
      exact (List.mem_filter.mp member).1
    · exact List.append_nil _

/-- A response is written as into any table, and then the table is sorted. -/
theorem responses_insertResponse (ordered : InOrder operation.responses) (response : Response) :
    (operation.insertResponse response).responses =
      sortByCode (operation.responses.insert response.code response) :=
  (inOrder_insertResponse ordered response).eq (inOrder_sortByCode _) fun rank => by
    rw [ofRank_insertResponse ordered, ofRank_sortByCode]

end Operation

namespace Response

/-- Responses under their codes: a repeated code keeps its first place and takes its last response. -/
def byCode (responses : List Response) : Table String Response :=
  Table.ofEntries (responses.map fun response => (response.code, response))

theorem byCode_concat (responses : List Response) (response : Response) :
    byCode (responses ++ [response]) = (byCode responses).insert response.code response := by
  unfold byCode
  rw [List.map_append]
  exact Table.ofEntries_concat _ (response.code, response)

theorem keys_byCode (responses : List Response) :
    (byCode responses).keys = (responses.map (·.code)).eraseDups := by
  unfold byCode
  rw [Table.keys_ofEntries, Table.keys_map]

theorem get?_byCode (responses : List Response) (code : String) :
    (byCode responses).get? code = responses.reverse.find? (·.code = code) := by
  induction responses using List.reverseRecOn with
  | nil => rfl
  | append_singleton before response ih =>
    rw [byCode_concat, Table.get?_insert, ih, List.reverse_append, List.reverse_singleton,
      List.singleton_append, List.find?_cons]
    by_cases here : response.code = code <;> simp [here]

/-- Sorting before a write is not seen behind the sorting that follows the write. -/
theorem sortByCode_insert_sortByCode (responses : Table String Response) (response : Response) :
    sortByCode ((sortByCode responses).insert response.code response) =
      sortByCode (responses.insert response.code response) :=
  (inOrder_sortByCode _).eq (inOrder_sortByCode _) fun rank => by
    rw [ofRank_sortByCode, ofRank_sortByCode, ofRank_insert, ofRank_insert, ofRank_sortByCode]

/-- Sorting once is as good as sorting behind each write. -/
theorem sortByCode_byCode (responses : List Response) : sortByCode (byCode responses) =
    responses.foldl (fun table response => sortByCode (table.insert response.code response)) [] := by
  induction responses using List.reverseRecOn with
  | nil => exact List.mergeSort_nil
  | append_singleton before response ih =>
    rw [List.foldl_concat, ← ih, byCode_concat, sortByCode_insert_sortByCode]

theorem get?_sortByCode (responses : Table String Response) (code : String) :
    (sortByCode responses).get? code = responses.get? code := by
  rw [← get?_ofRank, ofRank_sortByCode, get?_ofRank]

/-- Codes in order are numbers, in ascending order, and behind them the codes that are none. -/
theorem exists_numbers {codes : List String} (ordered : codes.Pairwise (codeLe · · = true)) :
    ∃ (numbers : List String) (values : List Nat),
      codes = numbers ++ codes.filter (statusNumber? · = none) ∧
        numbers.map statusNumber? = values.map some ∧ values.Pairwise (· ≤ ·) := by
  induction codes with
  | nil => exact ⟨[], [], rfl, rfl, .nil⟩
  | cons code rest ih =>
    rw [List.pairwise_cons] at ordered
    obtain ⟨numbers, values, split, written, ascending⟩ := ih ordered.2
    cases own : statusNumber? code with
    | none =>
      have others (other : String) (member : other ∈ rest) : statusNumber? other = none := by
        refine Option.eq_none_iff_forall_ne_some.mpr fun n writes => ?_
        obtain ⟨m, first, -⟩ := codeLe_iff.mp (ordered.1 other member) n writes
        cases own.symm.trans first
      refine ⟨[], [], ?_, rfl, .nil⟩
      rw [List.nil_append, eq_comm, List.filter_eq_self]
      intro other member
      rw [decide_eq_true_iff]
      rcases List.mem_cons.mp member with rfl | later
      · exact own
      · exact others other later
    | some n =>
      refine ⟨code :: numbers, n :: values, ?_, ?_,
        List.pairwise_cons.mpr ⟨fun value member => ?_, ascending⟩⟩
      · rw [List.filter_cons_of_neg (by simp [own]), List.cons_append, ← split]
      · rw [List.map_cons, List.map_cons, own, written]
      · have among : some value ∈ numbers.map statusNumber? := written ▸ List.mem_map_of_mem member
        obtain ⟨other, listed, writes⟩ := List.mem_map.mp among
        have later : other ∈ rest := split ▸ List.mem_append_left _ listed
        obtain ⟨m, first, less⟩ := codeLe_iff.mp (ordered.1 other later) value writes
        exact Option.some.inj (first.symm.trans own) ▸ less

end Response

namespace Operation

open Response

/-- Responses written one after the other end in a single sort of all of them. -/
theorem responses_insertResponses (operation : Operation) (inserted : List Response) :
    (inserted.foldl insertResponse { operation with responses := [] }).responses =
      sortByCode (byCode inserted) := by
  induction inserted using List.reverseRecOn with
  | nil => exact List.mergeSort_nil.symm
  | append_singleton before response ih =>
    rw [List.foldl_concat, responses_insertResponse (ih ▸ inOrder_sortByCode _), ih,
      sortByCode_insert_sortByCode, byCode_concat]

/-- Responses that are inserted into a new operation one after the other end where a write and a stable
sort for each of them end. Exactly their codes are there, none of them twice, and each has its last
response. Codes that write a number come first, in the order of the numbers, and the others follow; codes
that write the same number, and those that write none, stand in the order of their first insertions. -/
theorem insertResponses_orders (operation : Operation) (inserted : List Response) :
    let codes := inserted.map (·.code)
    let responses := (inserted.foldl insertResponse { operation with responses := [] }).responses
    responses = inserted.foldl (fun table response => sortByCode (table.insert response.code response)) [] ∧
      responses.keys.Nodup ∧
      (∀ code, responses.get? code = inserted.reverse.find? (·.code = code)) ∧
      (∃ (numbers : List String) (values : List Nat),
        responses.keys = numbers ++ codes.eraseDups.filter (statusNumber? · = none) ∧
        numbers.map statusNumber? = values.map some ∧ values.Pairwise (· ≤ ·)) ∧
      ∀ rank, responses.keys.filter (statusNumber? · = rank) =
        codes.eraseDups.filter (statusNumber? · = rank) := by
  intro codes responses
  have sorted : responses = sortByCode (byCode inserted) := responses_insertResponses operation inserted
  have ofEach (rank : Option Nat) : responses.keys.filter (statusNumber? · = rank) =
      codes.eraseDups.filter (statusNumber? · = rank) := by
    rw [sorted, ← keys_ofRank, ofRank_sortByCode, keys_ofRank, keys_byCode]
  refine ⟨sorted.trans (sortByCode_byCode inserted), ?_, fun code => ?_, ?_, ofEach⟩
  · have permuted : responses.keys.Perm (byCode inserted).keys := by
      rw [sorted]
      exact (List.mergeSort_perm _ _).map _
    rw [permuted.nodup_iff, keys_byCode]
    exact Table.nodup_eraseDups codes
  · rw [sorted, get?_sortByCode, get?_byCode]
  · obtain ⟨numbers, values, split, written, ascending⟩ :=
      exists_numbers (inOrder_iff.mp (sorted ▸ inOrder_sortByCode (byCode inserted)))
    exact ⟨numbers, values, ofEach none ▸ split, written, ascending⟩

example : (["default", "404", "200", "+200", "4xx", "200"].foldl (fun operation code =>
    insertResponse operation { code, description := "" }) ({ method := .get } : Operation)).responses.keys =
      ["200", "+200", "404", "default", "4xx"] := by decide

end Operation

end ApiDoc
