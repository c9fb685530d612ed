import Mathlib.Data.List.TakeWhile
import StateSearch.ListTable
import StateSearch.Proofs.Coherent
import StateSearch.Proofs.Filing

/-!
# What the operations do to the lists

`Visited.listTable` reads the chains of a set as a table of plain lists.
Under the invariant every operation on the linked chains is the operation
of the same name on the lists, whatever the comparator does.

There are three groups.

* The admitted states after each operation.
* Judging.  The tests on records are the tests on the table, so a lookup
  finds what the table finds: `Coherent.find?_eq`.
* The table after each operation, up to `Coherent.listTable_insert`.
-/

namespace StateSearch

variable {α : Type}

namespace Visited

variable {set : Visited α}

/-! ## The admitted states -/

theorem getElem?_admitted (set : Visited α) (id : Id) :
    set.admitted[id]? = (set.store[id]?).map fun record => (record.key, record.state) := by
  simp [admitted]

@[simp] theorem length_admitted (set : Visited α) : set.admitted.length = set.size := by
  simp [admitted, size]

/-- Sets whose stores agree in keys and states admitted the same. -/
theorem admitted_eq_of_alike {set' : Visited α}
    (alike : set.store.Alike (fun record => (record.key, record.state)) set'.store) :
    set'.admitted = set.admitted := by
  apply List.ext_getElem?
  intro id
  rw [getElem?_admitted, getElem?_admitted, alike id]

@[simp] theorem admitted_double (set : Visited α) : set.double.admitted = set.admitted :=
  admitted_eq_of_alike (set.alike_double.comp fun record => (record.key, record.state))

@[simp] theorem admitted_pop (set : Visited α) : set.pop.2.admitted = set.admitted :=
  admitted_eq_of_alike (set.alike_pop.comp fun record => (record.key, record.state))

@[simp] theorem admitted_place (set : Visited α) (key : UInt64) (state : α) (after : Option Id) :
    (set.place key state after).admitted = set.admitted ++ [(key, state)] := by
  apply List.ext_getElem?
  intro id
  have pushed := (Worklist.alike_push set.worklist
    (set.buckets.splice set.store key state after).2 set.size).comp
      (fun record => (record.key, record.state)) id
  have spliced := Buckets.map_splice (fun record => (record.key, record.state)) (fun _ _ => rfl)
    set.buckets set.store key state after id
  rw [getElem?_admitted]
  refine (pushed.trans spliced).trans ?_
  rw [← getElem?_admitted]
  show _ = (set.admitted ++ [(key, state)])[id]?
  have length_eq : set.admitted.length = set.store.size := set.length_admitted
  split
  · next last =>
    rw [last, ← length_eq, List.getElem?_concat_length]
  · next old =>
    by_cases lt : id < set.admitted.length
    · rw [List.getElem?_append_left lt]
    · have beyond : (set.admitted ++ [(key, state)]).length ≤ id := by
        rw [List.length_append, List.length_singleton]
        exact Nat.lt_of_le_of_ne (Nat.le_of_not_lt lt) fun same => old (same.symm.trans length_eq)
      rw [List.getElem?_eq_none (Nat.le_of_not_lt lt), List.getElem?_eq_none beyond]

/-! ## Judging -/

theorem less_listTable (set : Visited α) (cmp : Comparator α) (candidate : α) :
    set.listTable.less cmp candidate = set.store.compares cmp candidate .lt := by
  funext id
  simp only [ListTable.less, listTable, getElem?_admitted, Store.compares]
  cases set.store[id]? <;> simp

theorem equal_listTable (set : Visited α) (cmp : Comparator α) (candidate : α) :
    set.listTable.equal cmp candidate = set.store.compares cmp candidate .eq := by
  funext id
  simp only [ListTable.equal, listTable, getElem?_admitted, Store.compares]
  cases set.store[id]? <;> simp

theorem leaves_listTable_eq (set : Visited α) (count remainder : Nat) :
    set.listTable.leaves count remainder = set.store.leaves count remainder := by
  funext id
  simp only [ListTable.leaves, listTable, getElem?_admitted, Store.leaves]
  cases set.store[id]? <;> simp

theorem leaves_listTable (set : Visited α) {count : Nat} (power : count.isPowerOfTwo)
    (bucket : Nat) : set.listTable.leaves count bucket = set.store.belongs count bucket := by
  rw [leaves_listTable_eq, Store.belongs_eq_leaves power]

theorem find?_eq_some_iff_lookup {cmp : Comparator α} {key : UInt64} {candidate : α} {id : Id} :
    set.find? cmp key candidate = some id ↔ set.lookup cmp key candidate = .found id := by
  unfold find?
  cases set.lookup cmp key candidate <;> simp

theorem find?_eq_none_iff_lookup {cmp : Comparator α} {key : UInt64} {candidate : α} :
    set.find? cmp key candidate = none ↔ ∃ after, set.lookup cmp key candidate = .absent after := by
  unfold find?
  cases set.lookup cmp key candidate <;> simp

/-- A lookup along the chain finds what the table of lists finds. -/
theorem Coherent.find?_eq (coherent : set.Coherent) (cmp : Comparator α) (key : UInt64)
    (candidate : α) :
    set.find? cmp key candidate = set.listTable.find? cmp key candidate := by
  have bucket : set.listTable.bucket (key.toNat % set.listTable.count) =
      set.chain (set.buckets.index key) :=
    congrArg set.chain (coherent.index_eq_mod key).symm
  have looked := coherent.chains.lookup_eq (coherent.index_lt key) cmp candidate
  rw [← less_listTable, ← equal_listTable] at looked
  rw [ListTable.find?, bucket, List.find?_not_eq_head?_dropWhile,
    Visited.find?, Visited.lookup, looked]
  cases ((set.chain (set.buckets.index key)).dropWhile
      (set.listTable.less cmp candidate)).head? with
  | none => rfl
  | some id => cases equal : set.listTable.equal cmp candidate id <;> simp [equal, Option.filter]

/-! ## The table after each operation -/

/-- Lists that the chains spell out, and that are empty outside the array,
are the chains. -/
theorem chain_eq_of_spells {lists : Nat → List Id}
    (spells : set.buckets.Spells set.store lists)
    (outside : ∀ bucket, set.bucketCount ≤ bucket → lists bucket = []) : set.chain = lists := by
  funext bucket
  by_cases lt : bucket < set.bucketCount
  · exact spells.chain_eq lt
  · have le := Nat.le_of_not_lt lt
    rw [outside bucket le]
    exact chain_eq_nil le

/-- Empty buckets are empty lists. -/
theorem listTable_ofCount (count : Nat) :
    (ofCount count : Visited α).listTable = ListTable.ofCount count := by
  have chains : (ofCount count : Visited α).chain = fun _ => [] :=
    chain_eq_of_spells (Buckets.spells_ofCount count) fun _ _ => rfl
  have count_eq : (ofCount count : Visited α).bucketCount = count := Buckets.count_ofCount count
  rw [listTable, chains, count_eq]
  rfl

namespace Coherent

/-- A doubling of the buckets is one split of the table. -/
theorem listTable_double (coherent : set.Coherent) :
    set.double.listTable = set.listTable.split := by
  have chains : set.double.chain = fun bucket =>
      (set.chain (bucket % set.bucketCount)).filter
        (set.store.belongs (set.bucketCount * 2) bucket) := by
    refine chain_eq_of_spells coherent.spells_double fun bucket le => ?_
    rw [bucketCount_double] at le
    refine List.filter_eq_nil_iff.2 fun id _ here => ?_
    obtain ⟨record, _, rfl⟩ := Store.belongs_iff.1 here
    have lt := @bucketOf_lt record.key _ coherent.double.valid.2
    rw [bucketCount_double] at lt
    omega
  have power := coherent.double.valid.2
  rw [bucketCount_double, Nat.mul_comm] at power
  unfold Visited.listTable at *
  rw [ListTable.split, admitted_double, bucketCount_double, chains, Nat.mul_comm]
  congr 1
  funext bucket
  rw [← leaves_listTable set power]
  rfl

/-- A state that is placed where the lookup for it ended is placed in the
table in front of the first state that is not less. -/
theorem listTable_place (coherent : set.Coherent) {cmp : Comparator α} {key : UInt64} {state : α}
    {after : Option Id} (absent : set.lookup cmp key state = .absent after) :
    (set.place key state after).listTable = set.listTable.place cmp key state := by
  have after_eq := coherent.absent_eq absent
  rw [← less_listTable] at after_eq
  have chains : (set.place key state after).chain = fun bucket =>
      if bucket = set.buckets.index key then
        (set.chain (set.buckets.index key)).takeWhile (set.listTable.less cmp state) ++
          set.size :: (set.chain (set.buckets.index key)).dropWhile (set.listTable.less cmp state)
      else set.chain bucket := by
    have cut : set.chain (set.buckets.index key) = _ :=
      (List.takeWhile_append_dropWhile (p := set.listTable.less cmp state)).symm
    have spells := coherent.spells_place cut state
    rw [← after_eq] at spells
    refine chain_eq_of_spells spells fun bucket le => ?_
    rw [bucketCount_place] at le
    have lt := coherent.index_lt key
    rw [if_neg (by omega)]
    exact chain_eq_nil le
  have power := coherent.index_eq_mod key
  unfold Visited.listTable at *
  rw [ListTable.place, admitted_place, bucketCount_place, chains]
  congr 1
  funext bucket
  rw [power, length_admitted]
  by_cases here : bucket = key.toNat % set.bucketCount
  · rw [if_pos here, if_pos here, here]
  · rw [if_neg here, if_neg here]

theorem listTable_pop (coherent : set.Coherent) : set.pop.2.listTable = set.listTable := by
  have chains : set.pop.2.chain = set.chain := funext coherent.chain_pop
  unfold Visited.listTable
  rw [admitted_pop, chains]
  rfl

/-- Admitting a state to a set is admitting it to the table of its lists. -/
theorem listTable_insert (coherent : set.Coherent) (cmp : Comparator α) (key : UInt64)
    (state : α) :
    ((set.insert cmp key state).answer, (set.insert cmp key state).set.listTable) =
      set.listTable.insert cmp key state := by
  have size_eq : set.listTable.admitted.length = set.size := set.length_admitted
  have full_iff : set.isFull = true ↔ 3 * set.listTable.count ≤ 4 * (set.size + 1) :=
    coherent.isFull_iff
  have first := coherent.find?_eq cmp key state
  have second := coherent.double.find?_eq cmp key state
  rw [coherent.listTable_double] at second
  refine insert_cases (motive := fun outcome =>
    (outcome.answer, outcome.set.listTable) = set.listTable.insert cmp key state) ?_ ?_ ?_ ?_
  · intro id found
    rw [find?_eq_some_iff_lookup.2 found] at first
    simp [ListTable.insert, ← first]
  · intro after absent loose
    rw [find?_eq_none_iff_lookup.2 ⟨after, absent⟩] at first
    have not_full : ¬ 3 * set.listTable.count ≤ 4 * (set.size + 1) := by
      rw [← full_iff, loose]
      exact Bool.false_ne_true
    rw [ListTable.insert, ← first]
    simp only [size_eq, if_neg not_full, coherent.listTable_place absent]
  · intro after id absent full found
    rw [find?_eq_none_iff_lookup.2 ⟨after, absent⟩] at first
    rw [find?_eq_some_iff_lookup.2 found] at second
    rw [ListTable.insert, ← first]
    simp only [size_eq, if_pos (full_iff.1 full), ← second, coherent.listTable_double]
  · intro after after' absent full absent'
    rw [find?_eq_none_iff_lookup.2 ⟨after, absent⟩] at first
    rw [find?_eq_none_iff_lookup.2 ⟨after', absent'⟩] at second
    rw [ListTable.insert, ← first]
    simp only [size_eq, if_pos (full_iff.1 full), ← second,
      coherent.double.listTable_place absent', coherent.listTable_double]

end Coherent

end Visited

end StateSearch
