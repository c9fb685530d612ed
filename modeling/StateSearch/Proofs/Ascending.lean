import StateSearch.Proofs.ListView
import StateSearch.Proofs.Runs

/-!
# Ascending chains

Under a total preorder every chain is strictly ascending, and this is what
makes it right to stop a lookup at the first state that is greater.  The keys
need not agree with the comparator.

There are four groups.

* The order of two ids, and tables whose lists are ascending.
* What a lookup in such a table finds.  `find?_eq_some_iff` says that it
  finds the one id of the bucket that is equal to the candidate, so nothing
  behind the place where it stops is missed.
* Splitting and placing.  A split filters lists.  A placed id comes behind
  what is less, and what stands behind it is greater, since the first of
  these is neither less nor equal.
* Sets that runs under one comparator lead to.
-/

namespace StateSearch

variable {α : Type}

namespace ListTable

/-! ## Ascending tables -/

/-- The state with this id. -/
def state? (table : ListTable α) (id : Id) : Option α :=
  (table.admitted[id]?).map Prod.snd

/-- The state of the first id is less than that of the second. -/
def Before (table : ListTable α) (cmp : Comparator α) (id other : Id) : Prop :=
  ∃ state state', table.state? id = some state ∧ table.state? other = some state' ∧
    cmp state state' = .lt

/-- The states of every bucket come in strictly ascending order. -/
def Ascending (table : ListTable α) (cmp : Comparator α) : Prop :=
  ∀ bucket, (table.bucket bucket).Pairwise (table.Before cmp)

/-- An id is in the list of its key's remainder, and in no other. -/
def Placed (table : ListTable α) : Prop :=
  ∀ bucket id, id ∈ table.bucket bucket ↔ table.leaves table.count bucket id = true

variable {table : ListTable α} {cmp : Comparator α} {key : UInt64} {candidate : α}

theorem less_iff {id : Id} :
    table.less cmp candidate id = true ↔
      ∃ state, table.state? id = some state ∧ cmp state candidate = .lt := by
  unfold less state?
  cases table.admitted[id]? <;> simp

theorem equal_iff {id : Id} :
    table.equal cmp candidate id = true ↔
      ∃ state, table.state? id = some state ∧ cmp state candidate = .eq := by
  unfold equal state?
  cases table.admitted[id]? <;> simp

theorem leaves_iff {count remainder : Nat} {id : Id} :
    table.leaves count remainder id = true ↔
      ∃ entry, table.admitted[id]? = some entry ∧ entry.1.toNat % count = remainder := by
  unfold leaves
  cases table.admitted[id]? <;> simp

/-- Every id in a list is that of an admitted state. -/
theorem Placed.exists_state (placed : table.Placed) {bucket : Nat} {id : Id}
    (mem : id ∈ table.bucket bucket) : ∃ state, table.state? id = some state := by
  obtain ⟨entry, found, _⟩ := leaves_iff.1 ((placed bucket id).1 mem)
  exact ⟨entry.2, by rw [state?, found]; rfl⟩

/-! ## What a lookup finds -/

/-- What stands in front of an id is less than all that is equal to this
id. -/
theorem less_of_before [Std.TransCmp cmp] {id other : Id} (before : table.Before cmp other id)
    (equal : table.equal cmp candidate id = true) : table.less cmp candidate other = true := by
  obtain ⟨state, found, eq⟩ := equal_iff.1 equal
  rcases before with ⟨first, second, found_first, found_second, lt⟩
  obtain rfl := Option.some.inj (found.symm.trans found_second)
  exact less_iff.2 ⟨first, found_first, Std.TransCmp.lt_of_lt_of_eq lt eq⟩

/-- A comparator that never says less leaves a lookup at the first state. -/
theorem find?_eq_head? (never : ∀ state, cmp state candidate ≠ .lt) (table : ListTable α)
    (key : UInt64) :
    table.find? cmp key candidate =
      (table.bucket (key.toNat % table.count)).head?.filter (table.equal cmp candidate) := by
  have passes : table.less cmp candidate = fun _ => false := by
    funext id
    rw [Bool.eq_false_iff, Ne, less_iff]
    rintro ⟨state, _, lt⟩
    exact never state lt
  rw [find?, passes]
  cases table.bucket (key.toNat % table.count) <;> rfl

/-- Whatever the comparator, what a lookup finds is in the bucket of the key
and equal to the candidate. -/
theorem mem_bucket_of_find? {id : Id} (finds : table.find? cmp key candidate = some id) :
    id ∈ table.bucket (key.toNat % table.count) ∧ table.equal cmp candidate id = true := by
  rw [find?, Option.filter_eq_some_iff] at finds
  exact ⟨List.mem_of_find?_eq_some finds.1, finds.2⟩

/-- A lookup in ascending lists misses no state of the bucket. -/
theorem Ascending.find?_eq_some_iff [Std.TransCmp cmp] (ascending : table.Ascending cmp) {id : Id} :
    table.find? cmp key candidate = some id ↔
      id ∈ table.bucket (key.toNat % table.count) ∧ table.equal cmp candidate id = true := by
  refine ⟨mem_bucket_of_find?, fun here => ?_⟩
  rw [find?, Option.filter_eq_some_iff]
  have mem := here.1
  have equal := here.2
  obtain ⟨ids, rest, cut⟩ := List.append_of_mem mem
  have sorted := ascending (key.toNat % table.count)
  rw [cut] at sorted ⊢
  have passed : ids.find? (fun other => !table.less cmp candidate other) = none := by
    refine List.find?_eq_none.2 fun other mem_other => ?_
    have before := (List.pairwise_append.1 sorted).2.2 other mem_other id List.mem_cons_self
    simp [less_of_before before equal]
  have stops : table.less cmp candidate id = false := by
    rw [Bool.eq_false_iff]
    intro less
    obtain ⟨state, found, lt⟩ := less_iff.1 less
    obtain ⟨state', found', eq⟩ := equal_iff.1 equal
    obtain rfl := Option.some.inj (found.symm.trans found')
    rw [lt] at eq
    cases eq
  refine ⟨?_, equal⟩
  rw [List.find?_append, passed, Option.none_or, List.find?_cons_of_pos (by simp [stops])]

theorem Ascending.find?_eq_none_iff [Std.TransCmp cmp] (ascending : table.Ascending cmp) :
    table.find? cmp key candidate = none ↔
      ∀ id ∈ table.bucket (key.toNat % table.count), table.equal cmp candidate id = false := by
  simp only [Option.eq_none_iff_forall_ne_some, ne_eq, ascending.find?_eq_some_iff, not_and,
    Bool.not_eq_true]

/-! ## Splitting and placing -/

theorem bucket_split (table : ListTable α) (j : Nat) :
    table.split.bucket j =
      (table.bucket (j % table.count)).filter (table.leaves (2 * table.count) j) :=
  rfl

/-- A placed id stands behind what is less than its state. -/
theorem bucket_place_of_eq {j : Nat} (here : j = key.toNat % table.count) :
    (table.place cmp key candidate).bucket j =
      (table.bucket j).takeWhile (table.less cmp candidate) ++
        table.admitted.length :: (table.bucket j).dropWhile (table.less cmp candidate) :=
  if_pos here

theorem bucket_place_of_ne {j : Nat} (elsewhere : j ≠ key.toNat % table.count) :
    (table.place cmp key candidate).bucket j = table.bucket j :=
  if_neg elsewhere

/-- Filtering keeps lists ascending, whatever the keys are. -/
theorem Ascending.split (ascending : table.Ascending cmp) : table.split.Ascending cmp :=
  fun bucket => (ascending (bucket % table.count)).filter _

/-- A split moves no state into the bucket that a candidate is looked for
in. -/
theorem Ascending.find?_split_eq_none [Std.TransCmp cmp] (ascending : table.Ascending cmp)
    (absent : table.find? cmp key candidate = none) :
    table.split.find? cmp key candidate = none := by
  rw [ascending.find?_eq_none_iff] at absent
  rw [ascending.split.find?_eq_none_iff]
  intro id mem
  have old : id ∈ table.bucket (key.toNat % (2 * table.count) % table.count) :=
    (List.mem_filter.1 mem).1
  rw [Nat.mod_mul_left_mod] at old
  exact absent id old

/-- A candidate that is not found is less than all that a lookup does not
pass.  The first of these is neither less nor equal, and the others are
greater than the first. -/
theorem Ascending.greater_of_mem_dropWhile [Std.TransCmp cmp] (ascending : table.Ascending cmp)
    (placed : table.Placed) (absent : table.find? cmp key candidate = none) {id : Id}
    (mem : id ∈ (table.bucket (key.toNat % table.count)).dropWhile (table.less cmp candidate)) :
    ∃ state, table.state? id = some state ∧ cmp candidate state = .lt := by
  have equal_none := ascending.find?_eq_none_iff.1 absent
  have sublist := List.dropWhile_sublist (table.less cmp candidate)
    (l := table.bucket (key.toNat % table.count))
  have sorted := (ascending (key.toNat % table.count)).sublist sublist
  have stops := List.head?_dropWhile_not (table.less cmp candidate)
    (table.bucket (key.toNat % table.count))
  generalize (table.bucket (key.toNat % table.count)).dropWhile (table.less cmp candidate) = ids
    at mem sublist sorted stops
  cases ids with
  | nil => cases mem
  | cons first ids =>
    obtain ⟨state, found⟩ := placed.exists_state (sublist.subset List.mem_cons_self)
    have not_equal := equal_none first (sublist.subset List.mem_cons_self)
    have greater : cmp candidate state = .lt := by
      cases order : cmp state candidate with
      | lt => simp [less_iff.2 ⟨state, found, order⟩] at stops
      | eq => simp [equal_iff.2 ⟨state, found, order⟩] at not_equal
      | gt => exact Std.OrientedCmp.lt_of_gt order
    rcases List.mem_cons.1 mem with rfl | mem
    · exact ⟨state, found, greater⟩
    · obtain ⟨state', other, found', found_other, lt⟩ := (List.pairwise_cons.1 sorted).1 id mem
      obtain rfl := Option.some.inj (found.symm.trans found')
      exact ⟨other, found_other, Std.TransCmp.lt_trans greater lt⟩

theorem state?_place_of_some {state : α} {id : Id} (found : table.state? id = some state)
    (candidate : α) : (table.place cmp key candidate).state? id = some state := by
  obtain ⟨entry, admitted, rfl⟩ := Option.map_eq_some_iff.1 found
  have lt := (List.getElem?_eq_some_iff.1 admitted).1
  have kept : (table.admitted ++ [(key, candidate)])[id]? = some entry := by
    rw [List.getElem?_append_left lt, admitted]
  show ((table.admitted ++ [(key, candidate)])[id]?).map Prod.snd = some entry.2
  rw [kept]
  rfl

theorem state?_place_length (table : ListTable α) (cmp : Comparator α) (key : UInt64)
    (candidate : α) :
    (table.place cmp key candidate).state? table.admitted.length = some candidate := by
  show ((table.admitted ++ [(key, candidate)])[table.admitted.length]?).map Prod.snd = _
  rw [List.getElem?_concat_length]
  rfl

theorem Before.place {id other : Id} (before : table.Before cmp id other) (key : UInt64)
    (candidate : α) : (table.place cmp key candidate).Before cmp id other := by
  rcases before with ⟨first, second, found_first, found_second, lt⟩
  exact ⟨first, second, state?_place_of_some found_first candidate,
    state?_place_of_some found_second candidate, lt⟩

/-- Placing a candidate that is not found keeps the lists ascending. -/
theorem Ascending.place [Std.TransCmp cmp] (ascending : table.Ascending cmp)
    (placed : table.Placed) (absent : table.find? cmp key candidate = none) :
    (table.place cmp key candidate).Ascending cmp := by
  intro bucket
  have old : ∀ bucket, (table.bucket bucket).Pairwise
      ((table.place cmp key candidate).Before cmp) :=
    fun bucket => (ascending bucket).imp fun before => before.place key candidate
  by_cases here : bucket = key.toNat % table.count
  · rw [bucket_place_of_eq here]
    subst here
    have here := old (key.toNat % table.count)
    rw [← List.takeWhile_append_dropWhile (p := table.less cmp candidate)
      (l := table.bucket (key.toNat % table.count)), List.pairwise_append] at here
    rcases here with ⟨front, back, across⟩
    have new := state?_place_length table cmp key candidate
    have behind : ∀ id ∈ (table.bucket (key.toNat % table.count)).dropWhile
        (table.less cmp candidate),
        (table.place cmp key candidate).Before cmp table.admitted.length id := by
      intro id mem
      obtain ⟨state, found, lt⟩ := ascending.greater_of_mem_dropWhile placed absent mem
      exact ⟨candidate, state, new, state?_place_of_some found candidate, lt⟩
    have ahead : ∀ id ∈ (table.bucket (key.toNat % table.count)).takeWhile
        (table.less cmp candidate),
        (table.place cmp key candidate).Before cmp id table.admitted.length := by
      intro id mem
      obtain ⟨state, found, lt⟩ := less_iff.1 (List.all_eq_true.1 List.all_takeWhile id mem)
      exact ⟨state, candidate, state?_place_of_some found candidate, new, lt⟩
    refine List.pairwise_append.2 ⟨front, List.pairwise_cons.2 ⟨behind, back⟩, ?_⟩
    intro id mem other mem_other
    rcases List.mem_cons.1 mem_other with rfl | mem_other
    · exact ahead id mem
    · exact across id mem other mem_other
  · rw [bucket_place_of_ne here]
    exact old bucket

end ListTable

/-! ## Sets under one comparator -/

namespace Visited

variable {set set' : Visited α} {cmp : Comparator α}

theorem Coherent.placed (coherent : set.Coherent) : set.listTable.Placed := by
  intro bucket id
  show id ∈ set.chain bucket ↔ set.listTable.leaves set.bucketCount bucket id = true
  rw [leaves_listTable set coherent.valid.2]
  exact coherent.mem_chain_iff

theorem Coherent.ascending_insert [Std.TransCmp cmp] (coherent : set.Coherent)
    (ascending : set.listTable.Ascending cmp) (key : UInt64) (state : α) :
    (set.insert cmp key state).set.listTable.Ascending cmp := by
  have doubled : set.double.listTable.Ascending cmp := by
    rw [coherent.listTable_double]
    exact ascending.split
  refine insert_cases (motive := fun outcome => outcome.set.listTable.Ascending cmp) ?_ ?_ ?_ ?_
  · intro id _
    exact ascending
  · intro after absent _
    have missing := find?_eq_none_iff_lookup.2 ⟨after, absent⟩
    rw [coherent.find?_eq] at missing
    rw [coherent.listTable_place absent]
    exact ascending.place coherent.placed missing
  · intro after id _ _ _
    exact doubled
  · intro after after' _ _ absent
    have missing := find?_eq_none_iff_lookup.2 ⟨after', absent⟩
    rw [coherent.double.find?_eq] at missing
    rw [coherent.double.listTable_place absent]
    exact doubled.place coherent.double.placed missing

theorem Leads.ascending [Std.TransCmp cmp] (leads : Leads (· = cmp) set set')
    (coherent : set.Coherent) (ascending : set.listTable.Ascending cmp) :
    set'.listTable.Ascending cmp := by
  induction leads with
  | refl => exact ascending
  | insert before permitted key state ih =>
    subst permitted
    exact (before.coherent coherent).ascending_insert ih key state
  | pop before ih =>
    rw [(before.coherent coherent).listTable_pop]
    exact ih

theorem ascending_ofCount (cmp : Comparator α) (count : Nat) :
    (ofCount count : Visited α).listTable.Ascending cmp := by
  rw [listTable_ofCount]
  exact fun _ => List.Pairwise.nil

/-- Sets that use one total preorder keep their tables ascending. -/
theorem ReachableUnder.ascending [Std.TransCmp cmp] (reachable : set.ReachableUnder cmp) :
    set.listTable.Ascending cmp := by
  rcases reachable.exists_leads with ⟨count, valid, leads⟩
  exact leads.ascending (coherent_ofCount valid) (ascending_ofCount cmp count)

/-- The state of the first id is less than that of the second. -/
def Before (set : Visited α) (cmp : Comparator α) (id other : Id) : Prop :=
  ∃ state state', set.state? id = some state ∧ set.state? other = some state' ∧
    cmp state state' = .lt

theorem state?_listTable (set : Visited α) (id : Id) :
    set.listTable.state? id = set.state? id := by
  rw [ListTable.state?, listTable, getElem?_admitted, Option.map_map]
  rfl

theorem pairwise_before (ascending : set.listTable.Ascending cmp) (bucket : Nat) :
    (set.chain bucket).Pairwise (set.Before cmp) := by
  refine (ascending bucket).imp ?_
  intro id other before
  rcases before with ⟨state, state', found, found', lt⟩
  rw [state?_listTable] at found found'
  exact ⟨state, state', found, found', lt⟩

/-- Under one total preorder every chain is strictly ascending in every set
that a run leads to, and it still is after a doubling of this set.  Keys may
disagree with the comparator. -/
theorem ReachableUnder.chains_ascending [Std.TransCmp cmp] (reachable : set.ReachableUnder cmp) :
    (∀ bucket, (set.chain bucket).Pairwise (set.Before cmp)) ∧
      ∀ bucket, (set.double.chain bucket).Pairwise (set.double.Before cmp) := by
  have ascending := reachable.ascending
  refine ⟨pairwise_before ascending, pairwise_before ?_⟩
  rw [reachable.reachable.coherent.listTable_double]
  exact ascending.split

/-- Three keys of one bucket, and one state under two keys. -/
theorem chains_ascending_collisions :
    ∃ outcome : Outcome Nat (List (Answer Nat)),
      run .always 0 (ofCount 1024) ([.insert 7 50, .insert 1031 30, .insert 2055 40,
        .tryInsert 8 50, .pop].map (Comparator.natural, ·)) = some outcome ∧
      outcome.set.chain 7 = [1, 2, 0] ∧ Std.TransCmp (Comparator.natural : Comparator Nat) ∧
      outcome.set.ReachableUnder Comparator.natural ∧
      (∀ bucket, (outcome.set.chain bucket).Pairwise (outcome.set.Before Comparator.natural)) ∧
      ∀ bucket, (outcome.set.double.chain bucket).Pairwise
        (outcome.set.double.Before Comparator.natural) := by
  have lawful : Std.TransCmp (Comparator.natural : Comparator Nat) :=
    inferInstanceAs (Std.TransCmp (compare : Nat → Nat → Ordering))
  have ended : (run .always 0 (ofCount 1024) ([.insert 7 50, .insert 1031 30, .insert 2055 40,
      .tryInsert 8 50, .pop].map ((Comparator.natural : Comparator Nat), ·))).map
      (fun outcome => outcome.set.chain 7) = some [1, 2, 0] := by decide +kernel
  obtain ⟨outcome, ran, chain_eq⟩ := Option.map_eq_some_iff.1 ended
  have reachable : outcome.set.ReachableUnder Comparator.natural :=
    ⟨1024, .always, 0, validBucketCount_minBuckets, _, outcome, by simp, ran, rfl⟩
  exact ⟨outcome, ran, chain_eq, lawful, reachable, reachable.chains_ascending⟩

end Visited

end StateSearch
