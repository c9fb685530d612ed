import StateSearch.Visited.Insert

/-!
# The invariant of a set

`Visited.Coherent` joins what holds of the three parts of a set at all
times: the number of buckets is valid, the chains spell out lists in which
every record stands in the bucket of its key, and the worklist spells out
the waiting ids.  It does not speak of comparators, and no operation needs a
lawful one to keep it.

There are four groups.

* The invariant, and what a lookup finds under it.
* Doubling and placing.  `Coherent.spells_double` and `Coherent.spells_place`
  give the lists of every bucket after the two changes of the table.
* Handing out, which leaves the chains alone.
* Admission.  `insert_cases` says what an admission can do, and every later
  invariant is proved along it.
-/

namespace StateSearch

variable {α : Type}

namespace Visited

/-! ## The invariant -/

/-- The chains and the worklist fit the store, and the number of buckets is
valid. -/
structure Coherent (set : Visited α) : Prop where
  valid : ValidBucketCount set.bucketCount
  chains : set.buckets.Spells set.store set.chain
  worklist : set.worklist.Spells set.store set.stack

variable {set : Visited α}

/-- Lists that chains and worklist spell out make a set coherent. -/
theorem coherent_of_spells {lists : Nat → List Id} {ids : List Id}
    (valid : ValidBucketCount set.bucketCount) (chains : set.buckets.Spells set.store lists)
    (worklist : set.worklist.Spells set.store ids) : set.Coherent where
  valid := valid
  chains := chains.chain
  worklist := by
    have same : set.stack = ids := worklist.toList_eq
    rw [same]
    exact worklist

/-- A set with a valid number of empty buckets is coherent. -/
theorem coherent_ofCount {count : Nat} (valid : ValidBucketCount count) :
    (ofCount count : Visited α).Coherent := by
  have nothing : Worklist.Spells {} (#[] : Store α) [] := ⟨.nil, rfl, by simp⟩
  refine coherent_of_spells ?_ (Buckets.spells_ofCount count) nothing
  show ValidBucketCount (Buckets.ofCount count).count
  rw [Buckets.count_ofCount]
  exact valid

/-- Outside the array there are no chains. -/
theorem chain_eq_nil {bucket : Nat} (le : set.bucketCount ≤ bucket) : set.chain bucket = [] :=
  Buckets.chain_eq_nil le

namespace Coherent

theorem index_lt (coherent : set.Coherent) (key : UInt64) :
    set.buckets.index key < set.bucketCount :=
  bucketOf_lt coherent.valid.2

theorem index_eq_mod (coherent : set.Coherent) (key : UInt64) :
    set.buckets.index key = key.toNat % set.bucketCount :=
  bucketOf_eq_mod coherent.valid.2

theorem isFull_iff (coherent : set.Coherent) :
    set.isFull = true ↔ 3 * set.bucketCount ≤ 4 * (set.size + 1) :=
  Buckets.isFull_iff coherent.valid.four_dvd

/-- While the load is below three quarters, one more state at most meets it
exactly. -/
theorem isFull_iff_eq (coherent : set.Coherent) (loose : 4 * set.size < 3 * set.bucketCount) :
    set.isFull = true ↔ 4 * (set.size + 1) = 3 * set.bucketCount := by
  have four_dvd := coherent.valid.four_dvd
  rw [coherent.isFull_iff]
  omega

/-- An id is in the chain of the bucket where it belongs, and in no other,
whether the other lies in the array or not. -/
theorem mem_chain_iff (coherent : set.Coherent) {bucket : Nat} {id : Id} :
    id ∈ set.chain bucket ↔ set.store.belongs set.bucketCount bucket id = true := by
  by_cases lt : bucket < set.bucketCount
  · exact coherent.chains.mem_iff bucket lt id
  · rw [chain_eq_nil (Nat.le_of_not_lt lt)]
    constructor
    · intro mem
      cases mem
    · intro here
      obtain ⟨record, _, rfl⟩ := Store.belongs_iff.1 here
      exact absurd (bucketOf_lt coherent.valid.2) lt

/-- A lookup that ends without a duplicate names the last record that was
passed. -/
theorem absent_eq (coherent : set.Coherent) {cmp : Comparator α} {key : UInt64} {candidate : α}
    {after : Option Id} (absent : set.lookup cmp key candidate = .absent after) :
    after = ((set.chain (set.buckets.index key)).takeWhile
      (set.store.compares cmp candidate .lt)).getLast? := by
  have found := coherent.chains.lookup_eq (coherent.index_lt key) cmp candidate
  rw [← Visited.lookup, absent] at found
  split at found
  · split at found
    · cases found
    · exact (Lookup.absent.inj found)
  · exact (Lookup.absent.inj found)

end Coherent

/-! ## Doubling and placing -/

@[simp] theorem bucketCount_double (set : Visited α) :
    set.double.bucketCount = set.bucketCount * 2 :=
  Buckets.count_double ..

@[simp] theorem doublings_double (set : Visited α) : set.double.doublings = set.doublings + 1 :=
  Buckets.doublings_double ..

@[simp] theorem bucketCount_place (set : Visited α) (key : UInt64) (state : α)
    (after : Option Id) : (set.place key state after).bucketCount = set.bucketCount :=
  Buckets.count_splice ..

@[simp] theorem doublings_place (set : Visited α) (key : UInt64) (state : α)
    (after : Option Id) : (set.place key state after).doublings = set.doublings :=
  Buckets.doublings_splice ..

/-- A doubling changes only the links of chains. -/
theorem alike_double (set : Visited α) : set.store.Alike Record.unchained set.double.store :=
  Buckets.sameButChains_double _ _

@[simp] theorem size_double (set : Visited α) : set.double.size = set.size :=
  set.alike_double.size_eq

@[simp] theorem size_place (set : Visited α) (key : UInt64) (state : α) (after : Option Id) :
    (set.place key state after).size = set.size + 1 :=
  (Worklist.alike_push _ _ _).size_eq.trans (Buckets.size_splice ..)

namespace Coherent

/-- After a doubling each bucket has the part of an old one whose keys belong
there, in the old order. -/
theorem spells_double (coherent : set.Coherent) :
    set.double.buckets.Spells set.double.store fun bucket =>
      (set.chain (bucket % set.bucketCount)).filter
        (set.store.belongs (set.bucketCount * 2) bucket) :=
  coherent.chains.double coherent.valid.2

theorem worklist_double (coherent : set.Coherent) :
    set.double.worklist.Spells set.double.store set.stack := by
  have links := set.alike_double.comp Record.worklistNext
  have marks := set.alike_double.comp Record.queued
  exact coherent.worklist.congr (fun id _ => links id) fun id =>
    iff_of_eq (congrArg (· = some true) (marks id))

theorem double (coherent : set.Coherent) : set.double.Coherent := by
  refine coherent_of_spells ?_ coherent.spells_double coherent.worklist_double
  rw [bucketCount_double]
  exact coherent.valid.double

theorem stack_double (coherent : set.Coherent) : set.double.stack = set.stack :=
  coherent.worklist_double.toList_eq

/-- A new state comes behind the ids of `before` in its bucket, and no other
bucket changes. -/
theorem spells_place (coherent : set.Coherent) {key : UInt64} {before after : List Id}
    (cut : set.chain (set.buckets.index key) = before ++ after) (state : α) :
    (set.place key state before.getLast?).buckets.Spells
      (set.place key state before.getLast?).store
      (fun bucket =>
        if bucket = set.buckets.index key then before ++ set.size :: after
        else set.chain bucket) := by
  have spliced := coherent.chains.splice (coherent.index_lt key) cut state
  have pushed := Worklist.alike_push set.worklist
    (set.buckets.splice set.store key state before.getLast?).2 set.size
  exact spliced.congr (pushed.comp Record.chainNext) (pushed.comp Record.key)

/-- A new state waits on top. -/
theorem worklist_place (coherent : set.Coherent) (key : UInt64) (state : α) (after : Option Id) :
    (set.place key state after).worklist.Spells (set.place key state after).store
      (set.size :: set.stack) := by
  have fresh : set.size ∉ set.stack := fun mem =>
    Nat.lt_irrefl _ (coherent.worklist.linked.lt_size _ mem)
  have spliced : set.worklist.Spells (set.buckets.splice set.store key state after).2
      set.stack := by
    refine coherent.worklist.congr (fun id mem => ?_) fun id => ?_
    · have ne : id ≠ set.store.size := Nat.ne_of_lt (coherent.worklist.linked.lt_size id mem)
      rw [Buckets.map_splice Record.worklistNext (fun _ _ => rfl), if_neg ne]
    · rw [Buckets.map_splice Record.queued fun _ _ => rfl]
      split
      · next same => simp [same]
      · rfl
  refine spliced.push ?_ fresh
  rw [Buckets.size_splice]
  exact Nat.lt_succ_self _

theorem place (coherent : set.Coherent) {key : UInt64} {before after : List Id}
    (cut : set.chain (set.buckets.index key) = before ++ after) (state : α) :
    (set.place key state before.getLast?).Coherent := by
  refine coherent_of_spells ?_ (coherent.spells_place cut state) (coherent.worklist_place ..)
  rw [bucketCount_place]
  exact coherent.valid

theorem stack_place (coherent : set.Coherent) (key : UInt64) (state : α) (after : Option Id) :
    (set.place key state after).stack = set.size :: set.stack :=
  (coherent.worklist_place key state after).toList_eq

/-- Placing a state where the lookup for it ended keeps a set coherent. -/
theorem place_of_absent (coherent : set.Coherent) {cmp : Comparator α} {key : UInt64} {state : α}
    {after : Option Id} (absent : set.lookup cmp key state = .absent after) :
    (set.place key state after).Coherent := by
  rw [coherent.absent_eq absent]
  exact coherent.place List.takeWhile_append_dropWhile.symm state

end Coherent

/-! ## Handing out -/

@[simp] theorem buckets_pop (set : Visited α) : set.pop.2.buckets = set.buckets :=
  rfl

/-- Handing out changes only the place of a record in the worklist. -/
theorem alike_pop (set : Visited α) : set.store.Alike Record.unlisted set.pop.2.store :=
  Worklist.alike_pop _ _

@[simp] theorem size_pop (set : Visited α) : set.pop.2.size = set.size :=
  set.alike_pop.size_eq

namespace Coherent

theorem spells_pop (coherent : set.Coherent) :
    set.pop.2.buckets.Spells set.pop.2.store set.chain :=
  coherent.chains.congr (set.alike_pop.comp Record.chainNext) (set.alike_pop.comp Record.key)

/-- Where nothing waits nothing is handed out. -/
theorem pop_eq_none (coherent : set.Coherent) (nothing : set.stack = []) :
    set.pop = (none, set) := by
  have spells := coherent.worklist
  rw [nothing] at spells
  rcases set with ⟨store, buckets, worklist⟩
  simp only [Visited.pop]
  rw [spells.pop_eq_none]

/-- The id on top of the worklist is handed out, and the others stay. -/
theorem worklist_pop (coherent : set.Coherent) :
    set.pop.1 = set.stack.head? ∧
      set.pop.2.worklist.Spells set.pop.2.store set.stack.tail := by
  have spells := coherent.worklist
  cases h : set.stack with
  | nil =>
    rw [h] at spells
    rw [coherent.pop_eq_none h]
    exact ⟨rfl, spells⟩
  | cons id ids =>
    rw [h] at spells
    exact spells.pop

theorem pop (coherent : set.Coherent) : set.pop.2.Coherent :=
  coherent_of_spells coherent.valid coherent.spells_pop coherent.worklist_pop.2

theorem stack_pop (coherent : set.Coherent) : set.pop.2.stack = set.stack.tail :=
  coherent.worklist_pop.2.toList_eq

theorem chain_pop (coherent : set.Coherent) (bucket : Nat) :
    set.pop.2.chain bucket = set.chain bucket := by
  by_cases lt : bucket < set.bucketCount
  · exact coherent.spells_pop.chain_eq lt
  · have le : set.bucketCount ≤ bucket := Nat.le_of_not_lt lt
    rw [chain_eq_nil le]
    exact chain_eq_nil le

end Coherent

/-! ## Admission -/

/-- An admission finds a duplicate at once, or finds none and places the
state, or doubles the buckets first and then finds a duplicate or none. -/
theorem insert_cases {motive : Outcome α (Verdict α) → Prop} {cmp : Comparator α} {key : UInt64}
    {state : α}
    (duplicate : ∀ id, set.lookup cmp key state = .found id →
      motive { answer := .duplicate id state, set })
    (placed : ∀ after, set.lookup cmp key state = .absent after → set.isFull = false →
      motive { answer := .admitted set.size, set := set.place key state after })
    (late : ∀ after id, set.lookup cmp key state = .absent after → set.isFull = true →
      set.double.lookup cmp key state = .found id →
      motive { answer := .duplicate id state, set := set.double,
               events := [.doubled set.bucketCount set.size] })
    (grown : ∀ after after', set.lookup cmp key state = .absent after → set.isFull = true →
      set.double.lookup cmp key state = .absent after' →
      motive { answer := .admitted set.size, set := set.double.place key state after',
               events := [.doubled set.bucketCount set.size] }) :
    motive (set.insert cmp key state) := by
  unfold insert
  cases first : set.lookup cmp key state with
  | found id => exact duplicate id first
  | absent after =>
    simp only [insertAbsent]
    cases full : set.isFull with
    | false => exact placed after first full
    | true =>
      simp only [if_true]
      cases second : set.double.lookup cmp key state with
      | found id => exact late after id first full second
      | absent after' => exact grown after after' first full second

theorem Coherent.insert (coherent : set.Coherent) (cmp : Comparator α) (key : UInt64) (state : α) :
    (set.insert cmp key state).set.Coherent := by
  refine insert_cases (motive := fun outcome => outcome.set.Coherent) ?_ ?_ ?_ ?_
  · intro id _
    exact coherent
  · intro after absent _
    exact coherent.place_of_absent absent
  · intro after id _ _ _
    exact coherent.double
  · intro after after' _ _ absent
    exact coherent.double.place_of_absent absent

/-- A new id goes on top of the worklist, and a duplicate leaves the worklist
alone. -/
theorem Coherent.stack_insert (coherent : set.Coherent) (cmp : Comparator α) (key : UInt64)
    (state : α) :
    (set.insert cmp key state).set.stack =
      if (set.insert cmp key state).answer.isAdmitted then
        (set.insert cmp key state).answer.id :: set.stack
      else set.stack := by
  refine insert_cases (motive := fun outcome => outcome.set.stack =
    if outcome.answer.isAdmitted then outcome.answer.id :: set.stack else set.stack) ?_ ?_ ?_ ?_
  · intro id _
    rfl
  · intro after absent _
    exact coherent.stack_place ..
  · intro after id _ _ _
    exact coherent.stack_double
  · intro after after' _ _ absent
    have top := coherent.double.stack_place key state after'
    rw [size_double, coherent.stack_double] at top
    exact top

end Visited

end StateSearch
