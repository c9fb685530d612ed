import StateSearch.Proofs.Schedule

/-!
# Growing first and linking first

An admission that doubles the buckets splits all chains, looks the place of
the new record up again, and links the record there.  Under a total preorder
the chains are as if the record had been linked where the first lookup ended
and the chains had been split afterwards.  The record that it was to follow
may have moved to the other half; then what it follows is the last record in
front of it that has not.

There are three groups.

* Filtered lists.  Where a test holds of a front and of nothing behind it,
  this is still so in a part of the list.
* Tables, `ListTable.Ascending.place_split`.
* Sets.
-/

namespace StateSearch

variable {α : Type}

/-! ## Filtered lists -/

section Filtered

variable {ids front back : List Id} {less : Id → Bool}

/-- A walk that passes the front and nothing behind it stops at its end. -/
theorem takeWhile_append_of_stops (passes : ∀ id ∈ front, less id = true)
    (stops : ∀ id ∈ back, less id = false) : (front ++ back).takeWhile less = front := by
  rw [List.takeWhile_append_of_pos passes]
  cases back with
  | nil => exact List.append_nil front
  | cons first back => rw [List.takeWhile_cons_of_neg (by simp [stops first]), List.append_nil]

theorem dropWhile_append_of_stops (passes : ∀ id ∈ front, less id = true)
    (stops : ∀ id ∈ back, less id = false) : (front ++ back).dropWhile less = back := by
  rw [List.dropWhile_append_of_pos passes]
  cases back with
  | nil => rfl
  | cons first back => exact List.dropWhile_cons_of_neg (by simp [stops first])

/-- Where nothing that a walk leaves behind would be passed, the walk along a
part of the list passes the same ids of this part. -/
theorem takeWhile_dropWhile_filter (stops : ∀ id ∈ ids.dropWhile less, less id = false)
    (keeps : Id → Bool) :
    (ids.filter keeps).takeWhile less = (ids.takeWhile less).filter keeps ∧
      (ids.filter keeps).dropWhile less = (ids.dropWhile less).filter keeps := by
  have passes : ∀ id ∈ (ids.takeWhile less).filter keeps, less id = true := fun id mem =>
    List.all_eq_true.1 List.all_takeWhile id (List.mem_filter.1 mem).1
  have stops' : ∀ id ∈ (ids.dropWhile less).filter keeps, less id = false := fun id mem =>
    stops id (List.mem_filter.1 mem).1
  have cut : ids.filter keeps =
      (ids.takeWhile less).filter keeps ++ (ids.dropWhile less).filter keeps := by
    rw [← List.filter_append, List.takeWhile_append_dropWhile]
  rw [cut]
  exact ⟨takeWhile_append_of_stops passes stops', dropWhile_append_of_stops passes stops'⟩

end Filtered

/-! ## Tables -/

namespace ListTable

variable {table : ListTable α} {cmp : Comparator α} {key : UInt64} {candidate : α}

/-- A placed id leaves the remainders of its key. -/
theorem leaves_place_length (table : ListTable α) (cmp : Comparator α) (key : UInt64)
    (candidate : α) (count remainder : Nat) :
    (table.place cmp key candidate).leaves count remainder table.admitted.length =
      (key.toNat % count == remainder) := by
  simp [leaves, place]

/-- The other ids leave the remainders that they left. -/
theorem Placed.filter_leaves_place (placed : table.Placed) {bucket : Nat} {ids : List Id}
    (subset : ids ⊆ table.bucket bucket) (cmp : Comparator α) (key : UInt64) (candidate : α)
    (count remainder : Nat) :
    ids.filter ((table.place cmp key candidate).leaves count remainder) =
      ids.filter (table.leaves count remainder) := by
  refine List.filter_congr fun id mem => ?_
  obtain ⟨entry, admitted, _⟩ := leaves_iff.1 ((placed bucket id).1 (subset mem))
  have lt := (List.getElem?_eq_some_iff.1 admitted).1
  have kept : (table.place cmp key candidate).admitted[id]? = table.admitted[id]? :=
    List.getElem?_append_left lt
  rw [leaves, leaves, kept]

/-- What a split makes of the bucket that an id was placed in.  The new id
goes with the remainder of its key, between the two parts of the old
bucket. -/
theorem Placed.filter_leaves_bucket_place (placed : table.Placed) (cmp : Comparator α)
    (candidate : α) (remainder : Nat) {bucket : Nat} (here : bucket = key.toNat % table.count) :
    ((table.place cmp key candidate).bucket bucket).filter
        ((table.place cmp key candidate).leaves (2 * table.count) remainder) =
      ((table.bucket bucket).takeWhile (table.less cmp candidate)).filter
          (table.leaves (2 * table.count) remainder) ++
        ((if key.toNat % (2 * table.count) == remainder then [table.admitted.length] else []) ++
          ((table.bucket bucket).dropWhile (table.less cmp candidate)).filter
            (table.leaves (2 * table.count) remainder)) := by
  rw [bucket_place_of_eq here, List.filter_append, List.filter_cons, leaves_place_length,
    placed.filter_leaves_place (List.takeWhile_subset _),
    placed.filter_leaves_place (List.dropWhile_subset _)]
  split <;> rfl

/-- Where a candidate is absent, nothing that the lookup for it leaves behind
is less. -/
theorem Ascending.stops [Std.TransCmp cmp] (ascending : table.Ascending cmp)
    (placed : table.Placed) (absent : table.find? cmp key candidate = none) :
    ∀ id ∈ (table.bucket (key.toNat % table.count)).dropWhile (table.less cmp candidate),
      table.less cmp candidate id = false := by
  intro id mem
  obtain ⟨state, found, greater⟩ := ascending.greater_of_mem_dropWhile placed absent mem
  rw [Bool.eq_false_iff, Ne, less_iff]
  rintro ⟨state', found', lt⟩
  obtain rfl := Option.some.inj (found.symm.trans found')
  rw [Std.OrientedCmp.gt_of_lt greater] at lt
  cases lt

/-- Splitting a table and placing a candidate afterwards is placing the
candidate and splitting the table afterwards. -/
theorem Ascending.place_split [Std.TransCmp cmp] (ascending : table.Ascending cmp)
    (placed : table.Placed) (absent : table.find? cmp key candidate = none) :
    table.split.place cmp key candidate = (table.place cmp key candidate).split := by
  have buckets : ∀ j, (table.split.place cmp key candidate).bucket j =
      (table.place cmp key candidate).split.bucket j := by
    intro j
    show _ = ((table.place cmp key candidate).bucket (j % table.count)).filter
      ((table.place cmp key candidate).leaves (2 * table.count) j)
    by_cases low : j % table.count = key.toNat % table.count
    · rw [placed.filter_leaves_bucket_place cmp candidate j low]
      by_cases here : j = key.toNat % (2 * table.count)
      · have stops := ascending.stops placed absent
        rw [← low] at stops
        obtain ⟨passed, left⟩ := takeWhile_dropWhile_filter stops (table.leaves (2 * table.count) j)
        rw [bucket_place_of_eq here, if_pos (beq_iff_eq.2 here.symm), ← passed, ← left]
        rfl
      · have other : ¬ (key.toNat % (2 * table.count) == j) = true := fun same =>
          here (beq_iff_eq.1 same).symm
        rw [bucket_place_of_ne here, if_neg other, List.nil_append, ← List.filter_append,
          List.takeWhile_append_dropWhile, bucket_split]
    · have elsewhere : j ≠ key.toNat % (2 * table.count) := by
        rintro rfl
        exact low (Nat.mod_mul_left_mod ..)
      rw [bucket_place_of_ne elsewhere, bucket_place_of_ne low,
        placed.filter_leaves_place (List.Subset.refl _), bucket_split]
  show ListTable.mk _ _ _ = ListTable.mk _ _ _
  congr 1
  exact funext buckets

end ListTable

/-! ## Sets -/

namespace Visited

variable {set : Visited α} {cmp : Comparator α} {key : UInt64} {state : α} {after : Option Id}

/-- After an admission the chains are those of a set in which the state was
placed behind `after` first, and every chain was split then. -/
structure PlacedThenSplit (set : Visited α) (key : UInt64) (state : α) (after : Option Id)
    (outcome : Outcome α (Verdict α)) : Prop where
  answer_eq : outcome.answer = .admitted set.size
  bucketCount_eq : outcome.set.bucketCount = 2 * set.bucketCount
  /-- Placing puts the new id behind `after` in the old chain of its key. -/
  placed_eq : ∃ front back, set.chain (key.toNat % set.bucketCount) = front ++ back ∧
    after = front.getLast? ∧
    ∀ bucket, (set.place key state after).chain bucket =
      if bucket = key.toNat % set.bucketCount then front ++ set.size :: back
      else set.chain bucket
  /-- A chain is the part of one of those whose keys now belong there, in
  their order. -/
  chain_eq : ∀ bucket, outcome.set.chain bucket =
    ((set.place key state after).chain (bucket % set.bucketCount)).filter
      ((set.place key state after).store.leaves (2 * set.bucketCount) bucket)
  /-- The set in which the state was placed doubles to the same chains. -/
  listTable_eq : outcome.set.listTable = (set.place key state after).double.listTable

/-- Placing where a lookup ended cuts the chain behind what is less. -/
theorem Coherent.exists_chain_place (coherent : set.Coherent)
    (absent : set.lookup cmp key state = .absent after) :
    ∃ front back, set.chain (key.toNat % set.bucketCount) = front ++ back ∧
      after = front.getLast? ∧
      ∀ bucket, (set.place key state after).chain bucket =
        if bucket = key.toNat % set.bucketCount then front ++ set.size :: back
        else set.chain bucket := by
  have after_eq := coherent.absent_eq absent
  rw [← less_listTable, coherent.index_eq_mod] at after_eq
  refine ⟨_, _, List.takeWhile_append_dropWhile.symm, after_eq, fun bucket => ?_⟩
  have placed := congrArg (·.bucket bucket) (coherent.listTable_place absent)
  refine placed.trans ?_
  have size_eq : set.listTable.admitted.length = set.size := set.length_admitted
  by_cases here : bucket = key.toNat % set.bucketCount
  · rw [if_pos here, ListTable.bucket_place_of_eq here, size_eq, here]
    rfl
  · rw [if_neg here, ListTable.bucket_place_of_ne here]
    rfl

/-- The chains after an admission that doubles the buckets. -/
theorem Coherent.listTable_insert_of_due [Std.TransCmp cmp] (coherent : set.Coherent)
    (ascending : set.listTable.Ascending cmp) (full : set.isFull = true)
    (absent : set.lookup cmp key state = .absent after) :
    (set.insert cmp key state).answer = .admitted set.size ∧
      (set.insert cmp key state).set.listTable = (set.place key state after).listTable.split := by
  have missing := find?_eq_none_iff_lookup.2 ⟨after, absent⟩
  obtain ⟨after', absent'⟩ := find?_eq_none_iff_lookup.1
    (coherent.find?_double_eq_none ascending missing)
  rw [coherent.find?_eq] at missing
  rw [insert_of_grown absent full absent']
  refine ⟨rfl, ?_⟩
  rw [coherent.double.listTable_place absent', coherent.listTable_double,
    coherent.listTable_place absent]
  exact ascending.place_split coherent.placed missing

/-- Under one total preorder, whatever the keys are, an admission that
doubles the buckets leaves the chains that linking the new record first and
splitting all chains afterwards would leave, and the lookup after the
doubling finds no duplicate. -/
theorem ReachableUnder.insert_placedThenSplit [Std.TransCmp cmp] (reachable : set.ReachableUnder cmp)
    (due : 4 * (set.size + 1) = 3 * set.bucketCount) (missing : set.find? cmp key state = none) :
    set.double.find? cmp key state = none ∧
      ∃ after, set.lookup cmp key state = .absent after ∧
        set.PlacedThenSplit key state after (set.insert cmp key state) := by
  have coherent := reachable.reachable.coherent
  have full : set.isFull = true := coherent.isFull_iff.2 (Nat.le_of_eq due.symm)
  obtain ⟨after, absent⟩ := find?_eq_none_iff_lookup.1 missing
  obtain ⟨answer_eq, tables⟩ := coherent.listTable_insert_of_due reachable.ascending full absent
  have count_eq : (set.place key state after).bucketCount = set.bucketCount :=
    bucketCount_place ..
  refine ⟨coherent.find?_double_eq_none reachable.ascending missing, after, absent, answer_eq,
    ?_, coherent.exists_chain_place absent, fun bucket => ?_, ?_⟩
  · have split := congrArg ListTable.count tables
    exact split.trans (congrArg (2 * ·) count_eq)
  · have split := congrFun (congrArg ListTable.bucket tables) bucket
    rw [ListTable.bucket_split, leaves_listTable_eq] at split
    change (set.insert cmp key state).set.chain bucket = _ at split
    rw [split]
    show ((set.place key state after).chain (bucket % (set.place key state after).bucketCount)).filter
      ((set.place key state after).store.leaves
        (2 * (set.place key state after).bucketCount) bucket) = _
    rw [count_eq]
  · rw [tables, (coherent.place_of_absent absent).listTable_double]

/-- The candidate belongs behind all others of its bucket, and the split leaves
only `0` of them in front of it. -/
theorem insert_placedThenSplit_crowd :
    Std.TransCmp (Comparator.natural : Comparator Nat) ∧
      (crowd 1024).ReachableUnder .natural ∧
      4 * ((crowd 1024).size + 1) = 3 * (crowd 1024).bucketCount ∧
      (crowd 1024).find? .natural 1024 767 = none ∧
      (crowd 1024).double.find? .natural 1024 767 = none ∧
      ∃ after, (crowd 1024).lookup .natural 1024 767 = .absent after ∧
        (crowd 1024).PlacedThenSplit 1024 767 after ((crowd 1024).insert .natural 1024 767) := by
  have valid : ValidBucketCount 1024 := validBucketCount_minBuckets
  have reachable := reachableUnder_crowd valid
  have due : 4 * ((crowd 1024).size + 1) = 3 * (crowd 1024).bucketCount := by
    rw [bucketCount_crowd valid, size_crowd valid]
  have missing : (crowd 1024).find? .natural 1024 767 = none := by
    rw [Option.eq_none_iff_forall_ne_some]
    intro id found
    obtain ⟨entry, admitted, _, eq⟩ :=
      (reachable.reachable.coherent.find?_eq_some_iff reachable.ascending).1 found
    have same : entry.2 = 767 := Nat.compare_eq_eq.1 eq
    have holds : (crowd 1024).Holds 767 := ⟨id, by rw [state?_eq, admitted, ← same]; rfl⟩
    have mem := (holds_seeded_iff valid _).1 holds
    exact Nat.lt_irrefl 767 (List.mem_range.1 mem)
  exact ⟨inferInstance, reachable, due, missing, reachable.insert_placedThenSplit due missing⟩

end Visited

end StateSearch
