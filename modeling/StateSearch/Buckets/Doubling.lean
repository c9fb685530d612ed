import StateSearch.Buckets.Split

/-!
# Doubling the bucket array

When the number of buckets doubles, one more bit of the key counts.  The
chain of an old bucket `i` splits into the records that stay in `i` and the
records that move to `i + old`.

There are three groups.

* The operation.  `Buckets.double` makes room for twice the heads and splits
  every old bucket.
* What a doubling leaves alone.  Only links of chains change,
  `Buckets.sameButChains_double`.
* The lists after a doubling.  `Buckets.PartlySplit` is the invariant while
  the old buckets are split one after the other, and no walk along one of them
  needs its bound.  `Buckets.Spells.double` says that each new list is the
  part of an old one whose keys belong there, in the old order.
-/

namespace StateSearch

variable {α : Type}

namespace Buckets

/-! ## The operation -/

/-- Splits the chain of `bucket` into those of `bucket` and `bucket + old`,
where the array has already twice the `old` buckets. -/
def splitBucket (old : Nat) (table : Buckets × Store α) (bucket : Nat) : Buckets × Store α :=
  let (buckets, store) := table
  let stays := fun key => bucketOf key (old * 2) == bucket
  let fuel := store.size
  let ⟨stay, move, store⟩ := Split.dealAll stays fuel (buckets.head bucket) { store }
  let heads := buckets.heads.setIfInBounds bucket stay.first
  ({ buckets with heads := heads.setIfInBounds (bucket + old) move.first }, store)

/-- Twice the buckets, with every chain split in two. -/
def double (buckets : Buckets) (store : Store α) : Buckets × Store α :=
  let old := buckets.count
  let widened : Buckets :=
    { heads := buckets.heads ++ Array.replicate old none
      doublings := buckets.doublings + 1 }
  (List.range old).foldl (splitBucket old) (widened, store)

@[simp] theorem count_splitBucket (old : Nat) (table : Buckets × Store α) (bucket : Nat) :
    (splitBucket old table bucket).1.count = table.1.count := by
  simp [splitBucket, count]

@[simp] theorem doublings_splitBucket (old : Nat) (table : Buckets × Store α) (bucket : Nat) :
    (splitBucket old table bucket).1.doublings = table.1.doublings :=
  rfl

/-- Splitting buckets changes neither their number nor the count of doublings. -/
theorem foldl_splitBucket_fst (old : Nat) (places : List Nat) (table : Buckets × Store α) :
    (places.foldl (splitBucket old) table).1.count = table.1.count ∧
      (places.foldl (splitBucket old) table).1.doublings = table.1.doublings := by
  induction places generalizing table with
  | nil => exact ⟨rfl, rfl⟩
  | cons place places ih => simpa using ih (splitBucket old table place)

@[simp] theorem count_double (buckets : Buckets) (store : Store α) :
    (buckets.double store).1.count = buckets.count * 2 := by
  rw [double, (foldl_splitBucket_fst ..).1]
  simp [count, Nat.mul_two]

@[simp] theorem doublings_double (buckets : Buckets) (store : Store α) :
    (buckets.double store).1.doublings = buckets.doublings + 1 :=
  (foldl_splitBucket_fst ..).2

/-! ## What a doubling leaves alone -/

/-- Splitting one bucket changes only links of chains. -/
theorem sameButChains_splitBucket (old : Nat) (table : Buckets × Store α) (bucket : Nat) :
    table.2.SameButChains (splitBucket old table bucket).2 :=
  Split.sameButChains_dealAll _ _ _ _

/-- Splitting many buckets changes only links of chains. -/
theorem sameButChains_foldl_splitBucket (old : Nat) (places : List Nat)
    (table : Buckets × Store α) :
    table.2.SameButChains (places.foldl (splitBucket old) table).2 := by
  induction places generalizing table with
  | nil => exact fun _ => rfl
  | cons place places ih => exact (sameButChains_splitBucket old table place).trans (ih _)

/-- A doubling changes only links of chains. -/
theorem sameButChains_double (buckets : Buckets) (store : Store α) :
    store.SameButChains (buckets.double store).2 :=
  sameButChains_foldl_splitBucket _ _ (_, store)

/-! ## The lists after a doubling -/

/-- The table on the way of a doubling, with room for twice the heads and the
first `n` old buckets split.  With all of them split it is `double`. -/
def splitFirst (buckets : Buckets) (store : Store α) (n : Nat) : Buckets × Store α :=
  (List.range n).foldl (splitBucket buckets.count)
    ({ heads := buckets.heads ++ Array.replicate buckets.count none
       doublings := buckets.doublings + 1 }, store)

/-- The heads and the lists of the first `n` old buckets are split already. -/
structure PartlySplit (buckets : Buckets) (store : Store α) (lists : Nat → List Id) (n : Nat)
    (table : Buckets × Store α) : Prop where
  count_eq : table.1.count = buckets.count * 2
  same : store.SameButChains table.2
  stay : ∀ bucket < n, table.2.Linked Record.chainNext (table.1.head bucket)
    ((lists bucket).filter (store.belongs (buckets.count * 2) bucket))
  move : ∀ bucket < n, table.2.Linked Record.chainNext (table.1.head (bucket + buckets.count))
    ((lists bucket).filter fun id => !store.belongs (buckets.count * 2) bucket id)
  rest : ∀ bucket < buckets.count, n ≤ bucket →
    table.2.Linked Record.chainNext (table.1.head bucket) (lists bucket)

/-- With room for twice the heads, no bucket is split yet. -/
theorem PartlySplit.start {buckets : Buckets} {store : Store α} {lists : Nat → List Id}
    (spells : buckets.Spells store lists) :
    buckets.PartlySplit store lists 0 (buckets.splitFirst store 0) where
  count_eq := by simp [splitFirst, count]; omega
  same := Store.Alike.refl store _
  stay _ lt := absurd lt (Nat.not_lt_zero _)
  move _ lt := absurd lt (Nat.not_lt_zero _)
  rest bucket lt _ := by
    have kept : (buckets.splitFirst store 0).1.head bucket = buckets.head bucket := by
      simp only [splitFirst, List.range_zero, List.foldl_nil, head]
      rw [Array.getElem?_append_left lt]
    rw [kept]
    exact spells.linked bucket lt

/-- What splitting one bucket does to the heads. -/
theorem head_splitBucket {old : Nat} {table : Buckets × Store α} {bucket : Nat}
    (lt : bucket < old) (size : table.1.count = old * 2) (place : Nat) :
    (splitBucket old table bucket).1.head place =
      let split := Split.dealAll (fun key => bucketOf key (old * 2) == bucket) table.2.size
        (table.1.head bucket) { store := table.2 }
      if place = bucket + old then split.move.first
      else if place = bucket then split.stay.first
      else table.1.head place := by
  unfold count at size
  simp only [splitBucket, head]
  split
  · next same =>
    rw [same, Array.getElem?_setIfInBounds_self_of_lt (by simp; omega)]
    rfl
  · next ne =>
    rw [Array.getElem?_setIfInBounds_ne (Ne.symm ne)]
    split
    · next same =>
      rw [same, Array.getElem?_setIfInBounds_self_of_lt (by omega)]
      rfl
    · next ne => rw [Array.getElem?_setIfInBounds_ne (Ne.symm ne)]

/-- The walk along the next bucket comes to its end, and deals each record to
the bucket where it belongs. -/
theorem PartlySplit.dealAll {buckets : Buckets} {store : Store α} {lists : Nat → List Id}
    {n : Nat} (lt : n < buckets.count) {table : Buckets × Store α}
    (partly : buckets.PartlySplit store lists n table) :
    let stays := fun key => bucketOf key (buckets.count * 2) == n
    let split := Split.dealAll stays table.2.size (table.1.head n) { store := table.2 }
    split.Spells ((lists n).filter (store.belongs (buckets.count * 2) n))
        ((lists n).filter fun id => !store.belongs (buckets.count * 2) n id) ∧
      (∀ other, other ∉ lists n → split.store[other]? = table.2[other]?) ∧
      Split.DealsOut stays (table.1.head n) { store := table.2 } split := by
  intro stays split
  have linked := partly.rest n lt (Nat.le_refl n)
  have start : (Split.mk {} {} table.2).Spells [] [] :=
    ⟨⟨.nil, rfl⟩, ⟨.nil, rfl⟩, List.nodup_nil⟩
  have keeps_eq : ∀ id ∈ lists n, ∀ record ∈ table.2[id]?,
      store.belongs (buckets.count * 2) n id = stays record.key := by
    intro id _ record found
    rw [← Store.belongs_congr (partly.same.comp Record.key id), Store.belongs,
      Option.mem_def.1 found]
    rfl
  have dealt := start.dealAll linked (by simpa using linked.nodup) linked.length_le_size
    stays keeps_eq
  simpa only [List.nil_append, List.append_nil] using dealt

/-- Splitting the next bucket leaves one bucket less to split. -/
theorem PartlySplit.step {buckets : Buckets} {store : Store α} {lists : Nat → List Id}
    (spells : buckets.Spells store lists) {n : Nat} (lt : n < buckets.count)
    {table : Buckets × Store α} (partly : buckets.PartlySplit store lists n table) :
    buckets.PartlySplit store lists (n + 1) (splitBucket buckets.count table n) := by
  obtain ⟨done, off, _⟩ := partly.dealAll lt
  rcases partly with ⟨count_eq, same, stay, move, rest⟩
  have apart : ∀ bucket < buckets.count, bucket ≠ n → ∀ id ∈ lists bucket, id ∉ lists n :=
    fun bucket lt' ne id mem mem' => ne (spells.eq_of_mem lt' lt mem mem')
  have keep : ∀ bucket < buckets.count, bucket ≠ n → ∀ {start : Option Id} {ids : List Id},
      ids ⊆ lists bucket → table.2.Linked Record.chainNext start ids →
      (splitBucket buckets.count table n).2.Linked Record.chainNext start ids :=
    fun bucket lt' ne _ _ subset linked => linked.congr fun id mem =>
      congrArg _ (off id (apart bucket lt' ne id (subset mem)))
  refine ⟨by simpa using count_eq, same.trans (sameButChains_splitBucket _ table n),
    fun bucket le => ?_, fun bucket le => ?_, fun bucket lt' le => ?_⟩ <;>
    rw [head_splitBucket lt count_eq]
  · simp only
    rw [if_neg (by omega)]
    split
    · next eq => exact eq ▸ done.stay.linked
    · next ne => exact keep bucket (by omega) ne List.filter_sublist.subset (stay bucket (by omega))
  · simp only
    by_cases eq : bucket = n
    · rw [eq, if_pos rfl]
      exact done.move.linked
    · rw [if_neg (by omega), if_neg (by omega)]
      exact keep bucket (by omega) eq List.filter_sublist.subset (move bucket (by omega))
  · simp only
    rw [if_neg (by omega), if_neg (by omega)]
    exact keep bucket lt' (by omega) (List.Subset.refl _) (rest bucket lt' (by omega))

/-- Before each old bucket is split, those in front of it are split. -/
theorem PartlySplit.splitFirst {buckets : Buckets} {store : Store α} {lists : Nat → List Id}
    (spells : buckets.Spells store lists) {n : Nat} (le : n ≤ buckets.count) :
    buckets.PartlySplit store lists n (buckets.splitFirst store n) := by
  induction n with
  | zero => exact .start spells
  | succ n ih =>
    rw [Buckets.splitFirst, List.range_succ, List.foldl_append]
    exact (ih (Nat.le_of_succ_le le)).step spells le

/-- A doubling splits every old bucket. -/
theorem PartlySplit.all {buckets : Buckets} {store : Store α} {lists : Nat → List Id}
    (spells : buckets.Spells store lists) :
    buckets.PartlySplit store lists buckets.count (buckets.double store) :=
  .splitFirst spells (Nat.le_refl _)

/-- After a doubling each list is the part of an old one whose keys belong there. -/
theorem Spells.double {buckets : Buckets} {store : Store α} {lists : Nat → List Id}
    (spells : buckets.Spells store lists) (power : buckets.count.isPowerOfTwo) :
    (buckets.double store).1.Spells (buckets.double store).2 fun bucket =>
      (lists (bucket % buckets.count)).filter (store.belongs (buckets.count * 2) bucket) := by
  have all := PartlySplit.all spells
  have pos := Nat.pos_of_isPowerOfTwo power
  refine ⟨fun bucket lt => ?_, fun bucket lt id => ?_⟩ <;> rw [count_double] at *
  · by_cases low : bucket < buckets.count
    · rw [Nat.mod_eq_of_lt low]
      exact all.stay bucket low
    · obtain ⟨i, rfl⟩ := Nat.exists_eq_add_of_le' (Nat.le_of_not_lt low)
      have lt' : i < buckets.count := by omega
      rw [Nat.add_mod_right, Nat.mod_eq_of_lt lt']
      have same : ∀ id ∈ lists i, store.belongs (buckets.count * 2) (i + buckets.count) id =
          !store.belongs (buckets.count * 2) i id := by
        intro id mem
        obtain ⟨record, found, here⟩ := Store.belongs_iff.1 ((spells.mem_iff i lt' id).1 mem)
        have := @bucketOf_double record.key _ power
        rw [Bool.eq_iff_iff]
        simp only [Store.belongs, found, Option.map_some, beq_iff_eq, Option.some.injEq,
          Bool.not_eq_true', beq_eq_false_iff_ne, ne_eq]
        omega
      rw [List.filter_congr same]
      exact all.move i lt'
  · rw [Store.belongs_congr (all.same.comp Record.key id), List.mem_filter, and_iff_right_iff_imp]
    intro here
    obtain ⟨record, found, here⟩ := Store.belongs_iff.1 here
    rw [spells.mem_iff _ (Nat.mod_lt _ pos), Store.belongs_iff]
    exact ⟨record, found, by rw [← here, bucketOf_double_mod power]⟩

end Buckets

end StateSearch
