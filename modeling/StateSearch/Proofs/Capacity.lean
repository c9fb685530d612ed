import StateSearch.Proofs.Schedule

/-!
# How many buckets so many states need

`Sizing.forStates` takes four thirds of the expected number of states in
whole numbers, with a product that stops at the largest word, and goes up to a
power of two.  The doublings of a set compare the load with three quarters of
the buckets.  This module says that the two fit together at every number that
a word holds.

There are four groups.

* The count.  Among powers of two the bound `bucketsNeeded` is met exactly by
  those whose load stays below three quarters.  Where the product stops at the
  largest word this needs that counts are powers of two.
* Machine words.  `Sizing.bucketsInWords` computes the count with sums and
  products that wrap around, and nothing wraps.
* Sets that start with a count.
* What a caller can rely on, for the count and for the sets that start with
  it or with half of it.
-/

namespace StateSearch

variable {α : Type}

namespace Sizing

/-! ## The count -/

/-- No power of two lies between two that follow each other. -/
theorem pow_succ_le_of_lt {count k : Nat} (power : count.isPowerOfTwo) (lt : 2 ^ k < count) :
    2 ^ (k + 1) ≤ count := by
  obtain ⟨j, rfl⟩ := power
  exact Nat.pow_le_pow_right (by decide) ((Nat.pow_lt_pow_iff_right (by decide)).1 lt)

/-- Below the number of states that are three quarters of `2 ^ 63` buckets, a
power of two reaches the bound exactly if three quarters of it are more than
the states. -/
theorem bucketsNeeded_le_iff {states count : Nat} (small : states < 3 * 2 ^ 61)
    (power : count.isPowerOfTwo) : bucketsNeeded states ≤ count ↔ 4 * states < 3 * count := by
  unfold bucketsNeeded wordMax UInt64.size
  by_cases fits : states < 2 ^ 62
  · omega
  · -- The product stops at the largest word, and both sides ask for `2 ^ 63`.
    by_cases large : 2 ^ 62 < count
    · have le := pow_succ_le_of_lt power large
      omega
    · omega

theorem powerOfTwoFrom_bucketsNeeded_le (states : Nat) :
    powerOfTwoFrom (bucketsNeeded states) ≤ 2 ^ 63 := by
  rw [powerOfTwoFrom_le_iff ⟨63, rfl⟩]
  unfold bucketsNeeded wordMax UInt64.size
  omega

/-- A power of two from the bound on always fits into a word. -/
theorem powerOfTwoFrom?_bucketsNeeded (states : Nat) :
    powerOfTwoFrom? (bucketsNeeded states) = some (powerOfTwoFrom (bucketsNeeded states)) := by
  have fits : 2 ^ 63 ≤ wordMax := by decide
  rw [powerOfTwoFrom?, if_pos (Nat.le_trans (powerOfTwoFrom_bucketsNeeded_le states) fits)]

theorem initialBuckets_forStates (states : Nat) :
    (forStates states).initialBuckets = max (powerOfTwoFrom (bucketsNeeded states)) minBuckets := by
  rw [forStates, powerOfTwoFrom?_bucketsNeeded, Option.getD_some]

/-- The count is the least valid one whose load stays below three quarters. -/
theorem isLeast_initialBuckets {states : Nat} (small : states < 3 * 2 ^ 61) :
    IsLeast {count | ValidBucketCount count ∧ 4 * states < 3 * count}
      (forStates states).initialBuckets := by
  have valid := validBucketCount_forStates states
  constructor
  · refine ⟨valid, (bucketsNeeded_le_iff small valid.2).1 ?_⟩
    rw [initialBuckets_forStates]
    exact Nat.le_trans (le_powerOfTwoFrom _) (Nat.le_max_left _ _)
  · rintro count ⟨valid', loose⟩
    rw [initialBuckets_forStates]
    refine Nat.max_le.2 ⟨?_, valid'.1⟩
    exact (powerOfTwoFrom_le_iff valid'.2).2 ((bucketsNeeded_le_iff small valid'.2).2 loose)

/-- From there on it is the largest power of two that fits into a word. -/
theorem initialBuckets_of_le {states : Nat} (large : 3 * 2 ^ 61 ≤ states) :
    (forStates states).initialBuckets = 2 ^ 63 := by
  have needed : 2 ^ 62 < bucketsNeeded states := by
    unfold bucketsNeeded wordMax UInt64.size
    omega
  have above : 2 ^ 62 < powerOfTwoFrom (bucketsNeeded states) :=
    Nat.lt_of_lt_of_le needed (le_powerOfTwoFrom _)
  have ge := pow_succ_le_of_lt (isPowerOfTwo_powerOfTwoFrom _) above
  have le := powerOfTwoFrom_bucketsNeeded_le states
  rw [initialBuckets_forStates, Nat.le_antisymm le ge]
  rfl

/-! ## Machine words -/

/-- Four times a word, or the largest word where this does not fit. -/
def timesFour (word : UInt64) : UInt64 :=
  if word ≤ .ofNat (wordMax / 4) then 4 * word else .ofNat wordMax

/-- The count for a number of states, computed in machine words.  Sums and
products wrap around. -/
def bucketsInWords (states : UInt64) : UInt64 :=
  let needed := timesFour states / 3 + 1
  let power :=
    match powerOfTwoFrom? needed.toNat with
    | some power => .ofNat power
    | none => .ofNat wordMax / 2 + 1
  if power ≤ .ofNat minBuckets then .ofNat minBuckets else power

theorem toNat_timesFour (word : UInt64) :
    (timesFour word).toNat = min (4 * word.toNat) wordMax := by
  have bound : (UInt64.ofNat (wordMax / 4)).toNat = wordMax / 4 := by decide
  have top : (UInt64.ofNat wordMax).toNat = wordMax := by decide
  have four : (4 : UInt64).toNat = 4 := rfl
  unfold timesFour
  split
  · next le =>
    rw [UInt64.le_iff_toNat_le, bound] at le
    rw [UInt64.toNat_mul, four]
    unfold wordMax UInt64.size at *
    omega
  · next gt =>
    rw [UInt64.le_iff_toNat_le, bound] at gt
    rw [top]
    unfold wordMax UInt64.size at *
    omega

theorem toNat_needed (states : UInt64) :
    (timesFour states / 3 + 1).toNat = bucketsNeeded states.toNat := by
  have three : (3 : UInt64).toNat = 3 := rfl
  have one : (1 : UInt64).toNat = 1 := rfl
  have fits := bucketsNeeded_le_wordMax states.toNat
  rw [UInt64.toNat_add, UInt64.toNat_div, toNat_timesFour, three, one]
  exact Nat.mod_eq_of_lt (Nat.lt_succ_of_le fits)

/-- Nothing wraps around. -/
theorem toNat_bucketsInWords (states : UInt64) :
    (bucketsInWords states).toNat = (forStates states.toNat).initialBuckets := by
  have le := powerOfTwoFrom_bucketsNeeded_le states.toNat
  have fits : 2 ^ 63 < UInt64.size := by decide
  have least : (UInt64.ofNat minBuckets).toNat = minBuckets := by decide
  have power : (UInt64.ofNat (powerOfTwoFrom (bucketsNeeded states.toNat))).toNat =
      powerOfTwoFrom (bucketsNeeded states.toNat) :=
    UInt64.toNat_ofNat_of_lt' (Nat.lt_of_le_of_lt le fits)
  rw [bucketsInWords, toNat_needed, powerOfTwoFrom?_bucketsNeeded, initialBuckets_forStates]
  simp only [UInt64.le_iff_toNat_le, power, least]
  split
  · next small => rw [least, Nat.max_eq_right small]
  · next large => rw [power, Nat.max_eq_left (Nat.le_of_not_le large)]

end Sizing

/-! ## Sets that start with a count -/

namespace Visited

variable {set : Visited α} {cmp : Comparator α} {count states : Nat} {reserve : Reserve}
  {bound : Nat}

/-- Under a total preorder the buckets do not double while their first number
is large enough. -/
theorem RunsTo.doublings_eq_zero [Std.TransCmp cmp] (valid : ValidBucketCount count)
    (runs : RunsTo (· = cmp) reserve bound (ofCount count) set) (loose : 4 * states < 3 * count)
    (le : set.size ≤ states) : set.doublings = 0 := by
  have on := runs.onSchedule valid
  apply Nat.eq_zero_of_not_pos
  intro pos
  have needed := on.needed 0 pos
  omega

/-- Under every comparator they have doubled where it is not. -/
theorem RunsTo.doublings_pos {permits : Comparator α → Prop} (valid : ValidBucketCount count)
    (runs : RunsTo permits reserve bound (ofCount count) set) (full : 3 * count ≤ 4 * states)
    (le : states ≤ set.size) : 0 < set.doublings := by
  have scheduled := runs.scheduled valid
  have loose := scheduled.loose
  apply Nat.pos_of_ne_zero
  intro stays
  rw [scheduled.bucketCount_eq, stays] at loose
  omega

end Visited

/-! ## What a caller can rely on -/

namespace Sizing

/-- Sets with this sizing do not double up to so many states, while they use
one total preorder. -/
def Suffices (sizing : Sizing) (states : Nat) : Prop :=
  ∀ (α : Type) (cmp : Comparator α), Std.TransCmp cmp →
    ∀ reserve start, Visited.ofSizing? reserve sizing = .ok start →
      ∀ reserve' bound set, Visited.RunsTo (· = cmp) reserve' bound start set →
        set.size ≤ states → set.doublings = 0

/-- Sets with this sizing have doubled by the time when they have so many
states, whatever the comparators are. -/
def FallsShort (sizing : Sizing) (states : Nat) : Prop :=
  ∀ (α : Type) reserve (start : Visited α), Visited.ofSizing? reserve sizing = .ok start →
    ∀ reserve' bound set, Visited.RunsTo (fun _ => True) reserve' bound start set →
      states ≤ set.size → 0 < set.doublings

/-- A sizing is accepted: it is not refused for its number of buckets, and
with enough room there is a set. -/
def Accepted (sizing : Sizing) : Prop :=
  ∀ α : Type, (∀ reserve requested,
      (Visited.ofSizing? reserve sizing : Except Failure (Visited α)) ≠
        .error (.bucketCount requested)) ∧
    Visited.ofSizing? .always sizing = .ok (Visited.ofCount sizing.initialBuckets : Visited α)

/-- The sizing for so many states is the right one. -/
structure Exact (sizing : Sizing) (states : Nat) : Prop where
  valid : ValidBucketCount sizing.initialBuckets
  accepted : sizing.Accepted
  least : states < 3 * 2 ^ 61 →
    IsLeast {count | ValidBucketCount count ∧ 4 * states < 3 * count} sizing.initialBuckets
  largest : 3 * 2 ^ 61 ≤ states → sizing.initialBuckets = 2 ^ 63
  enough : states < 3 * 2 ^ 61 → sizing.Suffices states
  /-- Half the buckets would be too few, if there can be as few. -/
  half : states < 3 * 2 ^ 61 → minBuckets < sizing.initialBuckets →
    Accepted { initialBuckets := sizing.initialBuckets / 2 } ∧
      FallsShort { initialBuckets := sizing.initialBuckets / 2 } states

theorem accepted_of_valid {sizing : Sizing} (valid : ValidBucketCount sizing.initialBuckets) :
    sizing.Accepted := by
  intro α
  refine ⟨fun reserve requested refused => ?_, Visited.ofSizing?_always_eq_ok_iff.2 ⟨valid, rfl⟩⟩
  exact (Visited.ofSizing?_eq_bucketCount_iff.1 refused).1 valid

/-- Where a set is had, it is the empty one. -/
theorem eq_ofCount_of_ofSizing? {reserve : Reserve} {sizing : Sizing} {start : Visited α}
    (made : Visited.ofSizing? reserve sizing = .ok start) :
    ValidBucketCount sizing.initialBuckets ∧ start = Visited.ofCount sizing.initialBuckets := by
  unfold Visited.ofSizing? at made
  split at made
  · next valid =>
    split at made
    · exact ⟨valid, (Except.ok.inj made).symm⟩
    · cases made
  · cases made

theorem suffices_of_lt {sizing : Sizing} {states : Nat}
    (loose : 4 * states < 3 * sizing.initialBuckets) : sizing.Suffices states := by
  intro α cmp lawful reserve start made reserve' bound set runs le
  obtain ⟨valid, rfl⟩ := eq_ofCount_of_ofSizing? made
  exact runs.doublings_eq_zero valid loose le

theorem fallsShort_of_le {sizing : Sizing} {states : Nat}
    (full : 3 * sizing.initialBuckets ≤ 4 * states) : sizing.FallsShort states := by
  intro α reserve start made reserve' bound set runs le
  obtain ⟨valid, rfl⟩ := eq_ofCount_of_ofSizing? made
  exact runs.doublings_pos valid full le

/-- Half of a valid count that is not the least one is valid. -/
theorem validBucketCount_half {count : Nat} (valid : ValidBucketCount count)
    (more : minBuckets < count) : ValidBucketCount (count / 2) := by
  obtain ⟨_, k, rfl⟩ := valid
  have le : 2 ^ 11 ≤ 2 ^ k := pow_succ_le_of_lt ⟨k, rfl⟩ more
  have ne_zero : k ≠ 0 := by
    rintro rfl
    revert le
    decide
  obtain ⟨j, rfl⟩ := Nat.exists_eq_succ_of_ne_zero ne_zero
  rw [Nat.pow_succ, Nat.mul_div_cancel _ (by decide)]
  refine ⟨?_, j, rfl⟩
  rw [Nat.pow_succ] at le
  unfold minBuckets
  omega

/-- For every number of states that a word holds, the sizing is computed
without an overflow, and it is the right one. -/
theorem forStates_exact (states : UInt64) :
    (bucketsInWords states).toNat = (forStates states.toNat).initialBuckets ∧
      (forStates states.toNat).Exact states.toNat := by
  have valid := validBucketCount_forStates states.toNat
  refine ⟨toNat_bucketsInWords states, valid, accepted_of_valid valid, isLeast_initialBuckets,
    initialBuckets_of_le, fun small => ?_, fun small more => ?_⟩
  · exact suffices_of_lt (isLeast_initialBuckets small).1.2
  · have valid' := validBucketCount_half valid more
    refine ⟨accepted_of_valid valid', fallsShort_of_le ?_⟩
    -- A smaller count whose load stays below three quarters there is not.
    apply Nat.le_of_not_lt
    intro loose
    have le := (isLeast_initialBuckets small).2 ⟨valid', loose⟩
    have pos := valid.pos
    omega

/-- A set of `767` numbers keeps the `1024` buckets that it is given.  For
one number more there are `2048`, and half of them do not stay. -/
theorem forStates_exact_crowd :
    (forStates 767).initialBuckets = 1024 ∧ (forStates 768).initialBuckets = 2048 ∧
      (∃ set : Visited Nat,
        Visited.RunsTo (· = Comparator.natural) .always 0 (Visited.ofCount 1024) set ∧
        set.size = 767 ∧ set.doublings = 0) ∧
      ∃ set : Visited Nat, Visited.RunsTo (fun _ => True) .always 0 (Visited.ofCount 1024) set ∧
        set.size = 768 ∧ 0 < set.doublings := by
  have valid : ValidBucketCount 1024 := validBucketCount_minBuckets
  have sized : (forStates 767).Exact 767 := (forStates_exact 767).2
  have sized' : (forStates 768).Exact 768 := (forStates_exact 768).2
  have count_eq : (forStates 767).initialBuckets = 1024 := by decide +kernel
  have count_eq' : (forStates 768).initialBuckets = 2048 := by decide +kernel
  obtain ⟨accepted, short⟩ := sized'.half (by decide) (by rw [count_eq']; decide)
  have made := (sized.accepted Nat).2
  have made' := (accepted Nat).2
  rw [count_eq] at made
  have half_eq : (forStates 768).initialBuckets / 2 = 1024 := by rw [count_eq']
  simp only [half_eq] at made'
  have leads : Visited.Leads (· = Comparator.natural) (.ofCount 1024) (Visited.crowd 1024) :=
    Visited.leads_insertAll (by rfl) _ _
  have runs := leads.runsTo .natural rfl .always 0
  have size_eq : (Visited.crowd 1024).size = 767 := Visited.size_crowd valid
  let all := Visited.seeded Comparator.natural (Visited.apart 1024) 1024 (List.range 768)
  have leads' : Visited.Leads (fun _ => True) (.ofCount 1024) all :=
    Visited.leads_insertAll trivial _ _
  have runs' := leads'.runsTo .natural trivial .always 0
  have size_eq' : all.size = 768 := by
    rw [Visited.size_seeded valid _ List.nodup_range, List.length_range]
  refine ⟨count_eq, count_eq', ⟨_, runs, size_eq, ?_⟩, all, runs', size_eq', ?_⟩
  · exact sized.enough (by decide) Nat .natural inferInstance .always _ made .always 0 _ runs
      (Nat.le_of_eq size_eq)
  · exact short Nat .always _ made' .always 0 _ runs' (Nat.le_of_eq size_eq'.symm)

end Sizing

end StateSearch
