/-!
# Sizing

The bucket array of a set has a power of two of buckets, at least
`minBuckets` of them.  This module says which counts are valid and which
count suits an expected number of states.

There are three groups.

* Valid bucket counts.  `ValidBucketCount` is decidable.
* The count for a number of states.  `Sizing.forStates` gives the least
  valid count whose load stays below three quarters.  A machine word has 64
  bits.  The product `4 * states` stops at the largest word, and where no
  power of two fits into a word the answer is the largest one that does.
* Room.  `Reserve` says whether an array of so many buckets can be had, and
  `largestArray` bounds what any reserve can grant.
-/

namespace StateSearch

/-- The largest number that a machine word holds. -/
def wordMax : Nat :=
  UInt64.size - 1

/-! ## Valid bucket counts -/

/-- The least number of buckets, and the number that a set starts with
unless it is told otherwise. -/
def minBuckets : Nat :=
  1024

/-- A set can start with a power of two of buckets from `minBuckets` on. -/
def ValidBucketCount (count : Nat) : Prop :=
  minBuckets ≤ count ∧ count.isPowerOfTwo

instance (count : Nat) : Decidable (ValidBucketCount count) :=
  inferInstanceAs (Decidable (_ ∧ _))

theorem validBucketCount_minBuckets : ValidBucketCount minBuckets :=
  ⟨Nat.le_refl _, 10, rfl⟩

/-- Doubling keeps a bucket count valid. -/
theorem ValidBucketCount.double {count : Nat} (h : ValidBucketCount count) :
    ValidBucketCount (count * 2) :=
  ⟨Nat.le_trans h.1 (Nat.le_mul_of_pos_right count (by decide)),
    Nat.isPowerOfTwo_mul_two_of_isPowerOfTwo h.2⟩

/-- The load of three quarters of a valid number of buckets is met exactly. -/
theorem ValidBucketCount.four_dvd {count : Nat} (h : ValidBucketCount count) : 4 ∣ count := by
  rcases h with ⟨le, k, rfl⟩
  have two_le : 2 ≤ k := by
    apply Nat.le_of_not_lt
    intro lt
    have small : 2 ^ k ≤ 2 ^ 1 := Nat.pow_le_pow_right (by decide) (by omega)
    unfold minBuckets at le
    omega
  exact Nat.pow_dvd_pow 2 two_le

theorem ValidBucketCount.pos {count : Nat} (h : ValidBucketCount count) : 0 < count :=
  Nat.pos_of_isPowerOfTwo h.2

/-! ## The count for a number of states -/

/-- How many buckets a set starts with. -/
structure Sizing where
  initialBuckets : Nat := minBuckets
deriving DecidableEq

/-- The largest power of two that fits into a machine word. -/
def largestPowerOfTwo : Nat :=
  UInt64.size / 2

/-- The least power of two from `n` on.  Beyond `1` it has one bit more than
`n - 1`. -/
def powerOfTwoFrom (n : Nat) : Nat :=
  if n ≤ 1 then 1 else 1 <<< ((n - 1).log2 + 1)

theorem isPowerOfTwo_powerOfTwoFrom (n : Nat) : (powerOfTwoFrom n).isPowerOfTwo := by
  unfold powerOfTwoFrom
  split
  · exact Nat.isPowerOfTwo_one
  · exact ⟨_, Nat.one_shiftLeft _⟩

theorem le_powerOfTwoFrom (n : Nat) : n ≤ powerOfTwoFrom n := by
  unfold powerOfTwoFrom
  split
  · next small => exact small
  · rw [Nat.one_shiftLeft]
    exact Nat.le_of_pred_lt Nat.lt_log2_self

/-- A power of two is not below `powerOfTwoFrom n` exactly if it is not below
`n`. -/
theorem powerOfTwoFrom_le_iff {n power : Nat} (h : power.isPowerOfTwo) :
    powerOfTwoFrom n ≤ power ↔ n ≤ power := by
  refine ⟨Nat.le_trans (le_powerOfTwoFrom n), fun le => ?_⟩
  rcases h with ⟨k, rfl⟩
  unfold powerOfTwoFrom
  split
  · exact Nat.one_le_two_pow
  · next large =>
    have below : 2 ^ (n - 1).log2 < 2 ^ k :=
      Nat.lt_of_le_of_lt (Nat.log2_self_le (by omega)) (by omega)
    rw [Nat.one_shiftLeft]
    exact Nat.pow_le_pow_right (by decide) ((Nat.pow_lt_pow_iff_right (by decide)).1 below)

/-- The least power of two from `n` on, if it fits into a machine word. -/
def powerOfTwoFrom? (n : Nat) : Option Nat :=
  if powerOfTwoFrom n ≤ wordMax then some (powerOfTwoFrom n) else none

namespace Sizing

/-- A lower bound on the buckets for `states` states.  Three quarters of
this many buckets are more than `states`. -/
def bucketsNeeded (states : Nat) : Nat :=
  min (4 * states) wordMax / 3 + 1

/-- The sizing under which `states` states are admitted without a doubling. -/
def forStates (states : Nat) : Sizing where
  initialBuckets := max ((powerOfTwoFrom? (bucketsNeeded states)).getD largestPowerOfTwo) minBuckets

theorem bucketsNeeded_le_wordMax (states : Nat) : bucketsNeeded states ≤ wordMax := by
  unfold bucketsNeeded wordMax UInt64.size
  omega

/-- A sizing for a number of states is always accepted. -/
theorem validBucketCount_forStates (states : Nat) :
    ValidBucketCount (forStates states).initialBuckets := by
  have power :
      ((powerOfTwoFrom? (bucketsNeeded states)).getD largestPowerOfTwo).isPowerOfTwo := by
    unfold powerOfTwoFrom?
    split
    · exact isPowerOfTwo_powerOfTwoFrom _
    · exact ⟨63, rfl⟩
  refine ⟨Nat.le_max_right _ _, ?_⟩
  show Nat.isPowerOfTwo (max _ _)
  rw [Nat.max_def]
  split
  · exact validBucketCount_minBuckets.2
  · exact power

end Sizing

/-! ## Room -/

/-- More heads than this, at eight bytes each, fit into no array. -/
def largestArray : Nat :=
  UInt64.size / 16

/-- Whether an array of that many buckets can be had.  It is one answer for
each number of buckets.  A run with other answers can follow, for it starts
from a set that is reachable as well (`Visited.Reachable.runsTo`). -/
abbrev Reserve := Nat → Bool

namespace Reserve

/-- Room never runs out. -/
def always : Reserve :=
  fun _ => true

/-- There is room for at most `limit` buckets. -/
def upTo (limit : Nat) : Reserve :=
  fun count => decide (count ≤ limit)

end Reserve

end StateSearch
