import StateSearch.Sizing
import StateSearch.Store.Linked

/-!
# Buckets

The bucket array holds, for each bucket, the head of a chain of records.
The chain itself is threaded through the store by `Record.chainNext`.  The
bucket of a key is given by its low bits, as many as the power of two of
buckets allows.

There are three groups.

* The bucket of a key.  `bucketOf_eq_mod` says that masking the key is
  taking its remainder, and `bucketOf_double` where a key goes when the
  number of buckets doubles.
* The array, and the chains that hang on it.  `Buckets.chain` lists the ids
  of one bucket in order, and this list is the view of a bucket that other
  modules reason with.
* Load.  `Buckets.isFull` tells when one more state calls for a doubling.
-/

namespace StateSearch

variable {α : Type}

/-! ## The bucket of a key -/

/-- The bucket of `key` among `count` buckets, a power of two: the low bits
of the key. -/
def bucketOf (key : UInt64) (count : Nat) : Nat :=
  (key &&& (count - 1).toUInt64).toNat

/-- Masking a key is taking its remainder.  Where the number of buckets is
beyond the words, the mask lets every bit of the key through. -/
theorem bucketOf_eq_mod {key : UInt64} {count : Nat} (power : count.isPowerOfTwo) :
    bucketOf key count = key.toNat % count := by
  rcases power with ⟨k, rfl⟩
  have mask : ((2 ^ k - 1 : Nat).toUInt64).toNat = 2 ^ min k 64 - 1 := by
    show (2 ^ k - 1) % 2 ^ 64 = _
    rcases Nat.le_total k 64 with le | le
    · have := Nat.pow_le_pow_right (n := 2) (by decide) le
      rw [Nat.min_eq_left le, Nat.mod_eq_of_lt (by have := Nat.two_pow_pos k; omega)]
    · obtain ⟨j, rfl⟩ := Nat.exists_eq_add_of_le le
      have := Nat.two_pow_pos j
      rw [Nat.min_eq_right le, Nat.pow_add]
      omega
  rw [bucketOf, UInt64.toNat_and, mask, Nat.and_two_pow_sub_one_eq_mod]
  rcases Nat.le_total k 64 with le | le
  · rw [Nat.min_eq_left le]
  · have small : key.toNat < 2 ^ 64 := key.toNat_lt
    have := Nat.pow_le_pow_right (n := 2) (by decide) le
    rw [Nat.min_eq_right le, Nat.mod_eq_of_lt small, Nat.mod_eq_of_lt (by omega)]

/-- A key has one of the buckets. -/
theorem bucketOf_lt {key : UInt64} {count : Nat} (power : count.isPowerOfTwo) :
    bucketOf key count < count := by
  rw [bucketOf_eq_mod power]
  exact Nat.mod_lt _ (Nat.pos_of_isPowerOfTwo power)

/-- One more bit of the key tells whether it stays in its bucket or moves. -/
theorem bucketOf_double {key : UInt64} {count : Nat} (power : count.isPowerOfTwo) :
    bucketOf key (count * 2) = bucketOf key count ∨
      bucketOf key (count * 2) = bucketOf key count + count := by
  have power' := Nat.isPowerOfTwo_mul_two_of_isPowerOfTwo power
  have pos := Nat.pos_of_isPowerOfTwo power
  rw [bucketOf_eq_mod power, bucketOf_eq_mod power', Nat.mod_mul]
  rcases Nat.mod_two_eq_zero_or_one (key.toNat / count) with h | h <;> simp [h]

/-- Forgetting the new bit of the key gives the old bucket. -/
theorem bucketOf_double_mod {key : UInt64} {count : Nat} (power : count.isPowerOfTwo) :
    bucketOf key (count * 2) % count = bucketOf key count := by
  rw [bucketOf_eq_mod power, bucketOf_eq_mod (Nat.isPowerOfTwo_mul_two_of_isPowerOfTwo power),
    Nat.mod_mul_right_mod]

/-! ## The array and its chains -/

/-- The heads of all chains, and how often their number has doubled. -/
structure Buckets where
  heads : Array (Option Id)
  doublings : Nat := 0

namespace Buckets

/-- The given number of empty buckets. -/
def ofCount (count : Nat) : Buckets where
  heads := Array.replicate count none

/-- The number of buckets. -/
def count (buckets : Buckets) : Nat :=
  buckets.heads.size

@[simp] theorem count_ofCount (n : Nat) : (ofCount n).count = n := by
  simp [ofCount, count]

/-- The bucket of a key. -/
def index (buckets : Buckets) (key : UInt64) : Nat :=
  bucketOf key buckets.count

/-- The first record of a bucket. -/
def head (buckets : Buckets) (bucket : Nat) : Option Id :=
  buckets.heads[bucket]?.join

/-- The ids of a bucket, head first. -/
def chain (buckets : Buckets) (store : Store α) (bucket : Nat) : List Id :=
  store.walk Record.chainNext store.size (buckets.head bucket)

/-- The ids of every bucket. -/
def chains (buckets : Buckets) (store : Store α) : List (List Id) :=
  (List.range buckets.count).map (buckets.chain store)

/-- The length of the longest chain, and `0` where there is none. -/
def longestChain (buckets : Buckets) (store : Store α) : Nat :=
  ((buckets.chains store).map List.length).max?.getD 0

/-! ## Load -/

/-- Whether so many entries are three quarters of the buckets or more. -/
def isFull (buckets : Buckets) (entries : Nat) : Bool :=
  decide (buckets.count / 4 * 3 ≤ entries)

/-- A power of two from `4` on is full when four times the entries reach
three times the buckets. -/
theorem isFull_iff {buckets : Buckets} {entries : Nat} (four : 4 ∣ buckets.count) :
    buckets.isFull entries = true ↔ 3 * buckets.count ≤ 4 * entries := by
  simp only [isFull, decide_eq_true_eq]
  omega

end Buckets

end StateSearch
