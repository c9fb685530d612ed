import Mathlib.Data.List.Nodup
import StateSearch.Buckets.Chains

/-!
# Every record in one chain

`Buckets.Files` says of a bucket array, with no list to be named, that each
record of the store stands in the chain of the bucket which its key leaves as
a remainder, and that every chain ends.  The order within a chain is free.

For a power of two of buckets this is what `Buckets.Spells` says of the
chains, `files_iff`.  All chains together then hold every id once,
`Files.perm_flatten`.
-/

namespace StateSearch

variable {α : Type}

namespace Store

/-- Whether the key of the record with an id leaves this remainder. -/
def leaves (store : Store α) (count remainder : Nat) (id : Id) : Bool :=
  (store[id]?).map (fun record => record.key.toNat % count) == some remainder

theorem leaves_iff {store : Store α} {count remainder : Nat} {id : Id} :
    store.leaves count remainder id = true ↔
      ∃ record, store[id]? = some record ∧ record.key.toNat % count = remainder := by
  rw [leaves, beq_iff_eq, Option.map_eq_some_iff]

/-- Among a power of two of buckets a record belongs where the remainder of
its key says. -/
theorem belongs_eq_leaves {count : Nat} (power : count.isPowerOfTwo) (store : Store α) :
    store.belongs count = store.leaves count := by
  funext bucket id
  simp only [belongs, leaves, bucketOf_eq_mod power]

end Store

namespace Buckets

/-- Each chain ends, and holds the ids of the records whose keys leave the
number of its bucket as a remainder. -/
structure Files (buckets : Buckets) (store : Store α) : Prop where
  linked : ∀ bucket < buckets.count,
    store.Linked Record.chainNext (buckets.head bucket) (buckets.chain store bucket)
  mem_iff : ∀ bucket < buckets.count, ∀ id,
    id ∈ buckets.chain store bucket ↔ store.leaves buckets.count bucket id = true

variable {buckets : Buckets} {store : Store α}

theorem files_iff (power : buckets.count.isPowerOfTwo) :
    buckets.Files store ↔ buckets.Spells store (buckets.chain store) := by
  constructor
  · rintro ⟨linked, mem_iff⟩
    rw [← Store.belongs_eq_leaves power] at mem_iff
    exact ⟨linked, mem_iff⟩
  · rintro ⟨linked, mem_iff⟩
    rw [Store.belongs_eq_leaves power] at mem_iff
    exact ⟨linked, mem_iff⟩

theorem Files.nodup_chain (files : buckets.Files store) {bucket : Nat}
    (lt : bucket < buckets.count) : (buckets.chain store bucket).Nodup :=
  (files.linked bucket lt).nodup

/-- All chains together hold every id once. -/
theorem Files.perm_flatten (files : buckets.Files store) (pos : 0 < buckets.count) :
    (buckets.chains store).flatten.Perm (List.range store.size) := by
  have nodup : (buckets.chains store).flatten.Nodup := by
    refine List.nodup_flatten.2 ⟨fun chain mem => ?_, ?_⟩
    · obtain ⟨bucket, mem_range, rfl⟩ := List.mem_map.1 mem
      exact files.nodup_chain (List.mem_range.1 mem_range)
    · refine List.pairwise_map.2 (List.nodup_range.imp_of_mem ?_)
      intro bucket other mem_range mem_range' ne id mem mem'
      have here := (files.mem_iff _ (List.mem_range.1 mem_range) id).1 mem
      have there := (files.mem_iff _ (List.mem_range.1 mem_range') id).1 mem'
      obtain ⟨record, found, rfl⟩ := Store.leaves_iff.1 here
      obtain ⟨record', found', rfl⟩ := Store.leaves_iff.1 there
      rw [found, Option.some.injEq] at found'
      exact ne (by rw [found'])
  refine (List.perm_ext_iff_of_nodup nodup List.nodup_range).2 fun id => ?_
  rw [List.mem_flatten, List.mem_range]
  constructor
  · rintro ⟨chain, mem_chains, mem⟩
    obtain ⟨bucket, mem_range, rfl⟩ := List.mem_map.1 mem_chains
    exact (files.linked bucket (List.mem_range.1 mem_range)).lt_size id mem
  · intro lt
    have within := Nat.mod_lt store[id].key.toNat pos
    refine ⟨_, List.mem_map.2 ⟨_, List.mem_range.2 within, rfl⟩, ?_⟩
    rw [files.mem_iff _ within, Store.leaves_iff]
    exact ⟨store[id], Array.getElem?_eq_getElem lt, rfl⟩

end Buckets

end StateSearch
