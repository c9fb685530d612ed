import Mathlib.Algebra.Ring.Nat
import StateSearch.Proofs.ListView
import StateSearch.Proofs.Runs

/-!
# Where the states of a set are

Under the invariant of a set the chains share out the admitted ids: each id
is in exactly one chain, that of the bucket which its key leaves as a
remainder.  Counting the chains is therefore counting keys, and no
comparator enters.
-/

namespace StateSearch

variable {α : Type}

namespace Visited

/-- How many admitted states have a key that leaves this remainder. -/
def residents (set : Visited α) (bucket : Nat) : Nat :=
  set.entries.countP fun entry => entry.key.toNat % set.bucketCount == bucket

/-- The chains share out the admitted ids, each to the bucket of its key. -/
structure SharesOut (set : Visited α) : Prop where
  valid : ValidBucketCount set.bucketCount
  /-- The links of every bucket end, and lead through its chain. -/
  linked : ∀ bucket < set.bucketCount,
    set.store.Linked Record.chainNext (set.buckets.head bucket) (set.chain bucket)
  /-- Every id is in the chains once. -/
  perm : set.chains.flatten.Perm (List.range set.size)
  mem_iff : ∀ bucket id, id ∈ set.chain bucket ↔
    ∃ key, set.key? id = some key ∧ key.toNat % set.bucketCount = bucket
  length_eq : ∀ bucket, (set.chain bucket).length = set.residents bucket
  sum_eq : (set.chains.map List.length).sum = set.size
  longest_eq : ((List.range set.bucketCount).map set.residents).max? = some set.longestChain

variable {set : Visited α}

theorem mem_entries_iff {entry : Entry α} :
    entry ∈ set.entries ↔ set.get? entry.id = some entry := by
  constructor
  · intro mem
    obtain ⟨id, found⟩ := List.mem_iff_getElem?.1 mem
    rw [getElem?_entries] at found
    obtain ⟨record, _, rfl⟩ := Option.map_eq_some_iff.1 found
    exact found
  · intro found
    rw [← getElem?_entries] at found
    exact List.mem_of_getElem? found

/-- The entries are numbered in the order of admission. -/
theorem map_id_entries (set : Visited α) : set.entries.map Entry.id = List.range set.size := by
  apply List.ext_getElem?
  intro id
  rw [List.getElem?_map, getElem?_entries, get?, Option.map_map]
  by_cases lt : id < set.size
  · have lt' : id < set.store.size := lt
    rw [Array.getElem?_eq_getElem lt', List.getElem?_range lt]
    rfl
  · have le : set.store.size ≤ id := Nat.le_of_not_lt lt
    rw [Array.getElem?_eq_none le, List.getElem?_eq_none (by simpa using Nat.le_of_not_lt lt)]
    rfl

/-- The ids of the entries that pass a test, each of them once. -/
theorem mem_map_id_filter_entries {test : Entry α → Bool} {id : Id} :
    id ∈ (set.entries.filter test).map Entry.id ↔
      ∃ entry, set.get? id = some entry ∧ test entry = true := by
  simp only [List.mem_map, List.mem_filter, mem_entries_iff]
  constructor
  · rintro ⟨entry, ⟨found, passes⟩, rfl⟩
    exact ⟨entry, found, passes⟩
  · rintro ⟨entry, found, passes⟩
    obtain ⟨record, _, rfl⟩ := Option.map_eq_some_iff.1 found
    exact ⟨_, ⟨found, passes⟩, rfl⟩

theorem nodup_map_id_filter_entries (set : Visited α) (test : Entry α → Bool) :
    ((set.entries.filter test).map Entry.id).Nodup := by
  have sublist := (List.filter_sublist (p := test) (l := set.entries)).map Entry.id
  rw [map_id_entries] at sublist
  exact List.nodup_range.sublist sublist

namespace Coherent

theorem mem_chain_iff_key (coherent : set.Coherent) {bucket : Nat} {id : Id} :
    id ∈ set.chain bucket ↔
      ∃ key, set.key? id = some key ∧ key.toNat % set.bucketCount = bucket := by
  rw [coherent.mem_chain_iff, Store.belongs_iff]
  simp [bucketOf_eq_mod coherent.valid.2, key?]

theorem nodup_chain (coherent : set.Coherent) (bucket : Nat) : (set.chain bucket).Nodup := by
  by_cases lt : bucket < set.bucketCount
  · exact (coherent.chains.linked bucket lt).nodup
  · rw [chain_eq_nil (Nat.le_of_not_lt lt)]
    exact List.nodup_nil

/-- A chain is as long as its bucket has residents.  Both list the same ids,
and each of them once. -/
theorem length_chain (coherent : set.Coherent) (bucket : Nat) :
    (set.chain bucket).length = set.residents bucket := by
  have perm : (set.chain bucket).Perm ((set.entries.filter fun entry =>
      entry.key.toNat % set.bucketCount == bucket).map Entry.id) := by
    refine (List.perm_ext_iff_of_nodup (coherent.nodup_chain bucket)
      (nodup_map_id_filter_entries ..)).2 fun id => ?_
    rw [coherent.mem_chain_iff_key, mem_map_id_filter_entries, key?, get?]
    simp
  rw [perm.length_eq, List.length_map, ← List.countP_eq_length_filter]
  rfl

/-- The chains of a set are a table in which each record stands in the chain
of its key. -/
theorem files (coherent : set.Coherent) : set.buckets.Files set.store :=
  (Buckets.files_iff coherent.valid.2).2 coherent.chains

theorem perm_chains (coherent : set.Coherent) :
    set.chains.flatten.Perm (List.range set.size) :=
  coherent.files.perm_flatten coherent.valid.pos

theorem map_length_chains (coherent : set.Coherent) :
    set.chains.map List.length = (List.range set.bucketCount).map set.residents := by
  rw [Visited.chains, Buckets.chains, List.map_map]
  exact List.map_congr_left fun bucket _ => coherent.length_chain bucket

theorem sum_length_chains (coherent : set.Coherent) :
    (set.chains.map List.length).sum = set.size := by
  rw [← List.length_flatten, coherent.perm_chains.length_eq, List.length_range]

/-- The longest chain is as long as the fullest bucket. -/
theorem max?_residents (coherent : set.Coherent) :
    ((List.range set.bucketCount).map set.residents).max? = some set.longestChain := by
  have longest : set.longestChain = (set.chains.map List.length).max?.getD 0 := rfl
  rw [longest, coherent.map_length_chains]
  cases some : ((List.range set.bucketCount).map set.residents).max? with
  | some longest => rfl
  | none =>
    have empty := List.max?_eq_none_iff.1 some
    simp only [List.map_eq_nil_iff, List.range_eq_nil] at empty
    exact absurd empty (Nat.ne_of_gt coherent.valid.pos)

end Coherent

/-- In every set that a run leads to, under whatever comparators, no state is
lost, doubled or in a wrong bucket. -/
theorem Reachable.chains_share_out {set : Visited α} (reachable : set.Reachable) :
    set.SharesOut where
  valid := reachable.coherent.valid
  linked := reachable.coherent.chains.linked
  perm := reachable.coherent.perm_chains
  mem_iff _ _ := reachable.coherent.mem_chain_iff_key
  length_eq := reachable.coherent.length_chain
  sum_eq := reachable.coherent.sum_length_chains
  longest_eq := reachable.coherent.max?_residents

/-- Three keys of one bucket, under comparators that no order allows. -/
theorem chains_share_out_lawless :
    ∃ outcome : Outcome Nat (List (Answer Nat)),
      run .always 0 (ofCount 1024)
        [(fun _ _ => .gt, .insert 7 1), (fun _ _ => .gt, .insert 1031 1),
          (fun _ _ => .lt, .insert 2055 1), (fun _ _ => .eq, .pop)] = some outcome ∧
      outcome.set.chain 7 = [1, 0, 2] ∧ outcome.set.Reachable ∧ outcome.set.SharesOut := by
  have ended : (run .always 0 (ofCount 1024)
      [(fun _ _ => .gt, .insert 7 1), (fun _ _ => .gt, .insert 1031 1),
        (fun _ _ => .lt, .insert 2055 1), (fun _ _ => .eq, .pop)]).map
      (fun outcome => outcome.set.chain 7) = some [1, 0, 2] := by decide +kernel
  obtain ⟨outcome, ran, chain_eq⟩ := Option.map_eq_some_iff.1 ended
  have reachable : outcome.set.Reachable :=
    ⟨1024, .always, 0, validBucketCount_minBuckets, _, outcome, fun _ _ => trivial, ran, rfl⟩
  exact ⟨outcome, ran, chain_eq, reachable, reachable.chains_share_out⟩

end Visited

end StateSearch
