import StateSearch.Buckets.Basic

/-!
# The lists that the chains spell out

`Buckets.Spells buckets store lists` says that the chain of each bucket
spells out its list, and that a record is in the list of its own bucket and
in no other.  It is the invariant of a bucket array.  It says nothing of the
order within a list, so it holds under every comparator.
-/

namespace StateSearch

variable {α : Type}

namespace Store

/-- Whether the record with an id has a key of this bucket, among `count`
buckets. -/
def belongs (store : Store α) (count bucket : Nat) (id : Id) : Bool :=
  (store[id]?).map (fun record => bucketOf record.key count) == some bucket

theorem belongs_iff {store : Store α} {count bucket : Nat} {id : Id} :
    store.belongs count bucket id = true ↔
      ∃ record, store[id]? = some record ∧ bucketOf record.key count = bucket := by
  rw [belongs, beq_iff_eq, Option.map_eq_some_iff]

/-- Where a record belongs is known from the keys. -/
theorem belongs_congr {store store' : Store α} {id : Id}
    (same : (store'[id]?).map Record.key = (store[id]?).map Record.key) (count bucket : Nat) :
    store'.belongs count bucket id = store.belongs count bucket id := by
  have buckets := congrArg (Option.map fun key => bucketOf key count) same
  simp only [Option.map_map, Function.comp_def] at buckets
  rw [belongs, buckets, belongs]

end Store

namespace Buckets

/-- The chains spell out `lists`, and every record is in the list of the
bucket of its key. -/
structure Spells (buckets : Buckets) (store : Store α) (lists : Nat → List Id) : Prop where
  linked : ∀ bucket < buckets.count,
    store.Linked Record.chainNext (buckets.head bucket) (lists bucket)
  mem_iff : ∀ bucket < buckets.count, ∀ id,
    id ∈ lists bucket ↔ store.belongs buckets.count bucket id = true

/-- Walking a chain finds its list. -/
theorem Spells.chain_eq {buckets : Buckets} {store : Store α} {lists : Nat → List Id}
    (spells : buckets.Spells store lists) {bucket : Nat} (lt : bucket < buckets.count) :
    buckets.chain store bucket = lists bucket :=
  (spells.linked bucket lt).walk_eq

/-- The lists that the chains spell out are the chains. -/
theorem Spells.chain {buckets : Buckets} {store : Store α} {lists : Nat → List Id}
    (spells : buckets.Spells store lists) : buckets.Spells store (buckets.chain store) where
  linked bucket lt := spells.chain_eq lt ▸ spells.linked bucket lt
  mem_iff bucket lt := spells.chain_eq lt ▸ spells.mem_iff bucket lt

/-- Changes that keep keys and links of chains disturb no chain. -/
theorem Spells.congr {buckets : Buckets} {store store' : Store α} {lists : Nat → List Id}
    (spells : buckets.Spells store lists) (links : store.Alike Record.chainNext store')
    (keys : store.Alike Record.key store') : buckets.Spells store' lists where
  linked bucket lt := (spells.linked bucket lt).congr fun id _ => links id
  mem_iff bucket lt id := by rw [Store.belongs_congr (keys id), spells.mem_iff bucket lt]

/-- A place outside the array has an empty chain. -/
theorem chain_eq_nil {buckets : Buckets} {store : Store α} {bucket : Nat}
    (le : buckets.count ≤ bucket) : buckets.chain store bucket = [] := by
  have none : buckets.head bucket = none := by
    rw [head, Array.getElem?_eq_none le]
    rfl
  rw [chain, none]
  cases store.size <;> rfl

/-- No id is in two lists. -/
theorem Spells.eq_of_mem {buckets : Buckets} {store : Store α} {lists : Nat → List Id}
    (spells : buckets.Spells store lists) {bucket bucket' : Nat} {id : Id}
    (lt : bucket < buckets.count) (lt' : bucket' < buckets.count)
    (mem : id ∈ lists bucket) (mem' : id ∈ lists bucket') : bucket = bucket' := by
  obtain ⟨record, found, here⟩ := Store.belongs_iff.1 ((spells.mem_iff bucket lt id).1 mem)
  obtain ⟨record', found', there⟩ := Store.belongs_iff.1 ((spells.mem_iff bucket' lt' id).1 mem')
  obtain rfl := Option.some.inj (found.symm.trans found')
  exact here.symm.trans there

/-- Empty buckets spell out empty lists. -/
theorem spells_ofCount (count : Nat) :
    (ofCount count).Spells (#[] : Store α) fun _ => [] where
  linked bucket lt := by
    have none : (ofCount count).head bucket = none := by
      rw [count_ofCount] at lt
      simp [head, ofCount, lt]
    rw [none]
    exact .nil
  mem_iff := by simp [Store.belongs]

end Buckets

end StateSearch
