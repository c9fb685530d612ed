import StateSearch.Buckets.Basic
import StateSearch.Event
import StateSearch.Failure
import StateSearch.Worklist

/-!
# Sets of visited states

A set of visited states joins three parts: the store of records, the buckets
that find a record again, and the worklist of the states that still wait for
expansion.  A state stays in the set once it is admitted.

The comparator is no part of the set.  Every operation that compares states
takes it as an argument, so one set can be used under several comparators.

There are three groups.

* The type and its constructors.
* Views.  `Visited.entries` lists what was admitted and `Visited.waiting`
  what waits, and `Visited.get?` and `Visited.isQueued?` look at one id.
* Statistics.
-/

namespace StateSearch

variable {α : Type}

/-- Every state met so far, with those that wait for expansion. -/
structure Visited (α : Type) where
  store : Store α := #[]
  buckets : Buckets
  worklist : Worklist := {}

/-- What a caller is told of an admitted state. -/
structure Entry (α : Type) where
  id : Id
  key : UInt64
  state : α
deriving DecidableEq

namespace Visited

/-! ## Constructors -/

/-- The empty set with the given number of buckets. -/
def ofCount (count : Nat) : Visited α where
  buckets := Buckets.ofCount count

/-- The empty set with the least number of buckets. -/
def empty : Visited α :=
  ofCount minBuckets

instance : Inhabited (Visited α) where
  default := empty

/-- The empty set with a chosen number of buckets, if the number is valid and
there is room for it. -/
def ofSizing? (reserve : Reserve) (sizing : Sizing) : Except Failure (Visited α) :=
  if ValidBucketCount sizing.initialBuckets then
    if reserve sizing.initialBuckets then .ok (ofCount sizing.initialBuckets)
    else .error .outOfMemory
  else .error (.bucketCount sizing.initialBuckets)

/-- A chosen number of buckets is refused for being invalid before room
matters. -/
theorem ofSizing?_eq_bucketCount_iff {reserve : Reserve} {sizing : Sizing} {requested : Nat} :
    (ofSizing? reserve sizing : Except Failure (Visited α)) = .error (.bucketCount requested) ↔
      ¬ ValidBucketCount sizing.initialBuckets ∧ requested = sizing.initialBuckets := by
  unfold ofSizing?
  split
  · split <;> simp_all
  · simp_all [eq_comm]

/-- With room for everything, exactly the valid numbers are accepted. -/
theorem ofSizing?_always_eq_ok_iff {sizing : Sizing} {set : Visited α} :
    ofSizing? .always sizing = .ok set ↔
      ValidBucketCount sizing.initialBuckets ∧ set = ofCount sizing.initialBuckets := by
  unfold ofSizing?
  split <;> simp_all [Reserve.always, eq_comm]

/-! ## Views -/

/-- The number of admitted states. -/
def size (set : Visited α) : Nat :=
  set.store.size

/-- Whether nothing was admitted. -/
def isEmpty (set : Visited α) : Bool :=
  set.store.isEmpty

/-- The number of states that wait for expansion. -/
def pending (set : Visited α) : Nat :=
  set.worklist.size

/-- The number of buckets. -/
def bucketCount (set : Visited α) : Nat :=
  set.buckets.count

/-- How often the number of buckets has doubled. -/
def doublings (set : Visited α) : Nat :=
  set.buckets.doublings

/-- The state with this id. -/
def state? (set : Visited α) (id : Id) : Option α :=
  set.store[id]?.map Record.state

/-- The key of the state with this id. -/
def key? (set : Visited α) (id : Id) : Option UInt64 :=
  set.store[id]?.map Record.key

/-- Whether the state with this id still waits for expansion. -/
def isQueued? (set : Visited α) (id : Id) : Option Bool :=
  set.store[id]?.map Record.queued

/-- The admitted state with this id. -/
def get? (set : Visited α) (id : Id) : Option (Entry α) :=
  set.store[id]?.map fun record => { id, key := record.key, state := record.state }

/-- All admitted states, in the order of admission. -/
def entries (set : Visited α) : List (Entry α) :=
  set.store.toList.zipIdx.map fun (record, id) => { id, key := record.key, state := record.state }

/-- The ids of the states that wait for expansion, the next one first. -/
def stack (set : Visited α) : List Id :=
  set.worklist.toList set.store

/-- The states that wait for expansion, in the order in which they will be
handed out. -/
def waiting (set : Visited α) : List (Entry α) :=
  (set.worklist.toList set.store).filterMap set.get?

/-- The state that will be handed out next. -/
def peek? (set : Visited α) : Option Id :=
  set.worklist.top

@[simp] theorem length_entries (set : Visited α) : set.entries.length = set.size := by
  simp [entries, size]

/-- The list of entries and the look-up of one entry tell the same. -/
theorem getElem?_entries (set : Visited α) (id : Id) : set.entries[id]? = set.get? id := by
  simp only [entries, get?, List.getElem?_map, List.getElem?_zipIdx, Array.getElem?_toList]
  cases set.store[id]? <;> simp

/-! ## Statistics -/

/-- The ids in a bucket, head first. -/
def chain (set : Visited α) (bucket : Nat) : List Id :=
  set.buckets.chain set.store bucket

/-- The ids of every bucket. -/
def chains (set : Visited α) : List (List Id) :=
  set.buckets.chains set.store

/-- The length of the longest chain.  It tells how well the keys spread. -/
def longestChain (set : Visited α) : Nat :=
  set.buckets.longestChain set.store

/-- The admitted states per bucket. -/
def loadFactor (set : Visited α) : Float :=
  set.size.toFloat / set.bucketCount.toFloat

end Visited

end StateSearch
