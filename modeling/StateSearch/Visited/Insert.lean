import StateSearch.Buckets.Doubling
import StateSearch.Buckets.Lookup
import StateSearch.Buckets.Splice
import StateSearch.Visited.Basic

/-!
# Looking up, admitting and handing out states

There are four groups.

* Outcomes.  An operation that changes a set hands back its answer, the set
  after it and the events that it reports.
* Lookup.  `Visited.find?` and `Visited.contains` only read.
* Admission.  `Visited.insert` looks the candidate up first and leaves the
  set alone if it finds an equal state.  Otherwise, where one more state
  would fill the buckets to three quarters, the buckets double, and the
  place for the new record is looked up again, since the record it would
  follow may have moved.  Under an unlawful comparator this second lookup
  may find an equal state after all; then the doubling stands and the
  candidate is a duplicate.  `Visited.tryInsert` makes sure of room before
  the buckets double, and reports where there is none.
* Handing out.  `Visited.pop` takes the state that was admitted last among
  those that wait.
-/

namespace StateSearch

variable {α : Type}

/-! ## Outcomes -/

/-- What an operation hands back. -/
structure Outcome (α β : Type) where
  answer : β
  set : Visited α
  events : List Event := []

/-- The same outcome with another answer. -/
def Outcome.map {β γ : Type} (f : β → γ) (outcome : Outcome α β) : Outcome α γ where
  answer := f outcome.answer
  set := outcome.set
  events := outcome.events

/-- What became of a candidate. -/
inductive Verdict (α : Type) where
  /-- The candidate was new.  It has this id and waits for expansion. -/
  | admitted (id : Id)
  /-- The state with this id is equal to the candidate, which is handed
  back. -/
  | duplicate (id : Id) (rejected : α)
deriving DecidableEq

namespace Verdict

/-- The id of the admitted state that is equal to the candidate. -/
def id : Verdict α → Id
  | .admitted id => id
  | .duplicate id _ => id

/-- Whether the candidate was new. -/
def isAdmitted : Verdict α → Bool
  | .admitted _ => true
  | .duplicate _ _ => false

/-- The candidate, if it was not new. -/
def rejected? : Verdict α → Option α
  | .admitted _ => none
  | .duplicate _ rejected => some rejected

end Verdict

namespace Visited

/-! ## Lookup -/

/-- Looks for a candidate in the bucket of its key. -/
def lookup (set : Visited α) (cmp : Comparator α) (key : UInt64) (candidate : α) : Lookup :=
  set.buckets.lookup set.store cmp key candidate

/-- The admitted state that is equal to a candidate.  The key must be the
one that the equal state was admitted with. -/
def find? (set : Visited α) (cmp : Comparator α) (key : UInt64) (candidate : α) : Option Id :=
  match set.lookup cmp key candidate with
  | .found id => some id
  | .absent _ => none

/-- Whether a state equal to the candidate is in the set. -/
def contains (set : Visited α) (cmp : Comparator α) (key : UInt64) (candidate : α) : Bool :=
  (set.find? cmp key candidate).isSome

/-! ## Admission -/

/-- The set with a new state, placed in its bucket behind `after`, and on
top of the worklist. -/
def place (set : Visited α) (key : UInt64) (state : α) (after : Option Id) : Visited α :=
  let ⟨store, buckets, worklist⟩ := set
  let id := store.size
  let (buckets, store) := buckets.splice store key state after
  let (worklist, store) := worklist.push store id
  { store, buckets, worklist }

/-- The set with twice the buckets. -/
def double (set : Visited α) : Visited α :=
  let ⟨store, buckets, worklist⟩ := set
  let (buckets, store) := buckets.double store
  { store, buckets, worklist }

/-- Whether one more state would fill the buckets to three quarters. -/
def isFull (set : Visited α) : Bool :=
  set.buckets.isFull (set.size + 1)

/-- Admits a candidate that the set was found not to hold and that would
follow `after` in its bucket. -/
def insertAbsent (set : Visited α) (cmp : Comparator α) (key : UInt64) (state : α)
    (after : Option Id) : Outcome α (Verdict α) :=
  let id := set.size
  if set.isFull then
    let event := Event.doubled set.bucketCount id
    let set := set.double
    match set.lookup cmp key state with
    | .found id => { answer := .duplicate id state, set, events := [event] }
    | .absent after =>
      { answer := .admitted id, set := set.place key state after, events := [event] }
  else { answer := .admitted id, set := set.place key state after }

/-- Admits a state under its key unless an equal one is in the set. -/
def insert (set : Visited α) (cmp : Comparator α) (key : UInt64) (state : α) :
    Outcome α (Verdict α) :=
  match set.lookup cmp key state with
  | .found id => { answer := .duplicate id state, set }
  | .absent after => set.insertAbsent cmp key state after

/-- Makes sure of room for twice the buckets. -/
def reserveDouble (reserve : Reserve) (count : Nat) : Except Failure Unit :=
  if wordMax < 2 * count then .error (.tooManyBuckets count)
  else if reserve (2 * count) then .ok ()
  else .error .outOfMemory

/-- Admits a state like `insert`, but makes sure of room before the buckets
double.  A failure leaves the set as it was, and a duplicate needs no
room. -/
def tryInsert (reserve : Reserve) (set : Visited α) (cmp : Comparator α) (key : UInt64)
    (state : α) : Outcome α (Except Failure (Verdict α)) :=
  match set.lookup cmp key state with
  | .found id => { answer := .ok (.duplicate id state), set }
  | .absent _ =>
    match if set.isFull then reserveDouble reserve set.bucketCount else .ok () with
    | .error failure => { answer := .error failure, set }
    | .ok () => (set.insert cmp key state).map .ok

/-! ## Handing out -/

/-- Takes the waiting state that was admitted last.  It stays in the set. -/
def pop (set : Visited α) : Option Id × Visited α :=
  let ⟨store, buckets, worklist⟩ := set
  let (id, worklist, store) := worklist.pop store
  (id, { store, buckets, worklist })

end Visited

end StateSearch
