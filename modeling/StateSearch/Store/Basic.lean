/-!
# The store of admitted states

Every admitted state has one record in the store, and records are never
removed.  The place of a record is the id of its state, so ids count
admissions from `0`.

The array stands for a slot map that is only appended to.  What a slot map
promises is built in here: the id of a new record is fresh, a walk over all
records meets them in the order of admission, and an id leads to the same
key and the same state for ever.  Which number an id is does not matter to a
caller, who only compares ids and hands them back.

A record takes part in two singly linked lists at once.  `chainNext` leads
to the next record of its bucket, and `worklistNext` to the next record that
waits for expansion.  Both hold ids.

There are two groups.

* Records and the store.
* Walks.  `Store.walk` lists the ids that a link leads to.  A walk that
  ends meets no record twice, so it has at most `store.size` steps, and this
  is the fuel that callers give it.  `StateSearch.Store.Linked` makes this
  precise.
-/

namespace StateSearch

/-! ## Records -/

/-- The identity of an admitted state: its place in the order of admission.
In a slot map it is a handle whose number means nothing. -/
abbrev Id := Nat

/-- An admitted state with its key, its two links and its place in the
worklist. -/
structure Record (α : Type) where
  key : UInt64
  state : α
  /-- The next record of the same bucket. -/
  chainNext : Option Id := none
  /-- The next record that waits for expansion. -/
  worklistNext : Option Id := none
  /-- Whether the state still waits for expansion. -/
  queued : Bool := false

/-- A record but for its place in a chain. -/
def Record.unchained {α : Type} (record : Record α) : Record α :=
  { record with chainNext := none }

/-- All admitted states, in the order of admission: a slot map without
removals. -/
abbrev Store (α : Type) := Array (Record α)

namespace Store

variable {α : Type}

/-! ## Walks -/

/-- The ids met by following `next` from `head`, at most `fuel` of them. -/
def walk (store : Store α) (next : Record α → Option Id) : Nat → Option Id → List Id
  | 0, _ => []
  | _ + 1, none => []
  | fuel + 1, some id => id :: store.walk next fuel (store[id]?.bind next)

end Store

end StateSearch
