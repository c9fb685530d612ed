import StateSearch.Run

/-!
# Explorations spelled out

An exploration hands out states and admits their successors, and a caller
could do the same with single operations.  This module names these
operations, so that a run with explorations becomes one without, in which
every admission and every removal has an answer of its own.

There are three groups.

* The operations of an exploration, `Exploration.moves` for one step of it
  and `Exploration.movesFor` for all of it.
* Runs.  `Visited.unroll` replaces every exploration of a run.
* Histories.  A `Deed` is a change of the worklist, and `Answer.deed?` reads
  it off an answer.
-/

namespace StateSearch

variable {α : Type}

/-! ## The operations of an exploration -/

namespace Exploration

/-- What one step asks of the set: to hand out a state, and to admit the
successors of this state in order.  An id without a state has none. -/
def moves (expand : Expander α) (exploration : Exploration α) : List (Operation α) :=
  let (id, set) := exploration.set.pop
  match id.bind set.state? with
  | none => [.pop]
  | some state =>
    .pop :: (expand state exploration.buffer).toList.map fun (key, next) => .insert key next

/-- What at most `bound` steps ask of the set. -/
def movesFor (cmp : Comparator α) (expand : Expander α) : Nat → Exploration α → List (Operation α)
  | 0, _ => []
  | bound + 1, exploration =>
    if exploration.isDone then []
    else exploration.moves expand ++ movesFor cmp expand bound (exploration.step cmp expand)

theorem movesFor_of_isDone {cmp : Comparator α} {expand : Expander α} {bound : Nat}
    {exploration : Exploration α} (done : exploration.isDone = true) :
    movesFor cmp expand bound exploration = [] := by
  cases bound <;> simp [movesFor, done]

theorem movesFor_of_waits {cmp : Comparator α} {expand : Expander α}
    {exploration : Exploration α} (waits : exploration.isDone = false) (bound : Nat) :
    movesFor cmp expand (bound + 1) exploration =
      exploration.moves expand ++ movesFor cmp expand bound (exploration.step cmp expand) := by
  rw [movesFor, waits, if_neg Bool.false_ne_true]

end Exploration

/-! ## Runs -/

namespace Visited

/-- An operation, or the operations that an exploration consists of. -/
def spellOut (bound : Nat) (set : Visited α) (cmp : Comparator α) :
    Operation α → List (Comparator α × Operation α)
  | .explore expand => (Exploration.movesFor cmp expand bound { set }).map (cmp, ·)
  | operation => [(cmp, operation)]

/-- The operations of a run with every exploration spelled out. -/
def unroll (reserve : Reserve) (bound : Nat) :
    Visited α → List (Comparator α × Operation α) → List (Comparator α × Operation α)
  | _, [] => []
  | set, (cmp, operation) :: rest =>
    set.spellOut bound cmp operation ++
      match set.perform reserve bound cmp operation with
      | none => []
      | some first => unroll reserve bound first.set rest

end Visited

/-! ## Histories -/

/-- A change of the worklist. -/
inductive Deed where
  /-- The state with this id was admitted. -/
  | admitted (id : Id)
  /-- The state with this id was handed out. -/
  | handedOut (id : Id)
deriving DecidableEq

/-- The id that a deed admits. -/
def Deed.admitted? : Deed → Option Id
  | .admitted id => some id
  | .handedOut _ => none

/-- The id that a deed hands out. -/
def Deed.handedOut? : Deed → Option Id
  | .admitted _ => none
  | .handedOut id => some id

namespace Answer

/-- The change of the worklist that an answer tells of.  A report of an
exploration tells of many, and not in which order they came. -/
def deed? : Answer α → Option Deed
  | .verdict (.admitted id) | .attempt (.ok (.admitted id)) => some (.admitted id)
  | .popped (some id) => some (.handedOut id)
  | _ => none

/-- The ids that were handed out, by one operation or within an
exploration. -/
def handedOut : Answer α → List Id
  | .popped id => id.toList
  | .explored report => report.visits.map Visit.id
  | _ => []

end Answer

end StateSearch
