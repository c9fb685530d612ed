import StateSearch.Exploration

/-!
# Search with a list and a stack

This is the loop of the textbooks.  It keeps the states seen so far in a list
and those that wait in a stack.  It has no keys, no ids and no buckets, and it
compares a successor with every state seen.

There are three groups.

* The state of a search.  `Exploration.plain` forgets what a plain search does
  not have.
* One step.
* Whole searches.
-/

namespace StateSearch

variable {α : Type}

/-! ## The state of a search -/

/-- A plain search under way. -/
structure PlainSearch (α : Type) where
  /-- The states seen so far, in the order in which they came up. -/
  seen : List α
  /-- The states that wait, the next one first. -/
  stack : List α
  tally : Tally := {}
  /-- The states expanded so far, in order. -/
  expanded : List α := []

/-- The plain search from the states of a set. -/
def PlainSearch.ofSet (set : Visited α) : PlainSearch α where
  seen := set.entries.map Entry.state
  stack := set.waiting.map Entry.state

/-- What a plain search has of an exploration. -/
def Exploration.plain (exploration : Exploration α) : PlainSearch α where
  seen := exploration.set.entries.map Entry.state
  stack := exploration.set.waiting.map Entry.state
  tally := exploration.tally
  expanded := exploration.visits.toList.map Visit.state

/-- What a plain search has of the end of an exploration. -/
def Outcome.plain (outcome : Outcome α (Report α)) : PlainSearch α where
  seen := outcome.set.entries.map Entry.state
  stack := outcome.set.waiting.map Entry.state
  tally := outcome.answer.tally
  expanded := outcome.answer.visits.map Visit.state

namespace PlainSearch

/-! ## One step -/

/-- A successor that is equal to a state seen before is a duplicate.  Any
other one is seen now, and waits on top. -/
def offer (cmp : Comparator α) (search : PlainSearch α) (next : α) : PlainSearch α :=
  if search.seen.any fun state => cmp state next == .eq then
    { search with tally := { search.tally with duplicates := search.tally.duplicates + 1 } }
  else
    { search with
      seen := search.seen ++ [next]
      stack := next :: search.stack
      tally := { search.tally with admitted := search.tally.admitted + 1 } }

/-- Expands the state on top of the stack, and offers its successors in
order. -/
def step (cmp : Comparator α) (expand : Expander α) (search : PlainSearch α) : PlainSearch α :=
  match search.stack with
  | [] => search
  | state :: stack =>
    ((expand.successors state).map Prod.snd).foldl (offer cmp)
      { search with
        stack
        tally := { search.tally with expanded := search.tally.expanded + 1 }
        expanded := search.expanded ++ [state] }

/-! ## Whole searches -/

/-- Takes steps until the stack is empty, if that is within `bound` steps. -/
def runFor (cmp : Comparator α) (expand : Expander α) :
    Nat → PlainSearch α → Option (PlainSearch α)
  | 0, search => if search.stack.isEmpty then some search else none
  | bound + 1, search =>
    if search.stack.isEmpty then some search
    else runFor cmp expand bound (search.step cmp expand)

end PlainSearch

end StateSearch
