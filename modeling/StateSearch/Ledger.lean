import StateSearch.Catalogue
import StateSearch.Run

/-!
# The plain account of a set

A ledger keeps what a caller can see of a set: a catalogue of the admitted
states, and the waiting ids in a stack.  It has no store and no links.  How
a candidate is judged is left to the catalogue.  Over a `Roll` a ledger is
two plain lists.

There are three groups.

* The ledger and its operations.
* Exhaustive search with a catalogue of states seen and a stack.
* Runs of operations.
-/

namespace StateSearch

variable {α : Type} {κ : Type → Type}

/-! ## The ledger -/

/-- A catalogue, and the ids of the states that wait, the next one first. -/
structure Ledger (κ : Type → Type) (α : Type) where
  catalogue : κ α
  stack : List Id := []

namespace Ledger

variable [Catalogue κ]

/-- Admits a state under its key unless it is a duplicate.  A new state
waits on top of the stack. -/
def insert (ledger : Ledger κ α) (cmp : Comparator α) (key : UInt64) (state : α) :
    Verdict α × Ledger κ α :=
  let (verdict, catalogue) := Catalogue.insert ledger.catalogue cmp key state
  match verdict with
  | .admitted id => (.admitted id, { catalogue, stack := id :: ledger.stack })
  | .duplicate id rejected => (.duplicate id rejected, { catalogue, stack := ledger.stack })

/-- Takes the id on top of the stack. -/
def pop (ledger : Ledger κ α) : Option Id × Ledger κ α :=
  match ledger.stack with
  | [] => (none, ledger)
  | id :: stack => (some id, { ledger with stack })

/-- The admitted state with this id. -/
def get? (ledger : Ledger κ α) (id : Id) : Option (Entry α) :=
  (Catalogue.admitted ledger.catalogue)[id]?.map fun (key, state) => { id, key, state }

/-- All admitted states. -/
def entries (ledger : Ledger κ α) : List (Entry α) :=
  (Catalogue.admitted ledger.catalogue).zipIdx.map fun ((key, state), id) => { id, key, state }

/-- The waiting states, the next one first. -/
def waiting (ledger : Ledger κ α) : List (Entry α) :=
  ledger.stack.filterMap ledger.get?

/-! ## Search with a catalogue of states seen and a stack -/

/-- A search under way. -/
structure Search (κ : Type → Type) (α : Type) where
  ledger : Ledger κ α
  tally : Tally := {}
  visits : List (Visit α) := []

namespace Search

/-- Offers a successor to the ledger. -/
def offer (cmp : Comparator α) (search : Search κ α) (successor : UInt64 × α) : Search κ α :=
  let (verdict, ledger) := search.ledger.insert cmp successor.1 successor.2
  { search with ledger, tally := search.tally.count verdict }

/-- Expands the state on top of the stack.  As in `Exploration.step`, an id
without a state is dropped, and the ids of a stack that balances a set all
have one. -/
def step (cmp : Comparator α) (expand : Expander α) (search : Search κ α) : Search κ α :=
  match search.ledger.pop with
  | (none, _) => search
  | (some id, ledger) =>
    match ledger.get? id with
    | none => { search with ledger }
    | some { state, .. } =>
      (expand state .empty).toList.foldl (offer cmp)
        { ledger
          tally := { search.tally with expanded := search.tally.expanded + 1 }
          visits := search.visits ++ [{ id, state, carried := 0 }] }

/-- Takes steps until the stack is empty, if that is within `bound` steps. -/
def runFor (cmp : Comparator α) (expand : Expander α) : Nat → Search κ α → Option (Search κ α)
  | 0, search => if search.ledger.stack.isEmpty then some search else none
  | bound + 1, search =>
    if search.ledger.stack.isEmpty then some search
    else runFor cmp expand bound (search.step cmp expand)

end Search

/-- Searches from the waiting states, if that ends within `bound` steps. -/
def explore? (bound : Nat) (ledger : Ledger κ α) (cmp : Comparator α) (expand : Expander α) :
    Option (Report α × Ledger κ α) :=
  (Search.runFor cmp expand bound { ledger }).map fun search =>
    ({ tally := search.tally, visits := search.visits }, search.ledger)

/-! ## Runs of operations -/

/-- Carries out one operation.  Nothing fails for a lack of room. -/
def perform (bound : Nat) (ledger : Ledger κ α) (cmp : Comparator α) :
    Operation α → Option (Answer α × Ledger κ α)
  | .insert key state =>
    let (verdict, ledger) := ledger.insert cmp key state
    some (.verdict verdict, ledger)
  | .tryInsert key state =>
    let (verdict, ledger) := ledger.insert cmp key state
    some (.attempt (.ok verdict), ledger)
  | .find key state => some (.found (Catalogue.find? ledger.catalogue cmp key state), ledger)
  | .contains key state =>
    some (.present (Catalogue.find? ledger.catalogue cmp key state).isSome, ledger)
  | .pop =>
    let (id, ledger) := ledger.pop
    some (.popped id, ledger)
  | .peek => some (.next ledger.stack.head?, ledger)
  | .entries => some (.entries ledger.entries, ledger)
  | .waiting => some (.waiting ledger.waiting, ledger)
  | .explore expand =>
    (ledger.explore? bound cmp expand).map fun (report, ledger) => (.explored report, ledger)

/-- Carries out operations one after the other. -/
def run (bound : Nat) :
    Ledger κ α → List (Comparator α × Operation α) → Option (List (Answer α) × Ledger κ α)
  | ledger, [] => some ([], ledger)
  | ledger, (cmp, operation) :: rest =>
    (ledger.perform bound cmp operation).bind fun (answer, ledger) =>
      (run bound ledger rest).map fun (answers, ledger) => (answer :: answers, ledger)

end Ledger

/-- The account of a set over a catalogue of it. -/
def Visited.ledger (view : Visited α → κ α) (set : Visited α) : Ledger κ α where
  catalogue := view set
  stack := set.stack

end StateSearch
