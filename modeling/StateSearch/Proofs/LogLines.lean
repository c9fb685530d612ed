import Mathlib.Algebra.Ring.Nat
import StateSearch.Run

/-!
# The lines of a log

What a set and its explorations write to a log can be told from what they do
to the set, without a look at the events that they report.  This module says
which lines are due.

There are three groups.

* Lines.  Each event is one line.  The line of a doubling says how many states
  there are, and as a doubling comes when one more would fill three quarters
  of the buckets, this follows from the buckets.
* Expansions.  `Visited.expandFor` lists the expansions of an exploration with
  what became of the successors.
* What an operation writes.
-/

namespace StateSearch

variable {α : Type}

/-! ## Lines -/

/-- A line of a log and the level it is written at. -/
abbrev Line := Level × String

/-- The line of an event. -/
def Event.line (event : Event) : Line :=
  (event.level, event.text)

/-- Whether an event tells of a doubling. -/
def Event.isGrowth : Event → Bool
  | .doubled _ _ => true
  | .expanded _ _ _ | .finished _ _ _ _ => false

namespace Line

/-- A doubling from `before` buckets. -/
def grew (before : Nat) : Line :=
  (.debug, s!"state set grew from {before} to {2 * before} buckets ({3 * before / 4 - 1} entries)")

/-- An expansion. -/
def expanded (ordinal successors pending : Nat) : Line :=
  (.trace, s!"expanded state #{ordinal} into {successors} successors ({pending} pending)")

/-- The end of an exploration. -/
def finished (states expanded duplicates buckets : Nat) : Line :=
  (.debug, s!"exploration done: {states} states, {expanded} expanded, {duplicates} duplicate successors, {buckets} buckets")

/-- The doublings of a set that started with `initial` buckets, from the time
when it had doubled `m` times to the time when it has doubled `n` times. -/
def growth (initial m n : Nat) : List Line :=
  (List.range' m (n - m)).map fun doublings => grew (initial * 2 ^ doublings)

end Line

/-! ## Expansions -/

/-- Offers candidates to a set one after the other. -/
def Visited.insertEach (cmp : Comparator α) :
    Visited α → List (UInt64 × α) → Outcome α (List (Verdict α))
  | set, [] => { answer := [], set }
  | set, (key, state) :: candidates =>
    let first := set.insert cmp key state
    let later := insertEach cmp first.set candidates
    { answer := first.answer :: later.answer
      set := later.set
      events := first.events ++ later.events }

/-- One expansion of an exploration. -/
structure Expansion (α : Type) where
  visit : Visit α
  /-- The set after the state was taken, before its successors came. -/
  before : Visited α
  /-- What became of the successors. -/
  offered : Outcome α (List (Verdict α))

/-- The expansion of the state with an id, where taking it left this set. -/
def Expansion.ofTaken (cmp : Comparator α) (expand : Expander α) (before : Visited α) (id : Id)
    (state : α) : Expansion α where
  visit := { id, state, carried := 0 }
  before := before
  offered := before.insertEach cmp (expand.successors state)

namespace Expansion

/-- How many successors were new. -/
def admitted (expansion : Expansion α) : Nat :=
  expansion.offered.answer.countP Verdict.isAdmitted

/-- How many successors were in the set already. -/
def duplicates (expansion : Expansion α) : Nat :=
  expansion.offered.answer.countP fun verdict => !verdict.isAdmitted

/-- How many successors were new in the first `i` expansions. -/
def admittedBefore (expansions : List (Expansion α)) (i : Nat) : Nat :=
  ((expansions.take i).map admitted).sum

/-- What expansions write that follow on `done` others, while `pending` states
wait before the first of them.  Each of them takes one state, and then offers
its successors. -/
def lines (initial : Nat) (expand : Expander α) (done pending : Nat)
    (expansions : List (Expansion α)) : List Line :=
  (expansions.mapIdx fun i expansion =>
    Line.expanded (done + (i + 1)) (expand.successors expansion.visit.state).length
        (pending + admittedBefore expansions i - (i + 1)) ::
      Line.growth initial expansion.before.doublings expansion.offered.set.doublings).flatten

end Expansion

/-- The first `n` expansions of the waiting states of a set. -/
def Visited.expandFor (cmp : Comparator α) (expand : Expander α) :
    Nat → Visited α → List (Expansion α)
  | 0, _ => []
  | n + 1, set =>
    match set.pop with
    | (none, _) => []
    | (some id, before) =>
      match before.state? id with
      | none => []
      | some state =>
        let expansion := Expansion.ofTaken cmp expand before id state
        expansion :: expandFor cmp expand n expansion.offered.set

/-! ## What an operation writes -/

/-- What an exploration writes: its expansions, and the end. -/
structure ExplorationWrites (initial : Nat) (set : Visited α) (cmp : Comparator α)
    (expand : Expander α) (report : Report α) (outcome : Outcome α (Answer α))
    (expansions : List (Expansion α)) : Prop where
  expansions_eq : set.expandFor cmp expand report.tally.expanded = expansions
  expanded_eq : report.tally.expanded = expansions.length
  admitted_eq : report.tally.admitted = (expansions.map Expansion.admitted).sum
  duplicates_eq : report.tally.duplicates = (expansions.map Expansion.duplicates).sum
  visits_eq : report.visits = expansions.map Expansion.visit
  /-- The last expansion leaves the set behind. -/
  set_eq : outcome.set = expansions.foldl (fun _ expansion => expansion.offered.set) set
  /-- A state waits for each expansion. -/
  waits : ∀ i < expansions.length, i + 1 ≤ set.pending + Expansion.admittedBefore expansions i
  lines_eq : outcome.events.map Event.line =
    Expansion.lines initial expand 0 set.pending expansions ++
      [Line.finished (set.size + report.tally.admitted) report.tally.expanded
        report.tally.duplicates outcome.set.bucketCount]

/-- What an operation writes, on a set that started with `initial` buckets. -/
def Operation.Writes (initial : Nat) (set : Visited α) (cmp : Comparator α) :
    Operation α → Outcome α (Answer α) → Prop
  | .insert _ _, outcome | .tryInsert _ _, outcome =>
    outcome.events.map Event.line = Line.growth initial set.doublings outcome.set.doublings
  | .explore expand, outcome => ∃ report expansions, outcome.answer = .explored report ∧
    ExplorationWrites initial set cmp expand report outcome expansions
  | .find _ _, outcome | .contains _ _, outcome | .pop, outcome | .peek, outcome
  | .entries, outcome | .waiting, outcome => outcome.events = []

end StateSearch
