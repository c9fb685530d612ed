import StateSearch.SuccessorBuffer
import StateSearch.Visited.Insert

/-!
# Exploration

An exploration expands every waiting state of a set, and every state that
this admits, until none waits.  Each step takes the state that was admitted
last, lets the expander write its successors into a buffer, and admits the
successors in order.  What is in the set already is a duplicate, whether it
still waits or not, so no state is expanded twice.

There are three groups.

* The state of an exploration.  It carries the set, the buffer, the counters,
  the states expanded so far and the events reported so far.
* One step.  `Exploration.step` leaves a finished exploration alone.
* Whole runs.  An exploration need not end, so `Exploration.runFor` gets a
  bound on the steps and gives nothing if the bound is too small.
  `Exploration.runFor_head_induction` is the induction along one that ends,
  and `Exploration.runFor_le` says that a larger bound changes no answer.
-/

namespace StateSearch

variable {α : Type}

/-! ## The state of an exploration -/

/-- The counters of an exploration. -/
structure Tally where
  /-- States that were handed to the expander. -/
  expanded : Nat := 0
  /-- Successors that were new. -/
  admitted : Nat := 0
  /-- Successors that the set held already. -/
  duplicates : Nat := 0
deriving DecidableEq

/-- Counts what became of a successor. -/
def Tally.count (tally : Tally) : Verdict α → Tally
  | .admitted _ => { tally with admitted := tally.admitted + 1 }
  | .duplicate _ _ => { tally with duplicates := tally.duplicates + 1 }

/-- A state handed to the expander. -/
structure Visit (α : Type) where
  id : Id
  state : α
  /-- How many successors the buffer held when the expander got it. -/
  carried : Nat
deriving DecidableEq

/-- An exploration under way. -/
structure Exploration (α : Type) where
  set : Visited α
  buffer : SuccessorBuffer α := .empty
  tally : Tally := {}
  /-- The states expanded so far, in order. -/
  visits : Array (Visit α) := #[]
  /-- The events reported so far, in order. -/
  events : Array Event := #[]

/-- What an exploration answers when it has ended. -/
structure Report (α : Type) where
  tally : Tally
  visits : List (Visit α)
deriving DecidableEq

namespace Exploration

/-! ## One step -/

/-- Offers a successor to the set. -/
def offer (cmp : Comparator α) (exploration : Exploration α) (successor : UInt64 × α) :
    Exploration α :=
  let ⟨set, buffer, tally, visits, events⟩ := exploration
  let ⟨verdict, set, reported⟩ := set.insert cmp successor.1 successor.2
  { set, buffer, tally := tally.count verdict, visits, events := events ++ reported }

/-- Expands the state that was admitted last among those that wait.  An id
without a state would have to end the exploration, and here it is only
dropped.  The two do not differ, since every id that waits has a state
(`Exploration.step_eq`). -/
def step (cmp : Comparator α) (expand : Expander α) (exploration : Exploration α) :
    Exploration α :=
  let ⟨set, buffer, tally, visits, events⟩ := exploration
  match set.pop with
  | (none, set) => { set, buffer, tally, visits, events }
  | (some id, set) =>
    match set.state? id with
    | none => { set, buffer, tally, visits, events }
    | some state =>
      let visits := visits.push { id, state, carried := buffer.size }
      let buffer := expand state buffer
      let tally := { tally with expanded := tally.expanded + 1 }
      let events := events.push (.expanded tally.expanded buffer.size set.pending)
      buffer.items.foldl (offer cmp) { set, buffer := .empty, tally, visits, events }

/-! ## Whole runs -/

/-- Whether no state waits. -/
def isDone (exploration : Exploration α) : Bool :=
  exploration.set.peek?.isNone

/-- Takes steps until no state waits, if that is within `bound` steps. -/
def runFor (cmp : Comparator α) (expand : Expander α) :
    Nat → Exploration α → Option (Exploration α)
  | 0, exploration => if exploration.isDone then some exploration else none
  | bound + 1, exploration =>
    if exploration.isDone then some exploration
    else runFor cmp expand bound (exploration.step cmp expand)

/-- What is reported of an exploration that has ended. -/
def outcome (exploration : Exploration α) : Outcome α (Report α) :=
  let ⟨set, _, tally, visits, events⟩ := exploration
  let last := Event.finished set.size tally.expanded tally.duplicates set.bucketCount
  { answer := { tally, visits := visits.toList }, set, events := (events.push last).toList }

theorem runFor_of_isDone {cmp : Comparator α} {expand : Expander α} {bound : Nat}
    {exploration : Exploration α} (done : exploration.isDone = true) :
    runFor cmp expand bound exploration = some exploration := by
  cases bound <;> simp [runFor, done]

theorem runFor_of_waits {cmp : Comparator α} {expand : Expander α} {exploration : Exploration α}
    (waits : exploration.isDone = false) (bound : Nat) :
    runFor cmp expand (bound + 1) exploration =
      runFor cmp expand bound (exploration.step cmp expand) := by
  rw [runFor, waits, if_neg Bool.false_ne_true]

section Ended

variable {cmp : Comparator α} {expand : Expander α} {bound : Nat}
  {exploration result : Exploration α} (ended : runFor cmp expand bound exploration = some result)
include ended

/-- What holds of an exploration at its end, and before a step if it holds
after it, holds at its start. -/
theorem runFor_head_induction {motive : Nat → Exploration α → Prop}
    (done : ∀ bound, result.isDone = true → motive bound result)
    (step : ∀ bound exploration, exploration.isDone = false →
      runFor cmp expand bound (exploration.step cmp expand) = some result →
      motive bound (exploration.step cmp expand) → motive (bound + 1) exploration) :
    motive bound exploration := by
  induction bound generalizing exploration with
  | zero =>
    obtain ⟨is_done, rfl⟩ : exploration.isDone = true ∧ exploration = result := by
      simpa [runFor] using ended
    exact done 0 is_done
  | succ bound ih =>
    cases waits : exploration.isDone with
    | true =>
      rw [runFor_of_isDone waits] at ended
      obtain rfl := Option.some.inj ended
      exact done (bound + 1) waits
    | false =>
      rw [runFor_of_waits waits] at ended
      exact step bound exploration waits ended (ih ended)

/-- What every step of an exploration keeps holds when it has ended. -/
theorem runFor_induction {motive : Exploration α → Prop}
    (step : ∀ exploration, motive exploration → exploration.isDone = false →
      motive (exploration.step cmp expand))
    (start : motive exploration) : motive result := by
  refine runFor_head_induction (motive := fun _ exploration => motive exploration → motive result)
    ended ?_ ?_ start
  · intro _ _ here
    exact here
  · intro _ exploration waits _ rest here
    exact rest (step exploration here waits)

/-- When an exploration has ended, nothing waits. -/
theorem isDone_of_runFor : result.isDone = true := by
  refine runFor_head_induction (motive := fun _ _ => result.isDone = true) ended ?_ ?_
  · intro _ done
    exact done
  · intro _ _ _ _ rest
    exact rest

/-- A larger bound on the steps changes no answer. -/
theorem runFor_le {bound' : Nat} (le : bound ≤ bound') :
    runFor cmp expand bound' exploration = some result := by
  refine runFor_head_induction (motive := fun bound exploration => ∀ bound', bound ≤ bound' →
    runFor cmp expand bound' exploration = some result) ended ?_ ?_ bound' le
  · intro _ done bound' _
    exact runFor_of_isDone done
  · intro bound exploration waits _ rest bound' le
    obtain ⟨bound', rfl⟩ := Nat.exists_eq_add_of_le' (Nat.one_le_of_lt le)
    rw [runFor_of_waits waits]
    exact rest bound' (Nat.le_of_succ_le_succ le)

end Ended

end Exploration

/-- Explores from the waiting states of a set, if that ends within `bound`
steps. -/
def Visited.explore? (bound : Nat) (set : Visited α) (cmp : Comparator α) (expand : Expander α) :
    Option (Outcome α (Report α)) :=
  (Exploration.runFor cmp expand bound { set }).map Exploration.outcome

end StateSearch
