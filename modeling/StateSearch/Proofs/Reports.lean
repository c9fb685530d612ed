import StateSearch.Proofs.Counters
import StateSearch.Proofs.Unrolling

/-!
# What a report tells

The report of an exploration is exact, whatever the comparator does.  Under a
comparator that breaks every law the set may call equal states new and
different states duplicates, and still the counters tell how the set has
grown, and the visits tell which ids were handed out.

There are three groups.

* The end of an exploration, when nothing waits any more.
  `Exploration.Progress` and `Exploration.Counted` hold at every step, and
  here they say what the visits and the counters have come to.
* What a caller can rely on, `Visited.ReportedBy`.
* Every exploration that returns.
-/

namespace StateSearch

variable {α : Type} {cmp : Comparator α} {expand : Expander α}

/-! ## The end of an exploration -/

namespace Exploration

variable {start : Visited α} {result : Exploration α}

/-- An exploration that returned has kept the books, has counted right, and
has left nothing waiting. -/
theorem exists_of_explore? (coherent : start.Coherent) {bound : Nat}
    {outcome : Outcome α (Report α)} (ended : start.explore? bound cmp expand = some outcome) :
    ∃ result, outcome = result.outcome ∧ Progress start result ∧ Counted expand start result ∧
      result.set.stack = [] := by
  rw [Visited.explore?, Option.map_eq_some_iff] at ended
  obtain ⟨result, ended, outcome_eq⟩ := ended
  obtain ⟨progress, counted⟩ := counted_of_runFor coherent ended
  have done := isDone_of_runFor ended
  exact ⟨result, outcome_eq.symm, progress, counted, (isDone_iff progress.coherent).1 done⟩

section Done

variable (progress : Progress start result) (nothing : result.set.stack = [])
include progress nothing

/-- The visits are as many as the states that waited and those that are
new. -/
theorem Progress.length_visits :
    result.visits.toList.length = start.stack.length + (result.set.size - start.size) := by
  have lengths := progress.perm.length_eq
  rw [nothing, List.append_nil, List.length_map, List.length_append, List.length_range'] at lengths
  exact lengths

theorem Progress.nodup_visits (coherent : start.Coherent) :
    (result.visits.toList.map Visit.id).Nodup := by
  have nodup := progress.nodup coherent
  rwa [nothing, List.append_nil] at nodup

/-- The expanded ids are those that waited and the new ones. -/
theorem Progress.mem_visits_iff (coherent : start.Coherent) {id : Id} :
    id ∈ result.visits.toList.map Visit.id ↔
      start.isQueued? id = some true ∨ (start.size ≤ id ∧ id < result.set.size) := by
  have waits_iff : start.isQueued? id = some true ↔ id ∈ start.stack :=
    coherent.worklist.queued_iff id
  rw [waits_iff, ← progress.mem_iff, nothing, List.mem_nil_iff, or_false]

/-- What was handed out before the exploration is not expanded. -/
theorem Progress.not_mem_visits (coherent : start.Coherent) {id : Id}
    (handedOut : start.isQueued? id = some false) :
    id ∉ result.visits.toList.map Visit.id := by
  intro mem
  cases (progress.mem_visits_iff nothing coherent).1 mem with
  | inl waits =>
    rw [handedOut] at waits
    cases waits
  | inr new =>
    rw [coherent.isQueued?_eq, if_neg (Nat.not_lt.2 new.1)] at handedOut
    cases handedOut

/-- The counter of expansions makes up for what waited and what is new. -/
theorem Counted.expanded_eq_pending (counted : Counted expand start result)
    (coherent : start.Coherent) :
    result.tally.expanded = start.pending + result.tally.admitted := by
  have length_eq := progress.length_visits nothing
  have size_eq := counted.size_eq
  rw [counted.expanded_eq, coherent.pending_eq]
  omega

end Done

end Exploration

namespace Visited

variable {set : Visited α} {bound : Nat} {outcome : Outcome α (Report α)}

/-! ## What a caller can rely on -/

/-- The report tells what the exploration did to the set. -/
structure ReportedBy (cmp : Comparator α) (expand : Expander α) (bound : Nat) (set : Visited α)
    (outcome : Outcome α (Report α)) : Prop where
  expanded_eq : outcome.answer.tally.expanded = set.pending + outcome.answer.tally.admitted
  expanded_eq_length : outcome.answer.tally.expanded = outcome.answer.visits.length
  size_eq : outcome.set.size = set.size + outcome.answer.tally.admitted
  /-- Every successor that was written is counted, as new or as a duplicate. -/
  offered_eq : outcome.answer.tally.admitted + outcome.answer.tally.duplicates =
    (outcome.answer.visits.map fun visit => (expand.successors visit.state).length).sum
  pending_eq : outcome.set.pending = 0
  /-- No id is expanded twice. -/
  nodup : (outcome.answer.visits.map Visit.id).Nodup
  /-- Expanded are the ids that waited and the new ones. -/
  mem_iff : ∀ id, id ∈ outcome.answer.visits.map Visit.id ↔
    set.isQueued? id = some true ∨ (set.size ≤ id ∧ id < outcome.set.size)
  /-- What was handed out before is not expanded again. -/
  not_mem : ∀ id, set.isQueued? id = some false → id ∉ outcome.answer.visits.map Visit.id
  /-- The expander gets the state of the id that is handed out, and an empty
  buffer. -/
  state?_eq : ∀ visit ∈ outcome.answer.visits, outcome.set.state? visit.id = some visit.state
  carried_eq : ∀ visit ∈ outcome.answer.visits, visit.carried = 0
  /-- Single operations that do the same hand out the visited ids. -/
  details : Details .always bound set (set.spellOut bound cmp (.explore expand)) outcome.set
    (outcome.answer.visits.map Visit.id)

/-! ## Every exploration that returns -/

/-- Whatever the comparator, the keys and the expander are, and whatever run
led to the set: when an exploration returns, its report is exact. -/
theorem Reachable.reportedBy_of_explore? (reachable : set.Reachable)
    (ended : set.explore? bound cmp expand = some outcome) :
    ReportedBy cmp expand bound set outcome := by
  have coherent := reachable.coherent
  have performed : set.perform .always bound cmp (.explore expand) =
      some (outcome.map .explored) := by
    rw [Visited.perform, ended, Option.map_some]
  have details := details_spellOut coherent performed
  obtain ⟨result, rfl, progress, counted, nothing⟩ := Exploration.exists_of_explore? coherent ended
  exact {
    expanded_eq := counted.expanded_eq_pending progress nothing coherent
    expanded_eq_length := counted.expanded_eq
    size_eq := counted.size_eq
    offered_eq := counted.offered_eq
    pending_eq := by
      show result.set.pending = 0
      rw [progress.coherent.pending_eq, nothing, List.length_nil]
    nodup := progress.nodup_visits nothing coherent
    mem_iff := fun _ => progress.mem_visits_iff nothing coherent
    not_mem := fun _ => progress.not_mem_visits nothing coherent
    state?_eq := fun visit mem => (progress.visited visit mem).1
    carried_eq := fun visit mem => (progress.visited visit mem).2
    details }

/-- The exploration starts where a state was handed out already, and its
comparator is no order. -/
theorem reportedBy_of_explore?_stray :
    let stray : Comparator Nat := fun a b => if a % 3 = b % 2 then .eq else .lt
    let expand : Expander Nat := .ofSuccessors fun n =>
      if n < 6 then [(7, n + 3), (1031, 2 * n + 1)] else []
    let operations : List (Comparator Nat × Operation Nat) :=
      [(Comparator.natural, .insert 7 2), (Comparator.natural, .insert 7 4), (stray, .pop),
        (Comparator.natural, .tryInsert 1031 5)]
    ∃ before outcome, run .always 0 (ofCount 1024) operations = some before ∧
      before.set.Reachable ∧ before.set.explore? 9 stray expand = some outcome ∧
      outcome.answer.visits.map Visit.id = [2, 3, 0] ∧
      ReportedBy stray expand 9 before.set outcome := by
  intro stray expand operations
  have ended : ((run .always 0 (ofCount 1024) operations).bind fun before =>
      (before.set.explore? 9 stray expand).map fun outcome =>
        outcome.answer.visits.map Visit.id) = some [2, 3, 0] := by decide +kernel
  obtain ⟨before, ran, ended⟩ := Option.bind_eq_some_iff.1 ended
  obtain ⟨outcome, explored, visits_eq⟩ := Option.map_eq_some_iff.1 ended
  have reachable : before.set.Reachable :=
    ⟨1024, .always, 0, validBucketCount_minBuckets, operations, before, fun _ _ => trivial, ran,
      rfl⟩
  exact ⟨before, outcome, ran, reachable, explored, visits_eq,
    reachable.reportedBy_of_explore? explored⟩

end Visited

end StateSearch
