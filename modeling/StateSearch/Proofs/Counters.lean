import Mathlib.Algebra.Ring.Nat
import StateSearch.Proofs.Expansions

/-!
# What the counters of an exploration count

Whatever the comparator does, an exploration counts its visits, the growth of
the set, and every successor that it offers, as new or as a duplicate.

`Exploration.Counted` says so of an exploration under way, and
`counted_of_runFor` of one that has ended.
-/

namespace StateSearch

variable {α : Type}

namespace Exploration

variable {cmp : Comparator α} {expand : Expander α} {start : Visited α}
  {exploration : Exploration α}

/-- One offer counts as new if the set grows, and as a duplicate if not. -/
theorem offer_tally (cmp : Comparator α) (coherent : exploration.set.Coherent)
    (successor : UInt64 × α) :
    (exploration.offer cmp successor).tally.expanded = exploration.tally.expanded ∧
      (exploration.offer cmp successor).tally.admitted + exploration.set.size =
        exploration.tally.admitted + (exploration.offer cmp successor).set.size ∧
      (exploration.offer cmp successor).tally.admitted +
          (exploration.offer cmp successor).tally.duplicates =
        exploration.tally.admitted + exploration.tally.duplicates + 1 := by
  have set_eq : (exploration.offer cmp successor).set =
      (exploration.set.insert cmp successor.1 successor.2).set := rfl
  have tally_eq : (exploration.offer cmp successor).tally = exploration.tally.count
      (exploration.set.insert cmp successor.1 successor.2).answer := rfl
  rw [set_eq, tally_eq]
  rcases coherent.insert_cases_seen cmp successor.1 successor.2 with
    ⟨id, answer_eq, admitted_eq, _⟩ | ⟨answer_eq, admitted_eq, _⟩
  · have size_eq := Visited.size_eq_of_admitted (admitted_eq.trans (List.append_nil _).symm)
    rw [answer_eq, size_eq]
    exact ⟨rfl, rfl, rfl⟩
  · rw [answer_eq, Visited.size_eq_of_admitted admitted_eq]
    refine ⟨rfl, ?_, ?_⟩ <;> simp only [Tally.count, List.length_singleton] <;> omega

theorem foldl_offer_tally (cmp : Comparator α) (coherent : exploration.set.Coherent)
    (successors : List (UInt64 × α)) :
    (successors.foldl (offer cmp) exploration).tally.expanded = exploration.tally.expanded ∧
      (successors.foldl (offer cmp) exploration).tally.admitted + exploration.set.size =
        exploration.tally.admitted + (successors.foldl (offer cmp) exploration).set.size ∧
      (successors.foldl (offer cmp) exploration).tally.admitted +
          (successors.foldl (offer cmp) exploration).tally.duplicates =
        exploration.tally.admitted + exploration.tally.duplicates + successors.length := by
  induction successors generalizing exploration with
  | nil => exact ⟨rfl, rfl, rfl⟩
  | cons successor successors ih =>
    have first := offer_tally cmp coherent successor
    have coherent' : (exploration.offer cmp successor).set.Coherent :=
      coherent.insert cmp successor.1 successor.2
    have later := ih coherent'
    rw [List.foldl_cons, List.length_cons]
    omega

/-- The counters are right for an exploration that began with the first
set. -/
structure Counted (expand : Expander α) (start : Visited α) (exploration : Exploration α) :
    Prop where
  expanded_eq : exploration.tally.expanded = exploration.visits.toList.length
  size_eq : exploration.set.size = start.size + exploration.tally.admitted
  offered_eq : exploration.tally.admitted + exploration.tally.duplicates =
    (exploration.visits.toList.map fun visit => (expand.successors visit.state).length).sum

theorem counted_start (expand : Expander α) (start : Visited α) :
    Counted expand start { set := start } :=
  ⟨rfl, rfl, rfl⟩

theorem Counted.step (counted : Counted expand start exploration) (cmp : Comparator α)
    (progress : Progress start exploration) (waits : exploration.isDone = false) :
    Counted expand start (exploration.step cmp expand) := by
  obtain ⟨id, rest, stack_eq⟩ := exists_stack_eq_cons progress.coherent waits
  obtain ⟨state, _, step_eq⟩ := step_eq cmp expand progress.coherent stack_eq
  rw [progress.buffer_eq] at step_eq
  have popped : (exploration.expanding expand id state).set.Coherent := progress.coherent.pop
  obtain ⟨expanded_eq, admitted_eq, offered_eq⟩ :=
    foldl_offer_tally cmp popped (expand.successors state)
  obtain ⟨_, visits_eq, _⟩ :=
    foldl_offer cmp (expand.successors state) (exploration.expanding expand id state)
  have size_eq : (exploration.expanding expand id state).set.size = exploration.set.size :=
    Visited.size_pop _
  have visits_eq' : (exploration.expanding expand id state).visits.toList =
      exploration.visits.toList ++ [{ id, state, carried := exploration.buffer.size }] :=
    Array.toList_push
  have tally_eq : (exploration.expanding expand id state).tally =
      { exploration.tally with expanded := exploration.tally.expanded + 1 } := rfl
  rw [tally_eq] at expanded_eq admitted_eq offered_eq
  rw [step_eq, ← Expander.successors]
  refine ⟨?_, ?_, ?_⟩
  · rw [expanded_eq, visits_eq, visits_eq', List.length_append, counted.expanded_eq]
    rfl
  · have before := counted.size_eq
    simp only at admitted_eq
    omega
  · rw [offered_eq, visits_eq, visits_eq', List.map_append, List.sum_append, ← counted.offered_eq]
    simp

/-- An exploration that has ended has kept the books and counted right. -/
theorem counted_of_runFor (coherent : start.Coherent) {bound : Nat} {result : Exploration α}
    (ended : runFor cmp expand bound { set := start } = some result) :
    Progress start result ∧ Counted expand start result := by
  refine runFor_induction (motive := fun exploration =>
    Progress start exploration ∧ Counted expand start exploration) ended ?_
    ⟨progress_start coherent, counted_start expand start⟩
  rintro exploration ⟨progress, counted⟩ waits
  exact ⟨progress.step cmp expand waits, counted.step cmp progress waits⟩

end Exploration

end StateSearch
