import Mathlib.Data.List.Dedup
import StateSearch.Proofs.Counters
import StateSearch.Proofs.Paths

/-!
# Explorations that end

Under one total preorder a set never admits a pair of key and state twice,
whatever the other keys are.  So an exploration that cannot leave a finite
list of pairs ends.  Each step takes one state off the worklist, and puts one
on it only for a pair of the list that was not admitted before.

There are three groups.

* Waiting entries, and loops that end since a measure becomes smaller.
* What keeps an exploration within a list, `Visited.ConfinedTo`, and that it
  does, `Exploration.Confined`.
* The measure, and the end.
-/

namespace StateSearch

variable {α : Type} {cmp : Comparator α} {expand : Expander α} {pairs : List (UInt64 × α)}

/-! ## Entries and measures -/

namespace Visited

variable {set : Visited α}

theorem mem_waiting_iff {entry : Entry α} :
    entry ∈ set.waiting ↔ entry.id ∈ set.stack ∧ set.get? entry.id = some entry := by
  rw [waiting, List.mem_filterMap]
  constructor
  · rintro ⟨id, mem, found⟩
    obtain rfl : id = entry.id := by
      rw [get?_eq, Option.map_eq_some_iff] at found
      rcases found with ⟨_, _, rfl⟩
      rfl
    exact ⟨mem, found⟩
  · rintro ⟨mem, found⟩
    exact ⟨entry.id, mem, found⟩

/-- Nothing that waits, and nothing that comes of it, has a successor outside
the list. -/
structure ConfinedTo (set : Visited α) (expand : Expander α) (pairs : List (UInt64 × α)) :
    Prop where
  queued : ∀ entry ∈ set.waiting, ∀ successor ∈ expand.successors entry.state, successor ∈ pairs
  closed : ∀ pair ∈ pairs, ∀ successor ∈ expand.successors pair.2, successor ∈ pairs

end Visited

namespace Exploration

variable {start : Visited α} {exploration next : Exploration α}

/-- An exploration ends if every step makes a measure smaller. -/
theorem exists_runFor {motive : Exploration α → Prop} (left : Exploration α → Nat)
    (step : ∀ exploration, motive exploration → exploration.isDone = false →
      motive (exploration.step cmp expand) ∧ left (exploration.step cmp expand) < left exploration)
    (here : motive exploration) {bound : Nat} (enough : left exploration ≤ bound) :
    ∃ result, runFor cmp expand bound exploration = some result := by
  induction bound generalizing exploration with
  | zero =>
    cases done : exploration.isDone with
    | true => exact ⟨exploration, runFor_of_isDone done⟩
    | false =>
      have smaller := (step exploration here done).2
      omega
  | succ bound ih =>
    cases done : exploration.isDone with
    | true => exact ⟨exploration, runFor_of_isDone done⟩
    | false =>
      obtain ⟨here', smaller⟩ := step exploration here done
      rw [runFor_of_waits done]
      exact ih here' (by omega)

/-! ## Within a list -/

/-- Whatever was admitted since the start is on the list. -/
structure Confined (cmp : Comparator α) (pairs : List (UInt64 × α)) (start : Visited α)
    (exploration : Exploration α) : Prop where
  reachable : exploration.set.ReachableUnder cmp
  fresh : ∀ pair ∈ exploration.set.admitted.drop start.size, pair ∈ pairs

theorem confined_start (reachable : start.ReachableUnder cmp) :
    Confined cmp pairs start { set := start } where
  reachable := reachable
  fresh pair mem := by
    have nothing : start.admitted.drop start.size = [] := by
      rw [← Visited.length_admitted, List.drop_length]
    rw [nothing] at mem
    cases mem

/-- What can be expanded waited at the start or is on the list, so its
successors are on the list. -/
theorem Confined.mem_of_mem_successors (confined : Confined cmp pairs start exploration)
    (progress : Progress start exploration) (coherent : start.Coherent)
    (confinedTo : start.ConfinedTo expand pairs) {id : Id} {state : α}
    (live : id ∈ start.stack ∨ start.size ≤ id) (found : exploration.set.state? id = some state)
    {successor : UInt64 × α} (mem : successor ∈ expand.successors state) : successor ∈ pairs := by
  rcases live with waited | new
  · rw [progress.state?_eq (coherent.lt_size_of_mem_stack waited), Visited.state?_eq,
      Option.map_eq_some_iff] at found
    rcases found with ⟨pair, admitted, rfl⟩
    refine confinedTo.queued { id, key := pair.1, state := pair.2 }
      (Visited.mem_waiting_iff.2 ⟨waited, ?_⟩) successor mem
    rw [Visited.get?_eq, admitted]
    rfl
  · rw [Visited.state?_eq, Option.map_eq_some_iff] at found
    rcases found with ⟨pair, admitted, rfl⟩
    refine confinedTo.closed pair (confined.fresh pair (List.mem_iff_getElem?.2 ?_)) successor mem
    exact ⟨id - start.size, by rw [List.getElem?_drop, Nat.add_sub_cancel' new, admitted]⟩

theorem Confined.expands (confined : Confined cmp pairs start exploration)
    (progress : Progress start exploration) (coherent : start.Coherent)
    (confinedTo : start.ConfinedTo expand pairs) {id : Id} {rest : List Id} {state : α}
    {fresh : List (UInt64 × α)}
    (expands : Expands cmp expand exploration next id rest state fresh) :
    Confined cmp pairs start next where
  reachable := by
    rw [expands.set_eq]
    exact (confined.reachable.leads Visited.Leads.refl.pop).insertAll _
  fresh := by
    have live := progress.mem_iff.1 (.inr (expands.waits ▸ List.mem_cons_self))
    intro pair mem
    rw [expands.admitted_eq, List.drop_append_of_le_length] at mem
    · rcases List.mem_append.1 mem with old | new
      · exact confined.fresh pair old
      · exact confined.mem_of_mem_successors progress coherent confinedTo
          (live.imp_right And.left) expands.state?_eq (expands.fresh_sublist.subset new)
    · rw [Visited.length_admitted]
      exact progress.size_le

theorem Confined.step (confined : Confined cmp pairs start exploration)
    (progress : Progress start exploration) (coherent : start.Coherent)
    (confinedTo : start.ConfinedTo expand pairs) (waits : exploration.isDone = false) :
    Confined cmp pairs start (exploration.step cmp expand) := by
  obtain ⟨id, rest, state, fresh, expands⟩ :=
    exists_expands cmp expand progress.coherent progress.buffer_eq waits
  exact confined.expands progress coherent confinedTo expands

/-- An exploration that has ended has stayed within the list. -/
theorem confined_of_runFor (reachable : start.ReachableUnder cmp)
    (confinedTo : start.ConfinedTo expand pairs) {bound : Nat} {result : Exploration α}
    (ended : runFor cmp expand bound { set := start } = some result) :
    Confined cmp pairs start result := by
  have coherent := reachable.reachable.coherent
  refine (runFor_induction (motive := fun exploration =>
    Progress start exploration ∧ Confined cmp pairs start exploration) ended ?_
    ⟨progress_start coherent, confined_start reachable⟩).2
  rintro exploration ⟨progress, confined⟩ waits
  exact ⟨progress.step cmp expand waits, confined.step progress coherent confinedTo waits⟩

/-- What is in the set was there at the start or is on the list. -/
theorem Confined.holds (confined : Confined cmp pairs start exploration)
    (progress : Progress start exploration) {state : α} (holds : exploration.set.Holds state) :
    start.Holds state ∨ state ∈ pairs.map Prod.snd := by
  obtain ⟨pair, mem, rfl⟩ := List.mem_map.1 (Visited.holds_iff_mem.1 holds)
  obtain ⟨fresh, admitted_eq⟩ := progress.admitted_isPrefix
  have fresh_eq : exploration.set.admitted.drop start.size = fresh := by
    rw [← admitted_eq, ← Visited.length_admitted, List.drop_left]
  rw [← admitted_eq, List.mem_append] at mem
  rcases mem with old | new
  · exact .inl (Visited.holds_iff_mem.2 (List.mem_map_of_mem old))
  · exact .inr (List.mem_map_of_mem (confined.fresh pair (fresh_eq ▸ new)))

/-! ## The measure -/

section

variable [DecidableEq α]

/-- No more states are new than there are pairs on the list. -/
theorem Confined.size_le [Std.TransCmp cmp] (confined : Confined cmp pairs start exploration) :
    exploration.set.size ≤ start.size + pairs.dedup.length := by
  have nodup := confined.reachable.nodup_admitted.sublist
    (List.drop_sublist start.size exploration.set.admitted)
  have le := nodup.length_le_of_subset fun pair mem => List.mem_dedup.2 (confined.fresh pair mem)
  rw [List.length_drop, Visited.length_admitted] at le
  omega

/-- The states that wait, and the pairs of the list that can still be
admitted. -/
def remaining (pairs : List (UInt64 × α)) (start : Visited α) (exploration : Exploration α) : Nat :=
  exploration.set.stack.length + (start.size + pairs.dedup.length - exploration.set.size)

theorem remaining_step_lt [Std.TransCmp cmp] (confined : Confined cmp pairs start next)
    {id : Id} {rest : List Id} {state : α} {fresh : List (UInt64 × α)}
    (expands : Expands cmp expand exploration next id rest state fresh) :
    remaining pairs start next < remaining pairs start exploration := by
  have size_le := confined.size_le
  have size_eq := expands.size_eq
  have stack_length : next.set.stack.length = fresh.length + rest.length := by
    rw [expands.stack_eq, List.length_append, List.length_reverse, List.length_range']
  rw [remaining, remaining, stack_length, expands.waits, List.length_cons]
  omega

/-- An exploration that cannot leave the list ends after as many steps as
states wait and pairs are on the list, or sooner. -/
theorem exists_runFor_of_confinedTo [Std.TransCmp cmp] (reachable : start.ReachableUnder cmp)
    (confinedTo : start.ConfinedTo expand pairs) :
    ∃ result, runFor cmp expand (start.pending + pairs.dedup.length) { set := start } =
      some result := by
  have coherent := reachable.reachable.coherent
  refine exists_runFor (motive := fun exploration =>
    Progress start exploration ∧ Confined cmp pairs start exploration)
    (remaining pairs start) ?_ ⟨progress_start coherent, confined_start reachable⟩ ?_
  · rintro exploration ⟨progress, confined⟩ waits
    obtain ⟨id, rest, state, fresh, expands⟩ :=
      exists_expands cmp expand progress.coherent progress.buffer_eq waits
    have confined' := confined.expands progress coherent confinedTo expands
    exact ⟨⟨progress.step cmp expand waits, confined'⟩, remaining_step_lt confined' expands⟩
  · show start.stack.length + (start.size + pairs.dedup.length - start.size) ≤ _
    rw [coherent.pending_eq, Nat.add_sub_cancel_left]

end

end Exploration

/-! ## The end -/

/-- Under one total preorder an exploration that cannot leave a finite list of
pairs returns.  It admits no more states than there are different pairs on
the list, and expands what waited and what it admits.  Keys may disagree with
the comparator. -/
theorem Visited.ReachableUnder.exists_explore?_of_confinedTo [Std.TransCmp cmp] [DecidableEq α]
    {set : Visited α} (reachable : set.ReachableUnder cmp)
    (confinedTo : set.ConfinedTo expand pairs) :
    ∃ outcome, set.explore? (set.pending + pairs.dedup.length) cmp expand = some outcome ∧
      outcome.set.size = set.size + outcome.answer.tally.admitted ∧
      outcome.answer.tally.admitted ≤ pairs.dedup.length ∧
      outcome.answer.tally.expanded ≤ set.pending + outcome.answer.tally.admitted := by
  have coherent := reachable.reachable.coherent
  obtain ⟨result, ended⟩ := Exploration.exists_runFor_of_confinedTo reachable confinedTo
  obtain ⟨progress, counted⟩ := Exploration.counted_of_runFor coherent ended
  have confined := Exploration.confined_of_runFor reachable confinedTo ended
  have size_le := confined.size_le
  have size_eq := counted.size_eq
  refine ⟨result.outcome, ?_, size_eq, ?_, ?_⟩
  · rw [explore?, ended, Option.map_some]
  · show result.tally.admitted ≤ pairs.dedup.length
    omega
  · show result.tally.expanded ≤ set.pending + result.tally.admitted
    have moved := progress.perm.length_eq
    simp only [List.length_append, List.length_map, List.length_range'] at moved
    rw [counted.expanded_eq, coherent.pending_eq]
    omega

/-- Two numbers that lead to each other, and to themselves, under keys that
disagree.  Of the three different pairs on the list all are admitted. -/
theorem Visited.exists_explore?_of_confinedTo_pair :
    let cmp : Comparator Nat := Comparator.natural
    let expand : Expander Nat := .ofSuccessors fun n =>
      if n = 0 then [(7, 1), (8, 1)] else [(9, 0), (7, 1)]
    let pairs : List (UInt64 × Nat) := [(7, 1), (8, 1), (9, 0), (7, 1)]
    Std.TransCmp cmp ∧ ∃ before : Outcome Nat (List (Answer Nat)),
      before.set.ReachableUnder cmp ∧ before.set.ConfinedTo expand pairs ∧
      ∃ outcome, before.set.explore? (before.set.pending + pairs.dedup.length) cmp expand =
          some outcome ∧
        outcome.set.size = before.set.size + outcome.answer.tally.admitted ∧
        outcome.answer.tally.admitted ≤ 3 := by
  intro cmp expand pairs
  have lawful : Std.TransCmp cmp := inferInstanceAs (Std.TransCmp Comparator.natural)
  have ended : (run .always 0 (ofCount 1024)
      [(cmp, .insert 3 0), (cmp, .insert 4 1), (cmp, .pop)]).map (fun before =>
        decide (∀ entry ∈ before.set.waiting,
          ∀ successor ∈ expand.successors entry.state, successor ∈ pairs)) = some true := by
    decide +kernel
  simp only [Option.map_eq_some_iff, decide_eq_true_iff] at ended
  rcases ended with ⟨before, ran, queued⟩
  have reachable : before.set.ReachableUnder cmp :=
    ⟨1024, .always, 0, validBucketCount_minBuckets, _, before, by simp, ran, rfl⟩
  have closed : ∀ pair ∈ pairs, ∀ successor ∈ expand.successors pair.2, successor ∈ pairs := by
    decide +kernel
  obtain ⟨outcome, ended, size_eq, admitted_le, _⟩ :=
    reachable.exists_explore?_of_confinedTo ⟨queued, closed⟩
  have different : pairs.dedup.length = 3 := by decide
  exact ⟨lawful, before, reachable, ⟨queued, closed⟩, outcome, ended, size_eq,
    different ▸ admitted_le⟩

end StateSearch
