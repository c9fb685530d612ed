import StateSearch.Proofs.Steps

/-!
# The books of an exploration

Whatever the comparator does, an exploration expands what waited when it
began and what it admits, each of these ids once, and gives every state to
the expander with an empty buffer.

There are two groups.

* One step.  `Exploration.Expands` says what a step hands out, which
  successors are new, and how the set and the records of the exploration
  change.
* From the start to any step.  `Exploration.Progress` is what every step
  keeps.  Expanded and waiting ids together are the ids that waited at the
  start and those admitted since.
-/

namespace StateSearch

variable {α : Type}

namespace Exploration

variable {cmp : Comparator α} {expand : Expander α} {start : Visited α}
  {exploration next : Exploration α}

/-! ## One step -/

/-- The next exploration comes from the first by taking the id on top of the
worklist, expanding its state, and admitting the fresh ones among the
successors. -/
structure Expands (cmp : Comparator α) (expand : Expander α) (exploration next : Exploration α)
    (id : Id) (rest : List Id) (state : α) (fresh : List (UInt64 × α)) : Prop where
  waits : exploration.set.stack = id :: rest
  state?_eq : exploration.set.state? id = some state
  fresh_sublist : fresh.Sublist (expand.successors state)
  set_eq : next.set = exploration.set.pop.2.insertAll cmp (expand.successors state)
  admitted_eq : next.set.admitted = exploration.set.admitted ++ fresh
  stack_eq : next.set.stack = (List.range' exploration.set.size fresh.length).reverse ++ rest
  visits_eq : next.visits.toList = exploration.visits.toList ++ [{ id, state, carried := 0 }]
  buffer_eq : next.buffer = .empty

theorem exists_expands (cmp : Comparator α) (expand : Expander α)
    (coherent : exploration.set.Coherent) (empty : exploration.buffer = .empty)
    (waits : exploration.isDone = false) :
    ∃ id rest state fresh,
      Expands cmp expand exploration (exploration.step cmp expand) id rest state fresh := by
  obtain ⟨id, rest, stack_eq⟩ := exists_stack_eq_cons coherent waits
  obtain ⟨state, state?_eq, step_eq⟩ := step_eq cmp expand coherent stack_eq
  obtain ⟨set_eq, visits_eq, buffer_eq⟩ :=
    foldl_offer cmp (expand.successors state) (exploration.expanding expand id state)
  obtain ⟨fresh, sublist, admitted_eq, stack_eq'⟩ :=
    coherent.pop.insertAll_seen cmp (expand.successors state)
  rw [empty] at step_eq
  rw [coherent.stack_pop, stack_eq, List.tail_cons, Visited.size_pop] at stack_eq'
  rw [Visited.admitted_pop] at admitted_eq
  refine ⟨id, rest, state, fresh, ?_⟩
  rw [step_eq]
  exact {
    waits := stack_eq
    state?_eq
    fresh_sublist := sublist
    set_eq
    admitted_eq := (congrArg Visited.admitted set_eq).trans admitted_eq
    stack_eq := (congrArg Visited.stack set_eq).trans stack_eq'
    visits_eq := by
      rw [← Expander.successors, visits_eq, expanding, empty, Array.toList_push]
      rfl
    buffer_eq }

theorem Expands.size_eq {id : Id} {rest : List Id} {state : α} {fresh : List (UInt64 × α)}
    (expands : Expands cmp expand exploration next id rest state fresh) :
    next.set.size = exploration.set.size + fresh.length :=
  Visited.size_eq_of_admitted expands.admitted_eq

/-! ## From the start to any step -/

/-- What holds at every step of an exploration that began with the first
set. -/
structure Progress (start : Visited α) (exploration : Exploration α) : Prop where
  coherent : exploration.set.Coherent
  buffer_eq : exploration.buffer = .empty
  admitted_isPrefix : start.admitted <+: exploration.set.admitted
  /-- What was expanded and what waits is what waited and what is new. -/
  perm : (exploration.visits.toList.map Visit.id ++ exploration.set.stack).Perm
    (start.stack ++ List.range' start.size (exploration.set.size - start.size))
  visited : ∀ visit ∈ exploration.visits.toList,
    exploration.set.state? visit.id = some visit.state ∧ visit.carried = 0

theorem progress_start (coherent : start.Coherent) : Progress start { set := start } where
  coherent := coherent
  buffer_eq := rfl
  admitted_isPrefix := List.prefix_refl _
  perm := by
    rw [Nat.sub_self, List.range'_zero, List.append_nil]
    exact List.Perm.refl _
  visited := fun _ mem => by cases mem

theorem Progress.size_le (progress : Progress start exploration) :
    start.size ≤ exploration.set.size := by
  rw [← Visited.length_admitted, ← Visited.length_admitted]
  exact progress.admitted_isPrefix.length_le

/-- States stay under their ids while an exploration goes on. -/
theorem Progress.state?_eq (progress : Progress start exploration) {id : Id}
    (lt : id < start.size) : exploration.set.state? id = start.state? id :=
  Visited.state?_eq_of_isPrefix progress.admitted_isPrefix lt

/-- The id that a step takes moves from those that wait to those that were
expanded, and the new ids join those that wait. -/
theorem Progress.expands (progress : Progress start exploration) {id : Id} {rest : List Id}
    {state : α} {fresh : List (UInt64 × α)}
    (expands : Expands cmp expand exploration next id rest state fresh)
    (coherent : next.set.Coherent) : Progress start next where
  coherent := coherent
  buffer_eq := expands.buffer_eq
  admitted_isPrefix := by
    rw [expands.admitted_eq]
    exact progress.admitted_isPrefix.trans (List.prefix_append ..)
  perm := by
    have le := progress.size_le
    have split : List.range' start.size (exploration.set.size + fresh.length - start.size) =
        List.range' start.size (exploration.set.size - start.size) ++
          List.range' exploration.set.size fresh.length := by
      rw [show exploration.set.size + fresh.length - start.size =
          (exploration.set.size - start.size) + fresh.length by omega, ← List.range'_append_1,
        Nat.add_sub_cancel' le]
    have moved := progress.perm
    rw [expands.waits] at moved
    rw [expands.visits_eq, List.map_append, expands.stack_eq, expands.size_eq, split,
      ← List.append_assoc start.stack]
    generalize List.range' exploration.set.size fresh.length = new
    have joined : (new.reverse ++ rest).Perm (rest ++ new) :=
      List.perm_append_comm.trans ((List.reverse_perm new).append_left rest)
    have regrouped : exploration.visits.toList.map Visit.id ++ [id] ++ (rest ++ new) =
        exploration.visits.toList.map Visit.id ++ id :: rest ++ new := by simp
    refine (joined.append_left _).trans ?_
    show (exploration.visits.toList.map Visit.id ++ [id] ++ (rest ++ new)).Perm _
    rw [regrouped]
    exact moved.append_right new
  visited := by
    intro visit mem
    rw [expands.visits_eq] at mem
    have stays : exploration.set.admitted <+: next.set.admitted := by
      rw [expands.admitted_eq]
      exact List.prefix_append ..
    have kept : ∀ {id : Id} {state : α}, exploration.set.state? id = some state →
        next.set.state? id = some state := by
      intro id state found
      rw [Visited.state?_eq_of_isPrefix stays (Visited.lt_size_of_state? found), found]
    rcases List.mem_append.1 mem with old | new
    · exact ⟨kept (progress.visited visit old).1, (progress.visited visit old).2⟩
    · rw [List.mem_singleton.1 new]
      exact ⟨kept expands.state?_eq, rfl⟩

theorem Progress.step (progress : Progress start exploration) (cmp : Comparator α)
    (expand : Expander α) (waits : exploration.isDone = false) :
    Progress start (exploration.step cmp expand) := by
  obtain ⟨id, rest, state, fresh, expands⟩ :=
    exists_expands cmp expand progress.coherent progress.buffer_eq waits
  have leads : Visited.Leads (fun _ => True) exploration.set (exploration.step cmp expand).set :=
    Visited.leads_step trivial expand exploration
  exact progress.expands expands (leads.coherent progress.coherent)

/-- Expanded or waiting are the ids that waited at the start and the new
ones. -/
theorem Progress.mem_iff (progress : Progress start exploration) {id : Id} :
    id ∈ exploration.visits.toList.map Visit.id ∨ id ∈ exploration.set.stack ↔
      id ∈ start.stack ∨ (start.size ≤ id ∧ id < exploration.set.size) := by
  have le := progress.size_le
  have iff := progress.perm.mem_iff (a := id)
  rw [List.mem_append, List.mem_append, List.mem_range'_1, Nat.add_sub_cancel' le] at iff
  exact iff

/-- No id is expanded twice, or expanded and still waiting. -/
theorem Progress.nodup (progress : Progress start exploration) (coherent : start.Coherent) :
    (exploration.visits.toList.map Visit.id ++ exploration.set.stack).Nodup := by
  refine progress.perm.nodup_iff.2 (List.nodup_append.2 ⟨coherent.worklist.linked.nodup,
    List.nodup_range', ?_⟩)
  rintro id mem _ mem' rfl
  exact Nat.not_lt.2 (List.mem_range'_1.1 mem').1 (coherent.lt_size_of_mem_stack mem)

end Exploration

end StateSearch
