import Mathlib.Data.List.Basic
import StateSearch.Proofs.ListView
import StateSearch.Proofs.Runs

/-!
# What a step does that a caller can see

A caller sees the admitted states and the ids that wait.  This module says
what every step does to these two, whatever the comparator is, so that later
modules need not look into the store.

There are three groups.

* Admissions and removals.  `Coherent.insert_cases_seen` tells the two
  things that an admission can do, and the marks of the records follow from
  the ids that wait.  Admitted states stay.
* Admissions one after the other.
* One step of an exploration.  `Exploration.step_eq` splits it into the state
  that is handed out, `Exploration.expanding`, and the offers after it.
-/

namespace StateSearch

variable {α : Type}

namespace Visited

variable {set set' : Visited α}

/-! ## Admissions and removals -/

theorem state?_eq (set : Visited α) (id : Id) :
    set.state? id = (set.admitted[id]?).map Prod.snd := by
  rw [getElem?_admitted, Option.map_map]
  rfl

theorem get?_eq (set : Visited α) (id : Id) :
    set.get? id = (set.admitted[id]?).map fun entry => { id, key := entry.1, state := entry.2 } := by
  rw [getElem?_admitted, Option.map_map]
  rfl

theorem map_state_get? (set : Visited α) (id : Id) :
    (set.get? id).map Entry.state = set.state? id := by
  rw [get?_eq, state?_eq, Option.map_map]
  rfl

/-- Entries are numbered admitted states. -/
theorem entries_eq (set : Visited α) :
    set.entries = set.admitted.zipIdx.map fun (entry, id) =>
      { id, key := entry.1, state := entry.2 } := by
  simp [entries, admitted, List.zipIdx_map]

theorem entries_eq_of_admitted (admitted_eq : set'.admitted = set.admitted) :
    set'.entries = set.entries := by
  rw [entries_eq, entries_eq, admitted_eq]

/-- A new state is listed last, under the next id. -/
theorem entries_concat {key : UInt64} {state : α}
    (admitted_eq : set'.admitted = set.admitted ++ [(key, state)]) :
    set'.entries = set.entries ++ [{ id := set.size, key, state }] := by
  rw [entries_eq, entries_eq, admitted_eq, List.zipIdx_append, List.map_append, length_admitted]
  simp

@[simp] theorem state?_pop (set : Visited α) : set.pop.2.state? = set.state? := by
  funext id
  rw [state?_eq, state?_eq, admitted_pop]

/-- A set is as large as what it admitted. -/
theorem size_eq_of_admitted {fresh : List (UInt64 × α)}
    (admitted_eq : set'.admitted = set.admitted ++ fresh) :
    set'.size = set.size + fresh.length := by
  rw [← length_admitted, admitted_eq, List.length_append, length_admitted]

/-- Where an id waits it has a record. -/
theorem Coherent.lt_size_of_mem_stack (coherent : set.Coherent) {id : Id} (mem : id ∈ set.stack) :
    id < set.size :=
  coherent.worklist.linked.lt_size id mem

/-- A record is marked exactly if its id waits. -/
theorem Coherent.isQueued?_eq (coherent : set.Coherent) (id : Id) :
    set.isQueued? id = if id < set.size then some (decide (id ∈ set.stack)) else none := by
  have marked := coherent.worklist.queued_iff id
  split
  · next lt =>
    have found : set.store[id]? = some set.store[id] := Array.getElem?_eq_getElem lt
    rw [found, Option.map_some, Option.some.injEq] at marked
    rw [isQueued?, found, Option.map_some, Option.some.injEq, Bool.eq_iff_iff,
      decide_eq_true_iff]
    exact marked
  · next ge =>
    have missing : set.store[id]? = none := Array.getElem?_eq_none (Nat.le_of_not_lt ge)
    rw [isQueued?, missing]
    rfl

theorem lt_size_of_state? {id : Id} {state : α} (found : set.state? id = some state) :
    id < set.size := by
  rw [state?_eq, Option.map_eq_some_iff] at found
  rcases found with ⟨entry, admitted, _⟩
  rw [← length_admitted]
  exact (List.getElem?_eq_some_iff.1 admitted).1

theorem exists_state? {id : Id} (lt : id < set.size) : ∃ state, set.state? id = some state := by
  have lt' : id < set.admitted.length := by rwa [length_admitted]
  exact ⟨_, by rw [state?_eq, List.getElem?_eq_getElem lt', Option.map_some]⟩

/-- The waiting states are listed under the ids that wait. -/
theorem Coherent.map_id_waiting (coherent : set.Coherent) :
    set.waiting.map Entry.id = set.stack := by
  have listed : ∀ id ∈ set.stack, (set.get? id).map Entry.id = some id := by
    intro id mem
    have lt : id < set.admitted.length := by
      rw [length_admitted]
      exact coherent.lt_size_of_mem_stack mem
    rw [get?_eq, List.getElem?_eq_getElem lt]
    rfl
  have ids_eq : set.waiting.map Entry.id =
      set.stack.filterMap fun id => (set.get? id).map Entry.id := List.map_filterMap ..
  rw [ids_eq, List.filterMap_congr listed, List.filterMap_some]

theorem Coherent.isQueued?_of_state? (coherent : set.Coherent) {id : Id} {state : α}
    (found : set.state? id = some state) :
    set.isQueued? id = some (decide (id ∈ set.stack)) := by
  rw [coherent.isQueued?_eq, if_pos (lt_size_of_state? found)]

/-- The ids that wait are counted. -/
theorem Coherent.pending_eq (coherent : set.Coherent) : set.pending = set.stack.length :=
  coherent.worklist.size_eq

/-- The next id is the first of those that wait. -/
theorem Coherent.peek?_eq (coherent : set.Coherent) : set.peek? = set.stack.head? :=
  coherent.worklist.top_eq

theorem Coherent.pop_fst (coherent : set.Coherent) : set.pop.1 = set.stack.head? :=
  coherent.worklist_pop.1

/-- The same states wait in both sets. -/
structure WaitAlike (set set' : Visited α) : Prop where
  stack_eq : set'.stack = set.stack
  pending_eq : set'.pending = set.pending
  isQueued?_eq : set'.isQueued? = set.isQueued?

theorem Coherent.waitAlike (coherent : set.Coherent) (coherent' : set'.Coherent)
    (size_eq : set'.size = set.size) (stack_eq : set'.stack = set.stack) :
    set.WaitAlike set' where
  stack_eq := stack_eq
  pending_eq := by rw [coherent'.pending_eq, coherent.pending_eq, stack_eq]
  isQueued?_eq := by
    funext id
    rw [coherent'.isQueued?_eq, coherent.isQueued?_eq, size_eq, stack_eq]

/-- A candidate is either rejected, and then no state is new and none waits
that did not wait before, or it is admitted under the next id and waits on
top. -/
theorem Coherent.insert_cases_seen (coherent : set.Coherent) (cmp : Comparator α) (key : UInt64)
    (state : α) :
    (∃ id, (set.insert cmp key state).answer = .duplicate id state ∧
      (set.insert cmp key state).set.admitted = set.admitted ∧
      (set.insert cmp key state).set.stack = set.stack) ∨
    ((set.insert cmp key state).answer = .admitted set.size ∧
      (set.insert cmp key state).set.admitted = set.admitted ++ [(key, state)] ∧
      (set.insert cmp key state).set.stack = set.size :: set.stack) := by
  have stack_eq := coherent.stack_insert cmp key state
  revert stack_eq
  refine insert_cases (motive := fun outcome =>
    (outcome.set.stack = if outcome.answer.isAdmitted then outcome.answer.id :: set.stack
      else set.stack) →
    (∃ id, outcome.answer = .duplicate id state ∧ outcome.set.admitted = set.admitted ∧
      outcome.set.stack = set.stack) ∨
    (outcome.answer = .admitted set.size ∧
      outcome.set.admitted = set.admitted ++ [(key, state)] ∧
      outcome.set.stack = set.size :: set.stack)) ?_ ?_ ?_ ?_
  · intro id _ stack_eq
    exact .inl ⟨id, rfl, rfl, stack_eq⟩
  · intro after _ _ stack_eq
    exact .inr ⟨rfl, admitted_place .., stack_eq⟩
  · intro after id _ _ _ stack_eq
    exact .inl ⟨id, rfl, admitted_double set, stack_eq⟩
  · intro after after' _ _ _ stack_eq
    refine .inr ⟨rfl, ?_, stack_eq⟩
    rw [admitted_place, admitted_double]

/-- Admitted states stay, in their order, whatever the comparators are. -/
theorem Leads.admitted_isPrefix {permits : Comparator α → Prop} (leads : Leads permits set set')
    (coherent : set.Coherent) : set.admitted <+: set'.admitted := by
  induction leads with
  | refl => exact List.prefix_refl _
  | @insert mid cmp before _ key state ih =>
    refine ih.trans ?_
    rcases (before.coherent coherent).insert_cases_seen cmp key state with
      ⟨_, _, admitted_eq, _⟩ | ⟨_, admitted_eq, _⟩
    · exact admitted_eq ▸ List.prefix_refl _
    · exact admitted_eq ▸ List.prefix_append ..
  | pop _ ih =>
    rw [admitted_pop]
    exact ih

theorem Leads.getElem?_admitted {permits : Comparator α → Prop} (leads : Leads permits set set')
    (coherent : set.Coherent) {id : Id} {entry : UInt64 × α}
    (admitted : set.admitted[id]? = some entry) : set'.admitted[id]? = some entry := by
  obtain ⟨rest, eq⟩ := leads.admitted_isPrefix coherent
  rw [← eq, List.getElem?_append_left (List.getElem?_eq_some_iff.1 admitted).1, admitted]

/-- While more is admitted, states stay under their ids. -/
theorem state?_eq_of_isPrefix (stays : set.admitted <+: set'.admitted) {id : Id}
    (lt : id < set.size) : set'.state? id = set.state? id := by
  obtain ⟨rest, eq⟩ := stays
  rw [state?_eq, state?_eq, ← eq, List.getElem?_append_left (by rwa [length_admitted])]

/-! ## Admissions one after the other -/

/-- The set after offering it candidates one after the other. -/
def insertAll (set : Visited α) (cmp : Comparator α) (candidates : List (UInt64 × α)) : Visited α :=
  candidates.foldl (fun set candidate => (set.insert cmp candidate.1 candidate.2).set) set

theorem leads_insertAll {permits : Comparator α → Prop} {cmp : Comparator α}
    (permitted : permits cmp) (set : Visited α) (candidates : List (UInt64 × α)) :
    Leads permits set (set.insertAll cmp candidates) := by
  induction candidates generalizing set with
  | nil => exact .refl
  | cons candidate candidates ih =>
    have first : Leads permits set (set.insert cmp candidate.1 candidate.2).set :=
      Leads.refl.insert permitted candidate.1 candidate.2
    exact first.trans (ih _)

/-- Some of the candidates are new.  Their ids are the next ones and wait on
top, the last one first. -/
theorem Coherent.insertAll_seen (coherent : set.Coherent) (cmp : Comparator α)
    (candidates : List (UInt64 × α)) :
    ∃ fresh : List (UInt64 × α), fresh.Sublist candidates ∧
      (set.insertAll cmp candidates).admitted = set.admitted ++ fresh ∧
      (set.insertAll cmp candidates).stack =
        (List.range' set.size fresh.length).reverse ++ set.stack := by
  induction candidates generalizing set with
  | nil => exact ⟨[], List.Sublist.refl [], (List.append_nil _).symm, rfl⟩
  | cons candidate candidates ih =>
    obtain ⟨fresh, sublist, admitted_eq, stack_eq⟩ :=
      ih (coherent.insert cmp candidate.1 candidate.2)
    rcases coherent.insert_cases_seen cmp candidate.1 candidate.2 with
      ⟨_, _, admitted_eq', stack_eq'⟩ | ⟨_, admitted_eq', stack_eq'⟩
    · have size_eq : (set.insert cmp candidate.1 candidate.2).set.size = set.size :=
        size_eq_of_admitted (admitted_eq'.trans (List.append_nil _).symm)
      rw [admitted_eq'] at admitted_eq
      rw [size_eq, stack_eq'] at stack_eq
      exact ⟨fresh, sublist.cons candidate, admitted_eq, stack_eq⟩
    · have size_eq : (set.insert cmp candidate.1 candidate.2).set.size = set.size + 1 :=
        size_eq_of_admitted admitted_eq'
      rw [admitted_eq', List.append_assoc] at admitted_eq
      rw [size_eq, stack_eq'] at stack_eq
      refine ⟨candidate :: fresh, sublist.cons_cons candidate, admitted_eq, stack_eq.trans ?_⟩
      rw [List.length_cons, List.range'_succ, List.reverse_cons, List.append_assoc]
      rfl

end Visited

namespace Exploration

variable {cmp : Comparator α} {expand : Expander α} {exploration : Exploration α}

/-! ## One step of an exploration -/

/-- The exploration that has handed a state to the expander and has not yet
offered the successors to the set. -/
def expanding (expand : Expander α) (exploration : Exploration α) (id : Id) (state : α) :
    Exploration α where
  set := exploration.set.pop.2
  buffer := .empty
  tally := { exploration.tally with expanded := exploration.tally.expanded + 1 }
  visits := exploration.visits.push { id, state, carried := exploration.buffer.size }
  events := exploration.events.push (.expanded (exploration.tally.expanded + 1)
    (expand state exploration.buffer).size exploration.set.pop.2.pending)

theorem isDone_iff (coherent : exploration.set.Coherent) :
    exploration.isDone = true ↔ exploration.set.stack = [] := by
  rw [isDone, coherent.peek?_eq, Option.isNone_iff_eq_none, List.head?_eq_none_iff]

theorem exists_stack_eq_cons (coherent : exploration.set.Coherent)
    (waits : exploration.isDone = false) : ∃ id rest, exploration.set.stack = id :: rest := by
  refine List.exists_cons_of_ne_nil fun nothing => ?_
  rw [(isDone_iff coherent).2 nothing] at waits
  cases waits

/-- Where something waits, a step hands out the first id, whose record is
there, and offers the successors. -/
theorem step_eq (cmp : Comparator α) (expand : Expander α)
    (coherent : exploration.set.Coherent) {id : Id} {rest : List Id} (waits : exploration.set.stack = id :: rest) :
    ∃ state, exploration.set.state? id = some state ∧
      exploration.step cmp expand = (expand state exploration.buffer).toList.foldl (offer cmp)
        (exploration.expanding expand id state) := by
  have popped := coherent.pop_fst
  obtain ⟨state, found⟩ :=
    Visited.exists_state? (coherent.lt_size_of_mem_stack (waits ▸ List.mem_cons_self))
  have found' := congrFun (Visited.state?_pop exploration.set) id
  rw [found] at found'
  rw [waits, List.head?_cons] at popped
  refine ⟨state, found, ?_⟩
  rcases exploration with ⟨set, buffer, tally, visits, events⟩
  simp only [step, expanding] at popped found' ⊢
  rcases handed : set.pop with ⟨top, after⟩
  rw [handed] at popped found'
  simp only at popped found'
  subst popped
  simp only [found', ← Array.foldl_toList]
  rfl

/-- Offers touch neither the visits nor the buffer, and what they do to the
set are admissions. -/
theorem foldl_offer (cmp : Comparator α) (successors : List (UInt64 × α)) (exploration : Exploration α) :
    (successors.foldl (offer cmp) exploration).set = exploration.set.insertAll cmp successors ∧
      (successors.foldl (offer cmp) exploration).visits = exploration.visits ∧
      (successors.foldl (offer cmp) exploration).buffer = exploration.buffer := by
  induction successors generalizing exploration with
  | nil => exact ⟨rfl, rfl, rfl⟩
  | cons successor successors ih => exact ih (exploration.offer cmp successor)

end Exploration

end StateSearch
