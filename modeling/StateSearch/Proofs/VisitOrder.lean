import Mathlib.Logic.Function.Iterate
import StateSearch.PlainSearch
import StateSearch.Proofs.Paths
import StateSearch.Proofs.PlainRuns

/-!
# The order in which an exploration visits states

Under a total preorder, with keys that agree, an exploration is the plain
search of the textbooks, step by step.  A plain search compares a successor
with every state seen, and a set with the front of one chain; the two come to
the same verdict even where the buckets double between two successors of one
state.

There are three groups.

* What a plain search sees of a set, and its verdict on a candidate.
* One offer, all offers of a step, one step.
* Any number of steps.  `Visited.Encounters` names the pairs whose keys must
  agree, those that come up in the exploration.
-/

namespace StateSearch

variable {α : Type} {cmp : Comparator α} {expand : Expander α}

namespace Visited

variable {set set' : Visited α} {key : UInt64} {candidate : α}

/-! ## What a plain search sees -/

theorem map_state_entries (set : Visited α) :
    set.entries.map Entry.state = set.admitted.map Prod.snd := by
  apply List.ext_getElem?
  intro id
  rw [List.getElem?_map, List.getElem?_map, getElem?_entries, get?_eq, Option.map_map]
  rfl

theorem map_state_waiting (set : Visited α) :
    set.waiting.map Entry.state = set.stack.filterMap set.state? := by
  rw [waiting, List.map_filterMap]
  simp only [map_state_get?]
  rfl

/-- While more is admitted, the states of old ids stay. -/
theorem filterMap_state?_of_isPrefix (stays : set.admitted <+: set'.admitted) {ids : List Id}
    (old : ∀ id ∈ ids, id < set.size) :
    ids.filterMap set'.state? = ids.filterMap set.state? :=
  List.filterMap_congr fun id mem => state?_eq_of_isPrefix stays (old id mem)

/-- Where the keys agree, a candidate is found exactly if some admitted state
is equal to it. -/
theorem ReachableUnder.any_eq_isSome_find? [Std.TransCmp cmp] (reachable : set.ReachableUnder cmp)
    (agree : ∀ entry ∈ set.admitted, cmp entry.2 candidate = .eq → entry.1 = key) :
    (set.entries.map Entry.state).any (fun state => cmp state candidate == .eq) =
      (set.find? cmp key candidate).isSome := by
  have coherent := reachable.reachable.coherent
  rw [map_state_entries, Bool.eq_iff_iff, List.any_eq_true, Option.isSome_iff_exists]
  constructor
  · rintro ⟨state, mem, eq⟩
    obtain ⟨⟨key', state⟩, mem', rfl⟩ := List.mem_map.1 mem
    obtain ⟨id, admitted⟩ := List.mem_iff_getElem?.1 mem'
    have equal : cmp state candidate = .eq := beq_iff_eq.1 eq
    obtain rfl : key' = key := agree _ mem' equal
    exact ⟨id, coherent.find?_eq_some_of_admitted reachable.ascending admitted equal⟩
  · rintro ⟨id, found⟩
    obtain ⟨entry, admitted, _, equal⟩ :=
      (coherent.find?_eq_some_iff reachable.ascending).1 found
    exact ⟨entry.2, List.mem_map_of_mem (List.mem_of_getElem? admitted), beq_iff_eq.2 equal⟩

/-- Under a total preorder a candidate is new exactly if it is not found. -/
theorem ReachableUnder.isAdmitted_insert [Std.TransCmp cmp] (reachable : set.ReachableUnder cmp)
    (key : UInt64) (state : α) :
    (set.insert cmp key state).answer.isAdmitted = (set.find? cmp key state).isNone := by
  refine reachable.reachable.coherent.insert_cases_lawful reachable.ascending
    (motive := fun outcome => outcome.answer.isAdmitted = (set.find? cmp key state).isNone)
    ?_ ?_ ?_
  · intro id found
    rw [found]
    rfl
  · intro after missing _
    rw [missing]
    rfl
  · intro after missing _
    rw [missing]
    rfl

/-- A new state is seen last and waits on top. -/
theorem Coherent.ofSet_of_admitted (coherent : set.Coherent) {state : α}
    (admitted_eq : set'.admitted = set.admitted ++ [(key, state)])
    (stack_eq : set'.stack = set.size :: set.stack) :
    PlainSearch.ofSet set' =
      { PlainSearch.ofSet set with
        seen := (PlainSearch.ofSet set).seen ++ [state]
        stack := state :: (PlainSearch.ofSet set).stack } := by
  have stays : set.admitted <+: set'.admitted := admitted_eq ▸ List.prefix_append ..
  have top : set'.state? set.size = some state := by
    rw [state?_eq, admitted_eq, ← length_admitted, List.getElem?_concat_length]
    rfl
  have below := filterMap_state?_of_isPrefix stays fun _ mem => coherent.lt_size_of_mem_stack mem
  simp only [PlainSearch.ofSet, map_state_entries, map_state_waiting, stack_eq, admitted_eq,
    List.map_append, List.map_singleton, List.filterMap_cons, top, below]

/-- What a plain search sees of a set follows from its pairs and its stack. -/
theorem ofSet_congr (admitted_eq : set'.admitted = set.admitted) (stack_eq : set'.stack = set.stack) :
    PlainSearch.ofSet set' = PlainSearch.ofSet set := by
  have looks : set'.state? = set.state? := by
    funext id
    rw [state?_eq, state?_eq, admitted_eq]
  simp only [PlainSearch.ofSet, map_state_entries, map_state_waiting, stack_eq, admitted_eq, looks]

/-- Handing out takes the top off the stack. -/
theorem Coherent.ofSet_pop (coherent : set.Coherent) {id : Id} {rest : List Id} {state : α}
    (waits : set.stack = id :: rest) (found : set.state? id = some state) :
    PlainSearch.ofSet set =
      { PlainSearch.ofSet set.pop.2 with
        stack := state :: (PlainSearch.ofSet set.pop.2).stack } := by
  simp only [PlainSearch.ofSet, map_state_entries, map_state_waiting, admitted_pop, state?_pop,
    coherent.stack_pop, waits, List.filterMap_cons, found, List.tail_cons]

end Visited

namespace Exploration

variable {exploration : Exploration α} {used : UInt64 × α → Prop}

/-! ## Offers and steps -/

/-- A set that one total preorder has led to, and all of whose pairs are in
use, with an empty buffer. -/
structure InUse (cmp : Comparator α) (used : UInt64 × α → Prop) (exploration : Exploration α) :
    Prop where
  reachable : exploration.set.ReachableUnder cmp
  used : ∀ entry ∈ exploration.set.admitted, used entry
  buffer_eq : exploration.buffer = .empty

/-- A set and a plain search judge a successor alike. -/
theorem InUse.offer [Std.TransCmp cmp] (inUse : exploration.InUse cmp used)
    (agree : KeysAgree cmp used) {successor : UInt64 × α} (candidate : used successor) :
    (exploration.offer cmp successor).InUse cmp used ∧
      (exploration.offer cmp successor).plain = exploration.plain.offer cmp successor.2 := by
  have coherent := inUse.reachable.reachable.coherent
  have later : (exploration.offer cmp successor).set.ReachableUnder cmp :=
    inUse.reachable.insertAll [successor]
  have plain_eq : (exploration.offer cmp successor).plain =
      { PlainSearch.ofSet (exploration.set.insert cmp successor.1 successor.2).set with
        tally := exploration.tally.count
          (exploration.set.insert cmp successor.1 successor.2).answer
        expanded := exploration.visits.toList.map Visit.state } := rfl
  have verdict := inUse.reachable.isAdmitted_insert successor.1 successor.2
  have seen : exploration.plain.seen.any (fun state => cmp state successor.2 == .eq) = _ :=
    inUse.reachable.any_eq_isSome_find? fun entry mem eq =>
      agree entry successor (inUse.used entry mem) candidate eq
  rw [plain_eq, PlainSearch.offer, seen]
  -- What is seen of an admission does not depend on whether the buckets double.
  rcases coherent.insert_cases_seen cmp successor.1 successor.2 with
    ⟨id, answer_eq, admitted_eq, stack_eq⟩ | ⟨answer_eq, admitted_eq, stack_eq⟩
  · have found : (exploration.set.find? cmp successor.1 successor.2).isSome = true := by
      rw [answer_eq] at verdict
      rw [← Option.not_isNone, ← verdict]
      rfl
    refine ⟨⟨later, ?_, inUse.buffer_eq⟩, ?_⟩
    · intro entry mem
      exact inUse.used entry (admitted_eq ▸ mem)
    · rw [if_pos found, answer_eq, Visited.ofSet_congr admitted_eq stack_eq]
      rfl
  · have missing : ¬ (exploration.set.find? cmp successor.1 successor.2).isSome = true := by
      rw [answer_eq] at verdict
      rw [← Option.not_isNone, ← verdict]
      exact Bool.false_ne_true
    refine ⟨⟨later, ?_, inUse.buffer_eq⟩, ?_⟩
    · intro entry mem
      have mem' : entry ∈ exploration.set.admitted ++ [successor] := admitted_eq ▸ mem
      rcases List.mem_append.1 mem' with old | new
      · exact inUse.used entry old
      · rw [List.mem_singleton.1 new]
        exact candidate
    · rw [if_neg missing, answer_eq, coherent.ofSet_of_admitted admitted_eq stack_eq]
      rfl

theorem InUse.offers [Std.TransCmp cmp] (inUse : exploration.InUse cmp used)
    (agree : KeysAgree cmp used) {successors : List (UInt64 × α)}
    (candidates : ∀ successor ∈ successors, used successor) :
    (successors.foldl (Exploration.offer cmp) exploration).InUse cmp used ∧
      (successors.foldl (Exploration.offer cmp) exploration).plain =
        (successors.map Prod.snd).foldl (PlainSearch.offer cmp) exploration.plain := by
  induction successors generalizing exploration with
  | nil => exact ⟨inUse, rfl⟩
  | cons successor successors ih =>
    obtain ⟨inUse', plain_eq'⟩ := inUse.offer agree (candidates successor List.mem_cons_self)
    rw [List.map_cons, List.foldl_cons, List.foldl_cons, ← plain_eq']
    exact ih inUse' fun other mem => candidates other (List.mem_cons_of_mem _ mem)

/-- The plain search has an empty stack exactly if nothing waits. -/
theorem isEmpty_stack_plain (coherent : exploration.set.Coherent) :
    exploration.plain.stack.isEmpty = exploration.isDone := by
  have stack_eq : exploration.plain.stack = _ := Visited.map_state_waiting exploration.set
  rw [Bool.eq_iff_iff, isDone_iff coherent, stack_eq, List.isEmpty_iff, List.filterMap_eq_nil_iff]
  constructor
  · intro stateless
    refine List.eq_nil_iff_forall_not_mem.2 fun id mem => ?_
    obtain ⟨state, found⟩ := Visited.exists_state? (coherent.lt_size_of_mem_stack mem)
    rw [stateless id mem] at found
    cases found
  · intro nothing id mem
    rw [nothing] at mem
    cases mem

/-- Where nothing waits a step changes nothing. -/
theorem step_of_isDone (coherent : exploration.set.Coherent) (done : exploration.isDone = true) :
    exploration.step cmp expand = exploration := by
  have popped := coherent.pop_eq_none ((isDone_iff coherent).1 done)
  rcases exploration with ⟨set, buffer, tally, visits, events⟩
  simp only [Exploration.step]
  rw [popped]

/-- An exploration and a plain search take the same step. -/
theorem InUse.step [Std.TransCmp cmp] (inUse : exploration.InUse cmp used)
    (agree : KeysAgree cmp used)
    (candidates : ∀ visit ∈ (exploration.step cmp expand).visits.toList,
      ∀ successor ∈ expand.successors visit.state, used successor) :
    (exploration.step cmp expand).InUse cmp used ∧
      (exploration.step cmp expand).plain = exploration.plain.step cmp expand := by
  have coherent := inUse.reachable.reachable.coherent
  cases waits : exploration.set.stack with
  | nil =>
    have done := (isDone_iff coherent).2 waits
    have empty : exploration.plain.stack = [] :=
      List.isEmpty_iff.1 ((isEmpty_stack_plain coherent).trans done)
    rw [step_of_isDone coherent done, PlainSearch.step, empty]
    exact ⟨inUse, rfl⟩
  | cons id rest =>
    obtain ⟨state, found, step_eq⟩ := step_eq cmp expand coherent waits
    obtain ⟨_, visits_eq, _⟩ :=
      foldl_offer cmp (expand.successors state) (exploration.expanding expand id state)
    rw [inUse.buffer_eq] at step_eq
    have expanding : (exploration.expanding expand id state).InUse cmp used :=
      ⟨inUse.reachable.leads Visited.Leads.refl.pop,
        fun entry mem => inUse.used entry (Visited.admitted_pop exploration.set ▸ mem), rfl⟩
    have visited : { id, state, carried := exploration.buffer.size } ∈
        (exploration.step cmp expand).visits.toList := by
      rw [step_eq, ← Expander.successors, visits_eq]
      simp [Exploration.expanding]
    have offered := expanding.offers agree (candidates _ visited)
    have plain_eq : exploration.plain =
        { PlainSearch.ofSet exploration.set with
          tally := exploration.tally
          expanded := exploration.visits.toList.map Visit.state } := rfl
    rw [step_eq, ← Expander.successors]
    refine ⟨offered.1, offered.2.trans ?_⟩
    rw [plain_eq, coherent.ofSet_pop waits found]
    simp [PlainSearch.step, Exploration.plain, Exploration.expanding, PlainSearch.ofSet]

/-! ## Any number of steps -/

/-- The exploration of a set after so many steps. -/
def after (cmp : Comparator α) (expand : Expander α) (set : Visited α) (steps : Nat) :
    Exploration α :=
  (step cmp expand)^[steps] { set }

theorem after_succ (cmp : Comparator α) (expand : Expander α) (set : Visited α) (steps : Nat) :
    after cmp expand set (steps + 1) = (after cmp expand set steps).step cmp expand :=
  Function.iterate_succ_apply' _ _ _

end Exploration

namespace Visited

variable {set : Visited α}

/-- The pair is in the set, or comes up as a successor when the set is
explored. -/
def Encounters (set : Visited α) (cmp : Comparator α) (expand : Expander α)
    (entry : UInt64 × α) : Prop :=
  entry ∈ set.admitted ∨
    ∃ steps, ∃ visit ∈ (Exploration.after cmp expand set steps).visits.toList,
      entry ∈ expand.successors visit.state

theorem ReachableUnder.after_inUse [Std.TransCmp cmp] (reachable : set.ReachableUnder cmp)
    (agree : KeysAgree cmp (set.Encounters cmp expand)) (steps : Nat) :
    (Exploration.after cmp expand set steps).InUse cmp (set.Encounters cmp expand) ∧
      (Exploration.after cmp expand set steps).plain =
        (PlainSearch.step cmp expand)^[steps] (.ofSet set) := by
  induction steps with
  | zero => exact ⟨⟨reachable, fun _ mem => .inl mem, rfl⟩, rfl⟩
  | succ steps ih =>
    rw [Exploration.after_succ, Function.iterate_succ_apply', ← ih.2]
    refine ih.1.step agree fun visit mem successor yields => ?_
    exact .inr ⟨steps + 1, visit, Exploration.after_succ cmp expand set steps ▸ mem, yields⟩

/-- One search ends within a bound exactly when the other does, and they end
alike. -/
theorem ReachableUnder.runFor_after [Std.TransCmp cmp] (reachable : set.ReachableUnder cmp)
    (agree : KeysAgree cmp (set.Encounters cmp expand)) (steps bound : Nat) :
    (Exploration.runFor cmp expand bound (Exploration.after cmp expand set steps)).map
        Exploration.plain =
      PlainSearch.runFor cmp expand bound (Exploration.after cmp expand set steps).plain := by
  -- The keys agree for what this exploration comes across, so the induction
  -- on the bound goes over its own states and not over all explorations.
  induction bound generalizing steps with
  | zero =>
    have inUse := (reachable.after_inUse agree steps).1
    rw [Exploration.runFor, PlainSearch.runFor,
      Exploration.isEmpty_stack_plain inUse.reachable.reachable.coherent]
    split <;> rfl
  | succ bound ih =>
    have inUse := (reachable.after_inUse agree steps).1
    have next : (Exploration.after cmp expand set steps).plain.step cmp expand =
        (Exploration.after cmp expand set (steps + 1)).plain := by
      rw [(reachable.after_inUse agree steps).2, (reachable.after_inUse agree (steps + 1)).2,
        Function.iterate_succ_apply']
    rw [Exploration.runFor, PlainSearch.runFor,
      Exploration.isEmpty_stack_plain inUse.reachable.reachable.coherent, next,
      ← Exploration.after_succ]
    split
    · rfl
    · exact ih (steps + 1)

/-- Under a total preorder, with keys that agree, an exploration takes the
steps of the plain search, whether it ends or not.  After every number of
steps both have expanded the same states in the same order, have seen the same
states in the same order, have the same states waiting and the same counters.
One ends within a bound exactly when the other does. -/
theorem ReachableUnder.explore?_eq_plain [Std.TransCmp cmp] (reachable : set.ReachableUnder cmp)
    (agree : KeysAgree cmp (set.Encounters cmp expand)) :
    (∀ steps, (Exploration.after cmp expand set steps).plain =
      (PlainSearch.step cmp expand)^[steps] (.ofSet set)) ∧
    ∀ bound, (set.explore? bound cmp expand).map Outcome.plain =
      PlainSearch.runFor cmp expand bound (.ofSet set) := by
  refine ⟨fun steps => (reachable.after_inUse agree steps).2, fun bound => ?_⟩
  rw [explore?, Option.map_map]
  exact reachable.runFor_after agree 0 bound

/-- A cyclic graph of numbers that are told apart by their tens, two keys for
all of them, and a set from which one state was handed out before. -/
theorem explore?_eq_plain_tens :
    let tens : Comparator Nat := Comparator.natural.on (· / 10)
    let keyOf : Nat → UInt64 := fun n => .ofNat (n / 10 % 2)
    let expand : Expander Nat := .ofSuccessors fun n =>
      [(n + 25) % 90, n / 2, n + 1].map fun next => (keyOf next, next)
    Std.TransCmp tens ∧
    ∃ (before : Outcome Nat (List (Answer Nat))) (outcome : Outcome Nat (Report Nat)),
      before.set.ReachableUnder tens ∧ KeysAgree tens (before.set.Encounters tens expand) ∧
      before.set.explore? 20 tens expand = some outcome ∧
      outcome.answer.visits.map Visit.state = [50, 25, 12, 37, 62, 87, 43, 75] ∧
      (∀ steps, (Exploration.after tens expand before.set steps).plain =
        (PlainSearch.step tens expand)^[steps] (.ofSet before.set)) ∧
      PlainSearch.runFor tens expand 20 (.ofSet before.set) = some outcome.plain := by
  intro tens keyOf expand
  have lawful : Std.TransCmp tens :=
    inferInstanceAs (Std.TransCmp (Comparator.natural.on (· / 10)))
  have ended : ((run .always 0 (ofCount 1024)
      [(tens, .insert 1 50), (tens, .insert 0 3), (tens, .pop)]).bind
      fun before => (before.set.explore? 20 tens expand).map fun outcome =>
        (decide (before.set.KeyedBy keyOf), outcome.answer.visits.map Visit.state)) =
      some (true, [50, 25, 12, 37, 62, 87, 43, 75]) := by decide +kernel
  simp only [Option.bind_eq_some_iff, Option.map_eq_some_iff, Prod.mk.injEq,
    decide_eq_true_iff] at ended
  rcases ended with ⟨before, ran, outcome, ended, keyed, visited⟩
  have reachable : before.set.ReachableUnder tens :=
    ⟨1024, .always, 0, validBucketCount_minBuckets, _, before, by simp, ran, rfl⟩
  have computed : ∀ entry, before.set.Encounters tens expand entry → entry.1 = keyOf entry.2 := by
    rintro entry (old | ⟨_, visit, _, yields⟩)
    · exact keyedBy_iff.1 keyed entry old
    · rw [Expander.successors_ofSuccessors] at yields
      obtain ⟨next, _, rfl⟩ := List.mem_map.1 yields
      rfl
  have agree : KeysAgree tens (before.set.Encounters tens expand) := by
    intro first second met met' eq
    have same : first.2 / 10 = second.2 / 10 := Nat.compare_eq_eq.1 eq
    rw [computed first met, computed second met']
    simp only [keyOf, same]
  have both := reachable.explore?_eq_plain agree
  refine ⟨lawful, before, outcome, reachable, agree, ended, visited, both.1, ?_⟩
  rw [← both.2, ended]
  rfl

end Visited

end StateSearch
