import Mathlib.Data.List.Nodup
import StateSearch.Proofs.Paths

/-!
# An exploration finds what is reachable

Under a total order whose equal states are identical, and with keys that the
states determine, an exploration is an exhaustive search of a graph.  When it
returns, the set holds what it held before and what paths of expansions lead
to from the states that waited.

There are three groups.

* The search.  `Exploration.Searched` is kept by every step.  Whatever was
  admitted since the start is discovered, and the successors of expanded
  states are in the set.
* The end of the search, where nothing waits.
* What an exploration makes of a set, `Visited.ExploredTo`.
-/

namespace StateSearch

variable {α : Type}

/-! ## The search -/

namespace Exploration

variable {start : Visited α} {cmp : Comparator α} {expand : Expander α} {keyOf : α → UInt64}
  {exploration next : Exploration α} {id : Id} {state : α}

/-- What an exploration has found since it began with the first set, with
keys that the states determine. -/
structure Searched (cmp : Comparator α) (keyOf : α → UInt64) (expand : Expander α)
    (start : Visited α) (exploration : Exploration α) : Prop where
  reachable : exploration.set.ReachableUnder cmp
  keyed : exploration.set.KeyedBy keyOf
  /-- What is new lies on a path. -/
  discovered : ∀ id state, start.size ≤ id → exploration.set.state? id = some state →
    start.Discovers expand state
  /-- The successors of what was expanded are in the set. -/
  closed : ∀ visit ∈ exploration.visits.toList, ∀ state, expand.Yields visit.state state →
    exploration.set.Holds state

/-- A state that was there at the start has kept its only id. -/
theorem Searched.eq_of_state? [Std.TransCmp cmp]
    (searched : Searched cmp keyOf expand start exploration)
    (progress : Progress start exploration) {other : Id}
    (found : exploration.set.state? id = some state)
    (found' : start.state? other = some state) : id = other := by
  rw [← progress.state?_eq (Visited.lt_size_of_state? found')] at found'
  exact searched.reachable.eq_of_state? searched.keyed found found'

/-- What waits, or was expanded, was not handed out before the start. -/
theorem Searched.not_handedOut [Std.TransCmp cmp]
    (searched : Searched cmp keyOf expand start exploration)
    (progress : Progress start exploration) (coherent : start.Coherent)
    (live : id ∈ start.stack ∨ start.size ≤ id)
    (found : exploration.set.state? id = some state) : ¬ start.HandedOut state := by
  intro handedOut
  obtain ⟨other, notMem, found'⟩ := coherent.handedOut_iff.1 handedOut
  obtain rfl := searched.eq_of_state? progress found found'
  exact live.elim notMem (Nat.not_le.2 (Visited.lt_size_of_state? found'))

/-- What waits, or was expanded, lies on a path. -/
theorem Searched.discovers (searched : Searched cmp keyOf expand start exploration)
    (progress : Progress start exploration) (coherent : start.Coherent)
    (live : id ∈ start.stack ∨ start.size ≤ id)
    (found : exploration.set.state? id = some state) : start.Discovers expand state := by
  rcases live with mem | le
  · rw [progress.state?_eq (coherent.lt_size_of_mem_stack mem)] at found
    exact ⟨state, coherent.awaits_iff.2 ⟨id, mem, found⟩, .refl⟩
  · exact searched.discovered id state le found

theorem searched_start (reachable : start.ReachableUnder cmp) (keyed : start.KeyedBy keyOf)
    (expand : Expander α) : Searched cmp keyOf expand start { set := start } where
  reachable := reachable
  keyed := keyed
  discovered := fun _ _ le found =>
    absurd (Visited.lt_size_of_state? found) (Nat.not_lt.2 le)
  closed := fun _ mem => by cases mem

/-- The state that a step expands lies on a path and was not handed out
before, so its successors lie on paths too. -/
theorem Searched.expands [Std.TransCmp cmp] [Std.LawfulEqCmp cmp]
    (searched : Searched cmp keyOf expand start exploration)
    (progress : Progress start exploration) (coherent : start.Coherent)
    {rest : List Id} {fresh : List (UInt64 × α)}
    (expands : Expands cmp expand exploration next id rest state fresh)
    (keyed : ∀ successor ∈ expand.successors state, successor.1 = keyOf successor.2) :
    Searched cmp keyOf expand start next := by
  have popped : exploration.set.pop.2.ReachableUnder cmp :=
    searched.reachable.leads Visited.Leads.refl.pop
  have stays : exploration.set.admitted <+: next.set.admitted := by
    rw [expands.admitted_eq]
    exact List.prefix_append ..
  have live := progress.mem_iff.1 (.inr (expands.waits ▸ List.mem_cons_self))
  have live' : id ∈ start.stack ∨ start.size ≤ id := live.imp_right And.left
  constructor
  case reachable =>
    rw [expands.set_eq]
    exact popped.insertAll _
  case keyed =>
    rw [Visited.keyedBy_iff, expands.admitted_eq]
    intro entry mem
    rcases List.mem_append.1 mem with old | new
    · exact Visited.keyedBy_iff.1 searched.keyed entry old
    · exact keyed entry (expands.fresh_sublist.subset new)
  case discovered =>
    intro newId newState le found
    rcases Nat.lt_or_ge newId exploration.set.size with old | new
    · rw [Visited.state?_eq_of_isPrefix stays old] at found
      exact searched.discovered newId newState le found
    · rw [Visited.state?_eq, expands.admitted_eq,
        List.getElem?_append_right (by rwa [Visited.length_admitted]),
        Option.map_eq_some_iff] at found
      obtain ⟨entry, fresh_eq, rfl⟩ := found
      have yields : expand.Yields state entry.2 :=
        List.mem_map_of_mem (expands.fresh_sublist.subset (List.mem_of_getElem? fresh_eq))
      obtain ⟨first, awaits, path⟩ :=
        searched.discovers progress coherent live' expands.state?_eq
      exact ⟨first, awaits, path.tail
        ⟨yields, searched.not_handedOut progress coherent live' expands.state?_eq⟩⟩
  case closed =>
    intro visit mem other yields
    rw [expands.visits_eq] at mem
    rcases List.mem_append.1 mem with old | new
    · exact (searched.closed visit old other yields).of_isPrefix stays
    · rw [List.mem_singleton.1 new] at yields
      rw [expands.set_eq]
      exact popped.holds_insertAll yields

/-- A whole exploration keeps the books and searches, if the successors that
it came across have the right keys. -/
theorem searched_of_runFor [Std.TransCmp cmp] [Std.LawfulEqCmp cmp] {bound : Nat}
    {result : Exploration α} (reachable : start.ReachableUnder cmp)
    (keyed : start.KeyedBy keyOf)
    (ended : runFor cmp expand bound { set := start } = some result) :
    Progress start result ∧
      (expand.KeyedOn keyOf result.visits.toList → Searched cmp keyOf expand start result) := by
  have coherent := reachable.reachable.coherent
  -- Which keys come up is known of the whole exploration only.  The books do
  -- without them, and are needed to tell that earlier visits are among all.
  refine runFor_induction (motive := fun exploration => Progress start exploration ∧
    (expand.KeyedOn keyOf exploration.visits.toList →
      Searched cmp keyOf expand start exploration)) ended ?_
    ⟨progress_start coherent, fun _ => searched_start reachable keyed expand⟩
  rintro exploration ⟨progress, searches⟩ waits
  obtain ⟨id, rest, state, fresh, expands⟩ :=
    exists_expands cmp expand progress.coherent progress.buffer_eq waits
  have leads : Visited.Leads (fun _ => True) exploration.set (exploration.step cmp expand).set :=
    Visited.leads_step trivial expand exploration
  refine ⟨progress.expands expands (leads.coherent progress.coherent), fun keyed' => ?_⟩
  rw [expands.visits_eq] at keyed'
  have before : expand.KeyedOn keyOf exploration.visits.toList := fun visit mem =>
    keyed' visit (List.mem_append_left _ mem)
  exact (searches before).expands progress coherent expands
    (keyed' _ (List.mem_append_right _ List.mem_cons_self))

/-! ## The end of the search -/

/-- When nothing waits, what is in the set was handed out before the start or
expanded since. -/
theorem Progress.handedOut_or_expanded (progress : Progress start exploration)
    (coherent : start.Coherent) (done : exploration.set.stack = [])
    (holds : exploration.set.Holds state) :
    start.HandedOut state ∨ ∃ visit ∈ exploration.visits.toList, visit.state = state := by
  obtain ⟨id, found⟩ := holds
  by_cases live : id ∈ start.stack ∨ start.size ≤ id
  · have reached := progress.mem_iff.2
      (live.imp_right fun le => ⟨le, Visited.lt_size_of_state? found⟩)
    rw [done, or_iff_left List.not_mem_nil, List.mem_map] at reached
    obtain ⟨visit, mem, rfl⟩ := reached
    have same := (progress.visited visit mem).1.symm.trans found
    exact .inr ⟨visit, mem, Option.some.inj same⟩
  · obtain ⟨notMem, lt⟩ := not_or.1 live
    rw [progress.state?_eq (Nat.not_le.1 lt)] at found
    exact .inl (coherent.handedOut_iff.2 ⟨id, notMem, found⟩)

/-- When nothing waits, every path has been followed to its end. -/
theorem Searched.holds_of_discovers (searched : Searched cmp keyOf expand start exploration)
    (progress : Progress start exploration) (coherent : start.Coherent)
    (done : exploration.set.stack = []) (discovers : start.Discovers expand state) :
    exploration.set.Holds state := by
  obtain ⟨first, awaits, path⟩ := discovers
  induction path with
  | refl =>
    obtain ⟨id, found, _⟩ := awaits
    exact Visited.Holds.of_isPrefix ⟨id, found⟩ progress.admitted_isPrefix
  | @tail mid next _ onward ih =>
    -- The path goes on from `mid`, so `mid` was expanded in this exploration.
    obtain ⟨yields, fresh⟩ := onward
    obtain ⟨visit, mem, rfl⟩ :=
      (progress.handedOut_or_expanded coherent done ih).resolve_left fresh
    exact searched.closed visit mem next yields

/-- What is in the set was there at the start or lies on a path. -/
theorem Searched.discovers_of_holds (searched : Searched cmp keyOf expand start exploration)
    (progress : Progress start exploration) (holds : exploration.set.Holds state) :
    start.Holds state ∨ start.Discovers expand state := by
  obtain ⟨id, found⟩ := holds
  rcases Nat.lt_or_ge id start.size with old | new
  · rw [progress.state?_eq old] at found
    exact .inl ⟨id, found⟩
  · exact .inr (searched.discovered id state new found)

/-- What was expanded waited at the start or is new. -/
theorem Searched.expanded_iff [Std.TransCmp cmp]
    (searched : Searched cmp keyOf expand start exploration)
    (progress : Progress start exploration) (coherent : start.Coherent)
    (done : exploration.set.stack = []) :
    state ∈ exploration.visits.toList.map Visit.state ↔
      start.Awaits state ∨ (exploration.set.Holds state ∧ ¬ start.Holds state) := by
  constructor
  · intro expanded
    obtain ⟨visit, mem, rfl⟩ := List.mem_map.1 expanded
    have found := (progress.visited visit mem).1
    rcases progress.mem_iff.1 (.inl (List.mem_map_of_mem mem)) with waited | ⟨new, _⟩
    · rw [progress.state?_eq (coherent.lt_size_of_mem_stack waited)] at found
      exact .inl (coherent.awaits_iff.2 ⟨_, waited, found⟩)
    · refine .inr ⟨⟨_, found⟩, ?_⟩
      rintro ⟨other, found'⟩
      have same := searched.eq_of_state? progress found found'
      exact Nat.not_lt.2 new (same ▸ Visited.lt_size_of_state? found')
  · intro due
    have ends : exploration.set.Holds state ∧ ¬ start.HandedOut state := by
      rcases due with awaits | ⟨holds, fresh⟩
      · obtain ⟨id, mem, found⟩ := coherent.awaits_iff.1 awaits
        have lt := coherent.lt_size_of_mem_stack mem
        rw [← progress.state?_eq lt] at found
        exact ⟨⟨id, found⟩, searched.not_handedOut progress coherent (.inl mem) found⟩
      · exact ⟨holds, fun ⟨id, found, _⟩ => fresh ⟨id, found⟩⟩
    exact List.mem_map.2
      ((progress.handedOut_or_expanded coherent done ends.1).resolve_left ends.2)

/-- No state is expanded twice, since none has two ids. -/
theorem Searched.nodup [Std.TransCmp cmp]
    (searched : Searched cmp keyOf expand start exploration)
    (progress : Progress start exploration) (coherent : start.Coherent) :
    (exploration.visits.toList.map Visit.state).Nodup := by
  have ids := (List.nodup_append.1 (progress.nodup coherent)).1
  refine List.Nodup.map_on ?_ (List.Nodup.of_map _ ids)
  intro visit mem visit' mem' state_eq
  have found := (progress.visited visit mem).1
  have found' := (progress.visited visit' mem').1
  rw [← state_eq] at found'
  have id_eq := searched.reachable.eq_of_state? searched.keyed found found'
  exact List.inj_on_of_nodup_map ids mem mem' id_eq

end Exploration

/-! ## What an exploration makes of a set -/

namespace Visited

/-- What an exploration makes of a set. -/
structure ExploredTo (set : Visited α) (expand : Expander α) (outcome : Outcome α (Report α)) :
    Prop where
  pending_eq : outcome.set.pending = 0
  holds_iff : ∀ state, outcome.set.Holds state ↔ set.Holds state ∨ set.Discovers expand state
  /-- What waited and what is new was expanded, and nothing else. -/
  expanded_iff : ∀ state, state ∈ outcome.answer.visits.map Visit.state ↔
    set.Awaits state ∨ (outcome.set.Holds state ∧ ¬ set.Holds state)
  /-- No state was expanded twice. -/
  nodup : (outcome.answer.visits.map Visit.state).Nodup

variable {set : Visited α} {cmp : Comparator α} {keyOf : α → UInt64} {expand : Expander α}
  {bound : Nat} {outcome : Outcome α (Report α)}

/-- An exploration keeps to the comparator and to the keys. -/
theorem ReachableUnder.keyedBy_of_explore? [Std.TransCmp cmp] [Std.LawfulEqCmp cmp]
    (reachable : set.ReachableUnder cmp) (keyed : set.KeyedBy keyOf)
    (ended : set.explore? bound cmp expand = some outcome)
    (keyedOn : expand.KeyedOn keyOf outcome.answer.visits) :
    outcome.set.ReachableUnder cmp ∧ outcome.set.KeyedBy keyOf := by
  rw [explore?, Option.map_eq_some_iff] at ended
  rcases ended with ⟨result, ended, rfl⟩
  have searched := (Exploration.searched_of_runFor reachable keyed ended).2 keyedOn
  exact ⟨searched.reachable, searched.keyed⟩

theorem ReachableUnder.exploredTo [Std.TransCmp cmp] [Std.LawfulEqCmp cmp]
    (reachable : set.ReachableUnder cmp) (keyed : set.KeyedBy keyOf)
    (ended : set.explore? bound cmp expand = some outcome)
    (keyedOn : expand.KeyedOn keyOf outcome.answer.visits) : set.ExploredTo expand outcome := by
  have coherent := reachable.reachable.coherent
  rw [explore?, Option.map_eq_some_iff] at ended
  rcases ended with ⟨result, ended, rfl⟩
  obtain ⟨progress, searches⟩ := Exploration.searched_of_runFor reachable keyed ended
  have searched := searches keyedOn
  have done : result.set.stack = [] :=
    (Exploration.isDone_iff progress.coherent).1 (Exploration.isDone_of_runFor ended)
  constructor
  case pending_eq =>
    show result.set.pending = 0
    rw [progress.coherent.pending_eq, done]
    rfl
  case holds_iff =>
    intro state
    constructor
    · exact searched.discovers_of_holds progress
    · rintro (holds | discovers)
      · exact holds.of_isPrefix progress.admitted_isPrefix
      · exact searched.holds_of_discovers progress coherent done discovers
  case expanded_iff => exact fun _ => searched.expanded_iff progress coherent done
  case nodup => exact searched.nodup progress coherent

/-- Under a total order whose equal states are identical, and with keys that
the states determine, an exploration that returns has found what is
reachable, and has expanded what waited and what is new, once each.  From a
fresh set it ends with exactly the states reachable from those that it was
seeded with. -/
theorem explore?_reaches [Std.TransCmp cmp] [Std.LawfulEqCmp cmp] (keyOf : α → UInt64)
    (keyedOn : expand.KeyedOn keyOf outcome.answer.visits) :
    (∀ set : Visited α, set.ReachableUnder cmp → set.KeyedBy keyOf →
      set.explore? bound cmp expand = some outcome → set.ExploredTo expand outcome) ∧
    ∀ count seeds, ValidBucketCount count →
      (seeded cmp keyOf count seeds).explore? bound cmp expand = some outcome →
      ∀ state, outcome.set.Holds state ↔
        ∃ seed ∈ seeds, Relation.ReflTransGen expand.Yields seed state := by
  refine ⟨fun set reachable keyed ended => reachable.exploredTo keyed ended keyedOn, ?_⟩
  intro count seeds valid ended state
  have explored := (reachableUnder_seeded valid seeds cmp keyOf).exploredTo
    (keyedBy_seeded valid seeds cmp keyOf) ended keyedOn
  rw [explored.holds_iff, discovers_seeded_iff valid, holds_seeded_iff valid]
  exact or_iff_right_of_imp fun mem => ⟨state, mem, .refl⟩

/-- In a cyclic graph the only way to one state is cut where a state was
handed out before, and is open from a fresh set. -/
theorem explore?_reaches_clock :
    let cmp : Comparator Nat := Comparator.natural
    let keyOf : Nat → UInt64 := fun n => .ofNat (n % 3)
    let expand : Expander Nat := .ofSuccessors fun n =>
      (if n = 9 then [20] else [n * 2 % 12, (n + 9) % 12]).map fun next => (keyOf next, next)
    Std.TransCmp cmp ∧ Std.LawfulEqCmp cmp ∧
    (∃ (before : Outcome Nat (List (Answer Nat))) (outcome : Outcome Nat (Report Nat)),
      before.set.ReachableUnder cmp ∧ before.set.KeyedBy keyOf ∧
      before.set.explore? 20 cmp expand = some outcome ∧
      expand.KeyedOn keyOf outcome.answer.visits ∧
      ¬ 20 ∈ outcome.set.entries.map Entry.state ∧ before.set.ExploredTo expand outcome) ∧
    ∃ outcome : Outcome Nat (Report Nat),
      (seeded cmp keyOf 1024 [1, 3, 1]).explore? 20 cmp expand = some outcome ∧
      expand.KeyedOn keyOf outcome.answer.visits ∧
      ∀ state, outcome.set.Holds state ↔
        ∃ seed ∈ [1, 3, 1], Relation.ReflTransGen expand.Yields seed state := by
  intro cmp keyOf expand
  have trans : Std.TransCmp cmp := inferInstanceAs (Std.TransCmp (compare : Nat → Nat → _))
  have lawful : Std.LawfulEqCmp cmp :=
    inferInstanceAs (Std.LawfulEqCmp (compare : Nat → Nat → _))
  have keyedOn : ∀ visits, expand.KeyedOn keyOf visits := by
    intro visits visit _ successor mem
    rw [Expander.successors_ofSuccessors] at mem
    obtain ⟨next, _, rfl⟩ := List.mem_map.1 mem
    rfl
  have ended : ((run .always 0 (ofCount 1024)
      [(cmp, .insert 1 1), (cmp, .insert 0 3), (cmp, .insert 0 9), (cmp, .pop)]).bind
      fun before => (before.set.explore? 20 cmp expand).map fun outcome =>
        decide (before.set.KeyedBy keyOf ∧ ¬ 20 ∈ outcome.set.entries.map Entry.state)) =
      some true := by decide +kernel
  have ended' : ((seeded cmp keyOf 1024 [1, 3, 1]).explore? 20 cmp expand).map
      (fun outcome => outcome.set.size) = some 13 := by decide +kernel
  simp only [Option.bind_eq_some_iff, Option.map_eq_some_iff, decide_eq_true_iff] at ended ended'
  rcases ended with ⟨before, ran, outcome, ended, keyed, absent⟩
  rcases ended' with ⟨outcome', ended', _⟩
  have reachable : before.set.ReachableUnder cmp :=
    ⟨1024, .always, 0, validBucketCount_minBuckets, _, before, by simp, ran, rfl⟩
  exact ⟨trans, lawful,
    ⟨before, outcome, reachable, keyed, ended, keyedOn _, absent,
      (explore?_reaches keyOf (keyedOn _)).1 before.set reachable keyed ended⟩,
    outcome', ended', keyedOn _,
    (explore?_reaches keyOf (keyedOn _)).2 1024 _ validBucketCount_minBuckets ended'⟩

end Visited

end StateSearch
