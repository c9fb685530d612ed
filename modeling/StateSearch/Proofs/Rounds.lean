import StateSearch.Proofs.Reach
import StateSearch.Proofs.Termination

/-!
# Exploring in rounds

A caller may insert some states, explore, insert more and explore again.
Under a total order whose equal states are identical, and with keys that the
states determine, this comes to the same end as one exploration from all the
states together.  The orders of the visits, and what counts as new and what
as a duplicate, differ.

There are four groups.

* Rounds, and the reports of a run.
* More states in a set that was explored, all of which wait if they are new.
* The invariant, `Visited.Exhausted`.  A round keeps it since the successors
  of all that was handed out before are in the set.
* The end of all rounds.
-/

namespace StateSearch

variable {α : Type}

/-! ## Rounds -/

/-- The report that an exploration answers with. -/
def Answer.report? : Answer α → Option (Report α)
  | .explored report => some report
  | _ => none

/-- The reports of the explorations of a run. -/
def Outcome.reports (outcome : Outcome α (List (Answer α))) : List (Report α) :=
  outcome.answer.filterMap Answer.report?

/-- The states that were expanded according to the reports, in order. -/
def expandedStates (reports : List (Report α)) : List α :=
  reports.flatMap fun report => report.visits.map Visit.state

/-- For each group in turn, inserts its states and explores. -/
def rounds (cmp : Comparator α) (keyOf : α → UInt64) (expand : Expander α)
    (groups : List (List α)) : List (Comparator α × Operation α) :=
  groups.flatMap fun group =>
    group.map (fun state => (cmp, .insert (keyOf state) state)) ++ [(cmp, .explore expand)]

variable {cmp : Comparator α} {keyOf : α → UInt64} {expand : Expander α}

/-- The counters of a report fit its visits. -/
structure Report.Counts (expand : Expander α) (report : Report α) : Prop where
  expanded_eq : report.tally.expanded = report.visits.length
  offered_eq : report.tally.admitted + report.tally.duplicates =
    (report.visits.map fun visit => (expand.successors visit.state).length).sum

theorem sum_expanded {reports : List (Report α)} (counts : ∀ report ∈ reports, report.Counts expand) :
    (reports.map fun report => report.tally.expanded).sum = (expandedStates reports).length := by
  rw [expandedStates, List.length_flatMap]
  congr 1
  refine List.map_congr_left fun report mem => ?_
  rw [(counts report mem).expanded_eq, List.length_map]

theorem sum_offered {reports : List (Report α)} (counts : ∀ report ∈ reports, report.Counts expand) :
    (reports.map fun report => report.tally.admitted + report.tally.duplicates).sum =
      ((expandedStates reports).map fun state => (expand.successors state).length).sum := by
  rw [expandedStates, List.map_flatMap, List.flatMap_def, List.sum_flatten, List.map_map]
  congr 1
  refine List.map_congr_left fun report mem => ?_
  rw [(counts report mem).offered_eq, Function.comp_apply, List.map_map]
  rfl

namespace Visited

variable {set : Visited α} {bound : Nat} {group : List α} {state : α}

theorem counts_of_explore? (coherent : set.Coherent) {outcome : Outcome α (Report α)}
    (ended : set.explore? bound cmp expand = some outcome) : outcome.answer.Counts expand := by
  rw [explore?, Option.map_eq_some_iff] at ended
  rcases ended with ⟨result, ended, rfl⟩
  have counted := (Exploration.counted_of_runFor coherent ended).2
  exact ⟨counted.expanded_eq, counted.offered_eq⟩

/-- Insertions make no report. -/
theorem run_inserts (cmp : Comparator α) (keyOf : α → UInt64) (reserve : Reserve) (bound : Nat)
    (set : Visited α) (group : List α) :
    ∃ answers events, answers.filterMap Answer.report? = [] ∧
      run reserve bound set (group.map fun state => (cmp, .insert (keyOf state) state)) =
        some { answer := answers, set := set.insertAll cmp (withKeys keyOf group), events } := by
  induction group generalizing set with
  | nil => exact ⟨[], [], rfl, rfl⟩
  | cons state group ih =>
    obtain ⟨answers, events, silent, ran⟩ := ih (set.insert cmp (keyOf state) state).set
    refine ⟨.verdict (set.insert cmp (keyOf state) state).answer :: answers,
      (set.insert cmp (keyOf state) state).events ++ events, silent, ?_⟩
    rw [List.map_cons, run, perform, Option.bind_some]
    simp only [Outcome.map, ran]
    rfl

/-- Rounds are the first round and then the others. -/
theorem run_rounds_cons (cmp : Comparator α) (keyOf : α → UInt64) (expand : Expander α)
    (reserve : Reserve) (bound : Nat) (set : Visited α) (group : List α) (groups : List (List α)) :
    ∃ answers events, answers.filterMap Answer.report? = [] ∧
      run reserve bound set (rounds cmp keyOf expand (group :: groups)) =
        ((set.insertAll cmp (withKeys keyOf group)).explore? bound cmp expand).bind fun explored =>
          (run reserve bound explored.set (rounds cmp keyOf expand groups)).map fun later =>
            { answer := answers ++ .explored explored.answer :: later.answer
              set := later.set
              events := events ++ explored.events ++ later.events } := by
  obtain ⟨answers, events, silent, ran⟩ := run_inserts cmp keyOf reserve bound set group
  refine ⟨answers, events, silent, ?_⟩
  rw [rounds, List.flatMap_cons, ← rounds, List.append_assoc, run_append, ran, Option.bind_some,
    List.singleton_append, run, perform]
  cases (set.insertAll cmp (withKeys keyOf group)).explore? bound cmp expand with
  | none => rfl
  | some explored =>
    cases later : run reserve bound explored.set (rounds cmp keyOf expand groups) with
    | none => simp [Outcome.map, later]
    | some _ => simp [Outcome.map, later]

/-! ## More states in an explored set -/

/-- Where nothing waited, an id waits exactly if it is new. -/
theorem Coherent.mem_stack_insertAll_iff (coherent : set.Coherent) (nothing : set.stack = [])
    {candidates : List (UInt64 × α)} {id : Id}
    (found : (set.insertAll cmp candidates).state? id = some state) :
    id ∈ (set.insertAll cmp candidates).stack ↔ set.size ≤ id := by
  obtain ⟨fresh, _, admitted_eq, stack_eq⟩ := coherent.insertAll_seen cmp candidates
  have lt := lt_size_of_state? found
  rw [size_eq_of_admitted admitted_eq] at lt
  rw [stack_eq, nothing, List.append_nil, List.mem_reverse, List.mem_range'_1]
  exact and_iff_left lt

/-- Where nothing waited, a state waits exactly if it is new. -/
theorem ReachableUnder.awaits_insertAll_iff [Std.TransCmp cmp] (reachable : set.ReachableUnder cmp)
    (nothing : set.stack = []) {candidates : List (UInt64 × α)}
    (keyed : (set.insertAll cmp candidates).KeyedBy keyOf) :
    (set.insertAll cmp candidates).Awaits state ↔
      (set.insertAll cmp candidates).Holds state ∧ ¬ set.Holds state := by
  have coherent := reachable.reachable.coherent
  have reachable' := reachable.insertAll candidates
  have leads : Leads (fun _ => True) set (set.insertAll cmp candidates) :=
    leads_insertAll trivial set candidates
  have stays := leads.admitted_isPrefix coherent
  rw [reachable'.reachable.coherent.awaits_iff]
  constructor
  · rintro ⟨id, mem, found⟩
    refine ⟨⟨id, found⟩, ?_⟩
    rintro ⟨other, found'⟩
    have lt := lt_size_of_state? found'
    rw [← state?_eq_of_isPrefix stays lt] at found'
    obtain rfl := reachable'.eq_of_state? keyed found found'
    exact Nat.not_le.2 lt ((coherent.mem_stack_insertAll_iff nothing found).1 mem)
  · rintro ⟨⟨id, found⟩, new⟩
    refine ⟨id, (coherent.mem_stack_insertAll_iff nothing found).2 (Nat.le_of_not_lt ?_), found⟩
    intro lt
    rw [state?_eq_of_isPrefix stays lt] at found
    exact new ⟨id, found⟩

/-- Where nothing waited, what was handed out is not new. -/
theorem Coherent.holds_of_handedOut_insertAll (coherent : set.Coherent) (nothing : set.stack = [])
    {candidates : List (UInt64 × α)} (handedOut : (set.insertAll cmp candidates).HandedOut state) :
    set.Holds state := by
  have leads : Leads (fun _ => True) set (set.insertAll cmp candidates) :=
    leads_insertAll trivial set candidates
  obtain ⟨id, notMem, found⟩ := (leads.coherent coherent).handedOut_iff.1 handedOut
  rw [coherent.mem_stack_insertAll_iff nothing found] at notMem
  rw [state?_eq_of_isPrefix (leads.admitted_isPrefix coherent) (Nat.not_le.1 notMem)] at found
  exact ⟨id, found⟩

/-! ## The invariant -/

/-- The set holds what can be reached from the seeds, and explorations with
these reports have expanded all of it, once each. -/
structure Exhausted (cmp : Comparator α) (keyOf : α → UInt64) (expand : Expander α)
    (seeds : List α) (reports : List (Report α)) (set : Visited α) : Prop where
  reachable : set.ReachableUnder cmp
  keyed : set.KeyedBy keyOf
  stack_eq : set.stack = []
  holds_iff : ∀ state, set.Holds state ↔
    ∃ seed ∈ seeds, Relation.ReflTransGen expand.Yields seed state
  mem_iff : ∀ state, state ∈ expandedStates reports ↔ set.Holds state
  nodup : (expandedStates reports).Nodup
  counts : ∀ report ∈ reports, report.Counts expand

variable {seeds : List α} {reports : List (Report α)}

theorem exhausted_ofCount {count : Nat} (valid : ValidBucketCount count) (cmp : Comparator α)
    (keyOf : α → UInt64) (expand : Expander α) :
    Exhausted cmp keyOf expand [] [] (ofCount count) where
  reachable := reachableUnder_seeded valid [] cmp keyOf
  keyed := keyedBy_seeded valid [] cmp keyOf
  stack_eq := rfl
  holds_iff state := by simp [not_holds_ofCount]
  mem_iff state := by simp [not_holds_ofCount, expandedStates]
  nodup := List.nodup_nil
  counts _ mem := by cases mem

namespace Exhausted

/-- What a held state yields is held. -/
theorem holds_of_yields (exhausted : Exhausted cmp keyOf expand seeds reports set) {next : α}
    (holds : set.Holds state) (yields : expand.Yields state next) : set.Holds next := by
  obtain ⟨seed, mem, path⟩ := (exhausted.holds_iff state).1 holds
  exact (exhausted.holds_iff next).2 ⟨seed, mem, path.tail yields⟩

section Round

variable [Std.TransCmp cmp] {outcome : Outcome α (Report α)}
  (before : Exhausted cmp keyOf expand seeds reports set)
include before

theorem awaits_insertAll_iff :
    (set.insertAll cmp (withKeys keyOf group)).Awaits state ↔
      (set.insertAll cmp (withKeys keyOf group)).Holds state ∧ ¬ set.Holds state :=
  before.reachable.awaits_insertAll_iff before.stack_eq
    (before.reachable.reachable.coherent.keyedBy_insertAll before.keyed cmp group)

variable [Std.LawfulEqCmp cmp]

theorem holds_insertAll (holds : set.Holds state) :
    (set.insertAll cmp (withKeys keyOf group)).Holds state :=
  before.reachable.holds_insertAll_withKeys_iff.2 (.inl holds)

/-- A round takes nothing out of the set. -/
theorem holds_round
    (explored : (set.insertAll cmp (withKeys keyOf group)).ExploredTo expand outcome)
    (holds : set.Holds state) : outcome.set.Holds state :=
  (explored.holds_iff state).2 (.inl (before.holds_insertAll holds))

/-- A round expands what was not in the set before, whether it was inserted
or found. -/
theorem mem_visits_iff
    (explored : (set.insertAll cmp (withKeys keyOf group)).ExploredTo expand outcome) :
    state ∈ outcome.answer.visits.map Visit.state ↔
      outcome.set.Holds state ∧ ¬ set.Holds state := by
  rw [explored.expanded_iff, before.awaits_insertAll_iff]
  constructor
  · rintro (⟨holds, new⟩ | ⟨holds, new⟩)
    · exact ⟨(explored.holds_iff state).2 (.inl holds), new⟩
    · exact ⟨holds, fun old => new (before.holds_insertAll old)⟩
  · rintro ⟨holds, new⟩
    by_cases inserted : (set.insertAll cmp (withKeys keyOf group)).Holds state
    · exact .inl ⟨inserted, new⟩
    · exact .inr ⟨holds, inserted⟩

/-- After a round, what a held state yields is held.  If the state was there
before the round, this was so already. -/
theorem holds_of_yields_round
    (explored : (set.insertAll cmp (withKeys keyOf group)).ExploredTo expand outcome) {next : α}
    (holds : outcome.set.Holds state) (yields : expand.Yields state next) :
    outcome.set.Holds next := by
  by_cases old : set.Holds state
  · exact before.holds_round explored (before.holds_of_yields old yields)
  · have coherent := before.reachable.reachable.coherent
    have fresh : ¬ (set.insertAll cmp (withKeys keyOf group)).HandedOut state := fun handedOut =>
      old (coherent.holds_of_handedOut_insertAll before.stack_eq handedOut)
    -- The state waited in this round, so no earlier one cuts the path at it.
    have discovers : (set.insertAll cmp (withKeys keyOf group)).Discovers expand state := by
      rcases (explored.holds_iff state).1 holds with inserted | discovers
      · exact ⟨state, before.awaits_insertAll_iff.2 ⟨inserted, old⟩, .refl⟩
      · exact discovers
    obtain ⟨first, awaits, path⟩ := discovers
    exact (explored.holds_iff next).2 (.inr ⟨first, awaits, path.tail ⟨yields, fresh⟩⟩)

/-- After a round the set holds what can be reached from all seeds so far. -/
theorem holds_round_iff
    (explored : (set.insertAll cmp (withKeys keyOf group)).ExploredTo expand outcome) :
    outcome.set.Holds state ↔
      ∃ seed ∈ seeds ++ group, Relation.ReflTransGen expand.Yields seed state := by
  constructor
  · intro holds
    rcases (explored.holds_iff state).1 holds with inserted | ⟨first, awaits, path⟩
    · rcases before.reachable.holds_insertAll_withKeys_iff.1 inserted with old | mem
      · obtain ⟨seed, mem, path⟩ := (before.holds_iff state).1 old
        exact ⟨seed, List.mem_append_left _ mem, path⟩
      · exact ⟨state, List.mem_append_right _ mem, .refl⟩
    · obtain ⟨inserted, new⟩ := before.awaits_insertAll_iff.1 awaits
      have mem := (before.reachable.holds_insertAll_withKeys_iff.1 inserted).resolve_left new
      have path' : Relation.ReflTransGen expand.Yields first state :=
        Relation.ReflTransGen.mono (fun _ _ => And.left) _ _ path
      exact ⟨first, List.mem_append_right _ mem, path'⟩
  · rintro ⟨seed, mem, path⟩
    induction path with
    | refl =>
      refine (explored.holds_iff seed).2 (.inl (before.reachable.holds_insertAll_withKeys_iff.2 ?_))
      refine (List.mem_append.1 mem).imp_left fun old => ?_
      exact (before.holds_iff seed).2 ⟨seed, old, .refl⟩
    | tail _ yields ih => exact before.holds_of_yields_round explored ih yields

/-- Inserting some more states and exploring exhausts what can be reached
from them too. -/
theorem round {bound : Nat}
    (ended : (set.insertAll cmp (withKeys keyOf group)).explore? bound cmp expand = some outcome)
    (keyedOn : expand.KeyedOn keyOf outcome.answer.visits) :
    Exhausted cmp keyOf expand (seeds ++ group) (reports ++ [outcome.answer]) outcome.set := by
  have reachable := before.reachable.insertAll (withKeys keyOf group)
  have keyed := before.reachable.reachable.coherent.keyedBy_insertAll before.keyed cmp group
  have explored := reachable.exploredTo keyed ended keyedOn
  have expanded_eq : expandedStates (reports ++ [outcome.answer]) =
      expandedStates reports ++ outcome.answer.visits.map Visit.state := by
    rw [expandedStates, List.flatMap_append, List.flatMap_singleton]
    rfl
  obtain ⟨reachable', keyed'⟩ := reachable.keyedBy_of_explore? keyed ended keyedOn
  constructor
  case reachable => exact reachable'
  case keyed => exact keyed'
  case stack_eq =>
    have nothing := explored.pending_eq
    rw [reachable'.reachable.coherent.pending_eq] at nothing
    exact List.eq_nil_of_length_eq_zero nothing
  case holds_iff => exact fun _ => before.holds_round_iff explored
  case mem_iff =>
    intro state
    rw [expanded_eq, List.mem_append, before.mem_iff, before.mem_visits_iff explored]
    by_cases old : set.Holds state
    · exact iff_of_true (.inl old) (before.holds_round explored old)
    · rw [or_iff_right old, and_iff_left old]
  case nodup =>
    rw [expanded_eq, List.nodup_append]
    refine ⟨before.nodup, explored.nodup, ?_⟩
    rintro state old _ new rfl
    exact ((before.mem_visits_iff explored).1 new).2 ((before.mem_iff state).1 old)
  case counts =>
    intro report mem
    rcases List.mem_append.1 mem with old | new
    · exact before.counts report old
    · rw [List.mem_singleton.1 new]
      exact counts_of_explore? reachable.reachable.coherent ended

/-- Rounds exhaust what can be reached from one group after the other. -/
theorem run {reserve : Reserve} {groups : List (List α)} {outcome : Outcome α (List (Answer α))}
    (ran : set.run reserve bound (rounds cmp keyOf expand groups) = some outcome)
    (keyedOn : ∀ report ∈ outcome.reports, expand.KeyedOn keyOf report.visits) :
    Exhausted cmp keyOf expand (seeds ++ groups.flatten) (reports ++ outcome.reports)
      outcome.set := by
  induction groups generalizing set seeds reports outcome with
  | nil =>
    obtain rfl := Option.some.inj ran
    rw [List.flatten_nil, List.append_nil, Outcome.reports, List.filterMap_nil, List.append_nil]
    exact before
  | cons group groups ih =>
    obtain ⟨answers, events, silent, run_eq⟩ :=
      run_rounds_cons cmp keyOf expand reserve bound set group groups
    rw [run_eq] at ran
    simp only [Option.bind_eq_some_iff, Option.map_eq_some_iff] at ran
    rcases ran with ⟨explored, ended, later, ran, rfl⟩
    have reports_eq : Outcome.reports
        { answer := answers ++ .explored explored.answer :: later.answer
          set := later.set
          events := events ++ explored.events ++ later.events } =
        explored.answer :: later.reports := by
      rw [Outcome.reports, List.filterMap_append, silent]
      rfl
    rw [reports_eq] at keyedOn
    have first := before.round ended (keyedOn _ List.mem_cons_self)
    have all := ih first ran fun report mem => keyedOn report (List.mem_cons_of_mem _ mem)
    rw [List.append_assoc, List.append_assoc] at all
    rw [reports_eq]
    exact all

end Round

/-! ## The end of all rounds -/

section End

variable (exhausted : Exhausted cmp keyOf expand seeds reports set)
include exhausted

theorem length_expandedStates [Std.TransCmp cmp] : (expandedStates reports).length = set.size := by
  have states := exhausted.reachable.nodup_states exhausted.keyed
  have perm := (List.perm_ext_iff_of_nodup exhausted.nodup states).2 fun state =>
    (exhausted.mem_iff state).trans holds_iff_mem
  rw [perm.length_eq, List.length_map, length_admitted]

theorem perm_expandedStates {reports' : List (Report α)} {set' : Visited α}
    (exhausted' : Exhausted cmp keyOf expand seeds reports' set') :
    (expandedStates reports).Perm (expandedStates reports') := by
  refine (List.perm_ext_iff_of_nodup exhausted.nodup exhausted'.nodup).2 fun state => ?_
  rw [exhausted.mem_iff, exhausted.holds_iff, exhausted'.mem_iff, exhausted'.holds_iff]

/-- What a held state has for successors was admitted, under keys that the
function gives. -/
theorem mem_admitted_of_mem_successors
    (keyedOn : ∀ report ∈ reports, expand.KeyedOn keyOf report.visits) (holds : set.Holds state)
    {successor : UInt64 × α} (mem : successor ∈ expand.successors state) :
    successor.1 = keyOf successor.2 ∧ successor ∈ set.admitted := by
  obtain ⟨report, reported, expanded⟩ := List.mem_flatMap.1 ((exhausted.mem_iff state).2 holds)
  obtain ⟨visit, visited, rfl⟩ := List.mem_map.1 expanded
  have key_eq := keyedOn report reported visit visited successor mem
  have held := exhausted.holds_of_yields holds (List.mem_map_of_mem mem)
  obtain ⟨pair, admitted, state_eq⟩ := List.mem_map.1 (holds_iff_mem.1 held)
  have key_eq' := keyedBy_iff.1 exhausted.keyed pair admitted
  have same : pair = successor := Prod.ext (by rw [key_eq', key_eq, state_eq]) state_eq
  exact ⟨key_eq, same ▸ admitted⟩

/-- If the rounds ended, one exploration from all seeds ends.  It cannot
leave the set that the rounds made. -/
theorem exists_explore?_seeded [Std.TransCmp cmp] [Std.LawfulEqCmp cmp] {count : Nat}
    (valid : ValidBucketCount count)
    (keyedOn : ∀ report ∈ reports, expand.KeyedOn keyOf report.visits) :
    ∃ bound outcome, (seeded cmp keyOf count seeds).explore? bound cmp expand = some outcome ∧
      expand.KeyedOn keyOf outcome.answer.visits := by
  classical
  have reachable := reachableUnder_seeded valid seeds cmp keyOf
  have held : ∀ {state}, (seeded cmp keyOf count seeds).Holds state → set.Holds state := by
    intro state holds
    exact (exhausted.holds_iff state).2 ⟨state, (holds_seeded_iff valid seeds).1 holds, .refl⟩
  have confinedTo : (seeded cmp keyOf count seeds).ConfinedTo expand set.admitted := by
    refine ⟨fun entry mem successor mem' => ?_, fun pair mem successor mem' => ?_⟩
    · have found := (mem_waiting_iff.1 mem).2
      have holds : (seeded cmp keyOf count seeds).Holds entry.state :=
        ⟨entry.id, by rw [← map_state_get?, found, Option.map_some]⟩
      exact (exhausted.mem_admitted_of_mem_successors keyedOn (held holds) mem').2
    · have holds : set.Holds pair.2 := holds_iff_mem.2 (List.mem_map_of_mem mem)
      exact (exhausted.mem_admitted_of_mem_successors keyedOn holds mem').2
  obtain ⟨result, ended⟩ := Exploration.exists_runFor_of_confinedTo reachable confinedTo
  have confined := Exploration.confined_of_runFor reachable confinedTo ended
  have progress := (Exploration.counted_of_runFor reachable.reachable.coherent ended).1
  refine ⟨_, result.outcome, by rw [explore?, ended, Option.map_some], ?_⟩
  intro visit mem successor mem'
  have found := (progress.visited visit mem).1
  have holds : set.Holds visit.state :=
    (confined.holds progress ⟨_, found⟩).elim held holds_iff_mem.2
  exact (exhausted.mem_admitted_of_mem_successors keyedOn holds mem').1

end End

end Exhausted

/-- What explorations in rounds have in common with one exploration. -/
structure SameEnd (inRounds : Outcome α (List (Answer α))) (atOnce : Outcome α (Report α)) :
    Prop where
  holds_iff : ∀ state, inRounds.set.Holds state ↔ atOnce.set.Holds state
  size_eq : inRounds.set.size = atOnce.set.size
  expanded_eq : (inRounds.reports.map fun report => report.tally.expanded).sum =
    atOnce.answer.tally.expanded
  expanded_eq_size : atOnce.answer.tally.expanded = atOnce.set.size
  offered_eq : (inRounds.reports.map fun report =>
      report.tally.admitted + report.tally.duplicates).sum =
    atOnce.answer.tally.admitted + atOnce.answer.tally.duplicates
  /-- No state is expanded twice, be it in one round or in two. -/
  nodup : (expandedStates inRounds.reports).Nodup

/-- Under a total order whose equal states are identical, and with keys that
the states determine, a search can be taken up again.  If every exploration
of some rounds returns, one exploration from all their states returns too and
comes to the same end, whatever the numbers of buckets are. -/
theorem exists_explore?_seeded_of_run_rounds [Std.TransCmp cmp] [Std.LawfulEqCmp cmp]
    {count count' : Nat} (valid : ValidBucketCount count) (valid' : ValidBucketCount count')
    {reserve : Reserve} {groups : List (List α)} {inRounds : Outcome α (List (Answer α))}
    (ran : (ofCount count).run reserve bound (rounds cmp keyOf expand groups) = some inRounds)
    (keyedOn : ∀ report ∈ inRounds.reports, expand.KeyedOn keyOf report.visits) :
    ∃ bound' atOnce,
      (seeded cmp keyOf count' groups.flatten).explore? bound' cmp expand = some atOnce ∧
      SameEnd inRounds atOnce := by
  have exhausted := (exhausted_ofCount valid cmp keyOf expand).run ran keyedOn
  rw [List.nil_append, List.nil_append] at exhausted
  obtain ⟨bound', atOnce, ended, keyedOn'⟩ := exhausted.exists_explore?_seeded valid' keyedOn
  have exhausted' := (exhausted_ofCount valid' cmp keyOf expand).round ended keyedOn'
  rw [List.nil_append, List.nil_append] at exhausted'
  -- Both have expanded all that can be reached from the seeds, once each.
  have perm := exhausted.perm_expandedStates exhausted'
  have expanded_eq := sum_expanded exhausted.counts
  have expanded_eq' := sum_expanded exhausted'.counts
  have offered_eq := sum_offered exhausted.counts
  have offered_eq' := sum_offered exhausted'.counts
  rw [List.map_singleton, List.sum_singleton] at expanded_eq' offered_eq'
  refine ⟨bound', atOnce, ended, ?_, ?_, ?_, ?_, ?_, exhausted.nodup⟩
  · intro state
    rw [exhausted.holds_iff, exhausted'.holds_iff]
  · rw [← exhausted.length_expandedStates, ← exhausted'.length_expandedStates, perm.length_eq]
  · rw [expanded_eq, expanded_eq', perm.length_eq]
  · rw [expanded_eq', exhausted'.length_expandedStates]
  · rw [offered_eq, offered_eq', (perm.map _).sum_nat]

/-- Three rounds through a cyclic graph.  A state of the last group was found
in the first round, and one comes twice. -/
theorem exists_explore?_seeded_of_run_rounds_clock :
    let cmp : Comparator Nat := Comparator.natural
    let keyOf : Nat → UInt64 := fun n => .ofNat (n % 3)
    let expand : Expander Nat := .ofSuccessors fun n =>
      [n * 2 % 12, (n + 9) % 12].map fun next => (keyOf next, next)
    let groups : List (List Nat) := [[3], [], [13, 6, 1, 13]]
    Std.TransCmp cmp ∧ Std.LawfulEqCmp cmp ∧
    ∃ inRounds : Outcome Nat (List (Answer Nat)),
      (ofCount 1024).run .always 20 (rounds cmp keyOf expand groups) = some inRounds ∧
      (∀ report ∈ inRounds.reports, expand.KeyedOn keyOf report.visits) ∧
      inRounds.reports.map (fun report => report.tally.expanded) = [4, 0, 9] ∧
      ∃ bound atOnce,
        (seeded cmp keyOf 2048 [3, 13, 6, 1, 13]).explore? bound cmp expand = some atOnce ∧
        SameEnd inRounds atOnce := by
  intro cmp keyOf expand groups
  have trans : Std.TransCmp cmp := inferInstanceAs (Std.TransCmp Comparator.natural)
  have lawful : Std.LawfulEqCmp cmp := inferInstanceAs (Std.LawfulEqCmp Comparator.natural)
  have keyedOn : ∀ visits, expand.KeyedOn keyOf visits := by
    intro visits visit _ successor mem
    rw [Expander.successors_ofSuccessors] at mem
    obtain ⟨next, _, rfl⟩ := List.mem_map.1 mem
    rfl
  have ended : ((ofCount 1024).run .always 20 (rounds cmp keyOf expand groups)).map
      (fun inRounds => inRounds.reports.map fun report => report.tally.expanded) =
      some [4, 0, 9] := by decide +kernel
  rcases Option.map_eq_some_iff.1 ended with ⟨inRounds, ran, expanded_eq⟩
  have valid : ValidBucketCount 2048 := validBucketCount_minBuckets.double
  have resumed := exists_explore?_seeded_of_run_rounds validBucketCount_minBuckets valid ran
    fun _ _ => keyedOn _
  exact ⟨trans, lawful, inRounds, ran, fun _ _ => keyedOn _, expanded_eq, resumed⟩

end Visited

end StateSearch
