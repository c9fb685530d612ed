import StateSearch.Proofs.Counters
import StateSearch.Proofs.LogLines
import StateSearch.Proofs.Schedule
import StateSearch.Proofs.Separation
import StateSearch.Proofs.VisitOrder

/-!
# The log tells the run

What a run writes to its log is known from the answers and the sets alone.
The buckets double exactly when one more state would fill three quarters of
them, whatever the comparators do, so the line of each doubling is known
beforehand.  In an exploration every expansion takes one of the states that
wait, and adds the new ones among its successors.

There are five groups.

* Lines of doublings.  `GrowthLogged` says that events tell of the doublings
  between two sets, and of nothing else.
* Admissions one after the other.
* Expansions.  `Exploration.Starts` says what one expansion does to an
  exploration and to its log, and `Exploration.Continues` what a list of them
  does.  `Exploration.Steady.exists_continues` is the induction over a whole
  exploration.
* Doublings within explorations and runs.
* What a caller can rely on.
-/

namespace StateSearch

variable {α : Type}

/-! ## Lines of doublings -/

theorem Event.line_doubled (before : Nat) :
    (Event.doubled before (3 * before / 4 - 1)).line = Line.grew before := by
  rw [Line.grew, Nat.mul_comm 2 before]
  rfl

theorem Line.growth_self (initial n : Nat) : growth initial n n = [] := by
  rw [growth, Nat.sub_self]
  rfl

theorem Line.growth_succ (initial n : Nat) :
    growth initial n (n + 1) = [grew (initial * 2 ^ n)] := by
  rw [growth, Nat.add_sub_cancel_left]
  rfl

theorem Line.growth_append {initial m n k : Nat} (le : m ≤ n) (le' : n ≤ k) :
    growth initial m n ++ growth initial n k = growth initial m k := by
  have whole := @List.range'_append_1 m (n - m) (k - n)
  rw [Nat.add_sub_cancel' le, show n - m + (k - n) = k - m by omega] at whole
  rw [growth, growth, growth, ← List.map_append, whole]

namespace Visited

variable {initial : Nat} {set mid set' : Visited α} {cmp : Comparator α} {events later : List Event}

/-- The events tell of the doublings between two sets, and of nothing
else. -/
structure GrowthLogged (initial : Nat) (set set' : Visited α) (events : List Event) : Prop where
  le : set.doublings ≤ set'.doublings
  isGrowth : ∀ event ∈ events, event.isGrowth = true
  lines_eq : events.map Event.line = Line.growth initial set.doublings set'.doublings

theorem GrowthLogged.of_eq (doublings_eq : set'.doublings = set.doublings) :
    GrowthLogged initial set set' [] where
  le := Nat.le_of_eq doublings_eq.symm
  isGrowth := fun _ mem => by cases mem
  lines_eq := by
    rw [doublings_eq, Line.growth_self]
    rfl

theorem GrowthLogged.append (logged : GrowthLogged initial set mid events)
    (logged' : GrowthLogged initial mid set' later) :
    GrowthLogged initial set set' (events ++ later) where
  le := Nat.le_trans logged.le logged'.le
  isGrowth event mem := (List.mem_append.1 mem).elim (logged.isGrowth event) (logged'.isGrowth event)
  lines_eq := by
    rw [List.map_append, logged.lines_eq, logged'.lines_eq, Line.growth_append logged.le logged'.le]

theorem GrowthLogged.filter_eq (logged : GrowthLogged initial set set' events) :
    events.filter Event.isGrowth = events :=
  List.filter_eq_self.2 logged.isGrowth

/-- A doubling comes when one more state fills exactly three quarters of the
buckets, so the buckets tell how many states there are. -/
theorem Scheduled.line_doubled (scheduled : Scheduled initial set) (coherent : set.Coherent)
    (full : set.isFull = true) :
    (Event.doubled set.bucketCount set.size).line =
      Line.grew (initial * 2 ^ set.doublings) := by
  have due := (coherent.isFull_iff_eq scheduled.loose).1 full
  have size_eq : set.size = 3 * set.bucketCount / 4 - 1 := by omega
  rw [size_eq, Event.line_doubled, scheduled.bucketCount_eq]

/-- An admission logs the doubling that it takes, if it takes one. -/
theorem Scheduled.growthLogged_insert (scheduled : Scheduled initial set)
    (coherent : set.Coherent) (cmp : Comparator α) (key : UInt64) (state : α) :
    GrowthLogged initial set (set.insert cmp key state).set (set.insert cmp key state).events := by
  have counted := set.doublings_insert cmp key state
  have told := set.events_insert cmp key state
  split at told
  · next doubles =>
    rw [told] at counted ⊢
    rw [Bool.and_eq_true] at doubles
    refine ⟨?_, ?_, ?_⟩
    · rw [counted]
      exact Nat.le_add_right ..
    · intro event mem
      rw [List.mem_singleton.1 mem]
      rfl
    · rw [counted, List.length_singleton, Line.growth_succ, List.map_singleton,
        scheduled.line_doubled coherent doubles.2]
  · rw [told] at counted ⊢
    exact .of_eq counted

theorem Scheduled.growthLogged_tryInsert (scheduled : Scheduled initial set)
    (coherent : set.Coherent) (reserve : Reserve) (cmp : Comparator α) (key : UInt64) (state : α) :
    GrowthLogged initial set (set.tryInsert reserve cmp key state).set
      (set.tryInsert reserve cmp key state).events := by
  rcases tryInsert_cases reserve set cmp key state with ⟨failure, eq⟩ | eq
  · rw [eq]
    exact .of_eq rfl
  · rw [eq]
    exact scheduled.growthLogged_insert coherent cmp key state

/-! ## Admissions one after the other -/

theorem set_insertEach (cmp : Comparator α) (set : Visited α) (candidates : List (UInt64 × α)) :
    (insertEach cmp set candidates).set = set.insertAll cmp candidates := by
  induction candidates generalizing set with
  | nil => rfl
  | cons candidate candidates ih => exact ih _

theorem Scheduled.growthLogged_insertEach (scheduled : Scheduled initial set)
    (coherent : set.Coherent) (cmp : Comparator α) (candidates : List (UInt64 × α)) :
    GrowthLogged initial set (Visited.insertEach cmp set candidates).set
      (Visited.insertEach cmp set candidates).events := by
  induction candidates generalizing set with
  | nil => exact .of_eq rfl
  | cons candidate candidates ih =>
    have first := scheduled.growthLogged_insert coherent cmp candidate.1 candidate.2
    exact first.append (ih (scheduled.insert coherent cmp _ _) (coherent.insert cmp _ _))

/-- As many states more wait as were new. -/
theorem Coherent.pending_insertEach (coherent : set.Coherent) (cmp : Comparator α)
    (candidates : List (UInt64 × α)) :
    (Visited.insertEach cmp set candidates).set.pending =
      set.pending + (Visited.insertEach cmp set candidates).answer.countP Verdict.isAdmitted := by
  induction candidates generalizing set with
  | nil => rfl
  | cons candidate candidates ih =>
    have coherent' := coherent.insert cmp candidate.1 candidate.2
    have first : (set.insert cmp candidate.1 candidate.2).set.pending = set.pending +
        if (set.insert cmp candidate.1 candidate.2).answer.isAdmitted then 1 else 0 := by
      rw [coherent'.pending_eq, coherent.pending_eq, coherent.stack_insert]
      split <;> rfl
    simp only [Visited.insertEach, ih coherent', first, List.countP_cons]
    omega

end Visited

/-! ## Expansions -/

/-- Counting verdicts one after the other. -/
theorem foldl_count (verdicts : List (Verdict α)) (tally : Tally) :
    verdicts.foldl Tally.count tally =
      { expanded := tally.expanded
        admitted := tally.admitted + verdicts.countP Verdict.isAdmitted
        duplicates := tally.duplicates + verdicts.countP fun verdict => !verdict.isAdmitted } := by
  induction verdicts generalizing tally with
  | nil => rfl
  | cons verdict verdicts ih =>
    rw [List.foldl_cons, ih, List.countP_cons, List.countP_cons]
    cases verdict <;> simp [Tally.count, Verdict.isAdmitted] <;> omega

namespace Expansion

variable {expansion : Expansion α} {expansions : List (Expansion α)} {initial done pending : Nat}
  {expand : Expander α}

theorem admittedBefore_cons_succ (expansion : Expansion α) (expansions : List (Expansion α))
    (i : Nat) :
    admittedBefore (expansion :: expansions) (i + 1) =
      expansion.admitted + admittedBefore expansions i := by
  simp [admittedBefore]

/-- The first of some expansions, and then the others, before which one state
less waits, and the new ones more. -/
theorem lines_cons (initial : Nat) (expand : Expander α) (done : Nat) (waits : 0 < pending)
    (expansion : Expansion α) (expansions : List (Expansion α)) :
    lines initial expand done pending (expansion :: expansions) =
      Line.expanded (done + 1) (expand.successors expansion.visit.state).length (pending - 1) ::
        Line.growth initial expansion.before.doublings expansion.offered.set.doublings ++
      lines initial expand (done + 1) (pending - 1 + expansion.admitted) expansions := by
  have shifted : ∀ i, pending + admittedBefore (expansion :: expansions) (i + 1) - (i + 1 + 1) =
      pending - 1 + expansion.admitted + admittedBefore expansions i - (i + 1) := by
    intro i
    rw [admittedBefore_cons_succ]
    omega
  have ordinal : ∀ i, done + (i + 1 + 1) = done + 1 + (i + 1) := by
    intro i
    omega
  simp only [lines, List.mapIdx_cons, List.flatten_cons, shifted, ordinal]
  rfl

end Expansion

namespace Exploration

variable {cmp : Comparator α} {expand : Expander α} {initial : Nat}
  {exploration next result : Exploration α} {expansions : List (Expansion α)}

/-- Offers add to the counters and to the events what admissions one after the
other answer and report. -/
theorem foldl_offer_insertEach (cmp : Comparator α) (successors : List (UInt64 × α))
    (exploration : Exploration α) :
    (successors.foldl (offer cmp) exploration).tally =
        (Visited.insertEach cmp exploration.set successors).answer.foldl Tally.count
          exploration.tally ∧
      (successors.foldl (offer cmp) exploration).events.toList =
        exploration.events.toList ++
          (Visited.insertEach cmp exploration.set successors).events := by
  induction successors generalizing exploration with
  | nil => exact ⟨rfl, (List.append_nil _).symm⟩
  | cons successor successors ih =>
    obtain ⟨tally_eq, events_eq⟩ := ih (exploration.offer cmp successor)
    have first : (exploration.offer cmp successor).events.toList = exploration.events.toList ++
        (exploration.set.insert cmp successor.1 successor.2).events := by
      simp [offer]
    refine ⟨tally_eq, events_eq.trans ?_⟩
    rw [first, List.append_assoc]
    rfl

/-- Between the two explorations the set has doubled as the events tell. -/
def TellsGrowth (initial : Nat) (exploration next : Exploration α) : Prop :=
  ∃ told, next.events.toList = exploration.events.toList ++ told ∧
    Visited.GrowthLogged initial exploration.set next.set (told.filter Event.isGrowth)

theorem TellsGrowth.refl (initial : Nat) (exploration : Exploration α) :
    TellsGrowth initial exploration exploration :=
  ⟨[], (List.append_nil _).symm, .of_eq rfl⟩

theorem TellsGrowth.trans (tells : TellsGrowth initial exploration next)
    (tells' : TellsGrowth initial next result) : TellsGrowth initial exploration result := by
  obtain ⟨told, events_eq, logged⟩ := tells
  obtain ⟨told', events_eq', logged'⟩ := tells'
  refine ⟨told ++ told', by rw [events_eq', events_eq, List.append_assoc], ?_⟩
  rw [List.filter_append]
  exact logged.append logged'

/-- What some expansions add to an exploration. -/
structure Continues (initial : Nat) (expand : Expander α) (exploration result : Exploration α)
    (expansions : List (Expansion α)) : Prop where
  expanded_eq : result.tally.expanded = exploration.tally.expanded + expansions.length
  admitted_eq : result.tally.admitted =
    exploration.tally.admitted + (expansions.map Expansion.admitted).sum
  duplicates_eq : result.tally.duplicates =
    exploration.tally.duplicates + (expansions.map Expansion.duplicates).sum
  visits_eq : result.visits.toList =
    exploration.visits.toList ++ expansions.map Expansion.visit
  waits : ∀ i < expansions.length,
    i + 1 ≤ exploration.set.pending + Expansion.admittedBefore expansions i
  lines_eq : result.events.toList.map Event.line = exploration.events.toList.map Event.line ++
    Expansion.lines initial expand exploration.tally.expanded exploration.set.pending expansions
  tells : TellsGrowth initial exploration result
  set_eq : result.set =
    expansions.foldl (fun _ expansion => expansion.offered.set) exploration.set

theorem Continues.refl (initial : Nat) (expand : Expander α) (exploration : Exploration α) :
    Continues initial expand exploration exploration [] where
  expanded_eq := rfl
  admitted_eq := rfl
  duplicates_eq := rfl
  visits_eq := (List.append_nil _).symm
  waits _ lt := absurd lt (Nat.not_lt_zero _)
  lines_eq := (List.append_nil _).symm
  tells := .refl initial exploration
  set_eq := rfl

/-- One expansion, and what it makes of the number of waiting states. -/
structure Starts (initial : Nat) (expand : Expander α) (exploration next : Exploration α)
    (expansion : Expansion α) : Prop where
  expanded_eq : next.tally.expanded = exploration.tally.expanded + 1
  admitted_eq : next.tally.admitted = exploration.tally.admitted + expansion.admitted
  duplicates_eq : next.tally.duplicates = exploration.tally.duplicates + expansion.duplicates
  visits_eq : next.visits.toList = exploration.visits.toList ++ [expansion.visit]
  waits : 0 < exploration.set.pending
  pending_eq : next.set.pending = exploration.set.pending - 1 + expansion.admitted
  lines_eq : next.events.toList.map Event.line = exploration.events.toList.map Event.line ++
    Line.expanded (exploration.tally.expanded + 1)
        (expand.successors expansion.visit.state).length (exploration.set.pending - 1) ::
      Line.growth initial expansion.before.doublings expansion.offered.set.doublings
  tells : TellsGrowth initial exploration next
  set_eq : next.set = expansion.offered.set

theorem Starts.continues {expansion : Expansion α}
    (starts : Starts initial expand exploration next expansion)
    (continues : Continues initial expand next result expansions) :
    Continues initial expand exploration result (expansion :: expansions) where
  expanded_eq := by
    rw [continues.expanded_eq, starts.expanded_eq, List.length_cons]
    omega
  admitted_eq := by
    rw [continues.admitted_eq, starts.admitted_eq, List.map_cons, List.sum_cons, Nat.add_assoc]
  duplicates_eq := by
    rw [continues.duplicates_eq, starts.duplicates_eq, List.map_cons, List.sum_cons, Nat.add_assoc]
  visits_eq := by
    rw [continues.visits_eq, starts.visits_eq, List.append_assoc]
    rfl
  waits := by
    intro i lt
    cases i with
    | zero => exact Nat.le_trans starts.waits (Nat.le_add_right ..)
    | succ i =>
      have later := continues.waits i (Nat.lt_of_succ_lt_succ lt)
      have waits := starts.waits
      rw [starts.pending_eq] at later
      rw [Expansion.admittedBefore_cons_succ]
      omega
  lines_eq := by
    rw [continues.lines_eq, starts.lines_eq, starts.expanded_eq, starts.pending_eq,
      Expansion.lines_cons initial expand _ starts.waits, List.append_assoc]
  tells := starts.tells.trans continues.tells
  set_eq := by
    rw [continues.set_eq, starts.set_eq, List.foldl_cons]

/-- The set is in order and keeps to the schedule, and no successors are left
over. -/
structure Steady (initial : Nat) (exploration : Exploration α) : Prop where
  coherent : exploration.set.Coherent
  scheduled : Visited.Scheduled initial exploration.set
  buffer_eq : exploration.buffer = .empty

theorem Steady.step (steady : Steady initial exploration) (cmp : Comparator α)
    (expand : Expander α) : Steady initial (exploration.step cmp expand) := by
  have leads : Visited.Leads (fun _ => True) exploration.set (exploration.step cmp expand).set :=
    Visited.leads_step trivial expand exploration
  refine ⟨leads.coherent steady.coherent, leads.scheduled steady.coherent steady.scheduled, ?_⟩
  cases waits : exploration.isDone with
  | true =>
    rw [step_of_isDone steady.coherent waits]
    exact steady.buffer_eq
  | false =>
    obtain ⟨id, rest, state, fresh, expands⟩ :=
      exists_expands cmp expand steady.coherent steady.buffer_eq waits
    exact expands.buffer_eq

/-- A step that takes this state is its expansion. -/
theorem Steady.starts (steady : Steady initial exploration) {id : Id} {rest : List Id} {state : α}
    (stack_eq : exploration.set.stack = id :: rest)
    (step_eq : exploration.step cmp expand = (expand.successors state).foldl (offer cmp)
      (exploration.expanding expand id state)) :
    Starts initial expand exploration (exploration.step cmp expand)
      (.ofTaken cmp expand exploration.set.pop.2 id state) := by
  have coherent := steady.coherent
  have popped := coherent.pop
  have scheduled : Visited.Scheduled initial exploration.set.pop.2 :=
    steady.scheduled.imp Visited.OnSchedule.pop Visited.Early.pop
  have handed : Visited.GrowthLogged initial exploration.set exploration.set.pop.2 [] := .of_eq rfl
  have logged := scheduled.growthLogged_insertEach popped cmp (expand.successors state)
  have pending_eq : exploration.set.pop.2.pending = exploration.set.pending - 1 := by
    rw [popped.pending_eq, coherent.pending_eq, coherent.stack_pop, List.length_tail]
  have told : (exploration.expanding expand id state).events.toList = exploration.events.toList ++
      [.expanded (exploration.tally.expanded + 1) (expand.successors state).length
        (exploration.set.pending - 1)] := by
    rw [expanding, Array.toList_push, steady.buffer_eq, pending_eq, Expander.successors,
      SuccessorBuffer.length_toList]
  obtain ⟨set_eq, visits_eq, _⟩ :=
    foldl_offer cmp (expand.successors state) (exploration.expanding expand id state)
  obtain ⟨tally_eq, events_eq⟩ :=
    foldl_offer_insertEach cmp (expand.successors state) (exploration.expanding expand id state)
  rw [← step_eq] at set_eq tally_eq events_eq visits_eq
  rw [← Visited.set_insertEach] at set_eq
  rw [foldl_count] at tally_eq
  rw [told, List.append_assoc] at events_eq
  exact {
    expanded_eq := congrArg Tally.expanded tally_eq
    admitted_eq := congrArg Tally.admitted tally_eq
    duplicates_eq := congrArg Tally.duplicates tally_eq
    visits_eq := by
      rw [visits_eq, expanding, steady.buffer_eq, Array.toList_push]
      rfl
    waits := by
      rw [coherent.pending_eq, stack_eq]
      exact Nat.succ_pos _
    pending_eq := by
      rw [set_eq, ← pending_eq]
      exact popped.pending_insertEach cmp (expand.successors state)
    lines_eq := by
      rw [events_eq, List.map_append, List.map_append]
      exact congrArg (_ ++ _ :: ·) logged.lines_eq
    tells := by
      refine ⟨_, events_eq, ?_⟩
      rw [List.singleton_append, List.filter_cons_of_neg Bool.false_ne_true, set_eq]
      exact logged.filter_eq.symm ▸ handed.append logged
    set_eq }

/-- Where something waits, a step is the first of the expansions of the
waiting states. -/
theorem Steady.exists_starts (steady : Steady initial exploration) (cmp : Comparator α)
    (expand : Expander α) (waits : exploration.isDone = false) :
    ∃ expansion, Starts initial expand exploration (exploration.step cmp expand) expansion ∧
      ∀ n, exploration.set.expandFor cmp expand (n + 1) =
        expansion :: (exploration.step cmp expand).set.expandFor cmp expand n := by
  obtain ⟨id, rest, stack_eq⟩ := exists_stack_eq_cons steady.coherent waits
  obtain ⟨state, found, step_eq⟩ := step_eq cmp expand steady.coherent stack_eq
  rw [steady.buffer_eq, ← Expander.successors] at step_eq
  have starts := steady.starts stack_eq step_eq
  have top : exploration.set.pop = (some id, exploration.set.pop.2) := by
    have first := steady.coherent.pop_fst
    rw [stack_eq, List.head?_cons] at first
    rw [← first]
  have found' : exploration.set.pop.2.state? id = some state := by
    rw [Visited.state?_pop, found]
  refine ⟨_, starts, fun n => ?_⟩
  rw [starts.set_eq, Visited.expandFor, top]
  simp only [found']

/-- An exploration that ends is a list of expansions. -/
theorem Steady.exists_continues (steady : Steady initial exploration) {bound : Nat}
    (ended : runFor cmp expand bound exploration = some result) :
    ∃ expansions, exploration.set.expandFor cmp expand expansions.length = expansions ∧
      Continues initial expand exploration result expansions := by
  refine runFor_head_induction (motive := fun _ exploration => Steady initial exploration →
    ∃ expansions, exploration.set.expandFor cmp expand expansions.length = expansions ∧
      Continues initial expand exploration result expansions) ended ?_ ?_ steady
  · intro _ _ _
    exact ⟨[], rfl, .refl initial expand result⟩
  · intro _ exploration waits _ rest steady
    obtain ⟨expansion, starts, expandFor_eq⟩ := steady.exists_starts cmp expand waits
    obtain ⟨expansions, later_eq, continues⟩ := rest (steady.step cmp expand)
    refine ⟨expansion :: expansions, ?_, starts.continues continues⟩
    rw [List.length_cons, expandFor_eq, later_eq]

/-! ## Doublings within explorations and runs -/

theorem Steady.tellsGrowth_step (steady : Steady initial exploration) (cmp : Comparator α)
    (expand : Expander α) : TellsGrowth initial exploration (exploration.step cmp expand) := by
  cases waits : exploration.isDone with
  | true =>
    rw [step_of_isDone steady.coherent waits]
    exact .refl initial exploration
  | false =>
    obtain ⟨expansion, starts, _⟩ := steady.exists_starts cmp expand waits
    exact starts.tells

/-- After any number of steps, whether the exploration ends or not, the
events so far tell how the set has doubled. -/
theorem Steady.tellsGrowth_after {set : Visited α} (steady : Steady initial { set })
    (cmp : Comparator α) (expand : Expander α) (steps : Nat) :
    Steady initial (after cmp expand set steps) ∧
      TellsGrowth initial { set } (after cmp expand set steps) := by
  induction steps with
  | zero => exact ⟨steady, .refl initial _⟩
  | succ steps ih =>
    rw [after_succ]
    exact ⟨ih.1.step cmp expand, ih.2.trans (ih.1.tellsGrowth_step cmp expand)⟩

end Exploration

namespace Visited

variable {initial : Nat} {set : Visited α} {cmp : Comparator α} {reserve : Reserve} {bound : Nat}

/-- An exploration that returns writes its expansions and its end, and its
events tell how the set has doubled. -/
theorem Scheduled.explore? (scheduled : Scheduled initial set) (coherent : set.Coherent)
    {expand : Expander α} {explored : Outcome α (Report α)}
    (ended : set.explore? bound cmp expand = some explored) :
    (∃ expansions, ExplorationWrites initial set cmp expand explored.answer
      (explored.map .explored) expansions) ∧
    GrowthLogged initial set explored.set (explored.events.filter Event.isGrowth) := by
  rw [Visited.explore?, Option.map_eq_some_iff] at ended
  obtain ⟨result, ended, rfl⟩ := ended
  obtain ⟨_, counted⟩ := Exploration.counted_of_runFor coherent ended
  have steady : Exploration.Steady initial { set } := ⟨coherent, scheduled, rfl⟩
  obtain ⟨expansions, expansions_eq, continues⟩ := steady.exists_continues ended
  have expanded_eq : result.tally.expanded = expansions.length :=
    continues.expanded_eq.trans (Nat.zero_add _)
  have events_eq : result.outcome.events = result.events.toList ++
      [.finished result.set.size result.tally.expanded result.tally.duplicates
        result.set.bucketCount] := Array.toList_push
  refine ⟨⟨expansions, ?_⟩, ?_⟩
  · exact {
      expansions_eq := expanded_eq ▸ expansions_eq
      expanded_eq
      admitted_eq := continues.admitted_eq.trans (Nat.zero_add _)
      duplicates_eq := continues.duplicates_eq.trans (Nat.zero_add _)
      visits_eq := continues.visits_eq
      set_eq := continues.set_eq
      waits := continues.waits
      lines_eq := by
        show result.outcome.events.map Event.line = _
        rw [events_eq, List.map_append, continues.lines_eq, counted.size_eq]
        rfl }
  · obtain ⟨told, told_eq, logged⟩ := continues.tells
    rw [events_eq, told_eq, List.filter_append]
    exact logged.append (.of_eq rfl)

theorem Scheduled.perform (scheduled : Scheduled initial set) (coherent : set.Coherent)
    {operation : Operation α} {next : Outcome α (Answer α)}
    (performed : set.perform reserve bound cmp operation = some next) :
    operation.Writes initial set cmp next ∧
      GrowthLogged initial set next.set (next.events.filter Event.isGrowth) := by
  cases operation with
  | insert key state =>
    obtain rfl := Option.some.inj performed
    have logged := scheduled.growthLogged_insert coherent cmp key state
    exact ⟨logged.lines_eq, logged.filter_eq.symm ▸ logged⟩
  | tryInsert key state =>
    obtain rfl := Option.some.inj performed
    have logged := scheduled.growthLogged_tryInsert coherent reserve cmp key state
    exact ⟨logged.lines_eq, logged.filter_eq.symm ▸ logged⟩
  | explore expand =>
    rw [Visited.perform, Option.map_eq_some_iff] at performed
    obtain ⟨explored, ended, rfl⟩ := performed
    obtain ⟨⟨expansions, writes⟩, logged⟩ := scheduled.explore? coherent ended
    exact ⟨⟨_, expansions, rfl, writes⟩, logged⟩
  | find | contains | pop | peek | entries | waiting =>
    obtain rfl := Option.some.inj performed
    exact ⟨rfl, .of_eq rfl⟩

theorem Scheduled.growthLogged_run (scheduled : Scheduled initial set) (coherent : set.Coherent)
    {operations : List (Comparator α × Operation α)} {outcome : Outcome α (List (Answer α))}
    (ran : run reserve bound set operations = some outcome) :
    GrowthLogged initial set outcome.set (outcome.events.filter Event.isGrowth) := by
  refine run_induction (motive := fun set _ outcome => Scheduled initial set → set.Coherent →
    GrowthLogged initial set outcome.set (outcome.events.filter Event.isGrowth)) ran ?_ ?_
    scheduled coherent
  · intro set _ _
    exact .of_eq rfl
  · intro set cmp operation operations first later performed rest scheduled coherent
    have leads : Leads (fun _ => True) set first.set := leads_of_perform trivial performed
    rw [List.filter_append]
    exact (scheduled.perform coherent performed).2.append
      (rest (leads.scheduled coherent scheduled) (leads.coherent coherent))

/-! ## What a caller can rely on -/

/-- The log of a run on a set that started with `initial` buckets: the
doublings in it, and what each operation writes. -/
structure LogTells (initial : Nat) (reserve : Reserve) (bound : Nat)
    (operations : List (Comparator α × Operation α)) (outcome : Outcome α (List (Answer α))) :
    Prop where
  /-- Every doubling has its line, and no line of this kind is in excess. -/
  growth : (outcome.events.filter Event.isGrowth).map Event.line =
    (List.range outcome.set.doublings).map fun doublings => Line.grew (initial * 2 ^ doublings)
  /-- The same holds while an exploration is under way that need not end. -/
  underway : ∀ cmp expand steps,
    let current := Exploration.after cmp expand outcome.set steps
    ((outcome.events ++ current.events.toList).filter Event.isGrowth).map Event.line =
      (List.range current.set.doublings).map fun doublings => Line.grew (initial * 2 ^ doublings)
  /-- Each operation writes its lines behind those of the operations before
  it. -/
  writes : ∀ before cmp operation after, operations = before ++ (cmp, operation) :: after →
    ∃ early next later, run reserve bound (ofCount initial) before = some early ∧
      early.set.perform reserve bound cmp operation = some next ∧
      run reserve bound next.set after = some later ∧
      outcome.events = early.events ++ next.events ++ later.events ∧
      operation.Writes initial early.set cmp next

/-- The doublings of a set from its start on. -/
theorem GrowthLogged.lines_eq_range {set' : Visited α} {events : List Event}
    (logged : GrowthLogged initial set set' events) (fresh : set.doublings = 0) :
    events.map Event.line =
      (List.range set'.doublings).map fun doublings => Line.grew (initial * 2 ^ doublings) := by
  rw [logged.lines_eq, fresh, Line.growth, Nat.sub_zero, List.range_eq_range']

/-- Whatever the comparators of a run are, its log tells the run: the line of
each doubling is known from the initial number of buckets, and what an
operation writes is known from what it does. -/
theorem logTells_of_run {count : Nat} (valid : ValidBucketCount count)
    {operations : List (Comparator α × Operation α)} {outcome : Outcome α (List (Answer α))}
    (ran : run reserve bound (ofCount count) operations = some outcome) :
    LogTells count reserve bound operations outcome := by
  have start : (ofCount count : Visited α).Coherent := coherent_ofCount valid
  have fresh : Scheduled count (ofCount count : Visited α) := .inl (onSchedule_ofCount valid)
  have leads : Leads (fun _ => True) (ofCount count) outcome.set :=
    leads_of_run (fun _ _ => trivial) ran
  have logged := fresh.growthLogged_run start ran
  refine ⟨logged.lines_eq_range rfl, fun cmp expand steps => ?_, fun before cmp operation after
    split => ?_⟩
  · have steady : Exploration.Steady count { set := outcome.set } :=
      ⟨leads.coherent start, leads.scheduled start fresh, rfl⟩
    obtain ⟨_, told, events_eq, logged'⟩ := steady.tellsGrowth_after cmp expand steps
    intro current
    rw [show current.events.toList = told from events_eq, List.filter_append]
    exact (logged.append logged').lines_eq_range rfl
  · subst split
    rw [run_append, Option.bind_eq_some_iff] at ran
    obtain ⟨early, ran_early, ran⟩ := ran
    rw [Option.map_eq_some_iff] at ran
    obtain ⟨rest, ran, rfl⟩ := ran
    rw [run_cons_eq_some_iff] at ran
    obtain ⟨next, performed, later, ran_later, rfl⟩ := ran
    have before : Leads (fun _ => True) (ofCount count) early.set :=
      leads_of_run (fun _ _ => trivial) ran_early
    have written := (before.scheduled start fresh).perform (before.coherent start) performed
    exact ⟨early, next, later, ran_early, performed, ran_later, (List.append_assoc ..).symm,
      written.1⟩

/-- An exploration under a comparator that is no order, and a run that doubles
the buckets for a duplicate. -/
theorem logTells_of_run_stray :
    let stray : Comparator Nat := fun a b => if a % 3 = b % 2 then .eq else .lt
    let expand : Expander Nat := .ofSuccessors fun n =>
      if n < 6 then [(7, n + 3), (1031, 2 * n + 1)] else []
    let operations : List (Comparator Nat × Operation Nat) :=
      [(Comparator.natural, .insert 7 2), (Comparator.natural, .insert 7 4), (stray, .pop),
        (Comparator.natural, .tryInsert 1031 5), (stray, .explore expand)]
    ValidBucketCount 1024 ∧
    (∃ outcome, run .always 9 (ofCount 1024) operations = some outcome ∧
      outcome.events.map Event.line =
        [(.trace, "expanded state #1 into 2 successors (1 pending)"),
          (.trace, "expanded state #2 into 0 successors (1 pending)"),
          (.trace, "expanded state #3 into 2 successors (0 pending)"),
          (.debug, "exploration done: 4 states, 3 expanded, 3 duplicate successors, 1024 buckets")] ∧
      LogTells 1024 .always 9 operations outcome) ∧
    ∃ operations : List (Comparator Nat × Operation Nat), ∃ outcome,
      run .always 0 (ofCount 1024) operations = some outcome ∧
      (outcome.events.filter Event.isGrowth).map Event.line =
        [(.debug, "state set grew from 1024 to 2048 buckets (767 entries)")] ∧
      LogTells 1024 .always 0 operations outcome := by
  intro stray expand operations
  have valid : ValidBucketCount 1024 := validBucketCount_minBuckets
  refine ⟨valid, ?_, ?_⟩
  · have ended : (run .always 9 (ofCount 1024) operations).map
        (fun outcome => outcome.events.map Event.line) = some
          [(.trace, "expanded state #1 into 2 successors (1 pending)"),
            (.trace, "expanded state #2 into 0 successors (1 pending)"),
            (.trace, "expanded state #3 into 2 successors (0 pending)"),
            (.debug, "exploration done: 4 states, 3 expanded, 3 duplicate successors, 1024 buckets")] := by
      decide +kernel
    obtain ⟨outcome, ran, lines_eq⟩ := Option.map_eq_some_iff.1 ended
    exact ⟨outcome, ran, lines_eq, logTells_of_run valid ran⟩
  · have leads : Leads (fun _ => True) (ofCount 1024) (crowd 1024) := leads_insertAll trivial _ _
    have stumbles : Leads (fun _ => True) (ofCount 1024) ((crowd 1024).insert stumble 0 0).set :=
      leads.insert trivial 0 0
    obtain ⟨operations, outcome, _, ran, set_eq⟩ := stumbles.runsTo stumble trivial .always 0
    have doublings_eq : outcome.set.doublings = 1 := by
      rw [set_eq]
      exact doublings_insert_crowd valid (by decide)
    have tells := logTells_of_run valid ran
    refine ⟨operations, outcome, ran, ?_, tells⟩
    rw [tells.growth, doublings_eq]
    rfl

end Visited

end StateSearch
