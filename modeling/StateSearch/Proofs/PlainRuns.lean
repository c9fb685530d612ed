import StateSearch.Proofs.Ascending
import StateSearch.Proofs.ChainLists

/-!
# Sets and plain lists

Where the comparator is a total preorder and equal states in use have one
key, a set cannot be told from a plain list of admitted states with a stack.
A `Roll` looks through all admitted states, and the set through the front of
one chain; the two find the same.

There are four groups.

* Agreement of keys, and operations that always return.
* Rolls and ascending tables.  An equal state is in the bucket of the
  candidate since the keys agree, and the lookup does not stop in front of
  it since the bucket is ascending.
* Sets that use one comparator and agreeing keys, and that they mirror
  rolls.
* Whole runs.
-/

namespace StateSearch

variable {α : Type}

/-! ## Agreement of keys -/

/-- Equal states in use have one key. -/
def KeysAgree (cmp : Comparator α) (used : UInt64 × α → Prop) : Prop :=
  ∀ first second, used first → used second → cmp first.2 second.2 = .eq → first.1 = second.1

/-- Without explorations a run returns. -/
theorem Visited.exists_run (reserve : Reserve) (bound : Nat) (set : Visited α)
    {operations : List (Comparator α × Operation α)}
    (returns : ∀ operation ∈ operations, operation.2.explores = false) :
    ∃ outcome, run reserve bound set operations = some outcome := by
  induction operations generalizing set with
  | nil => exact ⟨_, rfl⟩
  | cons head operations ih =>
    rcases head with ⟨cmp, operation⟩
    have first : ∃ outcome, set.perform reserve bound cmp operation = some outcome := by
      have here := returns _ List.mem_cons_self
      cases operation with
      | explore expand => cases here
      | _ => exact ⟨_, rfl⟩
    rcases first with ⟨first, performed⟩
    obtain ⟨later, ran⟩ := ih first.set fun other mem => returns other (List.mem_cons_of_mem _ mem)
    rw [run, performed, Option.bind_some, ran]
    exact ⟨_, rfl⟩

/-! ## Rolls and ascending tables -/

/-- A roll admits the candidate or nothing. -/
theorem Roll.mem_insert {roll : Roll α} {cmp : Comparator α} {key : UInt64} {state : α}
    {entry : UInt64 × α} (mem : entry ∈ (roll.insert cmp key state).2.admitted) :
    entry ∈ roll.admitted ∨ entry = (key, state) := by
  unfold Roll.insert at mem
  split at mem
  · exact .inl mem
  · rcases List.mem_append.1 mem with old | new
    · exact .inl old
    · exact .inr (List.mem_singleton.1 new)

namespace ListTable

/-- The admitted states of a table. -/
def roll (table : ListTable α) : Roll α where
  admitted := table.admitted

variable {table : ListTable α} {cmp : Comparator α} {key : UInt64} {candidate : α}

/-- An ascending table finds the states that are equal to a candidate, if
they have the key of the candidate. -/
theorem Ascending.find?_eq_some_iff_equal [Std.TransCmp cmp] (ascending : table.Ascending cmp)
    (placed : table.Placed)
    (agree : ∀ entry ∈ table.admitted, cmp entry.2 candidate = .eq → entry.1 = key) {id : Id} :
    table.find? cmp key candidate = some id ↔ table.equal cmp candidate id = true := by
  rw [ascending.find?_eq_some_iff]
  refine ⟨And.right, fun equal => ⟨?_, equal⟩⟩
  obtain ⟨state, found, eq⟩ := equal_iff.1 equal
  obtain ⟨entry, admitted, rfl⟩ := Option.map_eq_some_iff.1 found
  have same := agree entry (List.mem_of_getElem? admitted) eq
  rw [placed, leaves_iff]
  exact ⟨entry, admitted, by rw [same]⟩

/-- A roll finds what an ascending table finds. -/
theorem Ascending.find?_roll [Std.TransCmp cmp] (ascending : table.Ascending cmp)
    (placed : table.Placed)
    (agree : ∀ entry ∈ table.admitted, cmp entry.2 candidate = .eq → entry.1 = key) :
    table.roll.find? cmp candidate = table.find? cmp key candidate := by
  have finds_iff : ∀ id, table.find? cmp key candidate = some id ↔
      table.equal cmp candidate id = true :=
    fun _ => ascending.find?_eq_some_iff_equal placed agree
  cases found : table.roll.find? cmp candidate with
  | some id =>
    obtain ⟨lt, eq, _⟩ := List.findIdx?_eq_some_iff_getElem.1 found
    have admitted : table.admitted[id]? = some table.roll.admitted[id] :=
      List.getElem?_eq_getElem lt
    symm
    rw [finds_iff, equal_iff, state?, admitted]
    exact ⟨_, rfl, by simpa using eq⟩
  | none =>
    have nothing := List.findIdx?_eq_none_iff.1 found
    symm
    rw [Option.eq_none_iff_forall_ne_some]
    intro id finds
    obtain ⟨state, found, eq⟩ := equal_iff.1 ((finds_iff id).1 finds)
    obtain ⟨entry, admitted, rfl⟩ := Option.map_eq_some_iff.1 found
    have unequal := nothing entry (List.mem_of_getElem? admitted)
    simp [eq] at unequal

/-- In an ascending table with agreeing keys no state stands twice. -/
theorem Ascending.eq_of_equal [Std.TransCmp cmp] (ascending : table.Ascending cmp)
    (placed : table.Placed)
    (agree : KeysAgree cmp fun entry => entry ∈ table.admitted) {id other : Id}
    (equal : table.equal cmp candidate id = true)
    (equal' : table.equal cmp candidate other = true) : id = other := by
  obtain ⟨state, found, eq⟩ := equal_iff.1 equal
  obtain ⟨state', found', eq'⟩ := equal_iff.1 equal'
  obtain ⟨entry, admitted, rfl⟩ := Option.map_eq_some_iff.1 found
  have mem := List.mem_of_getElem? admitted
  -- The first of the two states, with its key, serves as the candidate.
  have finds_iff : ∀ id, table.find? cmp entry.1 entry.2 = some id ↔
      table.equal cmp entry.2 id = true :=
    fun _ => ascending.find?_eq_some_iff_equal placed fun first mem' eq =>
      agree first entry mem' mem eq
  have itself := (finds_iff id).2 (equal_iff.2 ⟨entry.2, found, Std.ReflCmp.compare_self⟩)
  have across : cmp state' entry.2 = .eq :=
    Std.TransCmp.eq_trans eq' (Std.OrientedCmp.eq_symm eq)
  have second := (finds_iff other).2 (equal_iff.2 ⟨state', found', across⟩)
  exact Option.some.inj (itself.symm.trans second)

/-- A table admits what its roll admits.  A split cannot bring up a
duplicate that was not found before. -/
theorem Ascending.insert_roll [Std.TransCmp cmp] (ascending : table.Ascending cmp)
    (same : table.roll.find? cmp candidate = table.find? cmp key candidate) :
    ((table.insert cmp key candidate).1, (table.insert cmp key candidate).2.roll) =
      table.roll.insert cmp key candidate := by
  unfold insert Roll.insert
  rw [same]
  cases found : table.find? cmp key candidate with
  | some id => rfl
  | none =>
    have missing := ascending.find?_split_eq_none found
    simp only
    split
    · simp only [missing]
      rfl
    · rfl

end ListTable

/-! ## Sets under one comparator with agreeing keys -/

/-- The roll is that of a set which admitted only states in use and keeps
them in ascending order. -/
structure Visited.Enrolled (cmp : Comparator α) (used : UInt64 × α → Prop) (set : Visited α)
    (roll : Roll α) : Prop where
  roll_eq : set.listTable.roll = roll
  ascending : set.listTable.Ascending cmp
  used : ∀ entry ∈ roll.admitted, used entry

section

variable {cmp : Comparator α} {used : UInt64 × α → Prop} {set : Visited α} {roll : Roll α}

theorem Visited.Enrolled.find?_eq [Std.TransCmp cmp] (enrolled : set.Enrolled cmp used roll)
    (coherent : set.Coherent) (agree : KeysAgree cmp used) {key : UInt64} {state : α}
    (candidate : used (key, state)) :
    roll.find? cmp state = set.listTable.find? cmp key state := by
  rcases enrolled with ⟨rfl, ascending, all⟩
  exact ascending.find?_roll coherent.placed fun entry mem eq =>
    agree entry (key, state) (all entry mem) candidate eq

theorem Visited.Enrolled.insert [Std.TransCmp cmp] (enrolled : set.Enrolled cmp used roll)
    (coherent : set.Coherent) (agree : KeysAgree cmp used) {key : UInt64} {state : α}
    (candidate : used (key, state)) :
    (roll.insert cmp key state).1 = (set.insert cmp key state).answer ∧
      (set.insert cmp key state).set.Enrolled cmp used (roll.insert cmp key state).2 := by
  have same := enrolled.find?_eq coherent agree candidate
  rcases enrolled with ⟨rfl, ascending, all⟩
  have inserted := coherent.listTable_insert cmp key state
  have entered := ascending.insert_roll same
  rw [← inserted] at entered
  refine ⟨(congrArg Prod.fst entered).symm, congrArg Prod.snd entered,
    coherent.ascending_insert ascending key state, ?_⟩
  intro entry mem
  rcases Roll.mem_insert mem with old | rfl
  · exact all entry old
  · exact candidate

/-- A candidate is equal to one admitted state at most. -/
theorem Visited.Enrolled.eq_of_equal [Std.TransCmp cmp] (enrolled : set.Enrolled cmp used roll)
    (coherent : set.Coherent) (agree : KeysAgree cmp used) {candidate : α} {id other : Id}
    {first second : UInt64 × α} (found : roll.admitted[id]? = some first)
    (found' : roll.admitted[other]? = some second) (eq : cmp first.2 candidate = .eq)
    (eq' : cmp second.2 candidate = .eq) : id = other := by
  rcases enrolled with ⟨rfl, ascending, all⟩
  have agree' : KeysAgree cmp fun entry => entry ∈ set.listTable.admitted :=
    fun first second mem mem' => agree first second (all first mem) (all second mem')
  have state_eq : set.listTable.state? id = some first.2 := congrArg (Option.map Prod.snd) found
  have state_eq' : set.listTable.state? other = some second.2 :=
    congrArg (Option.map Prod.snd) found'
  exact ascending.eq_of_equal coherent.placed agree'
    (ListTable.equal_iff.2 ⟨first.2, state_eq, eq⟩)
    (ListTable.equal_iff.2 ⟨second.2, state_eq', eq'⟩)

/-- The roll of a set judges the candidates in use like the set. -/
theorem mirrors_roll [Std.TransCmp cmp] (agree : KeysAgree cmp used) :
    Mirrors (fun set (roll : Roll α) => set.Enrolled cmp used roll)
      fun other key state => other = cmp ∧ used (key, state) where
  admitted_eq := by
    intro set roll enrolled
    rw [← enrolled.roll_eq]
    rfl
  permitted := by
    intro set roll enrolled entry mem
    refine ⟨cmp, rfl, enrolled.used entry ?_⟩
    rw [← enrolled.roll_eq]
    exact mem
  find?_eq := by
    intro set roll other key state coherent enrolled permitted
    rcases permitted with ⟨rfl, candidate⟩
    rw [coherent.find?_eq]
    exact enrolled.find?_eq coherent agree candidate
  insert := by
    intro set roll other key state coherent enrolled permitted
    rcases permitted with ⟨rfl, candidate⟩
    exact enrolled.insert coherent agree candidate
  pop := by
    intro set roll coherent enrolled
    rcases enrolled with ⟨rfl, ascending, all⟩
    have same := coherent.listTable_pop
    refine ⟨congrArg ListTable.roll same, ?_, all⟩
    rw [same]
    exact ascending

theorem Visited.enrolled_ofCount (count : Nat) :
    (ofCount count : Visited α).Enrolled cmp used {} where
  roll_eq := congrArg ListTable.roll (listTable_ofCount count)
  ascending := by
    rw [listTable_ofCount]
    exact fun _ => List.Pairwise.nil
  used entry mem := by cases mem

end

/-! ## Whole runs -/

namespace Visited

variable {cmp : Comparator α}

theorem ledger_roll_ofCount {used : UInt64 × α → Prop} {count : Nat}
    (valid : ValidBucketCount count) :
    (Ledger.mk ({} : Roll α) []).Balances (fun set roll => set.Enrolled cmp used roll)
      (ofCount count) where
  coherent := coherent_ofCount valid
  catalogue := enrolled_ofCount count
  stack_eq := (ledger_ofCount valid).stack_eq

/-- A run under one comparator, explorations included, is the run of two
plain lists. -/
theorem rel_run_roll [Std.TransCmp cmp] {used : UInt64 × α → Prop}
    (agree : KeysAgree cmp used) {count : Nat} (valid : ValidBucketCount count) {bound : Nat}
    {operations : List (Operation α)}
    (permitted : ∀ operation ∈ operations,
      operation.Permitted (fun other key state => other = cmp ∧ used (key, state)) cmp)
    (fits : (ofCount count).FitsThroughout .always bound (operations.map (cmp, ·))) :
    Option.Rel (Ledger.Agrees fun set (roll : Roll α) => set.Enrolled cmp used roll)
      (Ledger.run bound { catalogue := {} } (operations.map (cmp, ·)))
      (run .always bound (ofCount count) (operations.map (cmp, ·))) := by
  refine (ledger_roll_ofCount valid).run (mirrors_roll agree) ?_ fits
  intro _ here
  obtain ⟨operation, mem, rfl⟩ := List.mem_map.1 here
  exact permitted operation mem

theorem permitted_of_candidate {used : UInt64 × α → Prop} {operation : Operation α}
    (returns : operation.explores = false)
    (candidate : ∀ entry, operation.candidate? = some entry → used entry) :
    operation.Permitted (fun other key state => other = cmp ∧ used (key, state)) cmp := by
  cases operation with
  | insert key state | tryInsert key state | find key state | contains key state =>
    exact ⟨rfl, candidate (key, state) rfl⟩
  | pop | peek | entries | waiting => trivial
  | explore expand => cases returns

/-- Under a total preorder with which the keys agree, a set answers every
sequence of operations like two plain lists.  Since this holds of every
sequence, it holds of a longer one at every point. -/
theorem exists_run_eq_run_roll [Std.TransCmp cmp] {count : Nat} (valid : ValidBucketCount count)
    {bound : Nat} {operations : List (Operation α)}
    (returns : ∀ operation ∈ operations, operation.explores = false)
    (agree : KeysAgree cmp fun entry => entry ∈ operations.filterMap Operation.candidate?)
    (fits : (ofCount count).FitsThroughout .always bound (operations.map (cmp, ·))) :
    ∃ outcome, ∃ ledger : Ledger Roll α,
      run .always bound (ofCount count) (operations.map (cmp, ·)) = some outcome ∧
        Ledger.run bound { catalogue := {} } (operations.map (cmp, ·)) =
          some (outcome.answer, ledger) ∧
        outcome.set.ledger Visited.roll = ledger ∧
        outcome.set.size = ledger.catalogue.admitted.length ∧
        outcome.set.pending = ledger.stack.length ∧
        ∀ (candidate : α) (id other : Id) (first second : UInt64 × α),
          ledger.catalogue.admitted[id]? = some first →
          ledger.catalogue.admitted[other]? = some second →
          cmp first.2 candidate = .eq → cmp second.2 candidate = .eq → id = other := by
  have permitted : ∀ operation ∈ operations, operation.Permitted (fun other key state =>
      other = cmp ∧ (key, state) ∈ operations.filterMap Operation.candidate?) cmp := by
    intro operation mem
    refine permitted_of_candidate (returns operation mem) fun entry eq => ?_
    exact List.mem_filterMap.2 ⟨operation, mem, eq⟩
  have alike := rel_run_roll agree valid permitted fits
  have returns' : ∀ operation ∈ operations.map (cmp, ·), operation.2.explores = false := by
    intro _ here
    obtain ⟨operation, mem, rfl⟩ := List.mem_map.1 here
    exact returns operation mem
  obtain ⟨outcome, ran⟩ := exists_run .always bound (ofCount count) returns'
  rw [ran] at alike ⊢
  cases answered : Ledger.run bound { catalogue := ({} : Roll α) } (operations.map (cmp, ·)) with
  | none =>
    rw [answered] at alike
    cases alike
  | some result =>
    rw [answered, Option.rel_some_some] at alike
    rcases result with ⟨answer, catalogue, stack⟩
    rcases alike with ⟨rfl, coherent, enrolled, stack_eq⟩
    have roll_eq : outcome.set.roll = catalogue := enrolled.roll_eq
    have size_eq : outcome.set.size = catalogue.admitted.length := by
      rw [← roll_eq]
      exact (length_admitted outcome.set).symm
    have pending_eq : outcome.set.pending = stack.length :=
      coherent.worklist.size_eq.trans (congrArg List.length stack_eq.symm)
    refine ⟨outcome, _, rfl, rfl, ?_, size_eq, pending_eq, ?_⟩
    · rw [Visited.ledger, roll_eq, ← stack_eq]
    · intro candidate id other first second found found' eq eq'
      exact enrolled.eq_of_equal coherent agree found found' eq eq'

end Visited

/-- Numbers, told apart by their tens. -/
def errands : List (Operation Nat) :=
  [.insert 7 50, .tryInsert 1031 34, .insert 7 58, .find 1031 30, .contains 9 90, .pop, .peek,
    .entries, .waiting]

theorem exists_run_eq_run_roll_errands :
    let tens : Comparator Nat := Comparator.natural.on (· / 10)
    Std.TransCmp tens ∧ ValidBucketCount 1024 ∧
      (∀ operation ∈ errands, operation.explores = false) ∧
      KeysAgree tens (· ∈ errands.filterMap Operation.candidate?) ∧
      (Visited.ofCount 1024).FitsThroughout .always 0 (errands.map (tens, ·)) ∧
      ∃ outcome, ∃ ledger : Ledger Roll Nat,
        Visited.run .always 0 (.ofCount 1024) (errands.map (tens, ·)) = some outcome ∧
          Ledger.run 0 { catalogue := {} } (errands.map (tens, ·)) =
            some (outcome.answer, ledger) ∧
          outcome.set.ledger Visited.roll = ledger := by
  intro tens
  have lawful : Std.TransCmp tens :=
    inferInstanceAs (Std.TransCmp (compareOn (fun n : Nat => n / 10)))
  have returns : ∀ operation ∈ errands, operation.explores = false := by
    simp [errands, Operation.explores]
  have agree : KeysAgree tens (· ∈ errands.filterMap Operation.candidate?) := by
    have checked : ∀ first ∈ errands.filterMap Operation.candidate?,
        ∀ second ∈ errands.filterMap Operation.candidate?,
          tens first.2 second.2 = .eq → first.1 = second.1 := by decide
    exact fun first second mem mem' => checked first mem second mem'
  have ended : (Visited.run .always 0 (.ofCount 1024) (errands.map (tens, ·))).map
      (fun outcome => outcome.set.bucketCount) = some 1024 := by decide +kernel
  obtain ⟨outcome, ran, count_eq⟩ := Option.map_eq_some_iff.1 ended
  have fits := Visited.fitsThroughout_of_run ran (by rw [count_eq]; decide)
  obtain ⟨outcome, ledger, ran, answered, same, _⟩ :=
    Visited.exists_run_eq_run_roll validBucketCount_minBuckets returns agree fits
  exact ⟨lawful, validBucketCount_minBuckets, returns, agree, fits, outcome, ledger, ran, answered,
    same⟩

end StateSearch
