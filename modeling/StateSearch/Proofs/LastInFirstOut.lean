import StateSearch.Proofs.Unrolling

/-!
# Last in, first out

The worklist of a set is a stack, whatever the comparators do.  Every state
waits once, from its admission until it is handed out, and what is handed out
is always the state admitted last among those that wait.

There are four groups.

* Order in a history, `Precedes`.
* The books of a run.  `Visited.Accounts` relates the deeds of a run to the
  set it leads to, with a lemma for each kind of operation.
* Runs.
* The law of the worklist, `Visited.LastInFirstOut`, for every set that a run
  leads to.  The deeds of a run with explorations are those of the run with
  the explorations spelled out.
-/

namespace StateSearch

variable {α : Type}

/-! ## Order in a history -/

/-- The first deed comes before the second. -/
def Precedes (history : List Deed) (first second : Deed) : Prop :=
  [first, second].Sublist history

/-- The ids that deeds admit, in order. -/
def admissions (history : List Deed) : List Id :=
  history.filterMap Deed.admitted?

@[simp] theorem admissions_append (before after : List Deed) :
    admissions (before ++ after) = admissions before ++ admissions after :=
  List.filterMap_append

theorem Precedes.append {history : List Deed} {first second : Deed}
    (precedes : Precedes history first second) (later : List Deed) :
    Precedes (history ++ later) first second :=
  precedes.trans (List.sublist_append_left history later)

/-- Whatever was done comes before what is done next. -/
theorem precedes_concat {history : List Deed} {first : Deed} (mem : first ∈ history)
    (second : Deed) : Precedes (history ++ [second]) first second :=
  (List.singleton_sublist.2 mem).append (List.Sublist.refl [second])

namespace Visited

variable {set set' : Visited α} {history : List Deed}

/-! ## The books of a run -/

/-- A history accounts for a set: it admitted the ids of the set in their
order, what it did not hand out waits, the last admitted on top, and nothing
was handed out while a later admission waited. -/
structure Accounts (history : List Deed) (set : Visited α) : Prop where
  coherent : set.Coherent
  descending : set.stack.Pairwise (· > ·)
  admissions_eq : admissions history = List.range set.size
  perm : (handedOut history ++ set.stack).Perm (List.range set.size)
  order : ∀ id other, .handedOut id ∈ history → id < other → other < set.size →
    Precedes history (.handedOut id) (.admitted other) ∨
      Precedes history (.handedOut other) (.handedOut id)

/-- Before anything is done nothing is in the set. -/
theorem accounts_ofCount {count : Nat} (valid : ValidBucketCount count) :
    Accounts [] (ofCount count : Visited α) where
  coherent := coherent_ofCount valid
  descending := List.Pairwise.nil
  admissions_eq := rfl
  perm := List.Perm.refl []
  order := fun _ _ mem => by cases mem

/-- A change that neither admits nor hands out needs no entry. -/
theorem Accounts.keep (accounts : Accounts history set) (coherent : set'.Coherent)
    (size_eq : set'.size = set.size) (stack_eq : set'.stack = set.stack) :
    Accounts history set' where
  coherent := coherent
  descending := stack_eq ▸ accounts.descending
  admissions_eq := size_eq ▸ accounts.admissions_eq
  perm := by
    rw [size_eq, stack_eq]
    exact accounts.perm
  order := size_eq ▸ accounts.order

/-- An admission puts the next id on top.  All that was handed out before
precedes it. -/
theorem Accounts.admit (accounts : Accounts history set) (coherent : set'.Coherent)
    (size_eq : set'.size = set.size + 1) (stack_eq : set'.stack = set.size :: set.stack) :
    Accounts (history ++ [.admitted set.size]) set' where
  coherent := coherent
  descending := by
    rw [stack_eq]
    exact List.pairwise_cons.2
      ⟨fun _ mem => accounts.coherent.lt_size_of_mem_stack mem, accounts.descending⟩
  admissions_eq := by
    rw [admissions_append, accounts.admissions_eq, size_eq, List.range_succ]
    rfl
  perm := by
    rw [handedOut_append, size_eq, stack_eq, List.range_succ]
    show (handedOut history ++ [] ++ set.size :: set.stack).Perm _
    rw [List.append_nil]
    exact List.perm_middle.trans ((accounts.perm.cons _).trans
      (List.perm_append_singleton _ _).symm)
  order := by
    intro id other mem lt lt_size
    have done : Deed.handedOut id ∈ history := by simpa using mem
    by_cases fresh : other = set.size
    · rw [fresh]
      exact .inl (precedes_concat done _)
    · have old : other < set.size := by omega
      exact (accounts.order id other done lt old).imp (·.append _) (·.append _)

/-- What is handed out is on top, so all that was admitted later and does not
wait any more was handed out before. -/
theorem Accounts.handOut (accounts : Accounts history set) {id : Id} {rest : List Id}
    (waits : set.stack = id :: rest) :
    Accounts (history ++ [.handedOut id]) set.pop.2 where
  coherent := accounts.coherent.pop
  descending := by
    rw [accounts.coherent.stack_pop]
    exact accounts.descending.tail
  admissions_eq := by
    rw [admissions_append, accounts.admissions_eq, size_pop]
    exact List.append_nil _
  perm := by
    have perm := accounts.perm
    rw [waits] at perm
    rw [handedOut_append, size_pop, accounts.coherent.stack_pop, waits, List.append_assoc]
    exact perm
  order := by
    intro first other mem lt lt_size
    rw [size_pop] at lt_size
    rcases List.mem_append.1 mem with done | now
    · exact (accounts.order first other done lt lt_size).imp (·.append _) (·.append _)
    · obtain rfl : first = id := by simpa using now
      have mem_all := accounts.perm.mem_iff.2 (List.mem_range.2 lt_size)
      have gone : Deed.handedOut other ∈ history := by
        rcases List.mem_append.1 mem_all with gone | still
        · exact mem_handedOut.1 gone
        · have sorted := accounts.descending
          rw [waits] at sorted still
          rcases List.mem_cons.1 still with rfl | below
          · exact absurd lt (Nat.lt_irrefl _)
          · exact absurd lt (Nat.lt_asymm ((List.pairwise_cons.1 sorted).1 other below))
      exact .inr (precedes_concat gone _)

theorem Accounts.pop (accounts : Accounts history set) :
    Accounts (history ++ (Answer.popped (α := α) set.pop.1).deed?.toList) set.pop.2 := by
  cases waits : set.stack with
  | nil =>
    rw [accounts.coherent.pop_eq_none waits]
    simpa [Answer.deed?] using accounts
  | cons id rest =>
    have popped := accounts.coherent.pop_fst
    rw [waits, List.head?_cons] at popped
    rw [popped]
    exact accounts.handOut waits

theorem Accounts.insert (accounts : Accounts history set) (cmp : Comparator α) (key : UInt64)
    (state : α) :
    Accounts (history ++ (Answer.verdict (set.insert cmp key state).answer).deed?.toList)
      (set.insert cmp key state).set := by
  have coherent := accounts.coherent.insert cmp key state
  rcases accounts.coherent.insert_cases_seen cmp key state with
    ⟨id, answer_eq, admitted_eq, stack_eq⟩ | ⟨answer_eq, admitted_eq, stack_eq⟩ <;>
    rw [answer_eq]
  · have size_eq := size_eq_of_admitted (admitted_eq.trans (List.append_nil _).symm)
    simpa [Answer.deed?] using accounts.keep coherent size_eq stack_eq
  · exact accounts.admit coherent (size_eq_of_admitted admitted_eq) stack_eq

/-! ## Runs -/

/-- The answer to an operation that is no exploration tells what it did. -/
theorem Accounts.perform (accounts : Accounts history set) {reserve : Reserve} {bound : Nat}
    {cmp : Comparator α} {operation : Operation α} {first : Outcome α (Answer α)}
    (single : operation.explores = false)
    (performed : set.perform reserve bound cmp operation = some first) :
    Accounts (history ++ first.answer.deed?.toList) first.set := by
  have same : Accounts (history ++ []) set := by simpa using accounts
  cases operation with
  | explore expand => cases single
  | insert key state =>
    obtain rfl := Option.some.inj performed
    exact accounts.insert cmp key state
  | tryInsert key state =>
    obtain rfl := Option.some.inj performed
    rcases tryInsert_cases reserve set cmp key state with ⟨failure, eq⟩ | eq <;> rw [eq]
    · exact same
    · have inserted := accounts.insert cmp key state
      simp only [Outcome.map]
      cases answer : (set.insert cmp key state).answer <;> rw [answer] at inserted <;>
        exact inserted
  | pop =>
    rw [perform_pop] at performed
    obtain rfl := Option.some.inj performed
    exact accounts.pop
  | find | contains | peek | entries | waiting =>
    obtain rfl := Option.some.inj performed
    exact same

/-- The answers of a run without explorations account for the set. -/
theorem Accounts.run (accounts : Accounts history set) {reserve : Reserve} {bound : Nat}
    {operations : List (Comparator α × Operation α)} {outcome : Outcome α (List (Answer α))}
    (single : ∀ operation ∈ operations, operation.2.explores = false)
    (ran : run reserve bound set operations = some outcome) :
    Accounts (history ++ deeds outcome.answer) outcome.set := by
  revert history
  refine run_induction (motive := fun set operations outcome =>
    (∀ operation ∈ operations, operation.2.explores = false) → ∀ {history},
      Accounts history set → Accounts (history ++ deeds outcome.answer) outcome.set) ran ?_ ?_
    single
  · intro set _ history accounts
    simpa [deeds] using accounts
  · intro set cmp operation operations first later performed rest single history accounts
    have here := accounts.perform (single _ List.mem_cons_self) performed
    have later_accounts := rest (fun other mem => single other (List.mem_cons_of_mem _ mem)) here
    rw [List.append_assoc] at later_accounts
    cases deed : first.answer.deed? <;> simpa [deeds, deed] using later_accounts

/-! ## The law of the worklist -/

/-- What a caller can rely on when states are handed out.  The history is
that of the run which led to the set. -/
structure LastInFirstOut (history : List Deed) (set : Visited α) : Prop where
  /-- The links end, and lead through the ids that wait. -/
  linked : set.store.Linked Record.worklistNext set.worklist.top set.stack
  mem_iff : ∀ id, id ∈ set.stack ↔ set.isQueued? id = some true
  descending : set.stack.Pairwise (· > ·)
  pending_eq : set.pending = set.stack.length
  /-- The largest id that waits comes next. -/
  peek?_eq : set.peek? = set.stack.max?
  pop_eq : set.pop.1 = set.peek?
  /-- Only the id that is handed out leaves the worklist. -/
  stack_pop : set.pop.2.stack = set.stack.tail
  isQueued?_pop : ∀ id, set.pop.2.isQueued? id =
    if set.peek? = some id then some false else set.isQueued? id
  /-- A duplicate makes nothing wait, whether its equal still waits or not. -/
  duplicate : ∀ cmp key state id given, (set.insert cmp key state).answer = .duplicate id given →
    set.WaitAlike (set.insert cmp key state).set
  duplicate_tryInsert : ∀ reserve cmp key state id given,
    (set.tryInsert reserve cmp key state).answer = .ok (.duplicate id given) →
      set.WaitAlike (set.tryInsert reserve cmp key state).set
  admissions_eq : admissions history = List.range set.size
  /-- No id is handed out twice. -/
  nodup : (handedOut history).Nodup
  /-- Every admitted id was either handed out or waits. -/
  perm : (handedOut history ++ set.stack).Perm (List.range set.size)
  /-- Of two ids the later one is handed out first, unless the earlier one was
  handed out before the later one was admitted. -/
  order : ∀ id other, id < other → .handedOut id ∈ history → .handedOut other ∈ history →
    Precedes history (.handedOut id) (.admitted other) ∨
      Precedes history (.handedOut other) (.handedOut id)

theorem Coherent.waitAlike_of_duplicate (coherent : set.Coherent) {cmp : Comparator α}
    {key : UInt64} {state given : α} {id : Id}
    (rejected : (set.insert cmp key state).answer = .duplicate id given) :
    set.WaitAlike (set.insert cmp key state).set := by
  rcases coherent.insert_cases_seen cmp key state with
    ⟨_, _, admitted_eq, stack_eq⟩ | ⟨answer_eq, _, _⟩
  · have size_eq := size_eq_of_admitted (admitted_eq.trans (List.append_nil _).symm)
    exact coherent.waitAlike (coherent.insert cmp key state) size_eq stack_eq
  · rw [answer_eq] at rejected
    cases rejected

/-- Handing out clears the mark of the id on top, and no other. -/
theorem Coherent.isQueued?_pop (coherent : set.Coherent) (id : Id) :
    set.pop.2.isQueued? id = if set.peek? = some id then some false else set.isQueued? id := by
  have nodup := coherent.worklist.linked.nodup
  rw [coherent.pop.isQueued?_eq, coherent.isQueued?_eq, size_pop, coherent.stack_pop,
    coherent.peek?_eq]
  cases waits : set.stack with
  | nil => simp
  | cons first rest =>
    rw [waits, List.nodup_cons] at nodup
    have lt := coherent.lt_size_of_mem_stack (waits ▸ List.mem_cons_self)
    by_cases same : first = id
    · subst same
      simp [lt, nodup.1]
    · have kept : decide (id ∈ first :: rest) = decide (id ∈ rest) :=
        decide_eq_decide.2 (by simp [Ne.symm same])
      have other : ¬ (first :: rest).head? = some id := fun eq => same (Option.some.inj eq)
      rw [if_neg other, kept, List.tail_cons]

/-- The books of a run and the links of the worklist together are the law. -/
theorem Accounts.lastInFirstOut (accounts : Accounts history set) :
    LastInFirstOut history set where
  linked := accounts.coherent.worklist.linked
  mem_iff id := (accounts.coherent.worklist.queued_iff id).symm
  descending := accounts.descending
  pending_eq := accounts.coherent.pending_eq
  peek?_eq := by
    rw [accounts.coherent.peek?_eq, List.max?_eq_head?]
    exact accounts.descending.imp fun gt => Nat.max_eq_left (Nat.le_of_lt gt)
  pop_eq := by rw [accounts.coherent.pop_fst, accounts.coherent.peek?_eq]
  stack_pop := accounts.coherent.stack_pop
  isQueued?_pop := accounts.coherent.isQueued?_pop
  duplicate _ _ _ _ _ rejected := accounts.coherent.waitAlike_of_duplicate rejected
  duplicate_tryInsert reserve cmp key state id given rejected := by
    rcases tryInsert_cases reserve set cmp key state with ⟨failure, eq⟩ | eq <;>
      rw [eq] at rejected ⊢
    · cases rejected
    · exact accounts.coherent.waitAlike_of_duplicate (Except.ok.inj rejected)
  admissions_eq := accounts.admissions_eq
  nodup := (List.nodup_append.1 (accounts.perm.nodup_iff.2 List.nodup_range)).1
  perm := accounts.perm
  order id other lt gone gone' := by
    have mem : other ∈ handedOut history ++ set.stack :=
      List.mem_append_left _ (mem_handedOut.2 gone')
    exact accounts.order id other gone lt (List.mem_range.1 (accounts.perm.mem_iff.1 mem))

/-- Whatever the comparators do, every run hands states out last in, first
out.  The history is that of the run with its explorations spelled out; it
leads to the same set and hands out the ids that the answers of the run
tell. -/
theorem lastInFirstOut_of_run {count : Nat} (valid : ValidBucketCount count) {reserve : Reserve}
    {bound : Nat} {operations : List (Comparator α × Operation α)}
    {outcome : Outcome α (List (Answer α))}
    (ran : run reserve bound (ofCount count) operations = some outcome) :
    ∃ detailed, run reserve bound (ofCount count)
        (unroll reserve bound (ofCount count) operations) = some detailed ∧
      detailed.set = outcome.set ∧
      handedOut (deeds detailed.answer) = outcome.answer.flatMap Answer.handedOut ∧
      LastInFirstOut (deeds detailed.answer) outcome.set := by
  obtain ⟨detailed, ran', set_eq, ids_eq⟩ := details_unroll (coherent_ofCount valid) ran
  have accounts := (accounts_ofCount valid).run
    (fun _ mem => explores_eq_false_of_mem_unroll mem) ran'
  rw [List.nil_append, set_eq] at accounts
  exact ⟨detailed, ran', set_eq, ids_eq, accounts.lastInFirstOut⟩

/-- A state is handed out, offered again, and met again in an exploration,
all under a comparator that no order allows. -/
theorem lastInFirstOut_of_run_shuffle :
    let cmp : Comparator Nat := fun a b => if a = b then .eq else .lt
    let halve : Expander Nat := .ofSuccessors fun n => [(7, n / 2), (7, n + 1 - n % 2)]
    let operations := [(cmp, .insert 7 4), (cmp, .insert 1031 9), (cmp, .pop), (cmp, .insert 7 9),
      (cmp, .tryInsert 7 4), (cmp, .explore halve)]
    ValidBucketCount 1024 ∧ ∃ outcome, run .always 9 (ofCount 1024) operations = some outcome ∧
      ∃ detailed, run .always 9 (ofCount 1024) (unroll .always 9 (ofCount 1024) operations) =
          some detailed ∧
        detailed.set = outcome.set ∧
        handedOut (deeds detailed.answer) = outcome.answer.flatMap Answer.handedOut ∧
        LastInFirstOut (deeds detailed.answer) outcome.set := by
  intro cmp halve operations
  have returns : (run .always 9 (ofCount 1024) operations).isSome = true := by decide +kernel
  obtain ⟨outcome, ran⟩ := Option.isSome_iff_exists.1 returns
  exact ⟨validBucketCount_minBuckets, outcome, ran,
    lastInFirstOut_of_run validBucketCount_minBuckets ran⟩

end Visited

end StateSearch
