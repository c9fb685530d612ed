import StateSearch.Ledger
import StateSearch.Proofs.ListView
import StateSearch.Proofs.Runs

/-!
# Ledgers in balance with a set

A ledger balances a set when its stack holds the ids that wait and its
catalogue stands in a given relation to the set.  If that relation passes
the tests of `Mirrors`, which speak of single admissions and lookups only,
then whole explorations and whole runs of ledger and set answer alike.

There are four groups.

* The balance, what the relation must satisfy for it, and that admitting and
  handing out keep it.
* Explorations.  `Search.Balances.runFor` pairs the steps of the two loops,
  so one ends exactly when the other does.
* Single operations.
* Runs.
-/

namespace StateSearch

variable {α : Type} {κ : Type → Type}

/-- An operation hands only permitted candidates to the set.  An exploration
may meet every state that was permitted before, so the successors of all of
them must be permitted. -/
def Operation.Permitted (permits : Comparator α → UInt64 → α → Prop) (cmp : Comparator α) :
    Operation α → Prop
  | .insert key state | .tryInsert key state | .find key state | .contains key state =>
    permits cmp key state
  | .explore expand =>
    ∀ other key state, permits other key state →
      ∀ successor ∈ (expand state .empty).toList, permits cmp successor.1 successor.2
  | .pop | .peek | .entries | .waiting => True

/-! ## The balance -/

/-- The catalogue is related to the set, and the stack holds what waits. -/
structure Ledger.Balances (related : Visited α → κ α → Prop) (ledger : Ledger κ α)
    (set : Visited α) : Prop where
  coherent : set.Coherent
  catalogue : related set ledger.catalogue
  stack_eq : ledger.stack = set.stack

/-- The answers are the same, and the ledger balances the set afterwards. -/
def Ledger.Agrees {β : Type} (related : Visited α → κ α → Prop) (result : β × Ledger κ α)
    (outcome : Outcome α β) : Prop :=
  result.1 = outcome.answer ∧ result.2.Balances related outcome.set

/-- Where the catalogue is read off the set, results that agree are equal. -/
theorem Ledger.map_eq_of_agrees {β : Type} {related : Visited α → κ α → Prop}
    {view : Visited α → κ α} (views : ∀ set catalogue, related set catalogue → view set = catalogue)
    {result : Option (β × Ledger κ α)} {outcome : Option (Outcome α β)}
    (agrees : Option.Rel (Agrees related) result outcome) :
    outcome.map (fun outcome => (outcome.answer, outcome.set.ledger view)) = result := by
  cases agrees with
  | none => rfl
  | @some result outcome agrees =>
    rcases result with ⟨answer, catalogue, stack⟩
    rcases agrees with ⟨rfl, balances⟩
    obtain rfl := views _ _ balances.catalogue
    obtain rfl : stack = outcome.set.stack := balances.stack_eq
    rfl

/-- Results that correspond still do after further steps that keep them so. -/
private theorem rel_map {β β' γ γ' : Type} {r : β → γ → Prop} {r' : β' → γ' → Prop}
    {first : Option β} {second : Option γ} {f : β → β'} {g : γ → γ'}
    (rel : Option.Rel r first second) (maps : ∀ a b, r a b → r' (f a) (g b)) :
    Option.Rel r' (first.map f) (second.map g) := by
  cases rel with
  | none => exact .none
  | some rel => exact .some (maps _ _ rel)

variable {related : Visited α → κ α → Prop} {ledger : Ledger κ α} {set : Visited α}

theorem Ledger.Balances.peek?_eq (balances : ledger.Balances related set) :
    set.peek? = ledger.stack.head? :=
  balances.coherent.worklist.top_eq.trans (congrArg List.head? balances.stack_eq.symm)

theorem Ledger.Balances.isEmpty_eq (balances : ledger.Balances related set) :
    ledger.stack.isEmpty = set.peek?.isNone := by
  rw [balances.peek?_eq]
  cases ledger.stack <;> rfl

variable [Catalogue κ]

/-- Related catalogues judge permitted candidates like the set, and stay
related. -/
structure Mirrors (related : Visited α → κ α → Prop)
    (permits : Comparator α → UInt64 → α → Prop) : Prop where
  admitted_eq {set : Visited α} {catalogue : κ α} :
    related set catalogue → Catalogue.admitted catalogue = set.admitted
  permitted {set : Visited α} {catalogue : κ α} :
    related set catalogue → ∀ entry ∈ set.admitted, ∃ cmp, permits cmp entry.1 entry.2
  find?_eq {set : Visited α} {catalogue : κ α} {cmp : Comparator α} {key : UInt64} {state : α} :
    set.Coherent → related set catalogue → permits cmp key state →
      Catalogue.find? catalogue cmp key state = set.find? cmp key state
  insert {set : Visited α} {catalogue : κ α} {cmp : Comparator α} {key : UInt64} {state : α} :
    set.Coherent → related set catalogue → permits cmp key state →
      (Catalogue.insert catalogue cmp key state).1 = (set.insert cmp key state).answer ∧
        related (set.insert cmp key state).set (Catalogue.insert catalogue cmp key state).2
  pop {set : Visited α} {catalogue : κ α} :
    set.Coherent → related set catalogue → related set.pop.2 catalogue

variable {permits : Comparator α → UInt64 → α → Prop}

namespace Ledger.Balances

theorem insert (balances : ledger.Balances related set) (mirrors : Mirrors related permits)
    {cmp : Comparator α} {key : UInt64} {state : α} (permitted : permits cmp key state) :
    (ledger.insert cmp key state).1 = (set.insert cmp key state).answer ∧
      (ledger.insert cmp key state).2.Balances related (set.insert cmp key state).set := by
  rcases balances with ⟨coherent, catalogue, stack_eq⟩
  obtain ⟨answer_eq, catalogue'⟩ := mirrors.insert coherent catalogue permitted
  have coherent' := coherent.insert cmp key state
  have stack_eq' := coherent.stack_insert cmp key state
  rw [← answer_eq, ← stack_eq] at stack_eq'
  rw [← answer_eq]
  unfold Ledger.insert
  generalize Catalogue.insert ledger.catalogue cmp key state = judged at *
  rcases judged with ⟨verdict, after⟩
  cases verdict with
  | admitted id => exact ⟨rfl, coherent', catalogue', stack_eq'.symm⟩
  | duplicate id rejected => exact ⟨rfl, coherent', catalogue', stack_eq'.symm⟩

theorem pop (balances : ledger.Balances related set) (mirrors : Mirrors related permits) :
    ledger.pop.1 = set.pop.1 ∧ ledger.pop.2.Balances related set.pop.2 := by
  rcases balances with ⟨coherent, catalogue, stack_eq⟩
  have catalogue' := mirrors.pop coherent catalogue
  have top := coherent.worklist_pop.1
  have rest := coherent.stack_pop
  rw [← stack_eq] at top rest
  unfold Ledger.pop
  cases waits : ledger.stack with
  | nil =>
    rw [waits] at top rest
    exact ⟨top.symm, coherent.pop, catalogue', waits.trans rest.symm⟩
  | cons id stack =>
    rw [waits] at top rest
    exact ⟨top.symm, coherent.pop, catalogue', rest.symm⟩

theorem get?_eq (balances : ledger.Balances related set) (mirrors : Mirrors related permits)
    (id : Id) : ledger.get? id = set.get? id := by
  rw [Ledger.get?, mirrors.admitted_eq balances.catalogue, Visited.getElem?_admitted,
    Option.map_map]
  rfl

theorem entries_eq (balances : ledger.Balances related set) (mirrors : Mirrors related permits) :
    ledger.entries = set.entries := by
  apply List.ext_getElem?
  intro id
  rw [Visited.getElem?_entries, ← balances.get?_eq mirrors id]
  simp only [Ledger.entries, Ledger.get?, List.getElem?_map, List.getElem?_zipIdx]
  cases (Catalogue.admitted ledger.catalogue)[id]? <;> simp

theorem waiting_eq (balances : ledger.Balances related set) (mirrors : Mirrors related permits) :
    ledger.waiting = set.waiting := by
  have get?_eq : ledger.get? = set.get? := funext (balances.get?_eq mirrors)
  rw [Ledger.waiting, get?_eq, balances.stack_eq]
  rfl

end Ledger.Balances

/-! ## Explorations -/

/-- The two loops have the same counters and visits, and the buffer is
empty. -/
structure Ledger.Search.Balances (related : Visited α → κ α → Prop) (search : Search κ α)
    (exploration : Exploration α) : Prop where
  ledger : search.ledger.Balances related exploration.set
  buffer_eq : exploration.buffer = .empty
  tally_eq : search.tally = exploration.tally
  visits_eq : search.visits = exploration.visits.toList

namespace Ledger.Search.Balances

variable {search : Search κ α} {exploration : Exploration α}

theorem offer (balances : search.Balances related exploration) (mirrors : Mirrors related permits)
    {cmp : Comparator α} {successor : UInt64 × α}
    (permitted : permits cmp successor.1 successor.2) :
    (search.offer cmp successor).Balances related (exploration.offer cmp successor) := by
  rcases balances with ⟨ledger, buffer_eq, tally_eq, visits_eq⟩
  obtain ⟨verdict_eq, ledger'⟩ := ledger.insert mirrors permitted
  refine ⟨ledger', buffer_eq, ?_, visits_eq⟩
  show search.tally.count (search.ledger.insert cmp successor.1 successor.2).1 =
    exploration.tally.count (exploration.set.insert cmp successor.1 successor.2).answer
  rw [tally_eq, verdict_eq]

theorem offers (mirrors : Mirrors related permits) {cmp : Comparator α}
    {successors : List (UInt64 × α)}
    (permitted : ∀ successor ∈ successors, permits cmp successor.1 successor.2)
    (balances : search.Balances related exploration) :
    (successors.foldl (Search.offer cmp) search).Balances related
      (successors.foldl (Exploration.offer cmp) exploration) := by
  induction successors generalizing search exploration with
  | nil => exact balances
  | cons successor successors ih =>
    exact ih (fun other mem => permitted other (List.mem_cons_of_mem _ mem))
      (balances.offer mirrors (permitted successor List.mem_cons_self))

/-- Both loops hand out the same state, and then offer its successors. -/
theorem step (balances : search.Balances related exploration) (mirrors : Mirrors related permits)
    {cmp : Comparator α} {expand : Expander α}
    (permitted : (Operation.explore expand).Permitted permits cmp) :
    (search.step cmp expand).Balances related (exploration.step cmp expand) := by
  rcases exploration with ⟨set, buffer, tally, visits, events⟩
  rcases balances with ⟨ledger, buffer_eq, tally_eq, visits_eq⟩
  simp only at ledger buffer_eq tally_eq visits_eq
  subst buffer_eq
  obtain ⟨id_eq, popped⟩ := ledger.pop mirrors
  simp only [Exploration.step, Search.step]
  generalize set.pop = handed at id_eq popped ⊢
  cases waits : search.ledger.pop with
  | mk top rest =>
    rcases handed with ⟨id, after⟩
    rw [waits] at id_eq popped
    simp only at id_eq popped
    subst id_eq
    cases top with
    | none =>
      refine ⟨?_, rfl, tally_eq, visits_eq⟩
      have unchanged : rest = search.ledger := by
        unfold Ledger.pop at waits
        split at waits
        · exact (Prod.mk.inj waits).2.symm
        · cases (Prod.mk.inj waits).1
      rw [unchanged] at popped
      exact popped
    | some id =>
      simp only [popped.get?_eq mirrors, Visited.get?, Visited.state?]
      cases found : after.store[id]? with
      | none => exact ⟨popped, rfl, tally_eq, visits_eq⟩
      | some record =>
        have mem : (record.key, record.state) ∈ after.admitted := by
          refine List.mem_of_getElem? (i := id) ?_
          rw [Visited.getElem?_admitted, found, Option.map_some]
        obtain ⟨other, known⟩ := mirrors.permitted popped.catalogue _ mem
        simp only [Option.map_some, ← Array.foldl_toList]
        refine offers mirrors (permitted other _ _ known) ⟨popped, rfl, ?_, ?_⟩
        · rw [tally_eq]
        · simp [visits_eq, SuccessorBuffer.empty, SuccessorBuffer.size]

/-- One loop ends within a bound exactly when the other does, and then they
balance. -/
theorem runFor (mirrors : Mirrors related permits) {cmp : Comparator α} {expand : Expander α}
    (permitted : (Operation.explore expand).Permitted permits cmp) (bound : Nat)
    (balances : search.Balances related exploration) :
    Option.Rel (Balances related) (Search.runFor cmp expand bound search)
      (Exploration.runFor cmp expand bound exploration) := by
  induction bound generalizing search exploration with
  | zero =>
    have done_eq : search.ledger.stack.isEmpty = exploration.isDone := balances.ledger.isEmpty_eq
    simp only [Search.runFor, Exploration.runFor, done_eq]
    split
    · exact .some balances
    · exact .none
  | succ bound ih =>
    have done_eq : search.ledger.stack.isEmpty = exploration.isDone := balances.ledger.isEmpty_eq
    simp only [Search.runFor, Exploration.runFor, done_eq]
    split
    · exact .some balances
    · exact ih (balances.step mirrors permitted)

end Ledger.Search.Balances

/-! ## Single operations -/

namespace Ledger.Balances

theorem explore? (balances : ledger.Balances related set) (mirrors : Mirrors related permits)
    {cmp : Comparator α} {expand : Expander α}
    (permitted : (Operation.explore expand).Permitted permits cmp) (bound : Nat) :
    Option.Rel (Agrees related) (ledger.explore? bound cmp expand)
      (set.explore? bound cmp expand) := by
  have start : (Search.mk ledger {} []).Balances related { set } := ⟨balances, rfl, rfl, rfl⟩
  refine rel_map (Search.Balances.runFor mirrors permitted bound start) ?_
  intro search exploration balances
  refine ⟨?_, balances.ledger⟩
  rw [balances.tally_eq, balances.visits_eq]
  rfl

/-- Where arrays stay within bounds and room never runs out, an operation on
the set is that operation on the ledger. -/
theorem perform (balances : ledger.Balances related set) (mirrors : Mirrors related permits)
    {cmp : Comparator α} {operation : Operation α} (permitted : operation.Permitted permits cmp)
    (fits : set.bucketCount ≤ largestArray) (bound : Nat) :
    Option.Rel (Agrees related) (ledger.perform bound cmp operation)
      (set.perform .always bound cmp operation) := by
  cases operation with
  | insert key state =>
    obtain ⟨verdict_eq, after⟩ := balances.insert mirrors permitted
    exact .some ⟨congrArg Answer.verdict verdict_eq, after⟩
  | tryInsert key state =>
    obtain ⟨verdict_eq, after⟩ := balances.insert mirrors permitted
    rw [Visited.perform, Visited.tryInsert_always fits]
    exact .some ⟨congrArg (fun verdict => Answer.attempt (.ok verdict)) verdict_eq, after⟩
  | find key state =>
    exact .some ⟨congrArg Answer.found (mirrors.find?_eq balances.coherent balances.catalogue
      permitted), balances⟩
  | contains key state =>
    have found := mirrors.find?_eq balances.coherent balances.catalogue permitted
    exact .some ⟨congrArg (fun id => Answer.present id.isSome) found, balances⟩
  | pop =>
    obtain ⟨id_eq, after⟩ := balances.pop mirrors
    exact .some ⟨congrArg Answer.popped id_eq, after⟩
  | peek => exact .some ⟨congrArg Answer.next balances.peek?_eq.symm, balances⟩
  | entries => exact .some ⟨congrArg Answer.entries (balances.entries_eq mirrors), balances⟩
  | waiting => exact .some ⟨congrArg Answer.waiting (balances.waiting_eq mirrors), balances⟩
  | explore expand =>
    refine rel_map (balances.explore? mirrors permitted bound) ?_
    intro result outcome agrees
    exact ⟨congrArg Answer.explored agrees.1, agrees.2⟩

end Ledger.Balances

/-! ## Runs -/

/-- A run of a set whose arrays stay within bounds is the run of a ledger
that balances it. -/
theorem Ledger.Balances.run (mirrors : Mirrors related permits) {bound : Nat}
    {operations : List (Comparator α × Operation α)}
    (permitted : ∀ operation ∈ operations, operation.2.Permitted permits operation.1)
    (balances : ledger.Balances related set) (fits : set.FitsThroughout .always bound operations) :
    Option.Rel (Agrees related) (ledger.run bound operations)
      (set.run .always bound operations) := by
  induction operations generalizing ledger set with
  | nil => exact .some ⟨rfl, balances⟩
  | cons head operations ih =>
    rcases head with ⟨cmp, operation⟩
    have first := balances.perform mirrors (permitted _ List.mem_cons_self) fits.here bound
    rw [Ledger.run, Visited.run]
    cases result : ledger.perform bound cmp operation <;>
      cases performed : set.perform .always bound cmp operation <;>
      rw [result, performed] at first <;> cases first
    · exact .none
    · next agrees =>
      have later := ih (fun other mem => permitted other (List.mem_cons_of_mem _ mem)) agrees.2
        (fits.rest performed)
      refine rel_map later ?_
      intro results outcome final
      refine ⟨?_, final.2⟩
      simp only [agrees.1, final.1]

end StateSearch
