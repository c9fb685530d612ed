import Mathlib.Data.List.Forall2
import StateSearch.Proofs.Growth
import StateSearch.Proofs.Paths
import StateSearch.Proofs.PlainRuns

/-!
# The layout of the chains

Under one total preorder, and with keys that equal states share, the chains
do not tell in which order the states came.  Two runs that insert the same
states, up to equal ones, may double their buckets while different states are
there, and split different chains.  In the end each chain is the one
ascending list of the states that belong in its bucket.

There are four groups.

* Lists of states that cover each other.  If no state stands twice they are
  of one length, and if they are ascending they agree place by place.
* What runs gather.  `Visited.Gathered` says that a set holds the states that
  were inserted, and `Gathered.run` carries it along.
* Two sets that gathered the same.
* Two runs.
-/

namespace StateSearch

variable {α : Type} {cmp : Comparator α}

/-! ## Lists that cover each other -/

/-- Every state of the first list is equal to one of the second. -/
def Covers (cmp : Comparator α) (states states' : List α) : Prop :=
  ∀ state ∈ states, ∃ state' ∈ states', cmp state state' = .eq

section Covering

variable {states states' more more' : List α}

theorem Covers.of_subset [Std.ReflCmp cmp] (subset : states ⊆ states') :
    Covers cmp states states' :=
  fun state mem => ⟨state, subset mem, Std.ReflCmp.compare_self⟩

theorem Covers.trans [Std.TransCmp cmp] (first : Covers cmp states states')
    (second : Covers cmp states' more) : Covers cmp states more := by
  intro state mem
  obtain ⟨between, mem_between, eq⟩ := first state mem
  obtain ⟨last, mem_last, eq'⟩ := second between mem_between
  exact ⟨last, mem_last, Std.TransCmp.eq_trans eq eq'⟩

theorem Covers.append (first : Covers cmp states states') (second : Covers cmp more more') :
    Covers cmp (states ++ more) (states' ++ more') := by
  intro state mem
  cases List.mem_append.1 mem with
  | inl here =>
    obtain ⟨state', mem', eq⟩ := first state here
    exact ⟨state', List.mem_append_left _ mem', eq⟩
  | inr there =>
    obtain ⟨state', mem', eq⟩ := second state there
    exact ⟨state', List.mem_append_right _ mem', eq⟩

/-- States that differ from each other need as many states to cover them. -/
theorem Covers.length_le [Std.TransCmp cmp] (covers : Covers cmp states states')
    (different : states.Pairwise fun state other => cmp state other ≠ .eq) :
    states.length ≤ states'.length := by
  induction states generalizing states' with
  | nil => exact Nat.zero_le _
  | cons state states ih =>
    obtain ⟨apart, different⟩ := List.pairwise_cons.1 different
    obtain ⟨partner, mem, eq⟩ := covers state List.mem_cons_self
    obtain ⟨front, back, rfl⟩ := List.append_of_mem mem
    -- The partner of one state is the partner of no other.
    have rest : Covers cmp states (front ++ back) := by
      intro other mem_other
      obtain ⟨state', mem', eq'⟩ := covers other (List.mem_cons_of_mem _ mem_other)
      have ne : state' ≠ partner := by
        intro same
        subst same
        have both := Std.TransCmp.eq_trans eq (Std.OrientedCmp.eq_symm eq')
        exact apart other mem_other both
      exact ⟨state', by simpa [ne] using mem', eq'⟩
    have le := ih rest different
    simp only [List.length_cons, List.length_append] at le ⊢
    omega

/-- If each of two ascending lists has its first state in the other, the two
are equal. -/
private theorem heads_eq [Std.TransCmp cmp] {state state' : α}
    (ascending : (state :: states).Pairwise fun first second => cmp first second = .lt)
    (ascending' : (state' :: states').Pairwise fun first second => cmp first second = .lt)
    (covers : Covers cmp (state :: states) (state' :: states'))
    (covers' : Covers cmp (state' :: states') (state :: states)) : cmp state state' = .eq := by
  obtain ⟨partner, mem, eq⟩ := covers state List.mem_cons_self
  obtain ⟨partner', mem', eq'⟩ := covers' state' List.mem_cons_self
  cases mem with
  | head => exact eq
  | tail _ later =>
    have after : cmp state' state = .lt :=
      Std.TransCmp.lt_of_lt_of_eq ((List.pairwise_cons.1 ascending').1 partner later)
        (Std.OrientedCmp.eq_symm eq)
    cases mem' with
    | head => exact Std.OrientedCmp.eq_symm eq'
    | tail _ later' =>
      have before : cmp state state' = .lt :=
        Std.TransCmp.lt_of_lt_of_eq ((List.pairwise_cons.1 ascending).1 partner' later')
          (Std.OrientedCmp.eq_symm eq')
      exact absurd after (Std.OrientedCmp.not_lt_of_lt before)

/-- What covers an ascending list goes on covering it without the two first
states, which are equal. -/
private theorem Covers.tail [Std.TransCmp cmp] {state state' : α}
    (covers : Covers cmp (state :: states) (state' :: states'))
    (ascending : (state :: states).Pairwise fun first second => cmp first second = .lt)
    (eq : cmp state state' = .eq) : Covers cmp states states' := by
  intro other mem
  obtain ⟨partner, mem', eq'⟩ := covers other (List.mem_cons_of_mem _ mem)
  cases mem' with
  | head =>
    have lt := (List.pairwise_cons.1 ascending).1 other mem
    rw [Std.TransCmp.eq_trans eq (Std.OrientedCmp.eq_symm eq')] at lt
    cases lt
  | tail _ later => exact ⟨partner, later, eq'⟩

/-- Ascending lists that cover each other agree place by place. -/
theorem forall₂_of_covers [Std.TransCmp cmp]
    (ascending : states.Pairwise fun first second => cmp first second = .lt)
    (ascending' : states'.Pairwise fun first second => cmp first second = .lt)
    (covers : Covers cmp states states') (covers' : Covers cmp states' states) :
    List.Forall₂ (fun state state' => cmp state state' = .eq) states states' := by
  induction states generalizing states' with
  | nil =>
    cases states' with
    | nil => exact .nil
    | cons state' states' =>
      obtain ⟨_, mem, _⟩ := covers' state' List.mem_cons_self
      cases mem
  | cons state states ih =>
    cases states' with
    | nil =>
      obtain ⟨_, mem, _⟩ := covers state List.mem_cons_self
      cases mem
    | cons state' states' =>
      have eq := heads_eq ascending ascending' covers covers'
      refine .cons eq (ih (List.pairwise_cons.1 ascending).2 (List.pairwise_cons.1 ascending').2
        (covers.tail ascending eq) (covers'.tail ascending' (Std.OrientedCmp.eq_symm eq)))

end Covering

/-! ## What runs gather -/

/-- The states that operations insert, in order. -/
def insertedStates (operations : List (Operation α)) : List α :=
  (operations.filterMap Operation.inserted?).map Prod.snd

/-- An operation inserts its state under the key that the function gives. -/
def Operation.InsertsBy (keyOf : α → UInt64) (operation : Operation α) : Prop :=
  ∀ entry ∈ operation.inserted?, entry.1 = keyOf entry.2

namespace Visited

variable {keyOf : α → UInt64} {states : List α} {set set' : Visited α}

/-- Under one total preorder the set holds the states of the list, but for
equal ones, and under their keys. -/
structure Gathered (cmp : Comparator α) (keyOf : α → UInt64) (states : List α)
    (set : Visited α) : Prop where
  coherent : set.Coherent
  ascending : set.listTable.Ascending cmp
  keyed : set.KeyedBy keyOf
  covers : Covers cmp (set.admitted.map Prod.snd) states
  covers' : Covers cmp states (set.admitted.map Prod.snd)

theorem gathered_ofCount {count : Nat} (valid : ValidBucketCount count) :
    Gathered cmp keyOf [] (ofCount count) where
  coherent := coherent_ofCount valid
  ascending := ascending_ofCount cmp count
  keyed _ mem := by cases mem
  covers _ mem := by cases mem
  covers' _ mem := by cases mem

theorem Gathered.pop (gathered : Gathered cmp keyOf states set) :
    Gathered cmp keyOf states set.pop.2 where
  coherent := gathered.coherent.pop
  ascending := by
    rw [gathered.coherent.listTable_pop]
    exact gathered.ascending
  keyed := by
    rw [keyedBy_iff, admitted_pop]
    exact keyedBy_iff.1 gathered.keyed
  covers := by
    rw [admitted_pop]
    exact gathered.covers
  covers' := by
    rw [admitted_pop]
    exact gathered.covers'

/-- An inserted state is new, or it is equal to one that the set holds. -/
theorem Gathered.insert [Std.TransCmp cmp] (gathered : Gathered cmp keyOf states set)
    {key : UInt64} {state : α} (key_eq : key = keyOf state) :
    Gathered cmp keyOf (states ++ [state]) (set.insert cmp key state).set := by
  have coherent := gathered.coherent
  have coherent' := coherent.insert cmp key state
  have ascending' := coherent.ascending_insert gathered.ascending key state
  revert coherent' ascending'
  have placed : ∀ {next : Visited α}, next.admitted = set.admitted ++ [(key, state)] →
      next.Coherent → next.listTable.Ascending cmp →
      Gathered cmp keyOf (states ++ [state]) next := by
    intro next admitted_eq coherent' ascending'
    have itself : Covers cmp [state] [state] := Covers.of_subset (List.Subset.refl _)
    refine ⟨coherent', ascending', ?_, ?_, ?_⟩
    · rw [keyedBy_iff, admitted_eq]
      intro entry mem
      cases List.mem_append.1 mem with
      | inl old => exact keyedBy_iff.1 gathered.keyed entry old
      | inr new =>
        rw [List.mem_singleton.1 new]
        exact key_eq
    · rw [admitted_eq, List.map_append]
      exact gathered.covers.append itself
    · rw [admitted_eq, List.map_append]
      exact gathered.covers'.append itself
  refine coherent.insert_cases_lawful gathered.ascending (motive := fun outcome =>
    outcome.set.Coherent → outcome.set.listTable.Ascending cmp →
    Gathered cmp keyOf (states ++ [state]) outcome.set) ?_ ?_ ?_
  · intro id found _ _
    obtain ⟨entry, admitted, _, eq⟩ := (coherent.find?_eq_some_iff gathered.ascending).1 found
    have mem : entry.2 ∈ set.admitted.map Prod.snd :=
      List.mem_map_of_mem (List.mem_of_getElem? admitted)
    refine ⟨coherent, gathered.ascending, gathered.keyed, ?_, ?_⟩
    · exact gathered.covers.trans (Covers.of_subset (List.subset_append_left ..))
    · intro other mem_other
      cases List.mem_append.1 mem_other with
      | inl old => exact gathered.covers' other old
      | inr new =>
        rw [List.mem_singleton.1 new]
        exact ⟨entry.2, mem, Std.OrientedCmp.eq_symm eq⟩
  · intro after _ _
    exact placed (admitted_place ..)
  · intro after _ _
    refine placed ?_
    rw [admitted_place, admitted_double]

/-- An operation that is no exploration gathers what it inserts. -/
theorem Gathered.perform [Std.TransCmp cmp] (gathered : Gathered cmp keyOf states set)
    {bound : Nat} {operation : Operation α} {first : Outcome α (Answer α)}
    (returns : operation.explores = false) (insertsBy : operation.InsertsBy keyOf)
    (fits : set.bucketCount ≤ largestArray)
    (performed : set.perform .always bound cmp operation = some first) :
    Gathered cmp keyOf (states ++ insertedStates [operation]) first.set := by
  have same : Gathered cmp keyOf (states ++ []) set := by
    rw [List.append_nil]
    exact gathered
  cases operation with
  | explore expand => cases returns
  | insert key state =>
    obtain rfl := Option.some.inj performed
    exact gathered.insert (insertsBy (key, state) rfl)
  | tryInsert key state =>
    rw [Visited.perform, tryInsert_always fits] at performed
    obtain rfl := Option.some.inj performed
    exact gathered.insert (insertsBy (key, state) rfl)
  | pop =>
    obtain rfl := Option.some.inj performed
    exact same.pop
  | find | contains | peek | entries | waiting =>
    obtain rfl := Option.some.inj performed
    exact same

/-- A run without explorations gathers what its operations insert. -/
theorem Gathered.run [Std.TransCmp cmp] (gathered : Gathered cmp keyOf states set) {bound : Nat}
    {operations : List (Operation α)} {outcome : Outcome α (List (Answer α))}
    (returns : ∀ operation ∈ operations, operation.explores = false)
    (insertsBy : ∀ operation ∈ operations, operation.InsertsBy keyOf)
    (fits : set.FitsThroughout .always bound (operations.map (cmp, ·)))
    (ran : run .always bound set (operations.map (cmp, ·)) = some outcome) :
    Gathered cmp keyOf (states ++ insertedStates operations) outcome.set := by
  induction operations generalizing states set outcome with
  | nil =>
    obtain rfl := Option.some.inj ran
    rw [insertedStates, List.filterMap_nil, List.map_nil, List.append_nil]
    exact gathered
  | cons operation operations ih =>
    rw [List.map_cons, Visited.run_cons_eq_some_iff] at ran
    obtain ⟨first, performed, later, ran, rfl⟩ := ran
    have here := gathered.perform (returns _ List.mem_cons_self) (insertsBy _ List.mem_cons_self)
      fits.here performed
    have rest := ih here (fun other mem => returns other (List.mem_cons_of_mem _ mem))
      (fun other mem => insertsBy other (List.mem_cons_of_mem _ mem)) (fits.rest performed) ran
    have split : insertedStates (operation :: operations) =
        insertedStates [operation] ++ insertedStates operations := by
      rw [insertedStates, insertedStates, insertedStates, ← List.map_append,
        ← List.filterMap_append, List.singleton_append]
    rw [split, ← List.append_assoc]
    exact rest

/-! ## Sets that gathered the same -/

/-- The chain of a bucket holds these states, in order. -/
def ChainHolds (set : Visited α) (bucket : Nat) (states : List α) : Prop :=
  (set.chain bucket).map set.state? = states.map some

/-- The two sets have the same buckets, and in each of them chains whose
states are equal place by place. -/
structure LaidOutAlike (cmp : Comparator α) (set set' : Visited α) : Prop where
  size_eq : set'.size = set.size
  bucketCount_eq : set'.bucketCount = set.bucketCount
  doublings_eq : set'.doublings = set.doublings
  longestChain_eq : set'.longestChain = set.longestChain
  length_eq : ∀ bucket, (set'.chain bucket).length = (set.chain bucket).length
  states_eq : ∀ bucket, ∃ states states', set.ChainHolds bucket states ∧
    set'.ChainHolds bucket states' ∧
    List.Forall₂ (fun state state' => cmp state state' = .eq) states states'

/-- Every id of a chain has a state. -/
theorem Coherent.exists_chainHolds (coherent : set.Coherent) (bucket : Nat) :
    ∃ states, set.ChainHolds bucket states := by
  refine ⟨(set.chain bucket).filterMap set.state?, ?_⟩
  rw [ChainHolds, List.map_filterMap]
  symm
  rw [List.filterMap_eq_map_iff_forall_eq_some]
  intro id mem
  obtain ⟨record, stored, _⟩ := Store.belongs_iff.1 (coherent.mem_chain_iff.1 mem)
  rw [Visited.state?, stored]
  rfl

theorem ChainHolds.length_eq {bucket : Nat} (holds : set.ChainHolds bucket states) :
    (set.chain bucket).length = states.length := by
  have lengths := congrArg List.length holds
  rwa [List.length_map, List.length_map] at lengths

namespace Gathered

/-- The states of a chain are those in the set whose keys have its bucket. -/
theorem mem_iff (gathered : Gathered cmp keyOf states set) {bucket : Nat} {chained : List α}
    (holds : set.ChainHolds bucket chained) {state : α} :
    state ∈ chained ↔ state ∈ set.admitted.map Prod.snd ∧
      (keyOf state).toNat % set.bucketCount = bucket := by
  have mem_chained : state ∈ chained ↔ ∃ id ∈ set.chain bucket, set.state? id = some state := by
    rw [← List.mem_map, holds, List.mem_map]
    simp
  rw [mem_chained, ← holds_iff_mem]
  have key?_eq : ∀ id, set.state? id = some state → set.key? id = some (keyOf state) := by
    intro id found
    obtain ⟨record, stored, rfl⟩ := Option.map_eq_some_iff.1 found
    have admitted : (record.key, record.state) ∈ set.admitted := by
      refine List.mem_of_getElem? (i := id) ?_
      rw [getElem?_admitted, stored, Option.map_some]
    rw [key?, stored]
    exact congrArg some (keyedBy_iff.1 gathered.keyed _ admitted)
  constructor
  · rintro ⟨id, mem, found⟩
    obtain ⟨key, found_key, here⟩ := gathered.coherent.mem_chain_iff_key.1 mem
    rw [key?_eq id found, Option.some.injEq] at found_key
    rw [found_key]
    exact ⟨⟨id, found⟩, here⟩
  · rintro ⟨⟨id, found⟩, here⟩
    exact ⟨id, gathered.coherent.mem_chain_iff_key.2 ⟨_, key?_eq id found, here⟩, found⟩

theorem ascending_chain (gathered : Gathered cmp keyOf states set) {bucket : Nat}
    {chained : List α} (holds : set.ChainHolds bucket chained) :
    chained.Pairwise fun first second => cmp first second = .lt := by
  have sorted : ((set.chain bucket).map set.state?).Pairwise fun first second =>
      ∃ state state', first = some state ∧ second = some state' ∧ cmp state state' = .lt :=
    List.pairwise_map.2 (pairwise_before gathered.ascending bucket)
  rw [holds, List.pairwise_map] at sorted
  refine sorted.imp ?_
  intro first second less
  obtain ⟨state, state', eq, eq', lt⟩ := less
  rw [Option.some.inj eq, Option.some.inj eq']
  exact lt

variable (agree : ∀ first second, cmp first second = .eq → keyOf first = keyOf second)
include agree

/-- Since equal states have one key, the set holds no two of them. -/
theorem pairwise_ne [Std.TransCmp cmp] (gathered : Gathered cmp keyOf states set) :
    (set.admitted.map Prod.snd).Pairwise fun first second => cmp first second ≠ .eq := by
  rw [List.pairwise_map, List.pairwise_iff_getElem]
  intro id other lt lt' before eq
  have admitted : set.admitted[id]? = some set.admitted[id] := List.getElem?_eq_getElem lt
  have admitted' : set.admitted[other]? = some set.admitted[other] := List.getElem?_eq_getElem lt'
  have key_eq := keyedBy_iff.1 gathered.keyed _ (List.getElem_mem lt)
  have key_eq' := keyedBy_iff.1 gathered.keyed _ (List.getElem_mem lt')
  have same_key : set.admitted[other].1 = set.admitted[id].1 := by
    rw [key_eq, key_eq', agree _ _ eq]
  have same : set.admitted[other] = (set.admitted[id].1, set.admitted[other].2) :=
    Prod.ext same_key rfl
  rw [same] at admitted'
  have id_eq := gathered.coherent.eq_of_admitted gathered.ascending admitted admitted' eq
  exact Nat.ne_of_lt before id_eq

variable {states' : List α} (gathered : Gathered cmp keyOf states set)
  (gathered' : Gathered cmp keyOf states' set')
include gathered gathered'

theorem size_le [Std.TransCmp cmp] (covers : Covers cmp states states') :
    set.size ≤ set'.size := by
  have covers_all := (gathered.covers.trans covers).trans gathered'.covers'
  have le := covers_all.length_le (gathered.pairwise_ne agree)
  rwa [List.length_map, List.length_map, length_admitted, length_admitted] at le

/-- With as many buckets, what covers a chain is in the same bucket. -/
theorem covers_chain [Std.TransCmp cmp] (covers : Covers cmp states states')
    (bucketCount_eq : set'.bucketCount = set.bucketCount) {bucket : Nat}
    {chained chained' : List α} (holds : set.ChainHolds bucket chained)
    (holds' : set'.ChainHolds bucket chained') : Covers cmp chained chained' := by
  intro state mem
  obtain ⟨held, here⟩ := (gathered.mem_iff holds).1 mem
  obtain ⟨state', held', eq⟩ :=
    ((gathered.covers.trans covers).trans gathered'.covers') state held
  refine ⟨state', (gathered'.mem_iff holds').2 ⟨held', ?_⟩, eq⟩
  rw [bucketCount_eq, ← agree state state' eq]
  exact here

/-- Sets on one schedule that gathered states which cover each other are laid
out alike. -/
theorem laidOutAlike [Std.TransCmp cmp] (covers : Covers cmp states states')
    (covers' : Covers cmp states' states) {count : Nat} (on : OnSchedule count set)
    (on' : OnSchedule count set') : LaidOutAlike cmp set set' := by
  have size_eq : set'.size = set.size :=
    Nat.le_antisymm (size_le agree gathered' gathered covers')
      (size_le agree gathered gathered' covers)
  have doublings_eq := on.doublings_eq on' size_eq
  have bucketCount_eq : set'.bucketCount = set.bucketCount := by
    rw [on'.bucketCount_eq, on.bucketCount_eq, doublings_eq]
  have states_eq : ∀ bucket, ∃ chained chained', set.ChainHolds bucket chained ∧
      set'.ChainHolds bucket chained' ∧
      List.Forall₂ (fun state state' => cmp state state' = .eq) chained chained' := by
    intro bucket
    obtain ⟨chained, holds⟩ := gathered.coherent.exists_chainHolds bucket
    obtain ⟨chained', holds'⟩ := gathered'.coherent.exists_chainHolds bucket
    refine ⟨chained, chained', holds, holds', ?_⟩
    exact forall₂_of_covers (gathered.ascending_chain holds) (gathered'.ascending_chain holds')
      (covers_chain agree gathered gathered' covers bucketCount_eq holds holds')
      (covers_chain agree gathered' gathered covers' bucketCount_eq.symm holds' holds)
  have length_eq : ∀ bucket, (set'.chain bucket).length = (set.chain bucket).length := by
    intro bucket
    obtain ⟨chained, chained', holds, holds', equal⟩ := states_eq bucket
    rw [holds.length_eq, holds'.length_eq, equal.length_eq]
  have lengths_eq : set'.chains.map List.length = set.chains.map List.length := by
    show ((List.range set'.bucketCount).map set'.chain).map List.length =
      ((List.range set.bucketCount).map set.chain).map List.length
    rw [bucketCount_eq, List.map_map, List.map_map]
    exact List.map_congr_left fun bucket _ => length_eq bucket
  have longestChain_eq : set'.longestChain = set.longestChain := by
    show (set'.chains.map List.length).max?.getD 0 = (set.chains.map List.length).max?.getD 0
    rw [lengths_eq]
  exact ⟨size_eq, bucketCount_eq, doublings_eq, longestChain_eq, length_eq, states_eq⟩

end Gathered

/-! ## Two runs -/

/-- What a run without explorations makes of an empty set. -/
theorem exists_run_gathered [Std.TransCmp cmp] {count : Nat} (valid : ValidBucketCount count)
    {bound : Nat} {operations : List (Operation α)}
    (returns : ∀ operation ∈ operations, operation.explores = false)
    (insertsBy : ∀ operation ∈ operations, operation.InsertsBy keyOf)
    (fits : (ofCount count).FitsThroughout .always bound (operations.map (cmp, ·))) :
    ∃ outcome, Visited.run .always bound (ofCount count) (operations.map (cmp, ·)) = some outcome ∧
      Gathered cmp keyOf (insertedStates operations) outcome.set ∧
      OnSchedule count outcome.set := by
  have returns' : ∀ operation ∈ operations.map (cmp, ·), operation.2.explores = false := by
    intro _ here
    obtain ⟨operation, mem, rfl⟩ := List.mem_map.1 here
    exact returns operation mem
  obtain ⟨outcome, ran⟩ := exists_run .always bound (ofCount count) returns'
  have leads : Leads (· = cmp) (ofCount count) outcome.set := by
    refine leads_of_run (fun _ here => ?_) ran
    obtain ⟨_, _, rfl⟩ := List.mem_map.1 here
    rfl
  refine ⟨outcome, ran, (gathered_ofCount valid).run returns insertsBy fits ran, ?_⟩
  exact leads.onSchedule (coherent_ofCount valid) (ascending_ofCount cmp count)
    (onSchedule_ofCount valid)

/-- Under one total preorder, and with keys that equal states share, two runs
that insert the same states, up to equal ones, lay them out alike.  Order,
repetitions, removals and lookups have no part in it.  If equal states are
identical, so are the chains. -/
theorem exists_laidOutAlike_of_covers [Std.TransCmp cmp]
    (agree : ∀ first second, cmp first second = .eq → keyOf first = keyOf second) {count : Nat}
    (valid : ValidBucketCount count) {bound bound' : Nat}
    {operations operations' : List (Operation α)}
    (returns : ∀ operation ∈ operations, operation.explores = false)
    (returns' : ∀ operation ∈ operations', operation.explores = false)
    (insertsBy : ∀ operation ∈ operations, operation.InsertsBy keyOf)
    (insertsBy' : ∀ operation ∈ operations', operation.InsertsBy keyOf)
    (covers : Covers cmp (insertedStates operations) (insertedStates operations'))
    (covers' : Covers cmp (insertedStates operations') (insertedStates operations))
    (fits : (ofCount count).FitsThroughout .always bound (operations.map (cmp, ·)))
    (fits' : (ofCount count).FitsThroughout .always bound' (operations'.map (cmp, ·))) :
    ∃ outcome outcome',
      run .always bound (ofCount count) (operations.map (cmp, ·)) = some outcome ∧
      run .always bound' (ofCount count) (operations'.map (cmp, ·)) = some outcome' ∧
      LaidOutAlike cmp outcome.set outcome'.set ∧
      (Std.LawfulEqCmp cmp → ∀ bucket, (outcome'.set.chain bucket).map outcome'.set.state? =
        (outcome.set.chain bucket).map outcome.set.state?) := by
  obtain ⟨outcome, ran, gathered, on⟩ := exists_run_gathered valid returns insertsBy fits
  obtain ⟨outcome', ran', gathered', on'⟩ := exists_run_gathered valid returns' insertsBy' fits'
  have alike := Gathered.laidOutAlike agree gathered gathered' covers covers' on on'
  refine ⟨outcome, outcome', ran, ran', alike, ?_⟩
  intro lawful bucket
  obtain ⟨states, states', holds, holds', equal⟩ := alike.states_eq bucket
  have identical : states = states' := by
    rw [← List.forall₂_eq_eq_eq]
    exact equal.imp fun _ _ eq => Std.LawfulEqCmp.eq_of_compare eq
  rw [holds, holds', identical]

/-- Numbers told apart by their tens come in two orders, with repetitions and
removals, and three of them share a bucket. -/
theorem exists_laidOutAlike_of_covers_tens :
    let tens : Comparator Nat := Comparator.natural.on (· / 10)
    let keyOf : Nat → UInt64 := fun n => if n / 10 % 2 = 0 then 1031 else 7
    let operations : List (Operation Nat) := [.insert 7 50, .tryInsert 7 34, .insert 7 58, .pop,
      .insert 1031 26, .find 3 26, .tryInsert 7 37]
    let operations' : List (Operation Nat) := [.tryInsert 1031 20, .insert 7 31, .waiting,
      .insert 7 59, .insert 1031 29]
    Std.TransCmp tens ∧ (∀ first second, tens first second = .eq → keyOf first = keyOf second) ∧
      ValidBucketCount 1024 ∧
      (∀ operation ∈ operations ++ operations', operation.explores = false) ∧
      (∀ operation ∈ operations ++ operations', operation.InsertsBy keyOf) ∧
      Covers tens (insertedStates operations) (insertedStates operations') ∧
      Covers tens (insertedStates operations') (insertedStates operations) ∧
      (ofCount 1024).FitsThroughout .always 0 (operations.map (tens, ·)) ∧
      (ofCount 1024).FitsThroughout .always 0 (operations'.map (tens, ·)) ∧
      ∃ outcome outcome',
        run .always 0 (ofCount 1024) (operations.map (tens, ·)) = some outcome ∧
        run .always 0 (ofCount 1024) (operations'.map (tens, ·)) = some outcome' ∧
        outcome.set.chain 7 = [2, 1, 0] ∧ outcome'.set.chain 7 = [0, 1, 2] ∧
        LaidOutAlike tens outcome.set outcome'.set := by
  intro tens keyOf operations operations'
  have lawful : Std.TransCmp tens :=
    inferInstanceAs (Std.TransCmp (compareOn (fun n : Nat => n / 10)))
  have agree : ∀ first second, tens first second = .eq → keyOf first = keyOf second := by
    intro first second eq
    have same : first / 10 = second / 10 := Nat.compare_eq_eq.1 eq
    show (if first / 10 % 2 = 0 then (1031 : UInt64) else 7) =
      if second / 10 % 2 = 0 then 1031 else 7
    rw [same]
  have returns : ∀ operation ∈ operations ++ operations', operation.explores = false := by
    simp [operations, operations', Operation.explores]
  have insertsBy : ∀ operation ∈ operations ++ operations', operation.InsertsBy keyOf := by
    simp [operations, operations', Operation.InsertsBy, Operation.inserted?, keyOf]
  have covers : Covers tens (insertedStates operations) (insertedStates operations') := by
    unfold Covers
    decide
  have covers' : Covers tens (insertedStates operations') (insertedStates operations) := by
    unfold Covers
    decide
  have ended : (run .always 0 (ofCount 1024) (operations.map (tens, ·))).map
      (fun outcome => (outcome.set.chain 7, outcome.set.bucketCount)) =
      some ([2, 1, 0], 1024) := by decide +kernel
  have ended' : (run .always 0 (ofCount 1024) (operations'.map (tens, ·))).map
      (fun outcome => (outcome.set.chain 7, outcome.set.bucketCount)) =
      some ([0, 1, 2], 1024) := by decide +kernel
  obtain ⟨outcome, ran, eq⟩ := Option.map_eq_some_iff.1 ended
  obtain ⟨outcome', ran', eq'⟩ := Option.map_eq_some_iff.1 ended'
  obtain ⟨chain_eq, count_eq⟩ := Prod.mk.inj eq
  obtain ⟨chain_eq', count_eq'⟩ := Prod.mk.inj eq'
  have fits := fitsThroughout_of_run ran (by rw [count_eq]; decide)
  have fits' := fitsThroughout_of_run ran' (by rw [count_eq']; decide)
  obtain ⟨_, _, again, again', alike, _⟩ := exists_laidOutAlike_of_covers agree
    validBucketCount_minBuckets (fun _ mem => returns _ (List.mem_append_left _ mem))
    (fun _ mem => returns _ (List.mem_append_right _ mem))
    (fun _ mem => insertsBy _ (List.mem_append_left _ mem))
    (fun _ mem => insertsBy _ (List.mem_append_right _ mem)) covers covers' fits fits'
  obtain rfl := Option.some.inj (ran.symm.trans again)
  obtain rfl := Option.some.inj (ran'.symm.trans again')
  exact ⟨lawful, agree, validBucketCount_minBuckets, returns, insertsBy, covers, covers', fits,
    fits', outcome, outcome', ran, ran', chain_eq, chain_eq', alike⟩

end Visited

end StateSearch
