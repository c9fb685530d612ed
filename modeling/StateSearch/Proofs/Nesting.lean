import Mathlib.Data.List.Find
import StateSearch.Proofs.Finding
import StateSearch.Visited.LookBack

/-!
# Lookups within lookups

A comparator may look up the state it was handed in the set that is just
walking a chain.  It asks under the key of the walk, which need not be the key
of that state, and calls the state greater if it is not found, which would end
the walk.  Under a total preorder this never happens, however deep the lookups
are nested.

There are three groups.

* Lookups that judge alike.  A lookup learns of a comparator only what it says
  of the states in one bucket.
* One level.  `FindsBucket` is what keeps a comparator that looks back from
  ending the walk.
* All levels.
-/

namespace StateSearch

variable {α : Type}

/-! ## Lookups that judge alike -/

/-- Comparators that judge the states of a bucket alike find the same there. -/
theorem ListTable.find?_congr {table : ListTable α} {cmp other : Comparator α} {key : UInt64}
    {candidate : α}
    (alike : ∀ id ∈ table.bucket (key.toNat % table.count), ∀ state,
      table.state? id = some state → other state candidate = cmp state candidate) :
    table.find? other key candidate = table.find? cmp key candidate := by
  have judged : ∀ id ∈ table.bucket (key.toNat % table.count),
      table.less other candidate id = table.less cmp candidate id ∧
        table.equal other candidate id = table.equal cmp candidate id := by
    intro id mem
    have alike_here := alike id mem
    unfold state? at alike_here
    unfold less equal
    cases admitted : table.admitted[id]? with
    | none => exact ⟨rfl, rfl⟩
    | some entry =>
      rw [admitted] at alike_here
      simp only [alike_here entry.2 rfl, and_self]
  have met_alike : (table.bucket (key.toNat % table.count)).find?
        (fun id => !table.less other candidate id) =
      (table.bucket (key.toNat % table.count)).find? fun id => !table.less cmp candidate id :=
    List.find?_congr fun id mem => congrArg (!·) (judged id mem).1
  rw [find?, find?, met_alike]
  cases met : (table.bucket (key.toNat % table.count)).find?
      fun id => !table.less cmp candidate id with
  | none => rfl
  | some id =>
    have equal_eq := (judged id (List.mem_of_find?_eq_some met)).2
    rw [Option.filter_some, Option.filter_some, equal_eq]

namespace Visited

variable {set : Visited α} {cmp inner other : Comparator α} {key : UInt64}

/-! ## One level -/

/-- Every state in the bucket of a key is found under this key, whatever its
own key is. -/
def FindsBucket (set : Visited α) (cmp : Comparator α) (key : UInt64) : Prop :=
  ∀ id ∈ set.chain (key.toNat % set.bucketCount), ∃ entry, set.get? id = some entry ∧
    set.find? cmp key entry.state = some id ∧ set.contains cmp key entry.state = true

theorem FindsBucket.congr (finds : set.FindsBucket cmp key)
    (same : ∀ candidate, set.find? other key candidate = set.find? cmp key candidate) :
    set.FindsBucket other key := by
  intro id mem
  obtain ⟨entry, got, found, contained⟩ := finds id mem
  refine ⟨entry, got, ?_, ?_⟩
  · rw [same, found]
  · rw [contains, same]
    exact contained

/-- In ascending chains a state is found under any key of its bucket. -/
theorem Coherent.findsBucket [Std.TransCmp cmp] (coherent : set.Coherent)
    (ascending : set.listTable.Ascending cmp) (key : UInt64) : set.FindsBucket cmp key := by
  intro id mem
  obtain ⟨entry, admitted, here⟩ := ListTable.leaves_iff.1 ((coherent.placed _ id).1 mem)
  have found : set.find? cmp key entry.2 = some id :=
    (coherent.find?_eq_some_iff ascending).2 ⟨entry, admitted, here, Std.ReflCmp.compare_self⟩
  have got : set.get? id = some { id, key := entry.1, state := entry.2 } :=
    (set.get?_eq id).trans (congrArg (Option.map _) admitted)
  refine ⟨_, got, found, ?_⟩
  rw [contains, found]
  rfl

/-- A comparator that finds what it looks back for ends no walk early, lawful
or not. -/
theorem Coherent.find?_lookBack (coherent : set.Coherent) (finds : set.FindsBucket inner key)
    (cmp : Comparator α) (candidate : α) :
    set.find? (set.lookBack inner cmp key) key candidate = set.find? cmp key candidate := by
  rw [coherent.find?_eq, coherent.find?_eq]
  refine ListTable.find?_congr fun id mem state found => ?_
  obtain ⟨entry, got, _, contained⟩ := finds id mem
  have found' : set.state? id = some entry.state := by
    rw [← map_state_get?, got]
    rfl
  rw [state?_listTable] at found
  obtain rfl := Option.some.inj (found.symm.trans found')
  rw [lookBack, if_pos contained]

/-! ## All levels -/

/-- What the innermost lookup finds every lookup around it finds. -/
theorem Coherent.findsBucket_lookBackDeep (coherent : set.Coherent)
    (finds : set.FindsBucket cmp key) (depth : Nat) :
    set.FindsBucket (set.lookBackDeep cmp key depth) key := by
  induction depth with
  | zero => exact finds
  | succ depth ih => exact finds.congr (coherent.find?_lookBack ih cmp)

/-- In every set that a run under one total preorder leads to, a lookup whose
comparator looks back into the set, to any depth, finds what it would find
without.  Each nested lookup finds the state it asks for, also where the key of
this state is another and disagrees with the comparator. -/
theorem ReachableUnder.find?_lookBackDeep [Std.TransCmp cmp] (reachable : set.ReachableUnder cmp)
    (key : UInt64) (depth : Nat) :
    (∀ candidate, set.find? (set.lookBackDeep cmp key depth) key candidate =
        set.find? cmp key candidate) ∧
      set.FindsBucket (set.lookBackDeep cmp key depth) key := by
  have coherent := reachable.reachable.coherent
  have finds := coherent.findsBucket_lookBackDeep (coherent.findsBucket reachable.ascending key)
  refine ⟨fun candidate => ?_, finds depth⟩
  cases depth with
  | zero => rfl
  | succ depth => exact coherent.find?_lookBack (finds depth) cmp candidate

/-- Three keys share the bucket that is walked, and a state equal to one of
theirs is in another bucket. -/
theorem find?_lookBackDeep_tens :
    let tens : Comparator Nat := Comparator.natural.on (· / 10)
    Std.TransCmp tens ∧ ∃ outcome : Outcome Nat (List (Answer Nat)),
      run .always 0 (ofCount 1024) ([.insert 7 50, .insert 1031 30, .insert 2055 41,
        .insert 8 55].map (tens, ·)) = some outcome ∧
      outcome.set.ReachableUnder tens ∧
      outcome.set.chain 7 = [1, 2, 0] ∧
      outcome.set.find? (outcome.set.lookBackDeep tens 7 2) 7 58 = some 0 ∧
      outcome.set.FindsBucket (outcome.set.lookBackDeep tens 7 2) 7 := by
  intro tens
  have ended : (run .always 0 (ofCount 1024) ([.insert 7 50, .insert 1031 30, .insert 2055 41,
      .insert 8 55].map (tens, ·))).map
      (fun outcome => (outcome.set.chain 7, outcome.set.find? tens 7 58)) =
        some ([1, 2, 0], some 0) := by decide +kernel
  obtain ⟨outcome, ran, views⟩ := Option.map_eq_some_iff.1 ended
  obtain ⟨chain_eq, found⟩ := Prod.mk.inj views
  have lawful : Std.TransCmp tens :=
    inferInstanceAs (Std.TransCmp (compareOn (fun n : Nat => n / 10)))
  have reachable : outcome.set.ReachableUnder tens :=
    ⟨1024, .always, 0, validBucketCount_minBuckets, _, outcome, by simp, ran, rfl⟩
  obtain ⟨same, finds⟩ := reachable.find?_lookBackDeep 7 2
  exact ⟨lawful, outcome, ran, reachable, chain_eq, (same 58).trans found, finds⟩

end Visited

end StateSearch
