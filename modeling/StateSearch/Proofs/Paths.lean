import Mathlib.Data.List.Nodup
import Mathlib.Logic.Relation
import StateSearch.Proofs.Expansions
import StateSearch.Proofs.Finding

/-!
# States, keys and paths

This module is about the states in a set, and not about their ids, where the
comparator is a total preorder and the states determine their keys.

There are three groups.

* What a caller can say of a set and of an expander.  A path of expansions
  leads from a state that waits, `Visited.Discovers`.  It ends at a state that
  was handed out before, since that state is not expanded again.
* States and their ids.  No state has two ids, and what was offered to a set
  is in it.
* Fresh sets, seeded with a list of states, all of which wait.
-/

namespace StateSearch

variable {α : Type}

/-! ## Sets and paths -/

namespace Visited

/-- The state is in the set. -/
def Holds (set : Visited α) (state : α) : Prop :=
  ∃ id, set.state? id = some state

/-- The state is in the set and waits for expansion. -/
def Awaits (set : Visited α) (state : α) : Prop :=
  ∃ id, set.state? id = some state ∧ set.isQueued? id = some true

/-- The state is in the set and waits no more. -/
def HandedOut (set : Visited α) (state : α) : Prop :=
  ∃ id, set.state? id = some state ∧ set.isQueued? id = some false

/-- The keys in the set are those that the function gives. -/
def KeyedBy (set : Visited α) (keyOf : α → UInt64) : Prop :=
  ∀ entry ∈ set.entries, entry.key = keyOf entry.state

instance (set : Visited α) (keyOf : α → UInt64) : Decidable (set.KeyedBy keyOf) :=
  inferInstanceAs (Decidable (∀ entry ∈ set.entries, entry.key = keyOf entry.state))

end Visited

/-- The states with the keys that the function gives. -/
def withKeys (keyOf : α → UInt64) (states : List α) : List (UInt64 × α) :=
  states.map fun state => (keyOf state, state)

/-- The expansion of the first state adds the second. -/
def Expander.Yields (expand : Expander α) (state next : α) : Prop :=
  next ∈ (expand.successors state).map Prod.snd

/-- Where these states were expanded, the successors came with the keys that
the function gives. -/
def Expander.KeyedOn (expand : Expander α) (keyOf : α → UInt64) (visits : List (Visit α)) : Prop :=
  ∀ visit ∈ visits, ∀ successor ∈ expand.successors visit.state, successor.1 = keyOf successor.2

namespace Visited

/-- One step of a path, from a state that was not handed out before. -/
def Onward (set : Visited α) (expand : Expander α) (state next : α) : Prop :=
  expand.Yields state next ∧ ¬ set.HandedOut state

/-- A path leads to the state from one that waits.  Since what waits was not
handed out, only the states in between can cut a path short. -/
def Discovers (set : Visited α) (expand : Expander α) (state : α) : Prop :=
  ∃ first, set.Awaits first ∧ Relation.ReflTransGen (set.Onward expand) first state

/-- A fresh set after the insertion of the listed states. -/
def seeded (cmp : Comparator α) (keyOf : α → UInt64) (count : Nat) (seeds : List α) : Visited α :=
  (ofCount count).insertAll cmp (seeds.map fun state => (keyOf state, state))

variable {set set' : Visited α} {cmp : Comparator α} {keyOf : α → UInt64} {key : UInt64}
  {state : α} {group : List α} {id other : Id}

/-! ## States and their ids -/

theorem holds_iff_mem : set.Holds state ↔ state ∈ set.admitted.map Prod.snd := by
  rw [Holds, List.mem_iff_getElem?]
  simp only [state?_eq, List.getElem?_map]

/-- Admissions take no state out of a set. -/
theorem Holds.of_isPrefix (holds : set.Holds state) (stays : set.admitted <+: set'.admitted) :
    set'.Holds state := by
  rcases holds with ⟨id, found⟩
  exact ⟨id, by rw [state?_eq_of_isPrefix stays (lt_size_of_state? found), found]⟩

theorem Coherent.awaits_iff (coherent : set.Coherent) :
    set.Awaits state ↔ ∃ id ∈ set.stack, set.state? id = some state := by
  constructor
  · rintro ⟨id, found, queued⟩
    rw [coherent.isQueued?_of_state? found, Option.some.injEq, decide_eq_true_iff] at queued
    exact ⟨id, queued, found⟩
  · rintro ⟨id, mem, found⟩
    refine ⟨id, found, ?_⟩
    rw [coherent.isQueued?_of_state? found, decide_eq_true mem]

theorem Coherent.handedOut_iff (coherent : set.Coherent) :
    set.HandedOut state ↔ ∃ id, id ∉ set.stack ∧ set.state? id = some state := by
  constructor
  · rintro ⟨id, found, queued⟩
    rw [coherent.isQueued?_of_state? found, Option.some.injEq, decide_eq_false_iff_not] at queued
    exact ⟨id, queued, found⟩
  · rintro ⟨id, notMem, found⟩
    refine ⟨id, found, ?_⟩
    rw [coherent.isQueued?_of_state? found, decide_eq_false notMem]

theorem keyedBy_iff : set.KeyedBy keyOf ↔ ∀ entry ∈ set.admitted, entry.1 = keyOf entry.2 := by
  constructor
  · intro keyed entry mem
    obtain ⟨id, admitted⟩ := List.mem_iff_getElem?.1 mem
    refine keyed { id, key := entry.1, state := entry.2 } (List.mem_iff_getElem?.2 ⟨id, ?_⟩)
    rw [getElem?_entries, get?_eq, admitted]
    rfl
  · intro keyed entry mem
    obtain ⟨id, found⟩ := List.mem_iff_getElem?.1 mem
    rw [getElem?_entries, get?_eq, Option.map_eq_some_iff] at found
    rcases found with ⟨pair, admitted, rfl⟩
    exact keyed pair (List.mem_of_getElem? admitted)

/-- Keys that the states determine leave one id for each state. -/
theorem ReachableUnder.eq_of_state? [Std.TransCmp cmp] (reachable : set.ReachableUnder cmp)
    (keyed : set.KeyedBy keyOf) (found : set.state? id = some state)
    (found' : set.state? other = some state) : id = other := by
  rw [state?_eq, Option.map_eq_some_iff] at found found'
  rcases found with ⟨⟨key, _⟩, admitted, rfl⟩
  rcases found' with ⟨⟨key', _⟩, admitted', rfl⟩
  have key_eq := keyedBy_iff.1 keyed _ (List.mem_of_getElem? admitted)
  have key_eq' := keyedBy_iff.1 keyed _ (List.mem_of_getElem? admitted')
  have same : key' = key := key_eq'.trans key_eq.symm
  rw [same] at admitted'
  exact reachable.reachable.coherent.eq_of_admitted reachable.ascending admitted admitted'
    Std.ReflCmp.compare_self

/-- Under one total preorder no pair of key and state is admitted twice. -/
theorem ReachableUnder.nodup_admitted [Std.TransCmp cmp] (reachable : set.ReachableUnder cmp) :
    set.admitted.Nodup := by
  rw [List.nodup_iff_getElem?_ne_getElem?]
  intro id other lt lt_length same
  have admitted : set.admitted[other]? = some set.admitted[other] :=
    List.getElem?_eq_getElem lt_length
  have id_eq : id = other := reachable.reachable.coherent.eq_of_admitted reachable.ascending
    (same.trans admitted) admitted Std.ReflCmp.compare_self
  exact Nat.ne_of_lt lt id_eq

/-- The states that a set holds, under keys that they determine, are
different. -/
theorem ReachableUnder.nodup_states [Std.TransCmp cmp] (reachable : set.ReachableUnder cmp)
    (keyed : set.KeyedBy keyOf) : (set.admitted.map Prod.snd).Nodup := by
  refine reachable.nodup_admitted.map_on fun entry mem entry' mem' state_eq => ?_
  refine Prod.ext ?_ state_eq
  rw [keyedBy_iff.1 keyed entry mem, keyedBy_iff.1 keyed entry' mem', state_eq]

/-- Where equal states are identical, whatever was offered is in the set. -/
theorem ReachableUnder.holds_insert [Std.TransCmp cmp] [Std.LawfulEqCmp cmp]
    (reachable : set.ReachableUnder cmp) : (set.insert cmp key state).set.Holds state := by
  have coherent := reachable.reachable.coherent
  refine coherent.insert_cases_lawful (motive := fun outcome => outcome.set.Holds state)
    reachable.ascending ?_ ?_ ?_
  · intro id found
    obtain ⟨entry, admitted, _, eq⟩ :=
      (coherent.find?_eq_some_iff reachable.ascending).1 found
    rw [← Std.LawfulEqCmp.eq_of_compare eq]
    exact holds_iff_mem.2 (List.mem_map_of_mem (List.mem_of_getElem? admitted))
  · intro after _ _
    exact holds_iff_mem.2 (by simp)
  · intro after _ _
    exact holds_iff_mem.2 (by simp)

theorem ReachableUnder.insertAll (reachable : set.ReachableUnder cmp)
    (candidates : List (UInt64 × α)) : (set.insertAll cmp candidates).ReachableUnder cmp :=
  reachable.leads (leads_insertAll (by rfl) set candidates)

theorem ReachableUnder.holds_insertAll [Std.TransCmp cmp] [Std.LawfulEqCmp cmp]
    (reachable : set.ReachableUnder cmp) {candidates : List (UInt64 × α)}
    (mem : state ∈ candidates.map Prod.snd) : (set.insertAll cmp candidates).Holds state := by
  induction candidates generalizing set with
  | nil => cases mem
  | cons candidate candidates ih =>
    have reachable' : (set.insert cmp candidate.1 candidate.2).set.ReachableUnder cmp :=
      reachable.insertAll [candidate]
    rcases List.mem_cons.1 mem with rfl | later
    · have leads : Leads (· = cmp) (set.insert cmp candidate.1 candidate.2).set
          (set.insertAll cmp (candidate :: candidates)) := leads_insertAll (by rfl) _ candidates
      exact reachable.holds_insert.of_isPrefix
        (leads.admitted_isPrefix reachable'.reachable.coherent)
    · exact ih reachable' later

/-- The states of a list join those that were there. -/
theorem ReachableUnder.holds_insertAll_withKeys_iff [Std.TransCmp cmp] [Std.LawfulEqCmp cmp]
    (reachable : set.ReachableUnder cmp) :
    (set.insertAll cmp (withKeys keyOf group)).Holds state ↔ set.Holds state ∨ state ∈ group := by
  obtain ⟨fresh, sublist, admitted_eq, _⟩ :=
    reachable.reachable.coherent.insertAll_seen cmp (withKeys keyOf group)
  have states_eq : (withKeys keyOf group).map Prod.snd = group := by
    rw [withKeys, List.map_map]
    exact List.map_id group
  constructor
  · intro holds
    rw [holds_iff_mem, admitted_eq, List.map_append, List.mem_append] at holds
    refine holds.imp holds_iff_mem.2 fun mem => ?_
    rw [← states_eq]
    exact (sublist.map Prod.snd).subset mem
  · rintro (holds | mem)
    · exact holds.of_isPrefix (admitted_eq ▸ List.prefix_append ..)
    · exact reachable.holds_insertAll (states_eq.symm ▸ mem)

theorem Coherent.keyedBy_insertAll (coherent : set.Coherent) (keyed : set.KeyedBy keyOf)
    (cmp : Comparator α) (group : List α) :
    (set.insertAll cmp (withKeys keyOf group)).KeyedBy keyOf := by
  obtain ⟨fresh, sublist, admitted_eq, _⟩ := coherent.insertAll_seen cmp (withKeys keyOf group)
  rw [keyedBy_iff, admitted_eq]
  intro entry mem
  rcases List.mem_append.1 mem with old | new
  · exact keyedBy_iff.1 keyed entry old
  · obtain ⟨state, _, rfl⟩ := List.mem_map.1 (sublist.subset new)
    rfl

/-! ## Fresh sets -/

theorem not_holds_ofCount {count : Nat} : ¬ (ofCount count : Visited α).Holds state := by
  rintro ⟨id, found⟩
  exact Nat.not_lt_zero id (lt_size_of_state? found)

section Seeded

variable {count : Nat} {state : α} (valid : ValidBucketCount count) (seeds : List α)
include valid

theorem reachableUnder_seeded (cmp : Comparator α) (keyOf : α → UInt64) :
    (seeded cmp keyOf count seeds).ReachableUnder cmp := by
  have fresh : (ofCount count : Visited α).ReachableUnder cmp :=
    ⟨count, .always, 0, valid, [], _, by simp, rfl, rfl⟩
  exact fresh.insertAll _

/-- Whatever is in a fresh set came from the list, and all of it waits. -/
theorem seeded_seen (cmp : Comparator α) (keyOf : α → UInt64) :
    ((seeded cmp keyOf count seeds).admitted.Sublist
      (seeds.map fun state => (keyOf state, state))) ∧
    ∀ id < (seeded cmp keyOf count seeds).size, id ∈ (seeded cmp keyOf count seeds).stack := by
  obtain ⟨fresh, sublist, admitted_eq, stack_eq⟩ := (coherent_ofCount valid).insertAll_seen cmp
    (seeds.map fun state => (keyOf state, state))
  have size_eq : (seeded cmp keyOf count seeds).size = fresh.length := by
    rw [← length_admitted]
    exact congrArg List.length admitted_eq
  refine ⟨?_, fun id lt => ?_⟩
  · exact (congrArg (List.Sublist · _) admitted_eq).mpr sublist
  · rw [size_eq] at lt
    refine stack_eq ▸ List.mem_append_left _ (List.mem_reverse.2 (List.mem_range'_1.2 ?_))
    exact ⟨Nat.zero_le id, (Nat.zero_add fresh.length).symm ▸ lt⟩

theorem keyedBy_seeded (cmp : Comparator α) (keyOf : α → UInt64) :
    (seeded cmp keyOf count seeds).KeyedBy keyOf := by
  have nothing : (ofCount count : Visited α).KeyedBy keyOf := fun _ mem => by cases mem
  exact (coherent_ofCount valid).keyedBy_insertAll nothing cmp seeds

theorem holds_seeded_iff [Std.TransCmp cmp] [Std.LawfulEqCmp cmp] :
    (seeded cmp keyOf count seeds).Holds state ↔ state ∈ seeds := by
  have fresh : (ofCount count : Visited α).ReachableUnder cmp :=
    reachableUnder_seeded valid [] cmp keyOf
  exact fresh.holds_insertAll_withKeys_iff.trans (or_iff_right not_holds_ofCount)

/-- Different states of a list are all in the set, once each. -/
theorem size_seeded [Std.TransCmp cmp] [Std.LawfulEqCmp cmp] (different : seeds.Nodup) :
    (seeded cmp keyOf count seeds).size = seeds.length := by
  have states := (reachableUnder_seeded valid seeds cmp keyOf).nodup_states
    (keyedBy_seeded valid seeds cmp keyOf)
  have perm := (List.perm_ext_iff_of_nodup states different).2 fun _ =>
    holds_iff_mem.symm.trans (holds_seeded_iff valid seeds)
  rw [← perm.length_eq, List.length_map, length_admitted]

theorem awaits_seeded_iff :
    (seeded cmp keyOf count seeds).Awaits state ↔ (seeded cmp keyOf count seeds).Holds state := by
  have coherent := (reachableUnder_seeded valid seeds cmp keyOf).reachable.coherent
  rw [coherent.awaits_iff]
  constructor
  · rintro ⟨id, _, found⟩
    exact ⟨id, found⟩
  · rintro ⟨id, found⟩
    exact ⟨id, (seeded_seen valid seeds cmp keyOf).2 id (lt_size_of_state? found), found⟩

theorem not_handedOut_seeded : ¬ (seeded cmp keyOf count seeds).HandedOut state := by
  have coherent := (reachableUnder_seeded valid seeds cmp keyOf).reachable.coherent
  rw [coherent.handedOut_iff]
  rintro ⟨id, notMem, found⟩
  exact notMem ((seeded_seen valid seeds cmp keyOf).2 id (lt_size_of_state? found))

/-- From the states of a list, nothing of which was handed out before, paths
are not cut short. -/
theorem discovers_seeded_iff [Std.TransCmp cmp] [Std.LawfulEqCmp cmp] :
    (seeded cmp keyOf count seeds).Discovers expand state ↔
      ∃ seed ∈ seeds, Relation.ReflTransGen expand.Yields seed state := by
  have onward : (seeded cmp keyOf count seeds).Onward expand = expand.Yields := by
    funext state next
    exact propext (and_iff_left (not_handedOut_seeded valid seeds))
  simp only [Discovers, onward, awaits_seeded_iff valid, holds_seeded_iff valid]

end Seeded

end Visited

end StateSearch
