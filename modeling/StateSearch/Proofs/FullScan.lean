import StateSearch.Proofs.Finding
import StateSearch.Proofs.PlainRuns

/-!
# Lookups and full scans

A lookup walks the front of one chain and stops at the first record that is
not less.  A scan looks at every admitted state.  This module says when the
two come to the same.

There are four groups.

* Scans, with and without a look at the keys.
* Soundness.  Whatever the comparator, what is said to be a duplicate is one,
  also where it came up only after a doubling.
* Completeness.  Under one total preorder the scan holds no more than what
  the lookup finds, and without a look at the keys it still does not if the
  keys agree.
* What a caller can rely on.
-/

namespace StateSearch

variable {α : Type}

namespace Visited

variable {set : Visited α} {cmp : Comparator α} {key : UInt64} {candidate : α} {id : Id}

/-! ## Scans -/

/-- The ids of the admitted states that are equal to a candidate. -/
def scanStates (set : Visited α) (cmp : Comparator α) (candidate : α) : List Id :=
  (set.entries.filter fun entry => cmp entry.state candidate == .eq).map Entry.id

/-- The ids of the admitted states that are equal to a candidate and whose
keys leave the remainder of its key modulo the number of buckets. -/
def scan (set : Visited α) (cmp : Comparator α) (key : UInt64) (candidate : α) : List Id :=
  (set.entries.filter fun entry =>
    entry.key.toNat % set.bucketCount == key.toNat % set.bucketCount &&
      cmp entry.state candidate == .eq).map Entry.id

theorem mem_scanStates_iff :
    id ∈ set.scanStates cmp candidate ↔
      ∃ entry, set.admitted[id]? = some entry ∧ cmp entry.2 candidate = .eq := by
  rw [scanStates, mem_map_id_filter_entries, get?_eq]
  simp

theorem mem_scan_iff :
    id ∈ set.scan cmp key candidate ↔
      ∃ entry, set.admitted[id]? = some entry ∧
        entry.1.toNat % set.bucketCount = key.toNat % set.bucketCount ∧
        cmp entry.2 candidate = .eq := by
  rw [scan, mem_map_id_filter_entries, get?_eq]
  simp

/-! ## Soundness -/

/-- What the set says to be equal to a candidate is equal to it, and its key
leaves the remainder of the candidate's key modulo the number of buckets that
the operation left. -/
structure FindsEquals (set : Visited α) (cmp : Comparator α) (key : UInt64) (candidate : α) :
    Prop where
  find? : ∀ id, set.find? cmp key candidate = some id → id ∈ set.scan cmp key candidate
  insert : ∀ id rejected, (set.insert cmp key candidate).answer = .duplicate id rejected →
    rejected = candidate ∧ id ∈ (set.insert cmp key candidate).set.scan cmp key candidate
  tryInsert : ∀ reserve id rejected,
    (set.tryInsert reserve cmp key candidate).answer = .ok (.duplicate id rejected) →
    rejected = candidate ∧
      id ∈ (set.tryInsert reserve cmp key candidate).set.scan cmp key candidate

/-- A lookup finds an equal state of the bucket. -/
theorem Coherent.mem_scan_of_find? (coherent : set.Coherent)
    (found : set.find? cmp key candidate = some id) : id ∈ set.scan cmp key candidate := by
  rw [coherent.find?_eq] at found
  rw [mem_scan_iff, ← coherent.mem_bucket_and_equal_iff]
  exact ListTable.mem_bucket_of_find? found

/-- The state for which a candidate is rejected is found in the set that the
admission leaves, which has twice the buckets if it came up late. -/
theorem Coherent.mem_scan_of_insert (coherent : set.Coherent) {rejected : α}
    (answer : (set.insert cmp key candidate).answer = .duplicate id rejected) :
    rejected = candidate ∧ id ∈ (set.insert cmp key candidate).set.scan cmp key candidate := by
  revert answer
  refine insert_cases (motive := fun outcome => outcome.answer = .duplicate id rejected →
    rejected = candidate ∧ id ∈ outcome.set.scan cmp key candidate) ?_ ?_ ?_ ?_
  · intro other found answer
    obtain ⟨rfl, rfl⟩ := Verdict.duplicate.inj answer
    exact ⟨rfl, coherent.mem_scan_of_find? (find?_eq_some_iff_lookup.2 found)⟩
  · intro after _ _ answer
    cases answer
  · intro after other _ _ found answer
    obtain ⟨rfl, rfl⟩ := Verdict.duplicate.inj answer
    exact ⟨rfl, coherent.double.mem_scan_of_find? (find?_eq_some_iff_lookup.2 found)⟩
  · intro after after' _ _ _ answer
    cases answer

theorem Coherent.findsEquals (coherent : set.Coherent) (cmp : Comparator α) (key : UInt64)
    (candidate : α) : set.FindsEquals cmp key candidate where
  find? _ := coherent.mem_scan_of_find?
  insert _ _ := coherent.mem_scan_of_insert
  tryInsert reserve id rejected answer := by
    rcases tryInsert_cases reserve set cmp key candidate with ⟨failure, eq⟩ | eq
    · rw [eq] at answer
      cases answer
    · rw [eq] at answer ⊢
      exact coherent.mem_scan_of_insert (Except.ok.inj answer)

/-! ## Completeness -/

/-- The set answers for a candidate by a list of at most one id: it finds
this id, and the candidate is a duplicate exactly if there is one. -/
structure AnswersBy (set : Visited α) (cmp : Comparator α) (key : UInt64) (candidate : α)
    (scanned : List Id) : Prop where
  find?_eq : (set.find? cmp key candidate).toList = scanned
  contains_eq : set.contains cmp key candidate = !scanned.isEmpty
  insert_iff : ∀ id rejected, (set.insert cmp key candidate).answer = .duplicate id rejected ↔
    scanned = [id] ∧ rejected = candidate
  tryInsert_iff : ∀ reserve id rejected,
    (set.tryInsert reserve cmp key candidate).answer = .ok (.duplicate id rejected) ↔
      scanned = [id] ∧ rejected = candidate

/-- Under a total preorder a candidate is rejected exactly if it is found
before. -/
theorem Coherent.insert_eq_duplicate_iff [Std.TransCmp cmp] (coherent : set.Coherent)
    (ascending : set.listTable.Ascending cmp) {rejected : α} :
    (set.insert cmp key candidate).answer = .duplicate id rejected ↔
      set.find? cmp key candidate = some id ∧ rejected = candidate := by
  refine coherent.insert_cases_lawful ascending (motive := fun outcome =>
    outcome.answer = .duplicate id rejected ↔
      set.find? cmp key candidate = some id ∧ rejected = candidate) ?_ ?_ ?_
  · intro other found
    rw [found, Verdict.duplicate.injEq, Option.some.injEq, eq_comm (a := candidate)]
  · intro after missing _
    simp [missing]
  · intro after missing _
    simp [missing]

theorem Coherent.tryInsert_eq_duplicate_iff [Std.TransCmp cmp] (coherent : set.Coherent)
    (ascending : set.listTable.Ascending cmp) {reserve : Reserve} {rejected : α} :
    (set.tryInsert reserve cmp key candidate).answer = .ok (.duplicate id rejected) ↔
      set.find? cmp key candidate = some id ∧ rejected = candidate := by
  rw [← coherent.insert_eq_duplicate_iff ascending]
  rcases tryInsert_cases reserve set cmp key candidate with ⟨failure, eq⟩ | eq
  · -- A failure shows that the candidate was not found.
    have missing : set.find? cmp key candidate = none := by
      rw [Option.eq_none_iff_forall_ne_some]
      intro other found
      rw [tryInsert_of_find?_eq_some found] at eq
      cases congrArg Outcome.answer eq
    rw [eq, coherent.insert_eq_duplicate_iff ascending, missing]
    simp
  · rw [eq]
    exact ⟨Except.ok.inj, congrArg Except.ok⟩

/-- A list without repetitions that holds what a lookup finds, and nothing
else, tells all answers. -/
theorem Coherent.answersBy [Std.TransCmp cmp] (coherent : set.Coherent)
    (ascending : set.listTable.Ascending cmp) {scanned : List Id} (nodup : scanned.Nodup)
    (mem_iff : ∀ id, id ∈ scanned ↔ set.find? cmp key candidate = some id) :
    set.AnswersBy cmp key candidate scanned := by
  have found : (set.find? cmp key candidate).toList = scanned := by
    have same : (set.find? cmp key candidate).toList.Perm scanned := by
      refine (List.perm_ext_iff_of_nodup ?_ nodup).2 fun id => ?_
      · cases set.find? cmp key candidate <;> simp
      · rw [Option.mem_toList, mem_iff]
    cases h : set.find? cmp key candidate <;> rw [h] at same
    · exact List.nil_perm.1 same |>.symm
    · exact List.singleton_perm.1 same
  subst found
  have singleton_iff : ∀ id, (set.find? cmp key candidate).toList = [id] ↔
      set.find? cmp key candidate = some id := by
    intro id
    cases set.find? cmp key candidate <;> simp
  refine ⟨rfl, ?_, fun id rejected => ?_, fun reserve id rejected => ?_⟩
  · rw [contains]
    cases set.find? cmp key candidate <;> rfl
  · rw [coherent.insert_eq_duplicate_iff ascending, singleton_iff]
  · rw [coherent.tryInsert_eq_duplicate_iff ascending, singleton_iff]

theorem Coherent.answersBy_scan [Std.TransCmp cmp] (coherent : set.Coherent)
    (ascending : set.listTable.Ascending cmp) :
    set.AnswersBy cmp key candidate (set.scan cmp key candidate) := by
  refine coherent.answersBy ascending (nodup_map_id_filter_entries ..) fun id => ?_
  rw [mem_scan_iff, coherent.find?_eq_some_iff ascending]

/-- Where the keys agree, an equal state has the key of the candidate, so the
remainders are equal without a look at them. -/
theorem Coherent.answersBy_scanStates [Std.TransCmp cmp] (coherent : set.Coherent)
    (ascending : set.listTable.Ascending cmp)
    (agree : KeysAgree cmp fun entry => entry ∈ set.admitted ∨ entry = (key, candidate)) :
    set.AnswersBy cmp key candidate (set.scanStates cmp candidate) := by
  refine coherent.answersBy ascending (nodup_map_id_filter_entries ..) fun id => ?_
  rw [mem_scanStates_iff, coherent.find?_eq_some_iff ascending]
  constructor
  · rintro ⟨entry, admitted, eq⟩
    have key_eq : entry.1 = key :=
      agree entry (key, candidate) (.inl (List.mem_of_getElem? admitted)) (.inr rfl) eq
    exact ⟨entry, admitted, by rw [key_eq], eq⟩
  · rintro ⟨entry, admitted, _, eq⟩
    exact ⟨entry, admitted, eq⟩

/-! ## What a caller can rely on -/

/-- In every set that a run leads to, what a comparator says to be a duplicate
is one.  Where the run used one total preorder, lookups and admissions under
it answer by the scan of all admitted states with a remainder of the key, and
if the keys agree by the scan of all admitted states. -/
theorem Reachable.lookups_scan (reachable : set.Reachable) :
    (∀ cmp key candidate, set.FindsEquals cmp key candidate) ∧
      ∀ cmp, Std.TransCmp cmp → set.ReachableUnder cmp → ∀ key candidate,
        set.AnswersBy cmp key candidate (set.scan cmp key candidate) ∧
          ((KeysAgree cmp fun entry => entry ∈ set.admitted ∨ entry = (key, candidate)) →
            set.AnswersBy cmp key candidate (set.scanStates cmp candidate)) := by
  have coherent := reachable.coherent
  refine ⟨coherent.findsEquals, fun cmp lawful under key candidate => ?_⟩
  exact ⟨coherent.answersBy_scan under.ascending, coherent.answersBy_scanStates under.ascending⟩

/-- A candidate with another key of the bucket is found as well as one with
the key of the state that it is equal to. -/
theorem lookups_scan_tens :
    let tens : Comparator Nat := Comparator.natural.on (· / 10)
    Std.TransCmp tens ∧ ∃ outcome : Outcome Nat (List (Answer Nat)),
      outcome.set.Reachable ∧ outcome.set.ReachableUnder tens ∧
      outcome.set.admitted = [(7, 50), (1031, 30), (2055, 41)] ∧
      outcome.set.FindsEquals tens 7 58 ∧
      outcome.set.scan tens 1031 58 = [0] ∧
      outcome.set.AnswersBy tens 1031 58 (outcome.set.scan tens 1031 58) ∧
      (KeysAgree tens fun entry => entry ∈ outcome.set.admitted ∨ entry = (7, 58)) ∧
      outcome.set.AnswersBy tens 7 58 (outcome.set.scanStates tens 58) := by
  intro tens
  have lawful : Std.TransCmp tens :=
    inferInstanceAs (Std.TransCmp (compareOn (fun n : Nat => n / 10)))
  have ended : (run .always 0 (ofCount 1024)
      ([.insert 7 50, .insert 1031 30, .tryInsert 2055 41].map (tens, ·))).map (fun outcome =>
        (outcome.set.admitted, outcome.set.scan tens 1031 58)) =
      some ([(7, 50), (1031, 30), (2055, 41)], [0]) := by decide +kernel
  obtain ⟨outcome, ran, told⟩ := Option.map_eq_some_iff.1 ended
  obtain ⟨admitted_eq, scan_eq⟩ := Prod.mk.inj told
  have under : outcome.set.ReachableUnder tens :=
    ⟨1024, .always, 0, validBucketCount_minBuckets, _, outcome, by simp, ran, rfl⟩
  have agree : KeysAgree tens fun entry => entry ∈ outcome.set.admitted ∨ entry = (7, 58) := by
    have checked : ∀ first ∈ [((7 : UInt64), 50), (1031, 30), (2055, 41), (7, 58)],
        ∀ second ∈ [((7 : UInt64), 50), (1031, 30), (2055, 41), (7, 58)],
          tens first.2 second.2 = .eq → first.1 = second.1 := by decide
    intro first second used used'
    rw [admitted_eq] at used used'
    exact checked first (by simpa [or_assoc] using used) second (by simpa [or_assoc] using used')
  obtain ⟨sound, complete⟩ := under.reachable.lookups_scan
  exact ⟨lawful, outcome, under.reachable, under, admitted_eq, sound tens 7 58, scan_eq,
    (complete tens lawful under 1031 58).1, agree, (complete tens lawful under 7 58).2 agree⟩

end Visited

end StateSearch
