import StateSearch.Proofs.Ascending
import StateSearch.Proofs.Placement
import StateSearch.Proofs.Steps
import StateSearch.Unrolled

/-!
# States are found again

Under one total preorder a lookup misses no state of its bucket, whatever
keys the other states have.  Since an admitted state keeps its key, and equal
keys share a bucket however often the buckets double, a state is found again
under its own key for ever.

There are three groups.

* Lookups.  `Coherent.find?_eq_some_iff` says which id a lookup finds.
* Admissions.  `Coherent.insert_cases_lawful` has one case less than an
  admission under any comparator: a doubling brings up no duplicate.
* Whole runs.
-/

namespace StateSearch

variable {α : Type}

namespace Visited

variable {set set' : Visited α} {cmp : Comparator α} {key : UInt64} {state candidate : α} {id : Id}

/-! ## Lookups -/

/-- The ids of a bucket that are equal to a candidate, in terms of what was
admitted. -/
theorem Coherent.mem_bucket_and_equal_iff (coherent : set.Coherent) :
    id ∈ set.listTable.bucket (key.toNat % set.listTable.count) ∧
        set.listTable.equal cmp candidate id = true ↔
      ∃ entry, set.admitted[id]? = some entry ∧
        entry.1.toNat % set.bucketCount = key.toNat % set.bucketCount ∧
        cmp entry.2 candidate = .eq := by
  rw [coherent.placed, ListTable.leaves_iff, ListTable.equal_iff]
  constructor
  · rintro ⟨⟨entry, admitted, here⟩, state, found, eq⟩
    have same : some entry.2 = some state := by
      rw [← found, ListTable.state?, admitted]
      rfl
    obtain rfl := Option.some.inj same
    exact ⟨entry, admitted, here, eq⟩
  · rintro ⟨entry, admitted, here, eq⟩
    exact ⟨⟨entry, admitted, here⟩, entry.2, congrArg (Option.map Prod.snd) admitted, eq⟩

/-- A lookup finds the state that is equal to the candidate and whose key has
the bucket of the candidate's key. -/
theorem Coherent.find?_eq_some_iff [Std.TransCmp cmp] (coherent : set.Coherent)
    (ascending : set.listTable.Ascending cmp) :
    set.find? cmp key candidate = some id ↔
      ∃ entry, set.admitted[id]? = some entry ∧
        entry.1.toNat % set.bucketCount = key.toNat % set.bucketCount ∧
        cmp entry.2 candidate = .eq := by
  rw [coherent.find?_eq, ascending.find?_eq_some_iff, coherent.mem_bucket_and_equal_iff]

/-- A state is found under its own key. -/
theorem Coherent.find?_eq_some_of_admitted [Std.TransCmp cmp] (coherent : set.Coherent)
    (ascending : set.listTable.Ascending cmp) (admitted : set.admitted[id]? = some (key, state))
    (eq : cmp state candidate = .eq) : set.find? cmp key candidate = some id :=
  (coherent.find?_eq_some_iff ascending).2 ⟨(key, state), admitted, rfl, eq⟩

/-- No two ids have one key and equal states. -/
theorem Coherent.eq_of_admitted [Std.TransCmp cmp] (coherent : set.Coherent)
    (ascending : set.listTable.Ascending cmp) {other : Id}
    (admitted : set.admitted[id]? = some (key, state))
    (admitted' : set.admitted[other]? = some (key, candidate)) (eq : cmp state candidate = .eq) :
    id = other := by
  have finds := coherent.find?_eq_some_of_admitted ascending admitted eq
  have finds' := coherent.find?_eq_some_of_admitted ascending admitted' Std.ReflCmp.compare_self
  exact Option.some.inj (finds.symm.trans finds')

/-! ## Admissions -/

/-- Whatever the comparator, a candidate that is found is a duplicate. -/
theorem insert_of_find?_eq_some (found : set.find? cmp key candidate = some id) :
    set.insert cmp key candidate = { answer := .duplicate id candidate, set } := by
  rw [find?_eq_some_iff_lookup] at found
  rw [Visited.insert, found]

theorem tryInsert_of_find?_eq_some (found : set.find? cmp key candidate = some id)
    (reserve : Reserve) :
    set.tryInsert reserve cmp key candidate =
      { answer := .ok (.duplicate id candidate), set } := by
  rw [find?_eq_some_iff_lookup] at found
  rw [tryInsert, found]

/-- A candidate that is found only after a doubling is a duplicate, and the
doubling stands. -/
theorem insert_of_late (missing : set.find? cmp key candidate = none) (full : set.isFull = true)
    (found : set.double.find? cmp key candidate = some id) :
    set.insert cmp key candidate =
      { answer := .duplicate id candidate, set := set.double,
        events := [.doubled set.bucketCount set.size] } := by
  obtain ⟨after, absent⟩ := find?_eq_none_iff_lookup.1 missing
  rw [find?_eq_some_iff_lookup] at found
  rw [Visited.insert, absent]
  simp only [insertAbsent, full, if_true, found]

/-- A candidate that is found neither before nor after a doubling is placed
where the second lookup ended. -/
theorem insert_of_grown {after after' : Option Id} (absent : set.lookup cmp key state = .absent after)
    (full : set.isFull = true) (absent' : set.double.lookup cmp key state = .absent after') :
    set.insert cmp key state =
      { answer := .admitted set.size, set := set.double.place key state after',
        events := [.doubled set.bucketCount set.size] } := by
  rw [Visited.insert, absent]
  simp only [insertAbsent, full, if_true, absent']

/-- An ascending set that doubles finds no more than before. -/
theorem Coherent.find?_double_eq_none [Std.TransCmp cmp] (coherent : set.Coherent)
    (ascending : set.listTable.Ascending cmp) (missing : set.find? cmp key candidate = none) :
    set.double.find? cmp key candidate = none := by
  rw [coherent.find?_eq] at missing
  rw [coherent.double.find?_eq, coherent.listTable_double]
  exact ascending.find?_split_eq_none missing

/-- Under a total preorder an admission finds a duplicate at once and leaves
the set alone, or it places the state, after a doubling where one is due. -/
theorem Coherent.insert_cases_lawful [Std.TransCmp cmp] {motive : Outcome α (Verdict α) → Prop}
    (coherent : set.Coherent) (ascending : set.listTable.Ascending cmp)
    (duplicate : ∀ id, set.find? cmp key state = some id →
      motive { answer := .duplicate id state, set })
    (placed : ∀ after, set.find? cmp key state = none → set.isFull = false →
      motive { answer := .admitted set.size, set := set.place key state after })
    (grown : ∀ after, set.find? cmp key state = none → set.isFull = true →
      motive { answer := .admitted set.size, set := set.double.place key state after,
               events := [.doubled set.bucketCount set.size] }) :
    motive (set.insert cmp key state) := by
  refine insert_cases ?_ ?_ ?_ ?_
  · intro id found
    exact duplicate id (find?_eq_some_iff_lookup.2 found)
  · intro after absent loose
    exact placed after (find?_eq_none_iff_lookup.2 ⟨after, absent⟩) loose
  · intro after id absent _ found
    have missing := coherent.find?_double_eq_none ascending
      (find?_eq_none_iff_lookup.2 ⟨after, absent⟩)
    rw [find?_eq_some_iff_lookup.2 found] at missing
    cases missing
  · intro after after' absent full _
    exact grown after' (find?_eq_none_iff_lookup.2 ⟨after, absent⟩) full

/-! ## Whole runs -/

/-- An operation that tells of an admission admitted its candidate. -/
theorem getElem?_admitted_of_perform {reserve : Reserve} {bound : Nat} {operation : Operation α}
    {first : Outcome α (Answer α)} (coherent : set.Coherent)
    (performed : set.perform reserve bound cmp operation = some first)
    (offered : operation.candidate? = some (key, state))
    (admits : first.answer.deed? = some (.admitted id)) :
    first.set.admitted[id]? = some (key, state) := by
  have inserted : (set.insert cmp key state).answer = .admitted id →
      (set.insert cmp key state).set.admitted[id]? = some (key, state) := by
    intro answer_eq
    rcases coherent.insert_cases_seen cmp key state with
      ⟨_, answer_eq', _, _⟩ | ⟨answer_eq', admitted_eq, _⟩ <;> rw [answer_eq'] at answer_eq
    · cases answer_eq
    · obtain rfl := Verdict.admitted.inj answer_eq
      rw [admitted_eq, ← length_admitted, List.getElem?_concat_length]
  have verdict : ∀ {verdict : Verdict α},
      (Answer.verdict verdict).deed? = some (.admitted id) → verdict = .admitted id := by
    intro verdict told
    cases verdict with
    | admitted other => rw [Deed.admitted.inj (Option.some.inj told)]
    | duplicate _ _ => cases told
  cases operation with
  | insert key' state' =>
    obtain ⟨rfl, rfl⟩ := Prod.mk.inj (Option.some.inj offered)
    obtain rfl := Option.some.inj performed
    exact inserted (verdict admits)
  | tryInsert key' state' =>
    obtain ⟨rfl, rfl⟩ := Prod.mk.inj (Option.some.inj offered)
    obtain rfl := Option.some.inj performed
    simp only [Outcome.map] at admits ⊢
    rcases tryInsert_cases reserve set cmp key' state' with ⟨failure, eq⟩ | eq <;>
      rw [eq] at admits ⊢
    · cases admits
    · refine inserted (verdict ?_)
      rw [← admits]
      simp only [Outcome.map]
      cases (set.insert cmp key' state').answer <;> rfl
  | find | contains =>
    obtain rfl := Option.some.inj performed
    cases admits
  | pop | peek | entries | waiting | explore => cases offered

/-- What is equal to this state and comes under its key is a duplicate of
this id. -/
structure FindsAgain (set : Visited α) (cmp : Comparator α) (id : Id) (key : UInt64) (state : α) :
    Prop where
  find?_eq : ∀ candidate, cmp state candidate = .eq → set.find? cmp key candidate = some id
  insert_eq : ∀ candidate, cmp state candidate = .eq →
    set.insert cmp key candidate = { answer := .duplicate id candidate, set }
  tryInsert_eq : ∀ reserve candidate, cmp state candidate = .eq →
    set.tryInsert reserve cmp key candidate = { answer := .ok (.duplicate id candidate), set }
  get?_eq : set.get? id = some { id, key, state }
  /-- No other id was admitted with this key and an equal state. -/
  unique : ∀ entry ∈ set.entries, entry.key = key → cmp state entry.state = .eq → entry.id = id

theorem Coherent.findsAgain [Std.TransCmp cmp] (coherent : set.Coherent)
    (ascending : set.listTable.Ascending cmp) (admitted : set.admitted[id]? = some (key, state)) :
    set.FindsAgain cmp id key state where
  find?_eq _ eq := coherent.find?_eq_some_of_admitted ascending admitted eq
  insert_eq _ eq :=
    insert_of_find?_eq_some (coherent.find?_eq_some_of_admitted ascending admitted eq)
  tryInsert_eq reserve _ eq :=
    tryInsert_of_find?_eq_some (coherent.find?_eq_some_of_admitted ascending admitted eq) reserve
  get?_eq := by
    rw [get?_eq, admitted]
    rfl
  unique := by
    intro entry mem key_eq eq
    rw [mem_entries_iff, get?_eq, Option.map_eq_some_iff] at mem
    rcases mem with ⟨⟨key', state'⟩, admitted', entry_eq⟩
    have key_eq' : key' = key := by rw [← key_eq, ← entry_eq]
    have state_eq : state' = entry.state := by rw [← entry_eq]
    rw [key_eq', state_eq] at admitted'
    exact (coherent.eq_of_admitted ascending admitted admitted' eq).symm

/-- Under one total preorder every state of the set is found again under its
key, be it admitted by an operation of its own or within an exploration. -/
theorem ReachableUnder.findsAgain [Std.TransCmp cmp] (reachable : set.ReachableUnder cmp)
    (admitted : set.admitted[id]? = some (key, state)) : set.FindsAgain cmp id key state :=
  reachable.reachable.coherent.findsAgain reachable.ascending admitted

/-- Under one total preorder, what an operation admitted under a key is found
again under this key in every set that the run goes on to, even where other
keys disagree with the comparator.  What an exploration admits is covered as
well: spelled out it is admitted by single operations (`Visited.unroll`), and
`ReachableUnder.findsAgain` speaks of every state of a set. -/
theorem ReachableUnder.findsAgain_of_perform [Std.TransCmp cmp] (reachable : set.ReachableUnder cmp)
    {reserve reserve' : Reserve} {bound bound' : Nat} {operation : Operation α}
    {first : Outcome α (Answer α)}
    (performed : set.perform reserve bound cmp operation = some first)
    (offered : operation.candidate? = some (key, state))
    (admits : first.answer.deed? = some (.admitted id)) {later : Visited α}
    (runs : RunsTo (· = cmp) reserve' bound' first.set later) :
    later.FindsAgain cmp id key state := by
  have here : Leads (· = cmp) set first.set := leads_of_perform (by rfl) performed
  have coherent := reachable.reachable.coherent
  have admitted := getElem?_admitted_of_perform coherent performed offered admits
  exact ((reachable.leads here).runsTo runs).findsAgain
    (runs.leads.getElem?_admitted (here.coherent coherent) admitted)

/-- One state is admitted under a key that disagrees, and then under another,
and both stay while an exploration meets their bucket. -/
theorem findsAgain_of_perform_tens :
    let tens : Comparator Nat := Comparator.natural.on (· / 10)
    Std.TransCmp tens ∧ ∃ before : Outcome Nat (List (Answer Nat)), ∃ first,
      ∃ after : Outcome Nat (List (Answer Nat)),
      before.set.ReachableUnder tens ∧
      before.set.perform .always 0 tens (.tryInsert 7 50) = some first ∧
      (Operation.tryInsert 7 50).candidate? = some (7, 50) ∧
      first.answer.deed? = some (.admitted 2) ∧
      RunsTo (· = tens) .always 9 first.set after.set ∧
      after.set.FindsAgain tens 2 7 50 := by
  intro tens
  have lawful : Std.TransCmp tens :=
    inferInstanceAs (Std.TransCmp (compareOn (fun n : Nat => n / 10)))
  have ended : ((run .always 0 (ofCount 1024) [(tens, .insert 8 55), (tens, .insert 7 90)]).bind
      fun before => (before.set.perform .always 0 tens (.tryInsert 7 50)).bind fun first =>
        (run .always 9 first.set [(tens, .insert 1031 58),
          (tens, .explore (.ofSuccessors fun n => [(1031, n / 2)]))]).map fun _ =>
            first.answer.deed?) = some (some (.admitted 2)) := by decide +kernel
  simp only [Option.bind_eq_some_iff, Option.map_eq_some_iff] at ended
  rcases ended with ⟨before, ran, first, performed, after, ran', admits⟩
  have reachable : before.set.ReachableUnder tens :=
    ⟨1024, .always, 0, validBucketCount_minBuckets, _, before, by simp, ran, rfl⟩
  have runs : RunsTo (· = tens) .always 9 first.set after.set := ⟨_, after, by simp, ran', rfl⟩
  exact ⟨lawful, before, first, after, reachable, performed, rfl, admits, runs,
    reachable.findsAgain_of_perform performed rfl admits runs⟩

end Visited

end StateSearch
