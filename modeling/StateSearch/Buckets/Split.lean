import StateSearch.Buckets.Chains

/-!
# Splitting a chain in two

A chain falls apart by a test on the keys.  The walk takes each record off
the old chain and appends it to the end of one of two new chains, so both
keep the order of the old one.

There are four groups.

* Segments.  A `Segment` is a chain under construction, known by its first
  and its last record.
* Splits.  `Split.deal` puts one record into its segment, and
  `Split.dealAll` the records of a whole chain.  `Split.DealsOut` is the walk
  along the chain without a bound on its steps.
* What a split leaves alone.  Only links of chains change.
* The lists after a split.  `Split.Spells.dealAll` says that each segment
  gets the ids that belong there, in order, and that the bound is never met.
-/

namespace StateSearch

variable {α : Type}

/-! ## Segments -/

/-- The first and the last record of a chain under construction. -/
structure Segment where
  first : Option Id := none
  last : Option Id := none

/-- Puts a record that leads nowhere at the end of a segment. -/
def Segment.append (segment : Segment) (store : Store α) (id : Id) : Segment × Store α :=
  match segment.last with
  | some last =>
    ({ segment with last := some id },
      store.modify last fun record => { record with chainNext := some id })
  | none => ({ first := some id, last := some id }, store)

/-! ## Splits -/

/-- A chain split in two, and the store with its new links. -/
structure Split (α : Type) where
  stay : Segment := {}
  move : Segment := {}
  store : Store α

/-- Takes a record off its chain and puts it at the end of the segment that
it belongs to. -/
def Split.deal (split : Split α) (id : Id) (stays : Bool) : Split α :=
  let ⟨stay, move, store⟩ := split
  let store := store.modify id fun record => { record with chainNext := none }
  if stays then
    let (stay, store) := stay.append store id
    { stay, move, store }
  else
    let (move, store) := move.append store id
    { stay, move, store }

/-- Deals out the records from a head on, with at most the given number of
steps, by whether their keys stay. -/
def Split.dealAll (stays : UInt64 → Bool) : Nat → Option Id → Split α → Split α
  | 0, _, split => split
  | _ + 1, none, split => split
  | fuel + 1, some id, split =>
    match split.store[id]?.map fun record => (record.key, record.chainNext) with
    | none => split
    | some (key, next) => dealAll stays fuel next (split.deal id (stays key))

/-- Dealing out with no bound on the steps: from a head on the walk takes one
record after the other and comes to an end. -/
inductive Split.DealsOut (stays : UInt64 → Bool) : Option Id → Split α → Split α → Prop
  | nil {split : Split α} : DealsOut stays none split split
  | cons {id : Id} {record : Record α} {split last : Split α}
      (found : split.store[id]? = some record)
      (rest : DealsOut stays record.chainNext (split.deal id (stays record.key)) last) :
      DealsOut stays (some id) split last

/-! ## What a split leaves alone -/

/-- Appending changes only links of chains. -/
theorem Segment.sameButChains_append (segment : Segment) (store : Store α) (id : Id) :
    store.SameButChains (segment.append store id).2 := by
  unfold Segment.append
  split
  · exact store.alike_modify _ _ fun _ => rfl
  · exact fun _ => rfl

/-- Dealing a record changes only links of chains. -/
theorem Split.sameButChains_deal (split : Split α) (id : Id) (stays : Bool) :
    split.store.SameButChains (split.deal id stays).store := by
  have bared : split.store.SameButChains
      (split.store.modify id fun record => { record with chainNext := none }) :=
    split.store.alike_modify _ _ fun _ => rfl
  refine bared.trans ?_
  cases stays
  · exact Segment.sameButChains_append _ _ _
  · exact Segment.sameButChains_append _ _ _

/-- Dealing out a chain changes only links of chains. -/
theorem Split.sameButChains_dealAll (stays : UInt64 → Bool) (fuel : Nat) (head : Option Id)
    (split : Split α) : split.store.SameButChains (split.dealAll stays fuel head).store := by
  induction fuel generalizing head split with
  | zero => exact fun _ => rfl
  | succ fuel ih =>
    cases head with
    | none => exact fun _ => rfl
    | some id =>
      simp only [Split.dealAll]
      split
      · exact fun _ => rfl
      · exact (split.sameButChains_deal id _).trans (ih _ _)

/-! ## The lists after a split -/

/-- A segment under construction spells out these ids. -/
structure Segment.Spells (segment : Segment) (store : Store α) (ids : List Id) : Prop where
  linked : store.Linked Record.chainNext segment.first ids
  last : segment.last = ids.getLast?

namespace Segment

/-- A segment is not disturbed by changes that keep its links. -/
theorem Spells.congr {segment : Segment} {store store' : Store α} {ids : List Id}
    (spells : segment.Spells store ids)
    (same : ∀ id ∈ ids, (store'[id]?).map Record.chainNext = (store[id]?).map Record.chainNext) :
    segment.Spells store' ids :=
  ⟨spells.linked.congr same, spells.last⟩

/-- A record that leads nowhere comes last when it is appended. -/
theorem Spells.append {segment : Segment} {store : Store α} {ids : List Id} {id : Id}
    (spells : segment.Spells store ids) (nodup : (ids ++ [id]).Nodup)
    (bare : (store[id]?).map Record.chainNext = some none) :
    (segment.append store id).1.Spells (segment.append store id).2 (ids ++ [id]) := by
  rcases spells with ⟨linked, last⟩
  rcases segment with ⟨first, last'⟩
  subst last
  rcases List.eq_nil_or_concat ids with rfl | ⟨before, last, rfl⟩
  · obtain ⟨record, found, nowhere⟩ := Option.map_eq_some_iff.1 bare
    exact ⟨.cons found (nowhere ▸ .nil), rfl⟩
  · rw [List.concat_eq_append] at *
    refine ⟨?_, by simp [Segment.append]⟩
    have lt : last < store.size := linked.lt_size last (by simp)
    obtain ⟨nodup, _, fresh⟩ := List.nodup_append.1 nodup
    obtain ⟨_, _, last_fresh⟩ := List.nodup_append.1 nodup
    rw [List.append_assoc]
    simp only [Segment.append, List.getLast?_append, List.getLast?_singleton, Option.some_or]
    refine linked.insert_after (fun other mem => ?_) ?_ ?_
    · have ne : last ≠ other := (last_fresh other (by simpa using mem) last (by simp)).symm
      simp [Array.getElem?_modify, ne]
    · simp only [Array.getElem?_modify, if_true, Array.getElem?_eq_getElem lt, Option.map_some]
    · have ne : last ≠ id := fresh last (by simp) id (by simp)
      rw [linked.last_leads_nowhere, Array.getElem?_modify, if_neg ne, bare]

/-- Appending leaves the records outside a segment alone. -/
theorem getElem?_append_of_not_mem {segment : Segment} {store : Store α} {ids : List Id}
    (spells : segment.Spells store ids) {other : Id} (apart : other ∉ ids) (id : Id) :
    (segment.append store id).2[other]? = store[other]? := by
  unfold Segment.append
  split
  · next last h =>
    rw [spells.last] at h
    have ne : last ≠ other := by rintro rfl; exact apart (List.mem_of_getLast? h)
    simp [Array.getElem?_modify, ne]
  · rfl

end Segment

namespace Split

/-- The two segments of a split spell out these ids, and no id is in both. -/
structure Spells (split : Split α) (kept moved : List Id) : Prop where
  stay : split.stay.Spells split.store kept
  move : split.move.Spells split.store moved
  nodup : (kept ++ moved).Nodup

/-- Putting an id at the end of one of two lists adds this id to what they
hold together. -/
private theorem perm_dealt (kept moved : List Id) (id : Id) (stays : Bool) :
    ((if stays then kept ++ [id] else kept) ++ if stays then moved else moved ++ [id]).Perm
      (id :: (kept ++ moved)) := by
  cases stays with
  | true => simp
  | false => simpa using List.perm_append_singleton id (kept ++ moved)

/-- Dealing puts an id at the end of one of the two segments, and leaves the
records outside them alone. -/
theorem Spells.deal {split : Split α} {kept moved : List Id} (spells : split.Spells kept moved)
    {id : Id} (present : id < split.store.size) (fresh : id ∉ kept ++ moved) (stays : Bool) :
    (split.deal id stays).Spells (if stays then kept ++ [id] else kept)
      (if stays then moved else moved ++ [id]) ∧
    ∀ other, other ∉ id :: (kept ++ moved) →
      (split.deal id stays).store[other]? = split.store[other]? := by
  rcases split with ⟨stay, move, store⟩
  rcases spells with ⟨stay_spells, move_spells, nodup⟩
  simp only at stay_spells move_spells present
  have dealt : (id :: (kept ++ moved)).Nodup := List.nodup_cons.2 ⟨fresh, nodup⟩
  have apart : ∀ a ∈ kept, a ∉ moved := fun a mem mem' =>
    (List.nodup_append.1 nodup).2.2 a mem a mem' rfl
  rw [List.mem_append, not_or] at fresh
  let bared := store.modify id fun record => { record with chainNext := none }
  have off : ∀ other, other ≠ id → bared[other]? = store[other]? := by
    intro other ne
    simp [bared, Array.getElem?_modify, Ne.symm ne]
  have bare : (bared[id]?).map Record.chainNext = some none := by
    simp only [bared, Array.getElem?_modify, if_true, Array.getElem?_eq_getElem present,
      Option.map_some]
  have stay_spells : stay.Spells bared kept := stay_spells.congr fun other mem => by
    rw [off other fun eq => fresh.1 (eq ▸ mem)]
  have move_spells : move.Spells bared moved := move_spells.congr fun other mem => by
    rw [off other fun eq => fresh.2 (eq ▸ mem)]
  have nodup' := (perm_dealt kept moved id stays).nodup_iff.2 dealt
  cases stays with
  | true =>
    refine ⟨⟨stay_spells.append ?_ bare, move_spells.congr fun other mem => ?_, nodup'⟩,
      fun other mem => ?_⟩
    · exact (List.nodup_append.1 nodup').1
    · exact congrArg _ (Segment.getElem?_append_of_not_mem stay_spells
        (fun mem' => apart other mem' mem) id)
    · rw [List.mem_cons, not_or, List.mem_append, not_or] at mem
      exact (Segment.getElem?_append_of_not_mem stay_spells mem.2.1 id).trans (off other mem.1)
  | false =>
    refine ⟨⟨stay_spells.congr fun other mem => ?_, move_spells.append ?_ bare, nodup'⟩,
      fun other mem => ?_⟩
    · exact congrArg _ (Segment.getElem?_append_of_not_mem move_spells (apart other mem) id)
    · exact (List.nodup_append.1 nodup').2.1
    · rw [List.mem_cons, not_or, List.mem_append, not_or] at mem
      exact (Segment.getElem?_append_of_not_mem move_spells mem.2.2 id).trans (off other mem.1)

/-- Dealing out a chain appends to each segment the ids that belong there, in
the order of the chain, and comes to the end of the chain. -/
theorem Spells.dealAll {split : Split α} {kept moved : List Id} (spells : split.Spells kept moved)
    {head : Option Id} {ids : List Id} (linked : split.store.Linked Record.chainNext head ids)
    (nodup : (ids ++ (kept ++ moved)).Nodup) {fuel : Nat} (enough : ids.length ≤ fuel)
    (stays : UInt64 → Bool) {keeps : Id → Bool}
    (keeps_eq : ∀ id ∈ ids, ∀ record ∈ split.store[id]?, keeps id = stays record.key) :
    (split.dealAll stays fuel head).Spells (kept ++ ids.filter keeps)
      (moved ++ ids.filter fun id => !keeps id) ∧
    (∀ other, other ∉ ids ++ (kept ++ moved) →
      (split.dealAll stays fuel head).store[other]? = split.store[other]?) ∧
    DealsOut stays head split (split.dealAll stays fuel head) := by
  induction ids generalizing split kept moved head fuel with
  | nil =>
    cases linked
    cases fuel <;> exact ⟨by simpa [Split.dealAll] using spells, fun _ _ => rfl, .nil⟩
  | cons id ids ih =>
    cases linked with
    | @cons _ record _ found rest =>
      cases fuel with
      | zero => simp at enough
      | succ fuel =>
        have present : id < split.store.size := (Array.getElem?_eq_some_iff.1 found).1
        have perm := ((perm_dealt kept moved id (stays record.key)).append_left ids).trans
          List.perm_middle
        obtain ⟨fresh, nodup'⟩ := List.nodup_cons.1 nodup
        have apart : ∀ other ∈ ids, other ∉ id :: (kept ++ moved) := by
          intro other mem mem'
          rcases List.mem_cons.1 mem' with rfl | mem'
          · exact fresh (List.mem_append_left _ mem)
          · exact (List.nodup_append.1 nodup').2.2 other mem other mem' rfl
        obtain ⟨dealt, off⟩ := spells.deal present
          (fun mem => fresh (List.mem_append_right _ mem)) (stays record.key)
        have keeps_id : keeps id = stays record.key := keeps_eq id (by simp) record found
        have rest : (split.deal id (stays record.key)).store.Linked Record.chainNext _ ids :=
          rest.congr fun other mem => by rw [off other (apart other mem)]
        have unfolded : split.dealAll stays (fuel + 1) (some id) =
            (split.deal id (stays record.key)).dealAll stays fuel record.chainNext := by
          simp [Split.dealAll, found]
        obtain ⟨done, off', ends⟩ := ih dealt rest (perm.nodup_iff.2 nodup)
          (Nat.le_of_succ_le_succ enough) fun other mem record' found' =>
            keeps_eq other (by simp [mem]) record' (off other (apart other mem) ▸ found')
        rw [unfolded]
        refine ⟨?_, fun other mem => ?_, .cons found ends⟩
        · cases h : stays record.key <;> simpa [h, keeps_id] using done
        · have outside : other ∉ id :: (kept ++ moved) := fun mem' =>
            mem ((List.sublist_append_right ids _).cons_cons id |>.subset mem')
          rw [off' other fun mem' => mem (perm.mem_iff.1 mem'), off other outside]

end Split

end StateSearch
