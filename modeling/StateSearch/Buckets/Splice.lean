import StateSearch.Buckets.Chains

/-!
# Splicing a new record into a chain

A new record goes where the lookup for it ended: behind the record that was
passed last, or to the head of its bucket.  `Buckets.splice` writes the new
record with its link already set, and then leads the place before it there.

The main statement is `Buckets.Spells.splice`.  The list of the bucket gets
the new id at the place that was asked for, and no other list changes.
-/

namespace StateSearch

variable {α : Type}

namespace Buckets

/-- The record that will follow one placed behind `after` in the bucket of
`key`. -/
def following (buckets : Buckets) (store : Store α) (key : UInt64) (after : Option Id) :
    Option Id :=
  match after with
  | some id => store[id]?.bind Record.chainNext
  | none => buckets.head (buckets.index key)

/-- Adds a record for `state` behind `after`, or at the head of its bucket.
The id of the record is the size of the store before. -/
def splice (buckets : Buckets) (store : Store α) (key : UInt64) (state : α) (after : Option Id) :
    Buckets × Store α :=
  let id := store.size
  let chainNext := buckets.following store key after
  let store := store.push { key, state, chainNext }
  match after with
  | some before =>
    (buckets, store.modify before fun record => { record with chainNext := some id })
  | none =>
    let bucket := buckets.index key
    ({ buckets with heads := buckets.heads.setIfInBounds bucket (some id) }, store)

@[simp] theorem size_splice (buckets : Buckets) (store : Store α) (key : UInt64) (state : α)
    (after : Option Id) : (buckets.splice store key state after).2.size = store.size + 1 := by
  cases after <;> simp [splice]

@[simp] theorem count_splice (buckets : Buckets) (store : Store α) (key : UInt64) (state : α)
    (after : Option Id) : (buckets.splice store key state after).1.count = buckets.count := by
  cases after <;> simp [splice, count]

@[simp] theorem doublings_splice (buckets : Buckets) (store : Store α) (key : UInt64) (state : α)
    (after : Option Id) :
    (buckets.splice store key state after).1.doublings = buckets.doublings := by
  cases after <;> simp [splice]

/-! ## The lists after a splice -/

/-- Whatever does not depend on the links of chains is the same for every old
record, and is what was given for the new one. -/
theorem map_splice {β : Type} (view : Record α → β)
    (hidden : ∀ record link, view { record with chainNext := link } = view record)
    (buckets : Buckets) (store : Store α) (key : UInt64) (state : α) (after : Option Id) (id : Id) :
    ((buckets.splice store key state after).2[id]?).map view =
      if id = store.size then some (view { key, state }) else (store[id]?).map view := by
  have pushed : ∀ link, ((store.push { key, state, chainNext := link })[id]?).map view =
      if id = store.size then some (view { key, state }) else (store[id]?).map view := by
    intro link
    rw [Array.getElem?_push]
    split
    · exact congrArg some (hidden { key, state } link)
    · rfl
  cases after with
  | none => exact pushed _
  | some last => exact (Store.alike_modify _ _ _ (fun _ => hidden _ _) id).trans (pushed _)

/-- A record placed at the head of its bucket comes first. -/
theorem linked_splice_none {buckets : Buckets} {store : Store α} {key : UInt64}
    (present : buckets.index key < buckets.count) {ids : List Id}
    (linked : store.Linked Record.chainNext (buckets.head (buckets.index key)) ids) (state : α) :
    (buckets.splice store key state none).2.Linked Record.chainNext
      ((buckets.splice store key state none).1.head (buckets.index key)) (store.size :: ids) := by
  simp only [splice, head, Array.getElem?_setIfInBounds_self_of_lt present, following]
  refine .cons Array.getElem?_push_size (linked.congr fun id mem => ?_)
  simp [Array.getElem?_push, Nat.ne_of_lt (linked.lt_size id mem)]

/-- A record placed behind another one follows it. -/
theorem linked_splice_some {buckets : Buckets} {store : Store α} {key : UInt64}
    {before after : List Id} {last : Id} {start : Option Id}
    (linked : store.Linked Record.chainNext start (before ++ last :: after)) (state : α) :
    (buckets.splice store key state (some last)).2.Linked Record.chainNext start
      (before ++ last :: store.size :: after) := by
  have lt : last < store.size := linked.lt_size last (by simp)
  have nodup := linked.nodup
  refine linked.insert_after (fun other mem => ?_) ?_ ?_
  · have lt' : other < store.size := linked.lt_size other (by grind)
    have ne : last ≠ other := by grind [List.nodup_append]
    simp [splice, Array.getElem?_modify, Array.getElem?_push, Nat.ne_of_lt lt', ne]
  · simp [splice, Array.getElem?_modify, Array.getElem?_push, Nat.ne_of_lt lt, lt]
  · have ne : last ≠ store.size := Nat.ne_of_lt lt
    simp only [splice, Array.getElem?_modify, if_neg ne, Array.getElem?_push_size, following,
      Array.getElem?_eq_getElem lt, Option.map_some, Option.bind_some]

/-- A chain that does not hold the record before the new one is left
alone. -/
theorem linked_splice_of_not_mem {buckets : Buckets} {store : Store α} {key : UInt64}
    {ids : List Id} {after start : Option Id}
    (linked : store.Linked Record.chainNext start ids) (apart : ∀ last ∈ after, last ∉ ids)
    (state : α) : (buckets.splice store key state after).2.Linked Record.chainNext start ids := by
  refine linked.congr fun other mem => ?_
  have ne : other ≠ store.size := Nat.ne_of_lt (linked.lt_size other mem)
  cases after with
  | none => simp [splice, Array.getElem?_push, ne]
  | some last =>
    have ne' : last ≠ other := by
      rintro rfl
      exact apart _ rfl mem
    simp [splice, Array.getElem?_modify, Array.getElem?_push, ne, ne']

/-- A splice leaves the heads of the other buckets alone. -/
theorem head_splice_of_ne {buckets : Buckets} {store : Store α} {key : UInt64} {state : α}
    {after : Option Id} {bucket : Nat} (ne : bucket ≠ buckets.index key) :
    (buckets.splice store key state after).1.head bucket = buckets.head bucket := by
  cases after with
  | none => rw [splice, head, Array.getElem?_setIfInBounds_ne ne.symm, head]
  | some _ => rfl

/-- A splice puts the new id behind the ids of `before` in the list of its
bucket, and leaves every other list alone. -/
theorem Spells.splice {buckets : Buckets} {store : Store α} {lists : Nat → List Id}
    (spells : buckets.Spells store lists) {key : UInt64}
    (present : buckets.index key < buckets.count) {before after : List Id}
    (cut : lists (buckets.index key) = before ++ after) (state : α) :
    (buckets.splice store key state before.getLast?).1.Spells
      (buckets.splice store key state before.getLast?).2
      (fun bucket =>
        if bucket = buckets.index key then before ++ store.size :: after else lists bucket) := by
  have here := spells.linked _ present
  rw [cut] at here
  refine ⟨?_, ?_⟩ <;> rw [count_splice] <;> intro bucket lt
  · split
    · next same =>
      subst same
      rcases List.eq_nil_or_concat before with rfl | ⟨front, last, rfl⟩
      · exact linked_splice_none present here state
      · rw [List.concat_eq_append, List.getLast?_append, List.getLast?_singleton,
          Option.some_or, List.append_assoc] at *
        exact linked_splice_some here state
    · next ne =>
      rw [head_splice_of_ne ne]
      refine linked_splice_of_not_mem (spells.linked bucket lt) (fun last is_last mem => ?_) state
      have mem' : last ∈ lists (buckets.index key) := by
        rw [cut]
        exact List.mem_append_left _ (List.mem_of_getLast? is_last)
      exact ne (spells.eq_of_mem lt present mem mem')
  · intro id
    have keys := map_splice Record.key (fun _ _ => rfl) buckets store key state
      before.getLast? id
    have old := spells.mem_iff bucket lt id
    by_cases fresh : id = store.size
    · subst fresh
      rw [if_pos rfl] at keys
      obtain ⟨record, found, rfl⟩ := Option.map_eq_some_iff.1 keys
      have absent : store.size ∉ lists bucket := fun mem =>
        Nat.lt_irrefl _ ((spells.linked bucket lt).lt_size _ mem)
      rw [Store.belongs, found, Option.map_some, beq_iff_eq, Option.some.injEq]
      split
      · next same => simp [same, index]
      · next ne => exact ⟨fun mem => absurd mem absent, fun same => absurd same.symm ne⟩
    · rw [if_neg fresh] at keys
      rw [Store.belongs_congr keys, ← old]
      split
      · next same => simp [same, cut, fresh]
      · rfl

end Buckets

end StateSearch
