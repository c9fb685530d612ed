import StateSearch.Store.Basic

/-!
# Linked lists in the store

`Linked store next head ids` says that the links `next` spell out `ids` from
`head` on and then end.  It is the view of a chain and of the worklist that
other modules reason with.

There are four groups.

* The relation, and what it says of its ids.  A linked list meets no record
  twice, `Linked.nodup`.
* Walks.  `Linked.walk_eq` says that a walk finds the ids of a linked list.
* Changes.  `Linked.congr` keeps a list through changes elsewhere, and
  `Linked.insert_after` puts a new id behind one of the list.
* Stores that look alike.  `Alike` says that two stores agree in what a view
  shows of their records.
-/

namespace StateSearch

variable {α : Type}

namespace Store

/-! ## The relation -/

/-- From `head` the links spell out `ids`, and the last of them leads
nowhere. -/
inductive Linked (store : Store α) (next : Record α → Option Id) : Option Id → List Id → Prop
  | nil : Linked store next none []
  | cons {id : Id} {record : Record α} {ids : List Id} (found : store[id]? = some record)
      (rest : Linked store next (next record) ids) : Linked store next (some id) (id :: ids)

variable {store store' : Store α} {next : Record α → Option Id} {head : Option Id}

/-- The links of a head spell out one list only. -/
theorem Linked.unique {ids others : List Id} (linked : Linked store next head ids)
    (linked' : Linked store next head others) : ids = others := by
  induction linked generalizing others with
  | nil => cases linked'; rfl
  | cons found _ ih =>
    cases linked' with
    | cons found' rest' =>
      obtain rfl := Option.some.inj (found.symm.trans found')
      rw [ih rest']

/-- Every linked id has a record. -/
theorem Linked.lt_size {ids : List Id} (linked : Linked store next head ids) :
    ∀ id ∈ ids, id < store.size := by
  induction linked with
  | nil => simp
  | cons found _ ih =>
    intro id mem
    rcases List.mem_cons.1 mem with rfl | mem
    · exact (Array.getElem?_eq_some_iff.1 found).1
    · exact ih id mem

/-- From each id of a linked list on, a shorter part of it is linked. -/
private theorem Linked.exists_rest {ids : List Id} (linked : Linked store next head ids) :
    ∀ id ∈ ids, ∃ rest, Linked store next (some id) (id :: rest) ∧ rest.length < ids.length := by
  induction linked with
  | nil => simp
  | @cons first _ ids found rest ih =>
    intro id mem
    rcases List.mem_cons.1 mem with rfl | mem
    · exact ⟨ids, .cons found rest, by simp⟩
    · obtain ⟨tail, linked, shorter⟩ := ih id mem
      exact ⟨tail, linked, by simp; omega⟩

/-- A linked list meets no record twice, since the links from a record on
spell out one list only. -/
theorem Linked.nodup {ids : List Id} (linked : Linked store next head ids) : ids.Nodup := by
  induction linked with
  | nil => exact List.nodup_nil
  | @cons id _ ids found rest ih =>
    refine List.nodup_cons.2 ⟨fun mem => ?_, ih⟩
    obtain ⟨tail, linked, shorter⟩ := rest.exists_rest id mem
    have same := (Linked.cons found rest).unique linked
    simp only [List.cons.injEq, true_and] at same
    exact Nat.lt_irrefl _ (same ▸ shorter)

/-- A linked list has no more ids than the store has records. -/
theorem Linked.length_le_size {ids : List Id} (linked : Linked store next head ids) :
    ids.length ≤ store.size := by
  have subset : ids ⊆ List.range store.size := fun id mem =>
    List.mem_range.2 (linked.lt_size id mem)
  simpa using linked.nodup.length_le_of_subset subset

/-- The last id of a linked list leads nowhere. -/
theorem Linked.last_leads_nowhere {before : List Id} {id : Id}
    (linked : Linked store next head (before ++ [id])) :
    (store[id]?).map next = some none := by
  induction before generalizing head with
  | nil =>
    cases linked with
    | cons found rest =>
      rw [found, Option.map_some]
      generalize next _ = tail at rest
      cases rest
      rfl
  | cons first before ih =>
    cases linked with
    | cons found rest => exact ih rest

/-! ## Walks -/

/-- A walk with enough fuel finds the ids that the links spell out. -/
theorem Linked.walk_eq_of_le {ids : List Id} (linked : Linked store next head ids) {fuel : Nat}
    (enough : ids.length ≤ fuel) : store.walk next fuel head = ids := by
  induction linked generalizing fuel with
  | nil => cases fuel <;> rfl
  | cons found _ ih =>
    cases fuel with
    | zero => simp at enough
    | succ fuel => simp [walk, found, ih (Nat.le_of_succ_le_succ enough)]

/-- A walk of as many steps as there are records finds the ids that the links
spell out. -/
theorem Linked.walk_eq {ids : List Id} (linked : Linked store next head ids) :
    store.walk next store.size head = ids :=
  linked.walk_eq_of_le linked.length_le_size

/-! ## Changes -/

/-- A linked list is not disturbed by changes that keep the links of its
own records. -/
theorem Linked.congr {ids : List Id} (linked : Linked store next head ids)
    (same : ∀ id ∈ ids, (store'[id]?).map next = (store[id]?).map next) :
    Linked store' next head ids := by
  induction linked with
  | nil => exact .nil
  | @cons id record ids found rest ih =>
    have here := same id (List.mem_cons_self ..)
    rw [found] at here
    obtain ⟨record', found', leads⟩ := Option.map_eq_some_iff.1 here
    refine .cons found' ?_
    rw [leads]
    exact ih fun other mem => same other (List.mem_cons_of_mem _ mem)

/-- A new id comes behind one of the list when that one leads to it and it
leads to where that one led before. -/
theorem Linked.insert_after {before after : List Id} {id new : Id}
    (linked : Linked store next head (before ++ id :: after))
    (same : ∀ other ∈ before ++ after, (store'[other]?).map next = (store[other]?).map next)
    (here : (store'[id]?).map next = some (some new))
    (there : (store'[new]?).map next = (store[id]?).map next) :
    Linked store' next head (before ++ id :: new :: after) := by
  induction before generalizing head with
  | nil =>
    cases linked with
    | @cons _ record _ found rest =>
      obtain ⟨record', found', leads⟩ := Option.map_eq_some_iff.1 here
      refine .cons found' (leads ▸ ?_)
      rw [found] at there
      obtain ⟨last, found_last, leads_last⟩ := Option.map_eq_some_iff.1 there
      refine .cons found_last ?_
      rw [leads_last]
      exact rest.congr fun other mem => same other (by simpa using mem)
  | cons first before ih =>
    cases linked with
    | @cons _ record _ found rest =>
      have kept := same first (by simp)
      rw [found] at kept
      obtain ⟨record', found', leads⟩ := Option.map_eq_some_iff.1 kept
      refine .cons found' ?_
      rw [leads]
      exact ih rest fun other mem => same other (by simp at mem ⊢; exact .inr mem)

/-! ## Stores that look alike -/

/-- As far as `view` can tell the two stores have the same records. -/
def Alike {β : Type} (store : Store α) (view : Record α → β) (store' : Store α) : Prop :=
  ∀ id : Id, (store'[id]?).map view = (store[id]?).map view

theorem Alike.refl {β : Type} (store : Store α) (view : Record α → β) : store.Alike view store :=
  fun _ => rfl

theorem Alike.trans {β : Type} {view : Record α → β} {store'' : Store α}
    (alike : store.Alike view store') (alike' : store'.Alike view store'') :
    store.Alike view store'' :=
  fun id => (alike' id).trans (alike id)

/-- What is read off a view alike is alike. -/
theorem Alike.comp {β γ : Type} {view : Record α → β} (alike : store.Alike view store')
    (f : β → γ) : store.Alike (fun record => f (view record)) store' := by
  intro id
  have kept := congrArg (Option.map f) (alike id)
  simpa only [Option.map_map, Function.comp_def] using kept

theorem Alike.size_eq {β : Type} {view : Record α → β} (alike : store.Alike view store') :
    store'.size = store.size := by
  apply Nat.le_antisymm <;> apply Nat.le_of_not_lt <;> intro lt
  · simpa [lt] using alike store.size
  · simpa [lt] using alike store'.size

/-- Writing a field that a view does not show leaves the store alike. -/
theorem alike_modify {β : Type} {view : Record α → β} (store : Store α) (id : Id)
    (f : Record α → Record α) (hidden : ∀ record, view (f record) = view record) :
    store.Alike view (store.modify id f) := by
  intro other
  rw [Array.getElem?_modify]
  split
  · rw [Option.map_map]
    congr 1
    exact funext hidden
  · rfl

/-- Two stores that differ in the links of the chains at most. -/
abbrev SameButChains (store store' : Store α) : Prop :=
  store.Alike Record.unchained store'

end Store

end StateSearch
