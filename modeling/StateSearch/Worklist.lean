import StateSearch.Store.Linked

/-!
# The worklist

The states that wait for expansion form a stack.  It is threaded through the
store by `Record.worklistNext`, and the records on it are marked as queued.
The worklist and the chains share the records but not their links, so
neither disturbs the other: `alike_push` and `alike_pop`.

The view of a worklist is the list of ids that its links spell out.
`Worklist.Spells` says that the count and the marks agree with this list,
and `Spells.push` and `Spells.pop` say what the two operations do to it.
-/

namespace StateSearch

variable {α : Type}

/-- The top of the stack of waiting states, and their number. -/
structure Worklist where
  top : Option Id := none
  size : Nat := 0

/-- A record but for its place in the worklist. -/
def Record.unlisted (record : Record α) : Record α :=
  { record with worklistNext := none, queued := false }

namespace Worklist

/-- Puts a record on top of the stack. -/
def push (worklist : Worklist) (store : Store α) (id : Id) : Worklist × Store α :=
  ({ top := some id, size := worklist.size + 1 },
    store.modify id fun record => { record with worklistNext := worklist.top, queued := true })

/-- Takes the top record off the stack.  Its state stays in the store. -/
def pop (worklist : Worklist) (store : Store α) : Option Id × Worklist × Store α :=
  match worklist.top with
  | none => (none, worklist, store)
  | some id =>
    let next := store[id]?.bind Record.worklistNext
    (some id, { top := next, size := worklist.size - 1 },
      store.modify id fun record => { record with worklistNext := none, queued := false })

/-- The ids on the stack, top first. -/
def toList (worklist : Worklist) (store : Store α) : List Id :=
  store.walk Record.worklistNext store.size worklist.top

/-! ## What the operations leave alone -/

/-- Pushing changes only the place of a record in the worklist. -/
theorem alike_push (worklist : Worklist) (store : Store α) (id : Id) :
    store.Alike Record.unlisted (worklist.push store id).2 :=
  store.alike_modify _ _ fun _ => rfl

/-- Popping changes only the place of a record in the worklist. -/
theorem alike_pop (worklist : Worklist) (store : Store α) :
    store.Alike Record.unlisted (worklist.pop store).2.2 := by
  unfold pop
  split
  · exact Store.Alike.refl store _
  · exact store.alike_modify _ _ fun _ => rfl

/-! ## The list of waiting ids -/

/-- The links spell out these ids, their number is kept, and exactly their
records are marked. -/
structure Spells (worklist : Worklist) (store : Store α) (ids : List Id) : Prop where
  linked : store.Linked Record.worklistNext worklist.top ids
  size_eq : worklist.size = ids.length
  queued_iff : ∀ id : Id, (store[id]?).map Record.queued = some true ↔ id ∈ ids

theorem Spells.toList_eq {worklist : Worklist} {store : Store α} {ids : List Id}
    (spells : worklist.Spells store ids) : worklist.toList store = ids :=
  spells.linked.walk_eq

theorem Spells.top_eq {worklist : Worklist} {store : Store α} {ids : List Id}
    (spells : worklist.Spells store ids) : worklist.top = ids.head? := by
  rcases spells with ⟨linked, _, _⟩
  generalize worklist.top = top at linked
  cases linked <;> rfl

/-- A worklist is not disturbed by changes that keep its links and marks. -/
theorem Spells.congr {worklist : Worklist} {store store' : Store α} {ids : List Id}
    (spells : worklist.Spells store ids)
    (links : ∀ id ∈ ids, (store'[id]?).map Record.worklistNext =
      (store[id]?).map Record.worklistNext)
    (marks : ∀ id : Id, (store'[id]?).map Record.queued = some true ↔
      (store[id]?).map Record.queued = some true) : worklist.Spells store' ids :=
  ⟨spells.linked.congr links, spells.size_eq, fun id => (marks id).trans (spells.queued_iff id)⟩

/-- Pushing puts a new id in front of the list. -/
theorem Spells.push {worklist : Worklist} {store : Store α} {ids : List Id} {id : Id}
    (spells : worklist.Spells store ids) (present : id < store.size) (fresh : id ∉ ids) :
    (worklist.push store id).1.Spells (worklist.push store id).2 (id :: ids) := by
  rcases spells with ⟨linked, size_eq, queued_iff⟩
  have here : (worklist.push store id).2[id]? =
      some { store[id] with worklistNext := worklist.top, queued := true } := by
    simp [Worklist.push, present, Array.getElem_modify_self]
  have there : ∀ other, other ≠ id → (worklist.push store id).2[other]? = store[other]? := by
    intro other ne
    simp [Worklist.push, Array.getElem?_modify, ne.symm]
  refine ⟨.cons here (linked.congr fun other mem => ?_), ?_, fun other => ?_⟩
  · rw [there other fun same => fresh (same ▸ mem)]
  · simp [Worklist.push, size_eq]
  · by_cases same : other = id
    · subst same
      rw [here]
      simp
    · rw [there other same, queued_iff]
      simp [same]

/-- Popping takes the first id off the list. -/
theorem Spells.pop {worklist : Worklist} {store : Store α} {ids : List Id} {id : Id}
    (spells : worklist.Spells store (id :: ids)) :
    (worklist.pop store).1 = some id ∧
      (worklist.pop store).2.1.Spells (worklist.pop store).2.2 ids := by
  rcases spells with ⟨linked, size_eq, queued_iff⟩
  rcases worklist with ⟨top, size⟩
  have once := (List.nodup_cons.1 linked.nodup).1
  cases linked with
  | @cons _ record _ found rest =>
    have here : (Worklist.pop ⟨some id, size⟩ store).2.2[id]? =
        some { record with worklistNext := none, queued := false } := by
      simp [Worklist.pop, Array.getElem?_modify, found]
    have there : ∀ other, other ≠ id →
        (Worklist.pop ⟨some id, size⟩ store).2.2[other]? = store[other]? := by
      intro other ne
      simp [Worklist.pop, Array.getElem?_modify, ne.symm]
    refine ⟨rfl, ?_, ?_, fun other => ?_⟩
    · have tail : (Worklist.pop ⟨some id, size⟩ store).2.1.top = record.worklistNext := by
        simp [Worklist.pop, found]
      rw [tail]
      exact rest.congr fun other mem => by rw [there other fun same => once (same ▸ mem)]
    · simp only [List.length_cons] at size_eq
      simp [Worklist.pop, size_eq]
    · by_cases same : other = id
      · subst same
        rw [here]
        simp [once]
      · rw [there other same, queued_iff]
        simp [same]

/-- Nothing is popped off an empty list. -/
theorem Spells.pop_eq_none {worklist : Worklist} {store : Store α}
    (spells : worklist.Spells store []) : worklist.pop store = (none, worklist, store) := by
  rcases worklist with ⟨top, size⟩
  cases spells.linked
  rfl

end Worklist

end StateSearch
