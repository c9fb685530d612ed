import StateSearch.Run

/-!
# Other keys for the same states

A caller computes keys from states, and may do so in more than one way.
Here the keys of an operation, and those that an answer shows, are replaced
by those of another such function.  The states stay.

`Operation.rekey_rekey` says that only the last replacement counts.
-/

namespace StateSearch

variable {α : Type}

/-- A state with its key, the key computed anew. -/
def rekeyed (keyOf : α → UInt64) (entry : UInt64 × α) : UInt64 × α :=
  (keyOf entry.2, entry.2)

/-- The expander with the same successors under other keys. -/
def Expander.rekey (keyOf : α → UInt64) (expand : Expander α) : Expander α :=
  .ofSuccessors fun state => (expand state .empty).toList.map (rekeyed keyOf)

/-- The same operation under other keys. -/
def Operation.rekey (keyOf : α → UInt64) : Operation α → Operation α
  | .insert _ state => .insert (keyOf state) state
  | .tryInsert _ state => .tryInsert (keyOf state) state
  | .find _ state => .find (keyOf state) state
  | .contains _ state => .contains (keyOf state) state
  | .pop => .pop
  | .peek => .peek
  | .entries => .entries
  | .waiting => .waiting
  | .explore expand => .explore (expand.rekey keyOf)

/-- The same state under another key. -/
def Entry.rekey (keyOf : α → UInt64) (entry : Entry α) : Entry α :=
  { entry with key := keyOf entry.state }

/-- The same answer, with other keys where it shows keys. -/
def Answer.rekey (keyOf : α → UInt64) : Answer α → Answer α
  | .entries listed => .entries (listed.map (Entry.rekey keyOf))
  | .waiting listed => .waiting (listed.map (Entry.rekey keyOf))
  | answer => answer

/-- The successors of a state under other keys. -/
@[simp] theorem Expander.toList_rekey (keyOf : α → UInt64) (expand : Expander α) (state : α) :
    (expand.rekey keyOf state .empty).toList =
      (expand state .empty).toList.map (rekeyed keyOf) := by
  rw [rekey, toList_ofSuccessors]
  rfl

theorem Expander.rekey_rekey (keyOf keyOf' : α → UInt64) (expand : Expander α) :
    (expand.rekey keyOf).rekey keyOf' = expand.rekey keyOf' := by
  unfold rekey
  congr 1
  funext state
  rw [toList_ofSuccessors, SuccessorBuffer.toList_empty, List.nil_append, List.map_map]
  rfl

theorem Operation.rekey_rekey (keyOf keyOf' : α → UInt64) (operation : Operation α) :
    (operation.rekey keyOf).rekey keyOf' = operation.rekey keyOf' := by
  cases operation with
  | explore expand => exact congrArg explore (expand.rekey_rekey keyOf keyOf')
  | _ => rfl

end StateSearch
