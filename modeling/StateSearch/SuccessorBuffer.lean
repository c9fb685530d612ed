/-!
# Successors of a state

An expansion writes the successors of a state into a buffer, each with its
key, and in the order in which they are to be admitted.
-/

namespace StateSearch

variable {α : Type}

/-- Successors that were found and not yet taken over by the set. -/
structure SuccessorBuffer (α : Type) where
  items : Array (UInt64 × α) := #[]

namespace SuccessorBuffer

/-- No successors. -/
def empty : SuccessorBuffer α :=
  {}

instance : Inhabited (SuccessorBuffer α) where
  default := empty

/-- Adds a successor behind the others. -/
def push (buffer : SuccessorBuffer α) (key : UInt64) (state : α) : SuccessorBuffer α where
  items := buffer.items.push (key, state)

/-- The number of successors. -/
def size (buffer : SuccessorBuffer α) : Nat :=
  buffer.items.size

/-- Whether there is no successor. -/
def isEmpty (buffer : SuccessorBuffer α) : Bool :=
  buffer.items.isEmpty

/-- The successors in the order in which they were added. -/
def toList (buffer : SuccessorBuffer α) : List (UInt64 × α) :=
  buffer.items.toList

@[simp] theorem toList_empty : (empty : SuccessorBuffer α).toList = [] :=
  rfl

@[simp] theorem toList_push (buffer : SuccessorBuffer α) (key : UInt64) (state : α) :
    (buffer.push key state).toList = buffer.toList ++ [(key, state)] := by
  simp [toList, push]

@[simp] theorem length_toList (buffer : SuccessorBuffer α) :
    buffer.toList.length = buffer.size := by
  simp [toList, size]

theorem isEmpty_iff {buffer : SuccessorBuffer α} : buffer.isEmpty = true ↔ buffer.toList = [] := by
  simp [isEmpty, toList]

end SuccessorBuffer

/-- How the successors of a state come into a buffer. -/
abbrev Expander (α : Type) := α → SuccessorBuffer α → SuccessorBuffer α

namespace Expander

/-- The successors of a state in the order in which an expander adds them to
an empty buffer. -/
def successors (expand : Expander α) (state : α) : List (UInt64 × α) :=
  (expand state .empty).toList

/-- The expander that adds the listed successors of a state, whatever the
buffer holds. -/
def ofSuccessors (successors : α → List (UInt64 × α)) : Expander α :=
  fun state buffer =>
    (successors state).foldl (fun buffer (key, next) => buffer.push key next) buffer

theorem toList_ofSuccessors (successors : α → List (UInt64 × α)) (state : α)
    (buffer : SuccessorBuffer α) :
    (ofSuccessors successors state buffer).toList = buffer.toList ++ successors state := by
  unfold ofSuccessors
  induction successors state generalizing buffer with
  | nil => simp
  | cons _ _ ih => simp [ih]

@[simp] theorem successors_ofSuccessors (listed : α → List (UInt64 × α)) :
    (ofSuccessors listed).successors = listed := by
  funext state
  rw [successors, toList_ofSuccessors, SuccessorBuffer.toList_empty, List.nil_append]

end Expander

end StateSearch
