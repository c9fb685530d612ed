import StateSearch.Visited.Insert

/-!
# Catalogues

A catalogue keeps the admitted states with their keys and judges candidates:
it finds an equal state, or admits the candidate under the next id.  It has
no worklist; `StateSearch.Ledger` puts one beside a catalogue.

The class names what all catalogues have in common.  The simplest instance
stands here: a `Roll` is a plain list, and looks for a candidate among all
admitted states, whatever their keys.  `StateSearch.ListTable` is the other
instance.
-/

namespace StateSearch

/-- Something that keeps admitted states and tells duplicates. -/
class Catalogue (κ : Type → Type) where
  /-- The admitted states with their keys, in the order of admission. -/
  admitted {α : Type} : κ α → List (UInt64 × α)
  /-- The admitted state that a candidate is a duplicate of. -/
  find? {α : Type} : κ α → Comparator α → UInt64 → α → Option Id
  /-- Admits a state under its key unless it is a duplicate. -/
  insert {α : Type} : κ α → Comparator α → UInt64 → α → Verdict α × κ α

variable {α : Type}

/-- The admitted states of a set with their keys. -/
def Visited.admitted (set : Visited α) : List (UInt64 × α) :=
  set.store.toList.map fun record => (record.key, record.state)

/-! ## The plain list -/

/-- The admitted states with their keys, in the order of admission. -/
structure Roll (α : Type) where
  admitted : List (UInt64 × α) := []

namespace Roll

/-- The first admitted state that is equal to a candidate. -/
def find? (roll : Roll α) (cmp : Comparator α) (candidate : α) : Option Id :=
  roll.admitted.findIdx? fun (_, state) => cmp state candidate == .eq

/-- Admits a state under its key unless an equal one was admitted. -/
def insert (roll : Roll α) (cmp : Comparator α) (key : UInt64) (state : α) :
    Verdict α × Roll α :=
  match roll.find? cmp state with
  | some id => (.duplicate id state, roll)
  | none => (.admitted roll.admitted.length, { admitted := roll.admitted ++ [(key, state)] })

end Roll

instance : Catalogue Roll where
  admitted := Roll.admitted
  find? roll cmp _ candidate := roll.find? cmp candidate
  insert := Roll.insert

/-- The roll of a set. -/
def Visited.roll (set : Visited α) : Roll α where
  admitted := set.admitted

end StateSearch
