/-!
# Comparators

A comparator decides which states are the same and in which order a bucket
keeps them.  The set passes a stored state first and the candidate second.

The set never checks that a comparator is lawful, and every operation is
total for every comparator.  A comparator keeps the answers those of a set
when it is a total preorder, which is the class `Std.TransCmp`, and when
states that compare equal carry one key.  `Std.LawfulEqCmp` adds that equal
states are identical.
-/

namespace StateSearch

/-- How a stored state compares with a candidate. -/
abbrev Comparator (α : Type) := α → α → Ordering

namespace Comparator

variable {α : Type}

/-- The order that the type of the states brings with it. -/
def natural [Ord α] : Comparator α :=
  compare

instance [Ord α] [Std.TransOrd α] : Std.TransCmp (natural : Comparator α) :=
  inferInstanceAs (Std.TransCmp compare)

instance [Ord α] [Std.LawfulEqOrd α] : Std.LawfulEqCmp (natural : Comparator α) :=
  inferInstanceAs (Std.LawfulEqCmp compare)

/-- The order of the images of the states under `f`. -/
def on {β : Type} (cmp : Comparator β) (f : α → β) : Comparator α :=
  fun a b => cmp (f a) (f b)

instance {β : Type} (cmp : Comparator β) [Std.TransCmp cmp] (f : α → β) :
    Std.TransCmp (cmp.on f) where
  eq_swap {a b} := show cmp (f a) (f b) = (cmp (f b) (f a)).swap from Std.OrientedCmp.eq_swap
  isLE_trans {a b c} (le : (cmp (f a) (f b)).isLE) (le' : (cmp (f b) (f c)).isLE) :=
    show (cmp (f a) (f c)).isLE from Std.TransCmp.isLE_trans le le'

end Comparator

end StateSearch
