import StateSearch.Visited.Insert

/-!
# Comparators that look back into the set

Looking a candidate up only reads the set, so the comparator may itself look
something up in the same set while a lookup is under way.
-/

namespace StateSearch

variable {α : Type}

/-- The comparator that first asks the set, by the comparator `inner`, for
the stored state it was handed.  If the set does not find that state under
`key` it is greater than anything, and otherwise it compares by `cmp`. -/
def Visited.lookBack (set : Visited α) (inner cmp : Comparator α) (key : UInt64) : Comparator α :=
  fun stored candidate =>
    if set.contains inner key stored then cmp stored candidate else .gt

/-- The comparator that looks back as many levels deep as the last argument
says. -/
def Visited.lookBackDeep (set : Visited α) (cmp : Comparator α) (key : UInt64) :
    Nat → Comparator α
  | 0 => cmp
  | depth + 1 => set.lookBack (set.lookBackDeep cmp key depth) cmp key

end StateSearch
