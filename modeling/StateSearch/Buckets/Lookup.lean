import StateSearch.Buckets.Chains
import StateSearch.Comparator

/-!
# Looking a candidate up

A lookup walks the chain of a bucket.  It passes the records that are less
than the candidate and judges by the first one that is not.  If that one is
equal the candidate is found, and otherwise it is absent.  Where the chain
is in ascending order nothing behind that record can be equal.  An absent
candidate belongs behind the record that was passed last.

`Store.search_eq` says what a walk along a linked list of records finds, and
`Buckets.Spells.lookup_eq` what a lookup finds.  Both speak of lists of ids
alone, and hold for every comparator.
-/

namespace StateSearch

variable {α : Type}

/-- What a walk along a chain tells about a candidate. -/
inductive Lookup where
  /-- This record is equal to the candidate. -/
  | found (id : Id)
  /-- The first record that is not less is not equal, or there is none.  The
  candidate belongs behind `after`, or at the head of its bucket. -/
  | absent (after : Option Id)
deriving DecidableEq

namespace Store

/-- Whether the record with an id compares with a candidate in this way. -/
def compares (store : Store α) (cmp : Comparator α) (candidate : α) (ordering : Ordering)
    (id : Id) : Bool :=
  (store[id]?.map fun record => cmp record.state candidate) == some ordering

/-- Looks for `candidate` along the chain from a head, with at most the
given number of steps.  The last argument is the record passed last. -/
def search (store : Store α) (cmp : Comparator α) (candidate : α) :
    Nat → Option Id → Option Id → Lookup
  | 0, _, after => .absent after
  | _ + 1, none, after => .absent after
  | fuel + 1, some id, after =>
    match store[id]? with
    | none => .absent after
    | some record =>
      match cmp record.state candidate with
      | .lt => store.search cmp candidate fuel record.chainNext (some id)
      | .eq => .found id
      | .gt => .absent after

/-- A search passes what is less and judges by the first id that is not. -/
theorem search_eq {store : Store α} {cmp : Comparator α} {candidate : α} {head : Option Id}
    {ids : List Id} (linked : Linked store Record.chainNext head ids) {fuel : Nat}
    (enough : ids.length ≤ fuel) (after : Option Id) :
    store.search cmp candidate fuel head after =
      match (ids.dropWhile (store.compares cmp candidate .lt)).head? with
      | some id =>
        if store.compares cmp candidate .eq id then .found id
        else .absent ((ids.takeWhile (store.compares cmp candidate .lt)).getLast?.or after)
      | none =>
        .absent ((ids.takeWhile (store.compares cmp candidate .lt)).getLast?.or after) := by
  induction linked generalizing fuel after with
  | nil => cases fuel <;> simp [search]
  | @cons id record ids found _ ih =>
    cases fuel with
    | zero => simp at enough
    | succ fuel =>
      have enough := Nat.le_of_succ_le_succ enough
      cases order : cmp record.state candidate with
      | lt =>
        have less : store.compares cmp candidate .lt id = true := by
          simp [compares, found, order]
        simp only [search, found, order, ih enough, List.dropWhile_cons, List.takeWhile_cons,
          less, if_true, List.getLast?_cons, Option.or_some]
        cases (ids.takeWhile (store.compares cmp candidate .lt)).getLast? <;> rfl
      | eq => simp [search, compares, found, order]
      | gt => simp [search, compares, found, order]

end Store

/-- Looks for `candidate` in the bucket of `key`. -/
def Buckets.lookup (buckets : Buckets) (store : Store α) (cmp : Comparator α) (key : UInt64)
    (candidate : α) : Lookup :=
  store.search cmp candidate store.size (buckets.head (buckets.index key)) none

/-- A lookup judges by the first id in the list of the bucket that is not
less than the candidate. -/
theorem Buckets.Spells.lookup_eq {buckets : Buckets} {store : Store α} {lists : Nat → List Id}
    (spells : buckets.Spells store lists) {key : UInt64}
    (present : buckets.index key < buckets.count) (cmp : Comparator α) (candidate : α) :
    buckets.lookup store cmp key candidate =
      match ((lists (buckets.index key)).dropWhile (store.compares cmp candidate .lt)).head? with
      | some id =>
        if store.compares cmp candidate .eq id then .found id
        else .absent
          ((lists (buckets.index key)).takeWhile (store.compares cmp candidate .lt)).getLast?
      | none => .absent
          ((lists (buckets.index key)).takeWhile (store.compares cmp candidate .lt)).getLast? := by
  have linked := spells.linked _ present
  simpa [lookup] using Store.search_eq linked linked.length_le_size none

end StateSearch
