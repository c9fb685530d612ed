import StateSearch.Catalogue

/-!
# A hash table of plain lists

The table keeps a list of ids for every bucket and no links.  It says what
the linked buckets do, for every comparator: where a candidate is looked
for, when the table doubles, which entries go to which of the new buckets,
and where a new id is placed.

There are three groups.

* The table.  The bucket of a key is its remainder modulo the number of
  buckets.
* Its operations.  `ListTable.split` is one doubling, and
  `ListTable.insert` admits a state.  They make the table a catalogue.
* The table of a set, `Visited.listTable`.
-/

namespace StateSearch

variable {α : Type}

/-! ## The table -/

/-- The admitted states with their keys, the number of buckets, and the ids
in each bucket. -/
structure ListTable (α : Type) where
  admitted : List (UInt64 × α)
  count : Nat
  bucket : Nat → List Id

namespace ListTable

/-- The empty table with a number of buckets. -/
def ofCount (count : Nat) : ListTable α where
  admitted := []
  count := count
  bucket := fun _ => []

/-- Whether the key of an id leaves this remainder. -/
def leaves (table : ListTable α) (count remainder : Nat) (id : Id) : Bool :=
  match table.admitted[id]? with
  | some (key, _) => key.toNat % count == remainder
  | none => false

/-- Whether the state with an id is less than a candidate. -/
def less (table : ListTable α) (cmp : Comparator α) (candidate : α) (id : Id) : Bool :=
  match table.admitted[id]? with
  | some (_, state) => cmp state candidate == .lt
  | none => false

/-- Whether the state with an id is equal to a candidate. -/
def equal (table : ListTable α) (cmp : Comparator α) (candidate : α) (id : Id) : Bool :=
  match table.admitted[id]? with
  | some (_, state) => cmp state candidate == .eq
  | none => false

/-! ## Operations -/

/-- The first id in the bucket of a key that is not less than a candidate,
if it is equal to the candidate. -/
def find? (table : ListTable α) (cmp : Comparator α) (key : UInt64) (candidate : α) : Option Id :=
  ((table.bucket (key.toNat % table.count)).find?
    fun id => !table.less cmp candidate id).filter (table.equal cmp candidate)

/-- Twice the buckets.  A new bucket holds, in the old order, the ids of the
old bucket whose keys now belong there. -/
def split (table : ListTable α) : ListTable α where
  admitted := table.admitted
  count := 2 * table.count
  bucket := fun j =>
    (table.bucket (j % table.count)).filter (table.leaves (2 * table.count) j)

/-- A new id goes in front of the first one in its bucket that is not less
than its state, and to the end if there is none. -/
def place (table : ListTable α) (cmp : Comparator α) (key : UInt64) (state : α) :
    ListTable α where
  admitted := table.admitted ++ [(key, state)]
  count := table.count
  bucket := fun j =>
    let ids := table.bucket j
    if j = key.toNat % table.count then
      ids.takeWhile (table.less cmp state) ++
        table.admitted.length :: ids.dropWhile (table.less cmp state)
    else ids

/-- Admits a state under its key unless an equal one is found, doubling the
table first where one more state would fill three quarters of it. -/
def insert (table : ListTable α) (cmp : Comparator α) (key : UInt64) (state : α) :
    Verdict α × ListTable α :=
  match table.find? cmp key state with
  | some id => (.duplicate id state, table)
  | none =>
    let id := table.admitted.length
    if 3 * table.count ≤ 4 * (id + 1) then
      let table := table.split
      match table.find? cmp key state with
      | some id => (.duplicate id state, table)
      | none => (.admitted id, table.place cmp key state)
    else (.admitted id, table.place cmp key state)

end ListTable

instance : Catalogue ListTable where
  admitted := ListTable.admitted
  find? := ListTable.find?
  insert := ListTable.insert

/-! ## The table of a set -/

/-- The chains of a set as lists. -/
def Visited.listTable (set : Visited α) : ListTable α where
  admitted := set.admitted
  count := set.bucketCount
  bucket := set.chain

end StateSearch
