import StateSearch.Sizing

/-!
# Failures

What can go wrong when a set is built with a chosen number of buckets, and
when a state is admitted by the operation that reports a lack of room.  No
other operation fails.
-/

namespace StateSearch

/-- Why a set could not be built or a state not be admitted. -/
inductive Failure where
  /-- The requested bucket count is not valid. -/
  | bucketCount (requested : Nat)
  /-- Twice this bucket count does not fit into a machine word. -/
  | tooManyBuckets (count : Nat)
  /-- There is no room for the bucket array. -/
  | outOfMemory
deriving DecidableEq

/-- The wording of a failure. -/
def Failure.message : Failure → String
  | .bucketCount requested =>
    s!"invalid bucket count {requested}: must be a power of two and at least {minBuckets}"
  | .tooManyBuckets count => s!"cannot grow past {count} buckets"
  | .outOfMemory => "bucket array allocation failed"

end StateSearch
