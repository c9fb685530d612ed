/-!
# Events

A set reports when its bucket array doubles.  An exploration reports each
expansion and its own end.  Events are values; who calls the set decides
what becomes of them.
-/

namespace StateSearch

/-- How much detail a reader of the log must ask for to see an event. -/
inductive Level where
  | debug
  | trace
deriving DecidableEq

/-- The name of a level in a log. -/
def Level.name : Level → String
  | .debug => "debug"
  | .trace => "trace"

/-- Something worth a line in a log. -/
inductive Event where
  /-- The bucket array doubled from `before` buckets while the set held
  `entries` states. -/
  | doubled (before entries : Nat)
  /-- The expansion number `ordinal` of an exploration produced `successors`
  states, while `pending` states waited. -/
  | expanded (ordinal successors pending : Nat)
  /-- An exploration ended with `states` states in `buckets` buckets, after so
  many expansions and so many successors that were duplicates. -/
  | finished (states expansions duplicates buckets : Nat)
deriving DecidableEq

namespace Event

/-- Single expansions are fine detail, growth and ends are not. -/
def level : Event → Level
  | .doubled _ _ => .debug
  | .expanded _ _ _ => .trace
  | .finished _ _ _ _ => .debug

/-- The line of a log that tells of an event. -/
def text : Event → String
  | .doubled before entries =>
    s!"state set grew from {before} to {before * 2} buckets ({entries} entries)"
  | .expanded ordinal successors pending =>
    s!"expanded state #{ordinal} into {successors} successors ({pending} pending)"
  | .finished states expansions duplicates buckets =>
    s!"exploration done: {states} states, {expansions} expanded, {duplicates} duplicate successors, {buckets} buckets"

end Event

end StateSearch
