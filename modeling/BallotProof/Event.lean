import BallotProof.Element

/-!
# Events

What is logged while proofs are made and verified: a level, a message and named fields, all as
text.
-/

namespace BallotProof

/-- How important an event is. -/
inductive Level where
  /-- Of interest when something is looked for. -/
  | debug
  /-- Something is wrong. -/
  | warn
deriving DecidableEq

/-- The name of the level. -/
def Level.name : Level → String
  | .debug => "DEBUG"
  | .warn => "WARN"

/-- A logged event. -/
structure Event where
  /-- The level. -/
  level : Level
  /-- What happened. -/
  message : String
  /-- Details by name, in order. -/
  fields : List (String × String)
  /-- Records by name, written out in full behind the details. -/
  records : List (String × String) := []
deriving DecidableEq

end BallotProof
