/-
  The log of a run: what is noted while the trees of its files are looked at.

  Single violations are noted too, but they matter less than what is noted here: a run never
  logs them by itself, and logs that are set to their level are left out.

  * `Event`: something noted about a tree; `Event.level`: how much it matters.
  * `Level.admits`: whether a log takes an event.
-/

namespace ScriptTree

/-- How much an event matters. -/
inductive Level where
  | debug
  | warn
  deriving DecidableEq, Repr

/-- Whether a log that starts at one level takes events of another. -/
def Level.admits : Level → Level → Bool
  | .debug, _ | .warn, .warn => true
  | .warn, .debug => false

/-- What is noted about a tree, of which the root is described. -/
inductive Event where
  /-- The root is not what it must be. -/
  | wrongRoot (expected root : String)
  /-- The tree was looked at, and it is valid or not. -/
  | validated (what root : String) (valid : Bool)
  /-- The violations of the tree were collected. -/
  | collected (root : String) (count : Nat)
  deriving DecidableEq, Repr

namespace Event

/-- No event is a warning: a file that is not valid is the business of the run. -/
def level : Event → Level
  | .wrongRoot .. | .validated .. | .collected .. => .debug

/-- An event in words. -/
def message : Event → String
  | .wrongRoot expected _ => "root is not " ++ expected
  | .validated what .. => "validated " ++ what
  | .collected .. => "collected validation errors"

/-- The values that are noted with an event, each with its name. -/
def values : Event → List (String × String)
  | .wrongRoot _ root => [("root", root)]
  | .validated _ root valid => [("root", root), ("is_valid", toString valid)]
  | .collected root count => [("root", root), ("num_errors", count.repr)]

/-- An event in one line. -/
def line (e : Event) : String :=
  " ".intercalate (e.message :: e.values.map fun (name, value) => name ++ "=" ++ value)

end Event

end ScriptTree
