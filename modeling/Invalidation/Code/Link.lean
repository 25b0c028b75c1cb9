import Invalidation.Code.Location
import Invalidation.Text.Shown

/-! Why a jump between two labels could not be linked. Looking a label up is the link buffer's work,
    and a buffer may refuse for a reason of its own; the other three causes are found by whoever
    links the jump. -/

namespace Invalidation

/-- Why the labels of a watchpoint could not be turned into addresses. -/
inductive LinkError where
  /-- The link buffer does not know the label. -/
  | unknownLabel (label : Label)
  /-- The labels were turned into addresses before. -/
  | alreadyResolved
  /-- Source and destination are the same instruction. -/
  | selfLoop (address : Address)
  /-- The jump is longer than a jump may be. -/
  | outOfRange (source destination : Address) (limit : Nat)
  deriving DecidableEq

/-- What ends the linking of a watchpoint without success. -/
inductive LinkFailure where
  /-- The jump cannot be linked. -/
  | link (error : LinkError)
  /-- The link buffer refuses to work with its settings. -/
  | invalidSettings (reason : String)
  deriving DecidableEq

namespace LinkError

/-- The error as a sentence. -/
def message : LinkError → String
  | .unknownLabel l => "Label " ++ l.text ++ " is not part of the finalized code"
  | .alreadyResolved => "Watchpoint locations were already resolved"
  | .selfLoop a => "Watchpoint would redirect " ++ a.text ++ " onto itself"
  | .outOfRange s d limit =>
    "Jump from " ++ s.text ++ " to " ++ d.text ++ " exceeds " ++ toString limit ++ " bytes"

/-- The error with its parts named. -/
def shown : LinkError → Shown
  | .unknownLabel l => .tuple "UnknownLabel" [l.shown]
  | .alreadyResolved => .atom "AlreadyResolved"
  | .selfLoop a => .tuple "SelfLoop" [a.shown]
  | .outOfRange s d limit =>
    .record "JumpOutOfRange" [("from", s.shown), ("to", d.shown), ("limit", .nat limit)]

end LinkError

/-- The sentence for settings that are refused. -/
def invalidSettingsMessage (reason : String) : String := "Invalid config: " ++ reason

namespace LinkFailure

/-- The failure as a sentence. -/
def message : LinkFailure → String
  | .link e => e.message
  | .invalidSettings reason => invalidSettingsMessage reason

end LinkFailure

end Invalidation
