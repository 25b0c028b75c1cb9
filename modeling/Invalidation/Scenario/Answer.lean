import Invalidation.World.Report
import Invalidation.World.Turn

/-! What a script gets back: for every step a result or the reason why there is none, and what
    happened meanwhile. A step that ran inside another one is one of the things that happened. -/

namespace Invalidation

namespace Scenario

/-- What a recorder has to tell: the jumps it installed, and how many of them started at one address. -/
structure RecorderReport where
  redirects : List (Address × Address)
  times : Option Nat
  deriving DecidableEq

/-- The result of a step. -/
inductive Result where
  | nothing
  | text (value : String)
  | texts (values : List String)
  | truth (value : Bool)
  | recorder (report : RecorderReport)
  | counters (value : Counters)
  | settings (value : Settings)
  | watchpoint (report : WatchpointReport)
  | set (report : SetReport)
  | slot (report : SlotReport)
  deriving DecidableEq

/-- Why a step has no result. -/
inductive Trouble where
  /-- The jump cannot be linked. -/
  | link (error : LinkError)
  /-- Settings are refused. -/
  | invalidSettings (reason : String)
  /-- Settings could not be read. -/
  | json (message : String)
  /-- The library, or whoever it asked, failed. -/
  | panic (message : String)
  /-- There is no object of that name. -/
  | noSuch (name : String)
  /-- There is an object of that name already. -/
  | nameTaken (name : String)
  /-- A step that is still running has the object on loan. -/
  | busy (name : String)
  deriving DecidableEq

/-- How a step ended. -/
abbrev Outcome : Type := Except Trouble Result

mutual

/-- What happened during a step. -/
inductive Event where
  /-- A scripted patcher was asked to install a jump. -/
  | patch (patcher : String) (source destination : Address)
  /-- A scripted link buffer was asked for a label. -/
  | ask (buffer : String) (label : Label)
  /-- A step of a reaction ran. -/
  | step (answer : Answer)
  /-- The library reported something. -/
  | log (event : LogEvent)

/-- The answer to a step. -/
inductive Answer where
  | mk (outcome : Except Trouble Result) (events : List Event)

end

/-- What can be seen of every named object between two steps. -/
structure Snapshot where
  runtimes : List (String × Counters)
  watchpoints : List (String × WatchpointReport)
  sets : List (String × SetReport)
  slots : List (String × SlotReport)

namespace Trouble

/-- The trouble that a failed call of the library is. -/
def ofFailure : LinkFailure → Trouble
  | .link e => .link e
  | .invalidSettings reason => .invalidSettings reason

/-- The trouble as a sentence, or the name of the object that it is about. -/
def message : Trouble → String
  | .link e => e.message
  | .invalidSettings reason => invalidSettingsMessage reason
  | .json m => m
  | .panic m => m
  | .noSuch n => n
  | .nameTaken n => n
  | .busy n => n

end Trouble

end Scenario

end Invalidation
