import Invalidation.Code.Link
import Invalidation.Text.Shown

/-! The settings of a runtime: whether every redirect is traced, and which jumps may be linked. A
    setting that nobody chose has its default; settings are in force only once they are valid. -/

namespace Invalidation

/-- What happens beside the patch when a watchpoint fires. -/
structure Firing where
  /-- Every redirect leaves a trace event. -/
  traceRedirects : Bool := false
  deriving DecidableEq, Inhabited

/-- The rules that a jump is held to when it is linked. -/
structure Linking where
  /-- A jump of an instruction onto itself is refused. -/
  rejectSelfLoops : Bool := true
  /-- The longest jump in bytes; the default is the reach of a signed 32-bit displacement. -/
  maxJumpDistance : UInt64 := 2147483647
  deriving DecidableEq, Inhabited

/-- The settings of a runtime. -/
structure Settings where
  firing : Firing := {}
  linking : Linking := {}
  deriving DecidableEq, Inhabited

namespace Firing

/-- There is nothing to refuse about firing. -/
def validate (_ : Firing) : Except String Unit := .ok ()

/-- The firing settings with their parts named. -/
def shown (f : Firing) : Shown := .record "FiringConfig" [("trace_redirects", .bool f.traceRedirects)]

end Firing

namespace Linking

/-- A longest jump of no bytes is refused. -/
def validate (l : Linking) : Except String Unit :=
  if l.maxJumpDistance = 0 then .error "linking.max_jump_distance must be greater than 0" else .ok ()

/-- Holds a jump to the rules: first the self-loop, then the distance. -/
def checkJump (l : Linking) (source destination : Address) : Except LinkError Unit :=
  if l.rejectSelfLoops && source == destination then .error (.selfLoop source)
  else if source.distance destination > l.maxJumpDistance.toNat then
    .error (.outOfRange source destination l.maxJumpDistance.toNat)
  else .ok ()

/-- The linking settings with their parts named. -/
def shown (l : Linking) : Shown :=
  .record "LinkingConfig"
    [("reject_self_loops", .bool l.rejectSelfLoops),
      ("max_jump_distance", .nat l.maxJumpDistance.toNat)]

end Linking

namespace Settings

/-- Settings that every part accepts, or the first reason against them. -/
def validate (s : Settings) : Except String Settings := do
  s.firing.validate
  s.linking.validate
  return s

/-- The settings with their parts named. -/
def shown (s : Settings) : Shown :=
  .record "WatchpointConfig" [("firing", s.firing.shown), ("linking", s.linking.shown)]

end Settings

end Invalidation
