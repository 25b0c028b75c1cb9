import Invalidation.Scenario.Answer
import Invalidation.Scenario.Step
import Invalidation.World.Call

/-! A script in progress. The library is a `World` between two turns; a session adds the names that
    the script uses for its objects, the scripted patchers and link buffers with the number of calls
    they have had, and the calls that wait for an answer, innermost first.

        program ─▶ step ─▶ call ─▶ waiting ┐        ┌─▶ answer
                                           │        │
                         reaction ─▶ step ─▶ call ──┘   (any number of levels)

    An `Activation` is one waiting call together with the step that made it: what has happened during
    that step so far, and what is left of the reaction that runs before the call is answered. -/

namespace Invalidation

namespace Scenario

/-- A scripted patcher or link buffer: how often it was called and what it does then. -/
structure Reactor where
  calls : Nat := 0
  reactions : List (Nat × List Step) := []
  deriving Inhabited

/-- Which link buffer a call asks. -/
inductive BufferName where
  | scripted (name : String)
  | fixed (labels : LinkBuffer)
  deriving Inhabited

/-- What a step makes of the end of its call. -/
inductive Closing where
  /-- Nothing: the step has no result. -/
  | nothing
  /-- Reports the set of a slot and, if asked to, names a new handle on it. -/
  | reportSet (slot : SlotId) (copy : Option String)
  /-- Names a runtime once it is open. -/
  | nameRuntime (name : String) (runtime : RuntimeId)
  /-- Names a watchpoint once it is resolved, and fails if it cannot be. -/
  | nameResolved (name : String) (watchpoint : WatchpointId)
  deriving Inhabited

/-- The step that made a call, as far as it matters until the call is over. -/
structure Caller where
  loan : Loan := .nothing
  buffer : BufferName := default
  closing : Closing := .nothing
  /-- What happened during the step so far, the latest in front. -/
  events : List Event := []
  deriving Inhabited

/-- A call that waits for an answer. -/
structure Activation where
  pending : Pending
  caller : Caller
  /-- What is left of the reaction that runs before the answer. -/
  script : List Step

/-- A script in progress. -/
structure Session where
  world : World := {}
  /-- Log events are wanted. -/
  logged : Bool := false
  /-- A snapshot after every step of the program is wanted. -/
  observed : Bool := false
  patchers : Store String Reactor := {}
  buffers : Store String (Reactor × LinkBuffer) := {}
  recorders : Store String (List (Address × Address)) := {}
  fixed : Store String LinkBuffer := {}
  runtimes : Store String RuntimeId := {}
  watchpoints : Store String WatchpointId := {}
  handles : Store String HandleId := {}
  slots : Store String SlotId := {}
  /-- The next identity that has not been used. -/
  fresh : Nat := 0
  /-- The calls that wait, innermost first. -/
  stack : List Activation := []
  /-- The steps still to come. -/
  program : List Step := []
  /-- The answers to the steps so far, the latest in front. -/
  answers : List (Answer × Option Snapshot) := []

namespace Session

/-! ### Names -/

/-- The object of that name. -/
def find {α : Type} (names : Store String α) (name : String) : Except Trouble α :=
  match names.get? name with
  | some a => .ok a
  | none => .error (.noSuch name)

/-- Makes sure that nothing has that name yet. -/
def unused {α : Type} (names : Store String α) (name : String) : Except Trouble Unit :=
  if names.contains name then .error (.nameTaken name) else .ok ()

/-- Makes sure that a runtime of that name exists, if one is named. -/
def findOptional {α : Type} (names : Store String α) : Option String → Except Trouble (Option α)
  | none => .ok none
  | some name => do return some (← find names name)

/-- Whether a step that is still running has that on loan. -/
def isLent (s : Session) (l : Loan) : Bool := s.stack.any fun a => a.caller.loan = l

/-- Makes sure that the object of that name is not on loan. -/
def notLent (s : Session) (l : Loan) (name : String) : Except Trouble Unit :=
  if s.isLent l then .error (.busy name) else .ok ()

/-- The slot of that name, unless it is on loan. -/
def freeSlot (s : Session) (name : String) : Except Trouble SlotId := do
  let i ← find s.slots name
  s.notLent (.slot i) name
  return i

/-- Who patches, by name. -/
def findPatcher (s : Session) : PatcherName → Except Trouble PatcherId
  | .scripted name => do
    let _ ← find s.patchers name
    return .scripted name
  | .recorder name => do
    let _ ← find s.recorders name
    return .recorder name

/-! ### What can be seen -/

/-- What can be seen of every named object. -/
def snapshot (s : Session) : Snapshot where
  runtimes := s.runtimes.pairs.map fun (n, r) => (n, (s.world.context (.ofRuntime r)).counters)
  watchpoints := s.watchpoints.pairs.map fun (n, w) => (n, (s.world.watchpoint w).report)
  sets := s.handles.pairs.filterMap fun (n, h) => (s.world.handleSet? h).map fun t =>
    (n, s.world.setReport t)
  slots := s.slots.pairs.map fun (n, i) => (n, s.world.slotReport i)

/-- The library's reports as events, if they are wanted, the latest in front. -/
def logged? (s : Session) (events : List LogEvent) : List Event :=
  if s.logged then (events.map Event.log).reverse else []

/-! ### The end of a step -/

/-- Hands the answer of a step to the step in whose reaction it stands, or to the reader. -/
def deliver (s : Session) (outcome : Outcome) (events : List Event) : Session :=
  let answer := Answer.mk outcome events.reverse
  match s.stack with
  | a :: rest =>
    let caller := { a.caller with events := .step answer :: a.caller.events }
    { s with stack := { a with caller := caller } :: rest }
  | [] => { s with answers := (answer, if s.observed then some s.snapshot else none) :: s.answers }

/-- What a step makes of a call that returned. -/
def close (s : Session) : Closing → Session × Outcome
  | .nothing => (s, .ok .nothing)
  | .reportSet i copy =>
    match s.world.fatSet? i, copy with
    | some t, some name =>
      ({ s with
          world := (s.world.begin (.handleOfSlot i s.fresh)).world
          handles := s.handles.put name s.fresh
          fresh := s.fresh + 1 }, .ok (.set (s.world.setReport t)))
    | some t, none => (s, .ok (.set (s.world.setReport t)))
    | none, _ => (s, .ok .nothing)
  | .nameRuntime name r => ({ s with runtimes := s.runtimes.put name r }, .ok .nothing)
  | .nameResolved name w => ({ s with watchpoints := s.watchpoints.put name w }, .ok .nothing)

/-- What a step makes of a call that failed. -/
def closeFailed (s : Session) (failure : LinkFailure) : Closing → Session × Outcome
  | .nameResolved _ w =>
    let reason :=
      match failure with
      | .link e => Shown.tuple "Link" [e.shown]
      | .invalidSettings reason => Shown.tuple "InvalidConfig" [.atom reason]
    ({ s with world := (s.world.begin (.dropWatchpoint w)).world },
      .error (.panic ("test labels fall inside the code buffer: " ++ reason.compact)))
  | _ => (s, .error (.ofFailure failure))

/-! ### Requests of the library -/

/-- Calls a scripted patcher or link buffer: counts the call and finds its reaction. -/
def Reactor.call (r : Reactor) : Reactor × List Step :=
  ({ r with calls := r.calls + 1 }, ((r.reactions.find? fun p => p.1 = r.calls).map Prod.snd).getD [])

/-- Notes a request, and finds what runs before it is answered. -/
def receive (s : Session) (buffer : BufferName) : Request → Session × List Event × List Step
  | .patch (.recorder name) source destination =>
    ({ s with recorders := s.recorders.modify name (· ++ [(source, destination)]) }, [], [])
  | .patch (.scripted name) source destination =>
    let (r, script) := Reactor.call ((s.patchers.get? name).getD {})
    ({ s with patchers := s.patchers.put name r }, [.patch name source destination], script)
  | .locate label =>
    match buffer with
    | .fixed _ => (s, [], [])
    | .scripted name =>
      let (r, labels) := (s.buffers.get? name).getD default
      let (r, script) := Reactor.call r
      ({ s with buffers := s.buffers.put name (r, labels) }, [.ask name label], script)

/-- What a link buffer answers to a label. -/
def answerOf (s : Session) (buffer : BufferName) (label : Label) : LabelAnswer :=
  match buffer with
  | .fixed labels => labels.locate label
  | .scripted name => ((s.buffers.get? name).getD default).2.locate label

/-! ### Turns of the library -/

/-- Takes a turn of the library to its end: the step is over, or its call waits. -/
def take (s : Session) (caller : Caller) (turn : Turn) : Session :=
  let events := s.logged? turn.events ++ caller.events
  let s := { s with world := turn.world }
  match turn.next with
  | .returned =>
    let (s, outcome) := s.close caller.closing
    s.deliver outcome events
  | .failed failure =>
    let (s, outcome) := s.closeFailed failure caller.closing
    s.deliver outcome events
  | .panicked fault => s.deliver (.error (.panic fault.message)) events
  | .waiting request pending =>
    let (s, more, script) := s.receive caller.buffer request
    { s with stack := ⟨pending, { caller with events := more ++ events }, script⟩ :: s.stack }

/-- Makes a call of the library. -/
def call (s : Session) (caller : Caller) (c : Call) : Session :=
  s.take { caller with loan := c.loan } (s.world.begin c)

/-- The innermost waiting call ends abruptly, because whoever was asked failed. -/
def fail (s : Session) (a : Activation) (message : String) : Session :=
  s.take a.caller ((s.world.unwind a.pending).panic (.foreign message))

/-- Answers the innermost waiting call. -/
def answer (s : Session) (a : Activation) : Session :=
  match a.pending with
  | .patch p => s.take a.caller (s.world.patched p)
  | .locate l =>
    match s.answerOf a.caller.buffer l.asked with
    | .found address => s.take a.caller (s.world.located l (.ok address))
    | .refused failure => s.take a.caller (s.world.located l (.error failure))
    | .failed message => s.fail a message

end Session

end Scenario

end Invalidation
