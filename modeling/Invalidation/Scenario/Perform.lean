import Invalidation.Scenario.Session
import Invalidation.Settings.Json

/-! What a step does. A step looks its objects up first, in the order in which it names them; the
    first that is missing, taken or on loan is its answer, and nothing happens. Then it either has a
    result at once or makes one call of the library.

        names ──▶ trouble
          └────▶ result at once
          └────▶ call ──▶ result, failure, panic, or waiting -/

namespace Invalidation

namespace Scenario

/-- What a step comes to once its names are known. -/
inductive Action where
  /-- A result at once, and nothing of the library has changed. -/
  | result (session : Session) (result : Result)
  /-- A call of the library. -/
  | call (session : Session) (caller : Caller) (call : Call)

namespace Session

/-- A result at once. -/
def yields (s : Session) (r : Result) : Action := .result s r

/-- A call of the library after which the step has no more to do. -/
def calls (s : Session) (c : Call) : Action := .call s {} c

/-- A new identity. -/
def issue (s : Session) : Session × Nat := ({ s with fresh := s.fresh + 1 }, s.fresh)

/-- The settings that a runtime opens with. -/
def readSettings : Option Json → Except Trouble Settings
  | none => .ok {}
  | some v =>
    match Settings.ofJson v with
    | .ok settings => .ok settings
    | .error m => .error (.json m)

/-! ### Recorders and link buffers -/

/-- What a recorder has to tell. -/
def recorderReport (redirects : List (Address × Address)) (source : Option Address) : RecorderReport :=
  ⟨redirects, source.map fun a => redirects.countP (·.1 = a)⟩

/-- A recorder with its parts named. -/
def recorderShown (redirects : List (Address × Address)) : Shown :=
  .record "RecordingPatcher"
    [("redirects", .record "RefCell"
      [("value", .list (redirects.map fun p => .tuple "" [p.1.shown, p.2.shown]))])]

/-! ### Steps that make something -/

/-- Opens a runtime. -/
def openRuntime (s : Session) (name : String) (patcher : PatcherName) (settings : Option Json) :
    Except Trouble Action := do
  unused s.runtimes name
  let p ← s.findPatcher patcher
  let settings ← readSettings settings
  let (s, r) := s.issue
  return .call s { closing := .nameRuntime name r } (.openRuntime r p settings)

/-- Makes a watchpoint. -/
def makeWatchpoint (s : Session) (name : String) (source destination : Label) (home : Home) :
    Except Trouble Action := do
  unused s.watchpoints name
  let (t, w) := s.issue
  let t := { t with watchpoints := t.watchpoints.put name w }
  match home with
  | .runtime runtime =>
    let r ← find s.runtimes runtime
    return t.calls (.create w r source destination)
  | .alone patcher =>
    let p ← s.findPatcher patcher
    return t.calls (.createAlone w p source destination)

/-- Makes a watchpoint on a recorder and resolves it against the standard buffer. -/
def makeResolved (s : Session) (name recorder : String) (source destination : Label) :
    Except Trouble Action := do
  unused s.watchpoints name
  let p ← s.findPatcher (.recorder recorder)
  let (s, w) := s.issue
  let s := { s with world := (s.world.begin (.createAlone w p source destination)).world }
  return .call s { buffer := .fixed .standard, closing := .nameResolved name w } (.resolve w)

/-- Makes a set. -/
def makeSet (s : Session) (name : String) (mode : InitialMode) (runtime : Option String) :
    Except Trouble Action := do
  unused s.handles name
  let _ ← findOptional s.runtimes runtime
  let (s, h) := s.issue
  return ({ s with handles := s.handles.put name h } : Session).calls (.newSet h mode)

/-- Makes another handle on a set. -/
def cloneHandle (s : Session) (copy set : String) : Except Trouble Action := do
  unused s.handles copy
  let h ← find s.handles set
  let (s, k) := s.issue
  return ({ s with handles := s.handles.put copy k } : Session).calls (.cloneHandle h k)

/-- Makes a slot. -/
def makeSlot (s : Session) (name : String) (mode : InitialMode) (runtime : Option String) :
    Except Trouble Action := do
  unused s.slots name
  let _ ← findOptional s.runtimes runtime
  let (s, i) := s.issue
  return ({ s with slots := s.slots.put name i } : Session).calls (.newSlot i mode)

/-! ### Steps that let something go -/

/-- Drops a watchpoint; its name is free again at once. -/
def dropWatchpoint (s : Session) (name : String) : Except Trouble Action := do
  let w ← find s.watchpoints name
  s.notLent (.watchpoint w) name
  return ({ s with watchpoints := s.watchpoints.erase name } : Session).calls (.dropWatchpoint w)

/-- Drops a handle; its name is free again at once. -/
def dropHandle (s : Session) (name : String) : Except Trouble Action := do
  let h ← find s.handles name
  s.notLent (.handle h) name
  return ({ s with handles := s.handles.erase name } : Session).calls (.dropHandle h)

/-- Drops a slot; its name is free again at once. -/
def dropSlot (s : Session) (name : String) : Except Trouble Action := do
  let i ← s.freeSlot name
  return ({ s with slots := s.slots.erase name } : Session).calls (.dropSlot i)

/-- Drops a runtime; its watchpoints go on working. -/
def dropRuntime (s : Session) (name : String) : Except Trouble Action := do
  let _ ← find s.runtimes name
  return ({ s with runtimes := s.runtimes.erase name } : Session).yields .nothing

/-! ### Steps on one set or slot -/

/-- The set that the handle of that name has a share in. -/
def findSet (s : Session) (name : String) : Except Trouble SetId := do
  let h ← find s.handles name
  match s.world.handleSet? h with
  | some t => return t
  | none => .error (.noSuch name)

/-- A call on the handle of that name. -/
def onHandle (s : Session) (name : String) (c : HandleId → Call) : Except Trouble Action := do
  let h ← find s.handles name
  return s.calls (c h)

/-- A call on the slot of that name. -/
def onSlot (s : Session) (name : String) (c : SlotId → Call) : Except Trouble Action := do
  let i ← s.freeSlot name
  return s.calls (c i)

/-- Makes sure that a slot has a set, reports it and, if asked to, names a handle on it. -/
def reportSlotSet (s : Session) (name : String) (copy : Option String) (c : SlotId → Call) :
    Except Trouble Action := do
  let i ← s.freeSlot name
  match copy with
  | some k => unused s.handles k
  | none => pure ()
  return .call s { closing := .reportSet i copy } (c i)

/-! ### All steps -/

/-- What a step comes to. -/
def action (s : Session) : Step → Except Trouble Action
  | .patcher name reactions => do
    unused s.patchers name
    return { s with patchers := s.patchers.put name { reactions := reactions } }.yields .nothing
  | .buffer name labels reactions => do
    unused s.buffers name
    return { s with buffers := s.buffers.put name ({ reactions := reactions }, labels) }.yields .nothing
  | .recorder name => do
    unused s.recorders name
    return { s with recorders := s.recorders.put name [] }.yields .nothing
  | .recorderInfo recorder source => do
    return s.yields (.recorder (recorderReport (← find s.recorders recorder) source))
  | .recorderDebug recorder pretty => do
    return s.yields (.text ((recorderShown (← find s.recorders recorder)).render pretty))
  | .fixed name labels => do
    unused s.fixed name
    return { s with fixed := s.fixed.put name labels }.yields .nothing
  | .resolveFixed watchpoint buffer => do
    let w ← find s.watchpoints watchpoint
    let labels ← find s.fixed buffer
    return .call s { buffer := .fixed labels } (.resolve w)
  | .resolvedWatchpoint name recorder source destination =>
    s.makeResolved name recorder source destination
  | .address label => return s.yields (.text (LinkBuffer.standardAddress label).text)
  | .modes => return s.yields (.texts (InitialMode.all.map InitialMode.text))
  | .runtime name patcher settings => s.openRuntime name patcher settings
  | .runtimeStats runtime => do
    return s.yields (.counters (s.world.context (.ofRuntime (← find s.runtimes runtime))).counters)
  | .runtimeConfig runtime => do
    return s.yields (.settings (s.world.context (.ofRuntime (← find s.runtimes runtime))).settings)
  | .runtimeDebug runtime pretty => do
    return s.yields
      (.text ((s.world.context (.ofRuntime (← find s.runtimes runtime))).shown.render pretty))
  | .runtimeDrop runtime => s.dropRuntime runtime
  | .watchpoint name source destination home => s.makeWatchpoint name source destination home
  | .resolve watchpoint buffer => do
    let w ← find s.watchpoints watchpoint
    let _ ← find s.buffers buffer
    return .call s { buffer := .scripted buffer } (.resolve w)
  | .fire watchpoint => do return s.calls (.fire (← find s.watchpoints watchpoint))
  | .register watchpoint set => do
    let w ← find s.watchpoints watchpoint
    s.onHandle set fun h => .add h (some w)
  | .watchpointInfo watchpoint => do
    return s.yields (.watchpoint (s.world.watchpoint (← find s.watchpoints watchpoint)).report)
  | .watchpointDebug watchpoint pretty => do
    return s.yields (.text ((s.world.watchpoint (← find s.watchpoints watchpoint)).shown.render pretty))
  | .watchpointDrop watchpoint => s.dropWatchpoint watchpoint
  | .set name mode runtime => s.makeSet name mode runtime
  | .add set watchpoint => do
    let h ← find s.handles set
    let w ← findOptional s.watchpoints watchpoint
    return s.calls (.add h w)
  | .startWatching set => s.onHandle set .startWatching
  | .notifyWrite set => s.onHandle set .notifyWrite
  | .fireAll set => s.onHandle set .fireAll
  | .setInfo set => do return s.yields (.set (s.world.setReport (← s.findSet set)))
  | .setDebug set pretty =>
    do return s.yields (.text ((s.world.setShown (← s.findSet set)).render pretty))
  | .setClone copy set => s.cloneHandle copy set
  | .setSame set other => do
    let t ← s.findSet set
    let u ← s.findSet other
    return s.yields (.truth (t = u))
  | .setDrop set => s.dropHandle set
  | .slot name mode runtime => s.makeSlot name mode runtime
  | .slotAdd watchpoint slot => do
    let w ← findOptional s.watchpoints watchpoint
    s.onSlot slot fun i => .slotAdd i w
  | .slotStartWatching slot => s.onSlot slot .slotStartWatching
  | .slotNotifyWrite slot => s.onSlot slot .slotNotifyWrite
  | .slotFreeFat slot => s.onSlot slot .freeFat
  | .slotInflate slot copy => s.reportSlotSet slot copy .inflate
  | .slotPromote slot copy => s.reportSlotSet slot copy .promote
  | .slotInfo slot => do return s.yields (.slot (s.world.slotReport (← s.freeSlot slot)))
  | .slotDebug slot pretty =>
    do return s.yields (.text ((s.world.slotShown (← s.freeSlot slot)).render pretty))
  | .slotDrop slot => s.dropSlot slot
  | .panic message => .error (.panic message)

/-- Performs a step: it is over, or its call waits. -/
def perform (s : Session) (step : Step) : Session :=
  match s.action step with
  | .error trouble => s.deliver (.error trouble) []
  | .ok (.result s r) => s.deliver (.ok r) []
  | .ok (.call s caller c) => s.call caller c

/-! ### A whole script -/

/-- Does one thing: answers the innermost waiting call, or performs the next step of its reaction, or
    performs the next step of the program. -/
def advance (s : Session) : Session :=
  match s.stack with
  | [] =>
    match s.program with
    | [] => s
    | step :: rest => { s with program := rest }.perform step
  | a :: below =>
    match a.script with
    | [] => { s with stack := below }.answer a
    | .panic message :: _ => { s with stack := below }.fail a message
    | step :: rest => { s with stack := { a with script := rest } :: below }.perform step

/-- Whether there is nothing left to do. -/
def isOver (s : Session) : Bool := s.stack.isEmpty && s.program.isEmpty

/-- Does at most so many things. -/
def run : Nat → Session → Session
  | 0, s => s
  | fuel + 1, s => if s.isOver then s else run fuel s.advance

end Session

/-- A script and what is wanted of it. -/
structure Script where
  steps : List Step
  /-- Log events are wanted. -/
  logged : Bool := false
  /-- A snapshot after every step is wanted. -/
  observed : Bool := false

namespace Script

/-- The script about to begin. -/
def session (p : Script) : Session := { logged := p.logged, observed := p.observed, program := p.steps }

/-- How many things a script can have to do at most: every step is performed once, makes one call at
    most, and a call waits as often as it fires a watchpoint. A watchpoint that fires uses up its
    registration, unless a step of the reaction did so before. -/
def bound (p : Script) : Nat := 16 * (stepsSize p.steps + 1)

/-- The answers to the steps of a script, in order. -/
def answers (p : Script) : List (Answer × Option Snapshot) := (p.session.run p.bound).answers.reverse

end Script

end Scenario

end Invalidation
