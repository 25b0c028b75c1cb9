import Invalidation.Flags
import Invalidation.Settings.Basic

/-! What the library reports beside its answers: one event for every thing worth knowing, with a
    level, a sentence and the values that belong to it. -/

namespace Invalidation

/-- One thing worth knowing. -/
inductive LogEvent where
  | runtimeReady (settings : Settings)
  | redirecting (source destination : Address)
  | resolved (sourceLabel destinationLabel : Label) (source destination : Address)
  | droppedWhileRegistered (source destination : Location)
  | addedAfterInvalidation (source destination : Location)
  | sweepFinished (fired : Nat)
  | promoted (flags : Flags)
  | released (flags : Flags) (shared : Bool)
  deriving DecidableEq

/-- How much an event matters, from most to least. -/
inductive LogLevel where
  | warn | info | debug | trace
  deriving DecidableEq

/-- A value that belongs to an event. -/
inductive LogValue where
  | text (value : String)
  | count (value : Nat)
  | truth (value : Bool)
  deriving DecidableEq

namespace LogLevel

/-- The level in capitals. -/
def text : LogLevel → String
  | .warn => "WARN"
  | .info => "INFO"
  | .debug => "DEBUG"
  | .trace => "TRACE"

end LogLevel

namespace LogEvent

/-- The level of an event. -/
def level : LogEvent → LogLevel
  | .runtimeReady _ => .info
  | .addedAfterInvalidation _ _ => .warn
  | .redirecting _ _ | .droppedWhileRegistered _ _ => .trace
  | .resolved _ _ _ _ | .sweepFinished _ | .promoted _ | .released _ _ => .debug

/-- The sentence of an event. -/
def message : LogEvent → String
  | .runtimeReady _ => "watchpoint runtime initialized"
  | .redirecting _ _ => "redirecting watchpoint"
  | .resolved _ _ _ _ => "watchpoint locations resolved"
  | .droppedWhileRegistered _ _ => "watchpoint dropped while registered, unlinking without firing"
  | .addedAfterInvalidation _ _ =>
    "watchpoint added to an invalidated set, it will not fire until the next notify_write or drop"
  | .sweepFinished _ => "watchpoint set fired all watchpoints"
  | .promoted _ => "inline watchpoint set promoted"
  | .released _ _ => "releasing fat inline watchpoint set"

/-- The values of an event, by name. -/
def fields : LogEvent → List (String × LogValue)
  | .runtimeReady s => [("config", .text s.shown.compact)]
  | .redirecting s d => [("source", .text s.text), ("destination", .text d.text)]
  | .resolved ls ld s d =>
    [("source_label", .text ls.text), ("destination_label", .text ld.text), ("source", .text s.text),
      ("destination", .text d.text)]
  | .droppedWhileRegistered s d => [("source", .text s.text), ("destination", .text d.text)]
  | .addedAfterInvalidation s d => [("source", .text s.text), ("destination", .text d.text)]
  | .sweepFinished n => [("fired", .count n)]
  | .promoted f => [("flags", .text f.shown.compact)]
  | .released f shared => [("flags", .text f.shown.compact), ("shared", .truth shared)]

end LogEvent

end Invalidation
