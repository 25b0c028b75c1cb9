import Invalidation.Settings.Json
import Invalidation.Settings.Load

/-! A script for the settings: steps that load them, override them, check them, or change the
    environment that the next step loads from. A step that fails leaves the settings as they were, and
    the next step follows; only a key without a place ends the script, and then it has no answers.

    Every step that loads walks the keys of its sources as they are written. -/

namespace Invalidation

namespace Settings

/-- One step of a script for the settings. -/
inductive Step where
  /-- Loads the settings afresh. -/
  | new
  /-- Goes back to the default. -/
  | default
  /-- Loads over the settings so far. -/
  | override (file : String)
  | validate
  /-- Sets environment variables, or takes them away. -/
  | environment (changes : List (String × Option String))
  /-- Takes over settings in their JSON form. -/
  | set (value : Json)

/-- Why a step has no settings to show. -/
inductive Trouble where
  | load (error : LoadError)
  | invalid (reason : String)
  | json (message : String)

/-- Whether a script ends at the trouble. -/
def Trouble.endsScript : Trouble → Bool
  | .load (.noPlace _) => true
  | _ => false

/-- The environment after a change to one of its variables; one that is there keeps its place. -/
def changeVariable (env : Store String String) (change : String × Option String) :
    Store String String :=
  match change.2 with
  | some value => env.put change.1 value
  | none => env.erase change.1

/-- The settings that a step comes to, and the sources for the next step. -/
def perform (s : Settings) (sources : Sources) : Step → Except Trouble Settings × Sources
  | .new => ((load sources {}).mapError .load, sources)
  | .default => (.ok {}, sources)
  | .override file => ((s.override sources file {}).mapError .load, sources)
  | .validate => (s.validate.mapError .invalid, sources)
  | .environment changes => (.ok s, { sources with env := changes.foldl changeVariable sources.env })
  | .set v => ((ofJson v).mapError .json, sources)

/-- The answers to the steps of a script, from some settings and sources on. -/
def answersFrom (s : Settings) (sources : Sources) :
    List Step → Except Trouble (List (Except Trouble Settings))
  | [] => .ok []
  | step :: rest =>
    match s.perform sources step with
    | (.ok t, sources) => do return .ok t :: (← answersFrom t sources rest)
    | (.error e, sources) =>
      if e.endsScript then .error e else do return .error e :: (← answersFrom s sources rest)

/-- The answers to the steps of a script that begins with the default settings. -/
def answers (sources : Sources) (steps : List Step) : Except Trouble (List (Except Trouble Settings)) :=
  answersFrom {} sources steps

end Settings

end Invalidation
