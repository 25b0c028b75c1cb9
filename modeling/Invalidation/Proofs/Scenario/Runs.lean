import Invalidation.Proofs.Run.Sound
import Invalidation.Proofs.Scenario.Steps

/-! Scripts are runs. Whatever a script does, it does by transitions of the library, and it keeps to the
    rules of the surroundings; so what is true of all runs is true of all scripts.

        session ──advance──▶ session
           │                    │
        moment ──transitions──▶ moment -/

namespace Invalidation

namespace Scenario

namespace Session

variable {s : Session}

theorem reached_perform (h : s.Proper) (step : Step) : (s.perform step).ReachedFrom s.moment := by
  unfold perform
  cases ha : s.action step with
  | error trouble => exact (ReachedFrom.self h).deliver _ _
  | ok a =>
    cases leads_action h ha with
    | result hp same => exact same ▸ (ReachedFrom.self hp).deliver _ _
    | call run _ permitted ho fits => exact (reached_call permitted ho fits).after run

/-- How far a reaction has come does not show in the library. -/
theorem moment_react {a : Activation} {below : List Activation} (top : s.stack = a :: below)
    (rest : List Step) : moment { s with stack := { a with script := rest } :: below } = s.moment := by
  rw [moment, moment, top]
  rfl

theorem proper_react {a : Activation} {below : List Activation} (h : s.Proper)
    (top : s.stack = a :: below)
    (rest : List Step) : Proper { s with stack := { a with script := rest } :: below } := by
  unfold Proper waits at h ⊢
  rw [top] at h
  exact h

/-- What a script does next, one rule for each kind of thing. -/
inductive Proceeds (s : Session) : Session → Prop where
  | finished (top : s.stack = []) (next : s.program = []) : s.Proceeds s
  | step {step : Step} {rest : List Step} (top : s.stack = []) (next : s.program = step :: rest) :
      s.Proceeds (perform { s with program := rest } step)
  | answer {a : Activation} {below : List Activation} (top : s.stack = a :: below)
    (next : a.script = []) :
      s.Proceeds (answer { s with stack := below } a)
  | fail {a : Activation} {below : List Activation} {message : String} {rest : List Step}
      (top : s.stack = a :: below) (next : a.script = .panic message :: rest) :
      s.Proceeds (fail { s with stack := below } a message)
  | react {a : Activation} {below : List Activation} {step : Step} {rest : List Step}
      (top : s.stack = a :: below) (next : a.script = step :: rest) :
      s.Proceeds (perform { s with stack := { a with script := rest } :: below } step)

theorem proceeds_advance (s : Session) : s.Proceeds s.advance := by
  unfold advance
  split
  · next top =>
    split
    · next next => exact .finished top next
    · next next => exact .step top next
  · next top =>
    split
    · next next => exact .answer top next
    · next next => exact .fail top next
    · next next => exact .react top next

/-- Whatever a script does next, it does by transitions of the library. -/
theorem reached_advance (h : s.Proper) : s.advance.ReachedFrom s.moment := by
  have hnext := proceeds_advance s
  generalize s.advance = s' at hnext
  cases hnext with
  | finished => exact .self h
  | @step step rest => exact reached_perform (s := { s with program := rest }) h step
  | answer top =>
    obtain ⟨_, _, he, hresumes, -⟩ := resumes_answer top
    exact he ▸ reached_resume h hresumes
  | fail top => exact reached_resume h (resumes_fail top _)
  | react top => exact moment_react top _ ▸ reached_perform (proper_react h top _) _

theorem reached_run (fuel : Nat) (h : s.Proper) : (s.run fuel).ReachedFrom s.moment := by
  induction fuel generalizing s with
  | zero => exact .self h
  | succ fuel ih =>
    rw [run]
    split
    · exact .self h
    · obtain ⟨⟨ts, hfirst⟩, hp⟩ := reached_advance h
      exact (ih hp).after hfirst

end Session

/-- Whatever a script has done so far, it is a run of the library. -/
theorem Script.exists_run (p : Script) (fuel : Nat) : ∃ ts, Run {} ts (p.session.run fuel).moment :=
  (Session.reached_run fuel (Session.proper_empty p)).1

/-- However far a script has come, its lists and watchpoints go together. -/
theorem Script.sound (p : Script) (fuel : Nat) : (p.session.run fuel).moment.Sound := by
  obtain ⟨_, hrun⟩ := p.exists_run fuel
  exact hrun.sound Moment.sound_empty

end Scenario

end Invalidation
