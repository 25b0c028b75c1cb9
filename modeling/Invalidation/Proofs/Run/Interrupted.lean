import Invalidation.Proofs.Run.Serving
import Invalidation.Proofs.Run.Write

/-! A write that is interrupted. The sweep stops where a watchpoint cannot fire, because it has no
    addresses or because the patcher fails; what the sweep has done until then stays, and it has
    done nothing yet to whoever is still on the list, nor to the flags.

        write           a b │ c d e       c cannot fire: a and b are off the list, c d e are on it
        write again         │ c d e       once c can, c d e are served as if nobody had been before them

    So the second write finds the set as any other, and completes what the first one has begun. -/

namespace Invalidation

/-- What stops a sweep where a watchpoint is to fire: it has no addresses, or its jump fails to be
    installed. -/
inductive Stops (σ : World) (w : WatchpointId) : List Action → Prop where
  | unresolved (labels : ¬ σ.Resolved w) : Stops σ w []
  | failed (addresses : σ.Resolved w) (message : String) : Stops σ w [.failed message]

/-- A write is reported, and the patcher installs so many jumps without making a call. -/
def writing (c : Call) (n : Nat) : List Action := .call c :: List.replicate n .patched

/-- From one moment to another these watchpoints are counted as redirected, and nothing else is
    counted. -/
structure CountsRedirects (k m : Moment) (ws : List WatchpointId) : Prop where
  each : ∀ c, (m.world.context c).counters = { (k.world.context c).counters with
    redirects := (k.world.context c).counters.redirects +
      ws.countP fun v => (k.world.watchpoint v).context = c }
  total : m.world.linkage.redirects = k.world.linkage.redirects + ws.length

/-- What a write has done that was stopped at the watchpoint `w`, behind those that are `served`. -/
structure BrokenOff (s : SetId) (served : List WatchpointId) (w : WatchpointId)
    (rest : List WatchpointId) (k : Moment) (us : List Transition) (m : Moment) : Prop where
  /-- The jumps of those in front have been asked for, each once and in order; then that of the
      watchpoint that stops the sweep, if it has one. -/
  asked : jumps us = (served ++ [w]).filterMap k.world.jumpOf?
  /-- The jumps of those in front have been installed, each once and in order, and no other. -/
  installed : deeds us = served.map .redirects
  /-- The write ends with a panic, and what waited before waits still. -/
  panics : ∃ before last, us = before ++ [last] ∧ (∀ t ∈ before, t.panics = false) ∧ last.panics = true
  ended : m.stack = k.stack
  /-- Whoever has been served is off the list; no watchpoint is otherwise changed, and all others are
      registered in the same order still. -/
  off : ∀ v, m.world.watchpoints.get? v = (k.world.watchpoints.get? v).map fun x =>
    if v ∈ served then { x with membership := none } else x
  still : m.world.queue s = w :: rest
  flags : m.world.flagsOf s = k.world.flagsOf s
  counted : CountsRedirects k m served

/-- What a write has done that was not stopped. -/
structure CarriedOut (s : SetId) (ws : List WatchpointId) (k : Moment) (us : List Transition)
    (m : Moment) : Prop where
  /-- The jumps of all have been asked for and installed, each once and in order. -/
  asked : (jumps us).map some = ws.map k.world.jumpOf?
  installed : deeds us = ws.map .redirects
  returns : ∀ t ∈ us, t.panics = false
  ended : m.stack = k.stack
  off : ∀ v, m.world.watchpoints.get? v = (k.world.watchpoints.get? v).map fun x =>
    if v ∈ ws then { x with membership := none } else x
  drained : m.world.queue s = []
  flags : m.world.flagsOf s = { watched := false, invalidated := true }
  counted : CountsRedirects k m ws

/-- The transition does nothing but resolve. -/
def Transition.OnlyResolves (t : Transition) : Prop :=
  (∃ w, t.action = .call (.resolve w)) ∨ (∃ answer, t.action = .located answer) ∨
    (∃ message, t.action = .failed message) ∧ t.failing? = none

/-- What is true of a write to the set at this moment if it is stopped at `w`, behind those `served`. -/
structure Moment.LosesNothing (k : Moment) (c : Call) (s : SetId) (served : List WatchpointId)
    (w : WatchpointId) (rest : List WatchpointId) (cause : List Action) : Prop where
  /-- The patcher can install the jumps of those in front, and is then stopped. -/
  possible : ∃ us m, Run k us m ∧ us.map Transition.action = writing c served.length ++ cause
  brokenOff : ∀ us m, Run k us m → us.map Transition.action = writing c served.length ++ cause →
    BrokenOff s served w rest k us m
  /-- Whatever is resolved then, everybody stays registered and the flags stay what they are. -/
  kept : ∀ us m, Run k us m → us.map Transition.action = writing c served.length ++ cause →
    ∀ vs k', Run m vs k' → (∀ t ∈ vs, t.OnlyResolves) →
      k'.world.queue s = w :: rest ∧ k'.world.flagsOf s = k.world.flagsOf s
  /-- Once all that are still registered have addresses, another write can be carried out, and it is if
      the patcher does not fail. -/
  completed : ∀ us m, Run k us m → us.map Transition.action = writing c served.length ++ cause →
    ∀ vs k', Run m vs k' → k'.world.queue s = w :: rest → (∀ v ∈ w :: rest, k'.world.Resolved v) →
    ∀ c', k'.world.Writes c' s → k'.permits c' = true →
      (∃ us' m', Run k' us' m' ∧ us'.map Transition.action = writing c' (w :: rest).length) ∧
        ∀ us' m', Run k' us' m' → us'.map Transition.action = writing c' (w :: rest).length →
          CarriedOut s (w :: rest) k' us' m'

variable {σ : World} {k m : Moment} {c : Call} {s : SetId} {v w : WatchpointId}
  {served ws rest : List WatchpointId} {us ts : List Transition} {cause : List Action} {t : Transition}

/-! ### What serving leaves alone -/

namespace World

theorem jumpOf?_serveAll (σ : World) (ws : List WatchpointId) (w : WatchpointId) :
    (σ.serveAll ws).jumpOf? w = σ.jumpOf? w := by
  induction ws generalizing σ with
  | nil => rfl
  | cons v ws ih => exact (ih _).trans (jumpOf?_fired σ v w)

theorem flagsOf_serveAll (there : σ.Exists s) (ws : List WatchpointId) :
    (σ.serveAll ws).flagsOf s = σ.flagsOf s := by
  induction ws generalizing σ with
  | nil => rfl
  | cons v ws ih =>
    have there' : (σ.countRedirect v).Exists s := there
    have e := edits_fired σ v
    exact (ih (e.exists there (by simp [Change.IsEnd]))).trans (flagsOf_unlink v there')

theorem addresses?_of_unresolved (h : ¬ σ.Resolved w) : (σ.watchpoint w).addresses? = none := by
  cases ha : (σ.watchpoint w).addresses? with
  | none => rfl
  | some a =>
    obtain ⟨x, hx⟩ := known_of_addresses ha
    obtain ⟨v, hv, -⟩ := Option.map_eq_some_iff.mp hx
    refine absurd (resolved_iff.mpr ⟨v, hv, ?_⟩) h
    rw [watchpoint, hv, Option.getD_some] at ha
    rw [ha]
    rfl

/-- Whether a watchpoint has addresses makes no difference to the others being served. -/
theorem addresses?_serveAll (σ : World) (ws : List WatchpointId) (w : WatchpointId) :
    ((σ.serveAll ws).watchpoint w).addresses? = (σ.watchpoint w).addresses? := by
  rw [watchpoint, get?_watchpoints_serveAll, watchpoint]
  cases σ.watchpoints.get? w with
  | none => rfl
  | some x =>
    rw [Option.map_some, Option.getD_some, Option.getD_some]
    split <;> rfl

/-- A write to a set that is watched starts a sweep, and nothing else. -/
theorem Writes.begin_of_watched (h : σ.Writes c s) (watched : (σ.flagsOf s).watched = true) :
    σ.begin c = σ.sweepOn ⟨s, 0, .invalidate⟩ := by
  cases h with
  | handle share =>
    simp only [begin, onHandle, share, notifyWrite, watched, if_true]
    rfl
  | slot share =>
    obtain ⟨n, b, hslot⟩ := slot?_of_fatSet? share
    simp only [begin, slotNotifyWrite, hslot, notifyWrite, watched, if_true]
    rfl

theorem Writes.no_deed (h : σ.Writes c s) : c.deed? = none := by
  cases h <;> rfl

end World

/-! ### The run of a write -/

/-- A write serves those in front, one after the other, and then goes on with those behind them. -/
theorem exists_run_writing (hk : k.Linked) (alert : k.world.Alert) (writes : k.world.Writes c s)
    (permitted : k.permits c = true) (hq : k.world.queue s = served ++ rest)
    (registered : served ++ rest ≠ []) (resolved : ∀ v ∈ served, k.world.Resolved v) :
    ∃ us before last, Run k us last.after ∧ us.map Transition.action = writing c served.length ∧
      deeds us = served.map .redirects ∧ us = before ++ [last] ∧ (∀ u ∈ before, u.panics = false) ∧
      (jumps before).map some = served.map k.world.jumpOf? ∧ last.move.below = k.stack ∧
      ∃ events, last.move.turn =
        ((k.world.serveAll served).sweepOn ⟨s, served.length, .invalidate⟩).after events := by
  have hbegin := writes.begin_of_watched (alert s (hq ▸ registered))
  have turn : (k.calling c permitted).move.turn = (k.world.sweepOn ⟨s, 0, .invalidate⟩).after [] := by
    show k.world.begin c = _
    rw [hbegin]
    rfl
  obtain ⟨us, before, last, r, hactions, -, hdeeds, hsplit, hcalm, hjumps, hbelow, events, hlast⟩ :=
    exists_run_serving hk.sound.coherent hq resolved turn
  refine ⟨k.calling c permitted :: us, before, last, .cons rfl r, ?_, ?_, hsplit, hcalm, hjumps, hbelow,
    events, ?_⟩
  · rw [List.map_cons, hactions]
    rfl
  · have hnone : (k.calling c permitted).deed? = none := writes.no_deed
    rw [deeds, List.filterMap_cons_none hnone, ← deeds, hdeeds]
  · rw [hlast, Nat.zero_add]

theorem filterMap_of_map_some {js : List Jump} {f : WatchpointId → Option Jump}
    (h : js.map some = ws.map f) : js = ws.filterMap f := by
  have := congrArg (List.filterMap id) h
  rwa [List.filterMap_map, List.filterMap_map, Function.id_comp, Function.id_comp,
    List.filterMap_some] at this

/-- What the deeds of a run are for is what it counts. -/
theorem countsRedirects_of_deeds (r : Run k us m) (hk : k.Linked)
    (hdeeds : deeds us = ws.map .redirects)
    (known : ∀ v ∈ ws, k.world.Resolved v) : CountsRedirects k m ws := by
  have hredirects : (deeds us).filterMap Deed.redirects? = ws := by
    rw [hdeeds, List.filterMap_map]
    exact List.filterMap_some
  have hmakes : (deeds us).filterMap Deed.makes? = [] := by
    rw [hdeeds, List.filterMap_map, List.filterMap_eq_nil_iff]
    exact fun _ _ => rfl
  have hsettles : (deeds us).filterMap Deed.settles? = [] := by
    rw [hdeeds, List.filterMap_map, List.filterMap_eq_nil_iff]
    exact fun _ _ => rfl
  refine ⟨fun c => ?_, ?_⟩
  · have hcounters := r.counters_eq hk c
    rw [hredirects, hmakes, hsettles] at hcounters
    refine hcounters.trans ?_
    have hcount : (ws.countP fun v => m.world.linkage.contextOf v = c) =
        ws.countP fun v => (k.world.watchpoint v).context = c := by
      refine List.countP_congr fun v hv => ?_
      obtain ⟨a, b, ha⟩ := (known v hv).addresses
      obtain ⟨x, hx⟩ := World.known_of_addresses ha
      rw [r.contextOf_eq hk hx, World.contextOf_linkage]
    rw [hcount]
    rfl
  · rw [r.redirects_eq hk, hredirects]

/-! ### A write that is stopped -/

/-- Whoever waits innermost can be failed. -/
def Moment.failing (m : Moment) {pending : Pending} {loan : Loan} {below : List Waiting}
    (top : m.stack = ⟨pending, loan⟩ :: below) (message : String) : Transition :=
  ⟨m, .failed message, ⟨(m.world.unwind pending).panic (.foreign message), loan, below⟩,
    by simp only [move?, top]⟩

/-- There is a run of the write that is stopped, and in it nothing has happened but that those in
    front have been served. -/
theorem exists_run_stopped (hk : k.Linked) (alert : k.world.Alert) (writes : k.world.Writes c s)
    (permitted : k.permits c = true) (hq : k.world.queue s = served ++ w :: rest)
    (resolved : ∀ v ∈ served, k.world.Resolved v) (stops : Stops k.world w cause) :
    ∃ us m, Run k us m ∧ us.map Transition.action = writing c served.length ++ cause ∧
      BrokenOff s served w rest k us m := by
  obtain ⟨us, before, last, r, hactions, hdeeds, hsplit, hcalm, hjumps, hbelow, events, hlast⟩ :=
    exists_run_writing hk alert writes permitted hq (by simp) resolved
  have hcoherent := hk.sound.coherent
  have there : k.world.Exists s := hcoherent.exists_of_owned writes.owned
  have hqueue := World.queue_serveAll hcoherent hq
  have hfront := (hcoherent.edits (World.edits_serveAll k.world served)).front?_eq s
  rw [hqueue] at hfront
  rw [World.sweepOn_of_front hfront] at hlast
  -- both ways of stopping lead to the world in which those in front have been served
  have brokenOff : ∀ {us m}, Run k us m → m.world = k.world.serveAll served → m.stack = k.stack →
      jumps us = (served ++ [w]).filterMap k.world.jumpOf? → deeds us = served.map .redirects →
      (∃ before last, us = before ++ [last] ∧ (∀ t ∈ before, t.panics = false) ∧ last.panics = true) →
      BrokenOff s served w rest k us m := by
    intro us m r hworld hstack hasked hdeeds hpanics
    refine ⟨hasked, hdeeds, hpanics, hstack, fun v => ?_, ?_, ?_,
      countsRedirects_of_deeds r hk hdeeds resolved⟩
    · rw [hworld, World.get?_watchpoints_serveAll]
    · rw [hworld, hqueue]
    · rw [hworld, World.flagsOf_serveAll there]
  cases stops with
  | unresolved labels =>
    have haddresses := World.addresses?_of_unresolved labels
    have hsame := (World.addresses?_serveAll k.world served w).trans haddresses
    rw [World.fire_of_unresolved hsame] at hlast
    have hnext : ∃ fault, last.move.turn.next = .panicked fault := ⟨_, by rw [hlast]; rfl⟩
    obtain ⟨fault, hnext⟩ := hnext
    refine ⟨us, last.after, r, by rw [hactions, List.append_nil], brokenOff r ?_ ?_ ?_ hdeeds ?_⟩
    · rw [Transition.after, Move.after, hlast]
      rfl
    · rw [Transition.after, Move.after, hnext, hbelow]
    · have hnone : k.world.jumpOf? w = none := by rw [World.jumpOf?, haddresses, Option.map_none]
      rw [hsplit, jumps_append, jumps_singleton, filterMap_of_map_some hjumps, List.filterMap_append]
      simp [Transition.jump?, hnext, hnone]
    · exact ⟨before, last, hsplit, hcalm, by rw [Transition.panics, hnext]⟩
  | failed addresses message =>
    obtain ⟨source, destination, haddresses⟩ := addresses.addresses
    have hsame := (World.addresses?_serveAll k.world served w).trans haddresses
    rw [World.fire_of_resolved hsame] at hlast
    have hnext : last.move.turn.next = .waiting (.patch ((k.world.serveAll served).contextOf w).patcher
        source destination) (.patch ⟨w, some ⟨s, served.length, .invalidate⟩⟩) := by rw [hlast]; rfl
    have hworld : last.after.world = k.world.serveAll served := by
      rw [Transition.after, Move.after, hlast]
      rfl
    have hstack : last.after.stack =
        ⟨.patch ⟨w, some ⟨s, served.length, .invalidate⟩⟩, last.move.loan⟩ :: k.stack := by
      rw [Transition.after, Move.after, hnext, hbelow]
    have hjump : last.jump? = k.world.jumpOf? w := by
      rw [← World.jumpOf?_serveAll k.world served w, World.jumpOf?, hsame, Transition.jump?, hnext]
      rfl
    let f := last.after.failing hstack message
    have hrun : Run k (us ++ [f]) f.after := r.append (.cons rfl (.nil _))
    refine ⟨us ++ [f], f.after, hrun, ?_, brokenOff hrun hworld rfl ?_ ?_ ?_⟩
    · rw [List.map_append, hactions]
      rfl
    · obtain ⟨j, hj⟩ : ∃ j, k.world.jumpOf? w = some j := ⟨_, by rw [World.jumpOf?, haddresses]; rfl⟩
      rw [hsplit, jumps_append, jumps_append, jumps_singleton, jumps_singleton, hjump, hj,
        filterMap_of_map_some hjumps, List.filterMap_append, List.filterMap_cons_some hj]
      exact List.append_nil _
    · rw [deeds, List.filterMap_append, ← deeds, hdeeds]
      exact List.append_nil _
    · refine ⟨us, f, rfl, fun u hu => ?_, rfl⟩
      rw [hsplit] at hu
      rcases List.mem_append.mp hu with hu | hu
      · exact hcalm u hu
      · rw [List.mem_singleton.mp hu, Transition.panics, hnext]

/-! ### A write that is carried out -/

theorem exists_run_carriedOut (hk : k.Linked) (alert : k.world.Alert) (writes : k.world.Writes c s)
    (permitted : k.permits c = true) (hq : k.world.queue s = ws) (registered : ws ≠ [])
    (resolved : ∀ v ∈ ws, k.world.Resolved v) :
    ∃ us m, Run k us m ∧ us.map Transition.action = writing c ws.length ∧ CarriedOut s ws k us m := by
  have hall : k.world.queue s = ws ++ [] := by rw [hq, List.append_nil]
  obtain ⟨us, before, last, r, hactions, hdeeds, hsplit, hcalm, hjumps, hbelow, events, hlast⟩ :=
    exists_run_writing hk alert writes permitted hall (by simpa using registered) resolved
  have hcoherent := hk.sound.coherent
  have there : (k.world.serveAll ws).Exists s :=
    (World.edits_serveAll k.world ws).exists (hcoherent.exists_of_owned writes.owned)
      (by simp [Change.IsEnd])
  have hqueue := World.queue_serveAll hcoherent hall
  have hfront := (hcoherent.edits (World.edits_serveAll k.world ws)).front?_eq s
  rw [hqueue] at hfront
  rw [World.sweepOn_of_drained hfront] at hlast
  have hnext : last.move.turn.next = .returned := by rw [hlast]; rfl
  have hworld : last.after.world = (k.world.serveAll ws).finish s .invalidate := by
    rw [Transition.after, Move.after, hlast]
    rfl
  refine ⟨us, last.after, r, hactions, ?_, hdeeds, fun u hu => ?_, ?_, fun v => ?_, ?_, ?_,
    countsRedirects_of_deeds r hk hdeeds resolved⟩
  · have hjump : last.jump? = none := by rw [Transition.jump?, hnext]
    rw [hsplit, jumps_append, jumps_singleton, hjump, Option.toList_none, List.append_nil, hjumps]
  · rw [hsplit] at hu
    rcases List.mem_append.mp hu with hu | hu
    · exact hcalm u hu
    · rw [List.mem_singleton.mp hu, Transition.panics, hnext]
  · rw [Transition.after, Move.after, hnext, hbelow]
  · rw [hworld]
    exact World.get?_watchpoints_serveAll k.world ws v
  · rw [hworld]
    exact World.queue_finish hqueue
  · rw [hworld]
    have hreached : Ending.invalidate.Reached _ s := World.reached_finish there
    exact hreached.2

/-! ### Resolving in between -/

/-- Resolving does nothing to any set. -/
theorem Transition.OnlyResolves.sets (h : t.OnlyResolves) :
    t.after.world.sets = t.before.world.sets := by
  obtain ⟨m, a, v, possible⟩ := t
  rcases h with ⟨w, ha⟩ | ⟨answer, ha⟩ | ⟨⟨message, ha⟩, installed⟩
  · obtain rfl : a = .call (.resolve w) := ha
    cases Moment.moves_of_move? possible with
    | call =>
      rcases World.resolve_cases m.world w with ⟨-, he⟩ | ⟨_, _, -, he⟩
      · exact congrArg (fun u => u.world.sets) he
      · exact congrArg (fun u => u.world.sets) he
  · obtain rfl : a = .located answer := ha
    cases Moment.moves_of_move? possible with
    | @located l loan below _ top =>
      rcases World.located_cases m.world l answer with ⟨e, he⟩ | ⟨a, -, -, he⟩ | ⟨s, d, -, -, -, he⟩
      · exact congrArg (fun u => u.world.sets) he
      · exact congrArg (fun u => u.world.sets) he
      · exact congrArg (fun u => u.world.sets) he
  · obtain rfl : a = .failed message := ha
    cases Moment.moves_of_move? possible with
    | @failed pending loan below _ top =>
      cases pending with
      | locate l => rfl
      | patch p => simp [Transition.failing?, top, Pending.patching?] at installed

theorem sets_of_onlyResolves (r : Run k us m) (h : ∀ t ∈ us, t.OnlyResolves) :
    m.world.sets = k.world.sets :=
  r.keeps_along (P := fun m => m.world.sets = k.world.sets)
    (fun _ ht hsame => ht.sets.trans hsame) h rfl

/-! ### The two writes -/

/-- A write that is interrupted loses nothing: it has served those in front, everybody else is
    registered as before, and once all of them have addresses another write serves them. -/
theorem Run.interrupted_write_loses_nothing (run : Run {} ts k) (writes : k.world.Writes c s)
    (permitted : k.permits c = true) (queue : k.world.queue s = served ++ w :: rest)
    (resolved : ∀ v ∈ served, k.world.Resolved v) (stops : Stops k.world w cause) :
    k.LosesNothing c s served w rest cause := by
  have hk := run.linked Moment.linked_empty
  have alert := run.alert Moment.sound_empty World.alert_empty
  obtain ⟨us₀, m₀, r₀, hactions₀, h₀⟩ :=
    exists_run_stopped hk alert writes permitted queue resolved stops
  have brokenOff : ∀ us m, Run k us m → us.map Transition.action = writing c served.length ++ cause →
      BrokenOff s served w rest k us m := by
    intro us m r hactions
    obtain ⟨rfl, rfl⟩ := r.eq_of_actions r₀ (hactions.trans hactions₀.symm)
    exact h₀
  refine ⟨⟨us₀, m₀, r₀, hactions₀⟩, brokenOff, ?_, ?_⟩
  · intro us m r hactions vs k' r' only
    obtain ⟨-, -, -, -, -, still, flags, -⟩ := brokenOff us m r hactions
    have hsets := sets_of_onlyResolves r' only
    have hlist : k'.world.list? s = m.world.list? s := by rw [World.list?, World.list?, hsets]
    exact ⟨(World.queue_congr hlist).trans still, (World.flagsOf_congr (by rw [hsets])).trans flags⟩
  · intro us m r hactions vs k' r' hqueue hresolved c' writes' permitted'
    have run' := run.append (r.append r')
    obtain ⟨us', m', r₁, hactions₁, h₁⟩ := exists_run_carriedOut (run'.linked Moment.linked_empty)
      (run'.alert Moment.sound_empty World.alert_empty) writes' permitted' hqueue (List.cons_ne_nil _ _)
      hresolved
    refine ⟨⟨us', m', r₁, hactions₁⟩, fun us'' m'' r'' hactions'' => ?_⟩
    obtain ⟨rfl, rfl⟩ := r''.eq_of_actions r₁ (hactions''.trans hactions₁.symm)
    exact h₁

/-- Three watchpoints wait on a set, and the second has no addresses yet. -/
def middleUnresolved : List Action :=
  [.call (.createAlone 0 (.scripted "p") ⟨16⟩ ⟨96⟩), .call (.resolve 0), .located (.ok ⟨4112⟩),
    .located (.ok ⟨4192⟩), .call (.createAlone 1 (.scripted "p") ⟨32⟩ ⟨112⟩),
    .call (.createAlone 2 (.scripted "p") ⟨48⟩ ⟨128⟩), .call (.resolve 2), .located (.ok ⟨4144⟩),
    .located (.ok ⟨4224⟩), .call (.newSet 5 .blind), .call (.add 5 (some 0)), .call (.add 5 (some 1)),
    .call (.add 5 (some 2))]

/-- The write that stops there, what was missing, and the write that is carried out. -/
def stoppedAndCarriedOut : List Action :=
  writing (.notifyWrite 5) 1 ++ [.call (.resolve 1), .located (.ok ⟨4128⟩), .located (.ok ⟨4208⟩)] ++
    writing (.notifyWrite 5) 2

theorem interrupted_write_middleUnresolved :
    ∃ ts k, Run {} ts k ∧ k.world.Writes (.notifyWrite 5) (.ofHandle 5) ∧
      k.permits (.notifyWrite 5) = true ∧ k.world.queue (.ofHandle 5) = [0] ++ 1 :: [2] ∧
      (∀ v ∈ [0], k.world.Resolved v) ∧ Stops k.world 1 [] ∧
      (k.play stoppedAndCarriedOut).length = stoppedAndCarriedOut.length ∧
      (jumps (k.play stoppedAndCarriedOut)).map Jump.watchpoint = [0, 1, 2] ∧
      k.LosesNothing (.notifyWrite 5) (.ofHandle 5) [0] 1 [2] [] := by
  have run := Moment.run_play {} middleUnresolved
  have writes : (Moment.last {} (Moment.play {} middleUnresolved)).world.Writes (.notifyWrite 5)
      (.ofHandle 5) := .handle (by decide)
  have stops : Stops (Moment.last {} (Moment.play {} middleUnresolved)).world 1 [] :=
    .unresolved (by decide)
  exact ⟨_, _, run, writes, by decide, by decide, by decide, stops, by decide, by decide,
    run.interrupted_write_loses_nothing writes (by decide) (by decide) (by decide) stops⟩

end Invalidation
