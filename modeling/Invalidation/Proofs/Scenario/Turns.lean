import Invalidation.Proofs.Scenario.Names

/-! The turns of a script. At the end of a turn the call waits, or the step closes it. To close it can
    take one more call: a handle is made on a set that was asked for, and a watchpoint is dropped that
    could not be resolved.

        call ──▶ turn ─┬─▶ waits
                       └─▶ over ──▶ (one more call) ──▶ answer of the step -/

namespace Invalidation

/-- The transition asks for no jump, and no jump fails by it. -/
def Transition.IsQuiet (t : Transition) : Prop := t.jump? = none ∧ t.failing? = none

/-- A call that returns at once is quiet. -/
theorem Moment.quiet_of_returned {m : Moment} {c : Call} (permitted : m.permits c = true)
    (returned : (m.world.begin c).next = .returned) : ∀ t ∈ [m.calling c permitted], t.IsQuiet := by
  intro t ht
  rw [List.mem_singleton.mp ht]
  exact ⟨by simp only [Transition.jump?, calling, returned], rfl⟩

theorem Transition.quiet_nil : ∀ t ∈ ([] : List Transition), t.IsQuiet := fun _ ht => by cases ht

namespace Scenario

namespace Session

variable {s : Session} {m : Moment} {name : String}

/-- Transitions of the library lead from the moment to that of the script, which is in order. -/
def ReachedFrom (s : Session) (m : Moment) : Prop := (∃ ts, Run m ts s.moment) ∧ s.Proper

namespace ReachedFrom

theorem self (h : s.Proper) : s.ReachedFrom s.moment := ⟨⟨[], .nil _⟩, h⟩

theorem after {k : Moment} {ts : List Transition} (h : s.ReachedFrom k) (run : Run m ts k) :
    s.ReachedFrom m := by
  obtain ⟨⟨us, hrun⟩, hp⟩ := h
  exact ⟨⟨_, run.append hrun⟩, hp⟩

theorem deliver (h : s.ReachedFrom m) (outcome : Outcome) (events : List Event) :
    (s.deliver outcome events).ReachedFrom m := by
  obtain ⟨⟨ts, hrun⟩, hp⟩ := h
  exact ⟨⟨ts, by rwa [moment_deliver]⟩, proper_deliver hp outcome events⟩

end ReachedFrom

/-- Quiet transitions of the library lead from the moment to that of the script, which is in order. -/
def SettlesFrom (s : Session) (m : Moment) : Prop :=
  (∃ ts, Run m ts s.moment ∧ ∀ t ∈ ts, t.IsQuiet) ∧ s.Proper

namespace SettlesFrom

theorem self (h : s.Proper) : s.SettlesFrom s.moment := ⟨⟨[], .nil _, Transition.quiet_nil⟩, h⟩

theorem reached (h : s.SettlesFrom m) : s.ReachedFrom m := by
  obtain ⟨⟨ts, hrun, -⟩, hp⟩ := h
  exact ⟨⟨ts, hrun⟩, hp⟩

theorem deliver (h : s.SettlesFrom m) (outcome : Outcome) (events : List Event) :
    (s.deliver outcome events).SettlesFrom m := by
  obtain ⟨⟨ts, hrun, hquiet⟩, hp⟩ := h
  exact ⟨⟨ts, by rwa [moment_deliver], hquiet⟩, proper_deliver hp outcome events⟩

end SettlesFrom

theorem permits_of {c : Call} (allowed : s.world.allows c = true)
    (free : ∀ l ∈ c.takes, s.moment.lends l = false) : s.moment.permits c = true := by
  rw [Moment.permits, Bool.and_eq_true]
  refine ⟨allowed, ?_⟩
  cases hc : c.takes with
  | none => rfl
  | some l => rw [Option.all_some, free l (by rw [hc]; rfl), Bool.not_false]

/-- A call that makes objects gives them the number that has not been used. -/
theorem orderly_of_makes {c : Call} (h : s.Proper) (numbers : ∀ x ∈ c.makes, x.number = s.fresh)
    (drops : c.drops = none) : Orderly s.Names (s.fresh + 1) s.waits (s.world.begin c).world.held? := by
  have hsame : ∀ x ∉ c.makes, (s.world.begin c).world.held? x = s.world.held? x := fun x hx =>
    World.held?_begin_of_ne hx (drops.trans_ne (Option.some_ne_none _).symm)
  refine h.grow (Nat.le_succ _) (fun x hx => ?_) fun x hx => ?_
  · rwa [hsame x fun hm => ?_]
    rw [held?_fresh h (numbers x hm)] at hx
    cases hx
  · by_cases hm : x ∈ c.makes
    · exact numbers x hm ▸ Nat.lt_succ_self _
    · exact Nat.lt_succ_of_lt (h.used x (hsame x hm ▸ hx))

/-! ### The end of a call -/

/-- What a step makes of the end of its call goes with the turn at whose end it stands. -/
structure Fits (s : Session) (caller : Caller) (turn : Turn) : Prop where
  patient : ∀ r p, turn.next = .waiting r p → caller.closing.IsPatient
  runtime : ∀ n r, caller.closing = .nameRuntime n r → turn.next = .returned →
    turn.world.held? (.context (.ofRuntime r)) = some true ∧ ∀ n, ¬ s.Names n (.context (.ofRuntime r))
  slot : ∀ i copy, caller.closing = .reportSet i copy →
    turn.world.held? (.slot i) = some true ∧ s.moment.lends (.slot i) = false
  reserved : ∀ w, caller.closing.reserved? = some w →
    turn.world.held? (.watchpoint w) = some true ∧ (∀ n, ¬ s.Names n (.watchpoint w)) ∧
      caller.loan = .watchpoint w
  lone : ∀ d ∈ s.waits, caller.wait.Spares d ∧ d.Spares caller.wait
  lent : ∀ w, caller.loan = .watchpoint w → w < s.fresh

/-- A handle on the set of a slot is made for whoever asked for one. -/
theorem settles_reportSet (h : s.Proper) {i : SlotId} (held : s.world.held? (.slot i) = some true)
    (free : s.moment.lends (.slot i) = false) (copy : Option String) :
    (s.close (.reportSet i copy)).1.SettlesFrom s.moment := by
  have hnew : s.world.held? (.handle s.fresh) = none := held?_fresh h rfl
  have hallows : s.world.allows (.handleOfSlot i s.fresh) = true := by
    have hslot : (s.world.slot? i).isSome = true := World.isSome_slot?_iff.mpr held
    simp [World.allows, hslot, World.contains_handles, hnew]
  have hpermits : s.moment.permits (.handleOfSlot i s.fresh) = true :=
    permits_of hallows fun l hl => Option.some.inj hl ▸ free
  cases hfat : s.world.fatSet? i with
  | none =>
    simp only [close, hfat]
    exact .self h
  | some t =>
    cases copy with
    | none =>
      simp only [close, hfat]
      exact .self h
    | some name =>
      simp only [close, hfat]
      refine ⟨⟨_, Moment.run_of_returned hpermits rfl, Moment.quiet_of_returned hpermits rfl⟩, ?_⟩
      refine (orderly_of_makes h (by simp [Call.makes, Identity.number]) rfl).enter
        (fun _ _ hn => names_putHandle hn) (unnamed_of_fresh h rfl) ?_ (unreserved_of_fresh h rfl)
      refine World.held?_begin_of_makes List.mem_cons_self hallows rfl fun j k he => ?_
      obtain ⟨rfl, -⟩ := Call.handleOfSlot.inj he
      rw [hfat]
      rfl

/-- What is on loan to no other caller is reserved by no other. -/
theorem unreserved_of_not_lent (h : s.Proper) {w : WatchpointId}
    (free : ∀ d ∈ s.waits, d.loan ≠ .watchpoint w) :
    ∀ d ∈ s.waits, ∀ v, d.closing.reserved? = some v → Identity.watchpoint w ≠ .watchpoint v := by
  intro d hd v hv he
  obtain rfl := Identity.watchpoint.inj he
  exact free d hd (h.reserved d hd w hv).2.2

/-- A watchpoint that cannot be resolved, and was to be named afterwards, is dropped. -/
theorem settles_dropUnresolved (h : s.Proper) {w : WatchpointId}
    (held : s.world.held? (.watchpoint w) = some true) (new : ∀ n, ¬ s.Names n (.watchpoint w))
    (free : ∀ d ∈ s.waits, d.loan ≠ .watchpoint w) (failure : LinkFailure) (name : String) :
    (s.closeFailed failure (.nameResolved name w)).1.SettlesFrom s.moment := by
  have hpermits : s.moment.permits (.dropWatchpoint w) = true :=
    permits_of (World.held_watchpoint_iff.mpr held) fun l hl =>
      Option.some.inj hl ▸ lends_watchpoint free
  refine ⟨⟨_, Moment.run_of_returned hpermits rfl, Moment.quiet_of_returned hpermits rfl⟩, ?_⟩
  refine h.drop new (unreserved_of_not_lent h free) (fun y hy => ?_)
    (held.trans_ne (Option.some_ne_none _))
  exact World.held?_begin_of_ne List.not_mem_nil fun he => hy (Option.some.inj he).symm

/-- What a step makes of a call that has failed. -/
theorem settles_closeFailed {caller : Caller} {turn : Turn} (h : Proper { s with world := turn.world })
    (fits : s.Fits caller turn) (failure : LinkFailure) :
    (closeFailed { s with world := turn.world } failure caller.closing).1.SettlesFrom
      (moment { s with world := turn.world }) := by
  cases hc : caller.closing with
  | nothing | reportSet | nameRuntime => exact .self h
  | nameResolved name w =>
    have hw : caller.closing.reserved? = some w := by rw [hc]; rfl
    obtain ⟨hheld, hnew, -⟩ := fits.reserved w hw
    exact settles_dropUnresolved h hheld hnew (fun d hd => (fits.lone d hd).1 w hw) failure name

/-- What a step makes of a call that has returned. -/
theorem settles_close {caller : Caller} {turn : Turn} (h : Proper { s with world := turn.world })
    (fits : s.Fits caller turn) (returned : turn.next = .returned) :
    (close { s with world := turn.world } caller.closing).1.SettlesFrom
      (moment { s with world := turn.world }) := by
  cases hc : caller.closing with
  | nothing => exact .self h
  | reportSet i copy =>
    obtain ⟨hheld, hfree⟩ := fits.slot i copy hc
    exact settles_reportSet h hheld hfree copy
  | nameRuntime name r =>
    obtain ⟨hheld, hnew⟩ := fits.runtime name r hc returned
    refine ⟨⟨[], .nil _, Transition.quiet_nil⟩, h.enter (fun _ _ => names_putRuntime) hnew hheld ?_⟩
    exact fun _ _ _ _ => Identity.noConfusion
  | nameResolved name w =>
    have hw : caller.closing.reserved? = some w := by rw [hc]; rfl
    obtain ⟨hheld, hnew, -⟩ := fits.reserved w hw
    refine ⟨⟨[], .nil _, Transition.quiet_nil⟩, h.enter (fun _ _ => names_putWatchpoint) hnew hheld ?_⟩
    exact unreserved_of_not_lent h fun d hd => (fits.lone d hd).1 w hw

/-- A turn that a transition takes for a caller is reached by transitions up to its end, with what the
    step makes of it. -/
theorem settles_take {t : Transition} {caller : Caller} {turn : Turn}
    (h : Orderly s.Names s.fresh s.waits turn.world.held?) (fits : s.Fits caller turn)
    (ht : t.move = ⟨turn, caller.loan, s.moment.stack⟩) : (s.take caller turn).SettlesFrom t.after := by
  have hproper : Proper { s with world := turn.world } := h
  have hafter : t.after = Move.after ⟨turn, caller.loan, s.moment.stack⟩ := congrArg Move.after ht
  have hover : (∀ r p, turn.next ≠ .waiting r p) → t.after = moment { s with world := turn.world } := by
    intro quick
    rw [hafter, Move.after]
    cases hn : turn.next with
    | waiting r p => exact absurd hn (quick r p)
    | returned | failed | panicked => rfl
  cases hn : turn.next with
  | panicked fault =>
    simp only [take, hn]
    rw [hover fun _ _ => hn.trans_ne Next.noConfusion]
    exact (SettlesFrom.self hproper).deliver _ _
  | failed failure =>
    simp only [take, hn]
    rw [hover fun _ _ => hn.trans_ne Next.noConfusion]
    exact (settles_closeFailed hproper fits failure).deliver _ _
  | returned =>
    simp only [take, hn]
    rw [hover fun _ _ => hn.trans_ne Next.noConfusion]
    exact (settles_close hproper fits hn).deliver _ _
  | waiting request pending =>
    obtain ⟨patchers, buffers, recorders, hreceive⟩ :=
      receive_eq { s with world := turn.world } caller.buffer request
    simp only [take, hn]
    rw [hreceive, hafter, Move.after]
    simp only [hn]
    exact ⟨⟨[], .nil _, Transition.quiet_nil⟩,
      hproper.push (c := caller.wait) (fits.patient request pending hn)
      fits.reserved fits.lone fits.lent⟩

/-- A call that the script may make. -/
theorem reached_call {caller : Caller} {c : Call} (permitted : s.moment.permits c = true)
    (h : Orderly s.Names s.fresh s.waits (s.world.begin c).world.held?)
    (fits : s.Fits { caller with loan := c.loan } (s.world.begin c)) :
    (s.call caller c).ReachedFrom s.moment :=
  (settles_take (t := s.moment.calling c permitted) h fits rfl).reached.after (.cons rfl (.nil _))

/-! ### Going on with a call that waits -/

variable {a : Activation} {below : List Activation}

/-- What the innermost waiting call makes of its end goes with any turn that leaves the objects as they
    are. -/
theorem fits_of_top {turn : Turn} (h : s.Proper) (top : s.stack = a :: below)
    (same : turn.world.held? = s.world.held?) : Fits { s with stack := below } a.caller turn := by
  have hwaits : s.waits = a.caller.wait :: waits { s with stack := below } := by
    rw [waits, top]
    rfl
  have hmem : a.caller.wait ∈ s.waits := hwaits ▸ List.mem_cons_self
  have hpatient : a.caller.closing.IsPatient := h.patient _ hmem
  refine ⟨fun _ _ _ => hpatient, fun n r he => ?_, fun i copy he => ?_, fun w hw => ?_,
    (List.pairwise_cons.mp (hwaits ▸ h.lone)).1, h.lent _ hmem⟩
  · rcases hpatient with hp | ⟨m, w, hp⟩ <;> cases he.symm.trans hp
  · rcases hpatient with hp | ⟨m, w, hp⟩ <;> cases he.symm.trans hp
  · rw [same]
    exact h.reserved _ hmem w hw

/-- The callers below the innermost one go with the objects, too. -/
theorem order_below (h : s.Proper) (top : s.stack = a :: below) :
    Orderly s.Names s.fresh (waits { s with stack := below }) s.world.held? := by
  have hall : Orderly s.Names s.fresh s.waits s.world.held? := h
  rw [waits, top] at hall
  exact hall.pop

theorem stack_moment (top : s.stack = a :: below) :
    s.moment.stack = ⟨a.pending, a.caller.loan⟩ :: (moment { s with stack := below }).stack := by
  rw [moment, top]
  rfl

/-- The innermost waiting call goes on by a turn, which leaves the objects as they are. -/
structure Resumes (s : Session) (a : Activation) (below : List Activation)
    (action : Invalidation.Action) (turn : Turn) : Prop where
  top : s.stack = a :: below
  same : turn.world.held? = s.world.held?
  answers : ∀ c, action ≠ .call c
  possible : s.moment.move? action =
    some ⟨turn, a.caller.loan, (moment { s with stack := below }).stack⟩

/-- The innermost waiting call fails. -/
theorem resumes_fail (top : s.stack = a :: below) (message : String) :
    s.Resumes a below (.failed message) ((s.world.unwind a.pending).panic (.foreign message)) where
  top := top
  same := World.held?_unwind a.pending
  answers _ := Invalidation.Action.noConfusion
  possible := by
    simp only [Moment.move?, stack_moment top]
    rfl

/-- The innermost waiting call gets its answer. It can fail only where it asks for a label. -/
theorem resumes_answer (top : s.stack = a :: below) :
    ∃ action turn, answer { s with stack := below } a = take { s with stack := below } a.caller turn ∧
      s.Resumes a below action turn ∧
      (a.pending.patching? = none ∨ ∀ message, action ≠ .failed message) := by
  have hstack := stack_moment top
  unfold answer
  cases hp : a.pending with
  | patch p =>
    rw [hp] at hstack
    refine ⟨.patched, _, rfl,
      ⟨top, World.held?_patched p, fun _ => Invalidation.Action.noConfusion, ?_⟩,
      Or.inr fun _ => Invalidation.Action.noConfusion⟩
    simp only [Moment.move?, hstack]
    rfl
  | locate l =>
    rw [hp] at hstack
    have hlocated : ∀ answer, s.Resumes a below (.located answer) (s.world.located l answer) := by
      refine fun answer => ⟨top, World.held?_located l _, fun _ => Invalidation.Action.noConfusion, ?_⟩
      simp only [Moment.move?, hstack]
      rfl
    dsimp only
    split
    · exact ⟨_, _, rfl, hlocated _, Or.inl rfl⟩
    · exact ⟨_, _, rfl, hlocated _, Or.inl rfl⟩
    · exact ⟨_, _, rfl, resumes_fail top _, Or.inl rfl⟩

theorem reached_resume {action : Invalidation.Action} {turn : Turn} (h : s.Proper)
    (resumes : s.Resumes a below action turn) :
    (take { s with stack := below } a.caller turn).ReachedFrom s.moment :=
  (settles_take (s := { s with stack := below }) (t := ⟨s.moment, action, _, resumes.possible⟩)
    (resumes.same ▸ order_below (s := s) h resumes.top)
    (fits_of_top h resumes.top resumes.same) rfl).reached.after (.cons rfl (.nil _))

end Session

end Scenario

end Invalidation
