import Invalidation.Proofs.Scenario.Turns

/-! The steps of a script. A step looks its names up and comes to a result at once, or to one call. Each
    call that a step comes to is one that the surroundings may make: what it works on has a name, so it
    is held; what it makes gets the next number; and what it takes is not on loan.

        step ──▶ names ──▶ result
                   └─────▶ call, permitted -/

namespace Invalidation

namespace Scenario

namespace Session

variable {s : Session} {name n : String}

/-! ### Looking names up -/

theorem exists_of_bind_eq_ok {ε α β : Type} {x : Except ε α} {f : α → Except ε β} {b : β}
    (h : x >>= f = .ok b) : ∃ a, x = .ok a ∧ f a = .ok b := by
  cases x with
  | error e => cases h
  | ok a => exact ⟨a, rfl, h⟩

theorem get?_of_find {α : Type} {names : Store String α} {a : α} (h : find names name = .ok a) :
    names.get? name = some a := by
  unfold find at h
  split at h
  · next b hb => exact hb.trans (congrArg some (Except.ok.inj h))
  · cases h

theorem get?_of_findOptional {α : Type} {names : Store String α} {o : Option String} {r : Option α}
    (h : findOptional names o = .ok r) : ∀ a ∈ r, ∃ name, names.get? name = some a := by
  cases o with
  | none =>
    obtain rfl := Except.ok.inj h
    exact fun a ha => absurd ha (Option.not_mem_none a)
  | some name =>
    obtain ⟨a, ha, hr⟩ := exists_of_bind_eq_ok h
    obtain rfl := Except.ok.inj hr
    intro b hb
    obtain rfl := Option.mem_some_iff.mp hb
    exact ⟨name, get?_of_find ha⟩

theorem lends_moment (s : Session) (l : Loan) : s.moment.lends l = s.isLent l := by
  simp [Moment.lends, moment, isLent, List.any_map, Function.comp_def]

theorem lends_of_notLent {l : Loan} {u : Unit} (h : s.notLent l name = .ok u) :
    s.moment.lends l = false := by
  unfold notLent at h
  rw [lends_moment]
  split at h
  · cases h
  · next hl => exact Bool.eq_false_iff.mpr hl

theorem of_freeSlot {i : SlotId} (h : s.freeSlot name = .ok i) :
    s.slots.get? name = some i ∧ s.moment.lends (.slot i) = false := by
  obtain ⟨j, hj, h⟩ := exists_of_bind_eq_ok h
  obtain ⟨u, hu, h⟩ := exists_of_bind_eq_ok h
  obtain rfl : j = i := Except.ok.inj h
  exact ⟨get?_of_find hj, lends_of_notLent hu⟩

theorem held_of_name (h : s.Proper) {w : WatchpointId} (named : s.watchpoints.get? name = some w) :
    (s.world.watchpoint w).held = true :=
  World.held_watchpoint_iff.mpr (h.held name (.watchpoint w) named)

theorem handle_of_name (h : s.Proper) {k : HandleId} (named : s.handles.get? name = some k) :
    (s.world.handleSet? k).isSome = true :=
  World.isSome_handleSet?_iff.mpr (h.held name (.handle k) named)

theorem slot_of_name (h : s.Proper) {i : SlotId} (named : s.slots.get? name = some i) :
    (s.world.slot? i).isSome = true :=
  World.isSome_slot?_iff.mpr (h.held name (.slot i) named)

theorem all_held_of_names (h : s.Proper) {r : Option WatchpointId}
    (named : ∀ w ∈ r, ∃ name, s.watchpoints.get? name = some w) :
    (r.all fun w => (s.world.watchpoint w).held) = true := by
  cases r with
  | none => rfl
  | some w =>
    obtain ⟨name, hw⟩ := named w rfl
    exact held_of_name h hw

/-! ### What a step comes to -/

/-- What a step comes to is something that the surroundings may do. -/
inductive Leads (s : Session) : Action → Prop where
  | result {s' : Session} {r : Result} (h : s'.Proper) (same : s'.moment = s.moment) :
      s.Leads (.result s' r)
  | call {s' : Session} {ts : List Transition} {caller : Caller} {c : Call}
      (run : Run s.moment ts s'.moment) (quiet : ∀ t ∈ ts, t.IsQuiet)
        (permitted : s'.moment.permits c = true)
      (h : Orderly s'.Names s'.fresh s'.waits (s'.world.begin c).world.held?)
      (fits : s'.Fits { caller with loan := c.loan } (s'.world.begin c)) : s.Leads (.call s' caller c)

/-- A call that names nothing at its end, on a watchpoint that has a name if on any. -/
theorem fits_of_nothing {caller : Caller} {turn : Turn} (closing : caller.closing = .nothing)
    (spared : ∀ d ∈ s.waits, d.Spares caller.wait)
    (lent : ∀ w, caller.loan = .watchpoint w → w < s.fresh) : s.Fits caller turn := by
  have hnone : ∀ w, caller.closing.reserved? ≠ some w := fun w => by
    rw [closing]
    exact (Option.some_ne_none w).symm
  refine ⟨fun _ _ _ => Or.inl closing, fun n r he => ?_, fun i copy he => ?_,
    fun w hw => absurd hw (hnone w), fun d hd => ⟨fun w hw => absurd hw (hnone w), spared d hd⟩, lent⟩
  · cases closing.symm.trans he
  · cases closing.symm.trans he

theorem fits_of_no_watchpoint {caller : Caller} {turn : Turn} (closing : caller.closing = .nothing)
    (loan : ∀ w, caller.loan ≠ .watchpoint w) : s.Fits caller turn :=
  fits_of_nothing closing (fun _ _ w _ => loan w) fun w hl => absurd hl (loan w)

theorem fits_of_name {caller : Caller} {turn : Turn} (h : s.Proper)
    (closing : caller.closing = .nothing)
    (loan : ∀ w, caller.loan = .watchpoint w → ∃ name, s.watchpoints.get? name = some w) :
    s.Fits caller turn := by
  refine fits_of_nothing closing (fun d hd w hw hl => ?_) fun w hl => ?_
  · obtain ⟨name, named⟩ := loan w hl
    exact (h.reserved d hd w hw).2.1 name named
  · obtain ⟨name, named⟩ := loan w hl
    exact h.used (.watchpoint w) ((h.held name (.watchpoint w) named).trans_ne (Option.some_ne_none _))

/-- A call that does not wait and has no watchpoint on loan, and at whose end none is named. -/
theorem fits_of_quick {caller : Caller} {turn : Turn} (quick : ∀ r p, turn.next ≠ .waiting r p)
    (closing : ∀ w, caller.closing.reserved? ≠ some w) (loan : ∀ w, caller.loan ≠ .watchpoint w)
    (runtime : ∀ n r, caller.closing = .nameRuntime n r → turn.next = .returned →
      turn.world.held? (.context (.ofRuntime r)) = some true ∧
      ∀ n, ¬ s.Names n (.context (.ofRuntime r)))
    (slot : ∀ i copy, caller.closing = .reportSet i copy →
      turn.world.held? (.slot i) = some true ∧ s.moment.lends (.slot i) = false) :
    s.Fits caller turn where
  patient r p hn := absurd hn (quick r p)
  runtime := runtime
  slot := slot
  reserved w hw := absurd hw (closing w)
  lone _ _ := ⟨fun w hw => absurd hw (closing w), fun w _ => loan w⟩
  lent w hl := absurd hl (loan w)

/-- A call that neither makes nor drops anything. -/
theorem leads_plain {caller : Caller} {c : Call} (h : s.Proper) (allowed : s.world.allows c = true)
    (free : ∀ l ∈ c.takes, s.moment.lends l = false) (makes : c.makes = []) (drops : c.drops = none)
    (closing : caller.closing = .nothing)
    (loan : ∀ w, c.loan = .watchpoint w → ∃ name, s.watchpoints.get? name = some w) :
    s.Leads (.call s caller c) := by
  have hsame : (s.world.begin c).world.held? = s.world.held? := by
    funext x
    exact World.held?_begin_of_ne (makes ▸ List.not_mem_nil)
      (drops.trans_ne (Option.some_ne_none x).symm)
  exact .call (.nil _) Transition.quiet_nil (permits_of allowed free) (hsame ▸ h)
    (fits_of_name h closing loan)

/-- A call on a watchpoint that has a name. -/
theorem leads_onWatchpoint {w : WatchpointId} (h : s.Proper) (named : s.watchpoints.get? name = some w)
    {caller : Caller} {c : Call} (closing : caller.closing = .nothing)
    (allowed : (s.world.watchpoint w).held = true → s.world.allows c = true)
    (plain : c.takes = none ∧ c.makes = [] ∧ c.drops = none ∧ c.loan = .watchpoint w) :
    s.Leads (.call s caller c) := by
  obtain ⟨htakes, hmakes, hdrops, hloan⟩ := plain
  refine leads_plain h (allowed (held_of_name h named)) ?_ hmakes hdrops closing fun v hv => ?_
  · rw [htakes]
    exact fun l hl => absurd hl (Option.not_mem_none l)
  · obtain rfl := Loan.watchpoint.inj (hloan.symm.trans hv)
    exact ⟨name, named⟩

theorem leads_onHandle (h : s.Proper) {f : HandleId → Call} {a : Action}
    (ha : s.onHandle name f = .ok a)
    (allowed : ∀ k, (s.world.handleSet? k).isSome = true → s.world.allows (f k) = true)
    (plain : ∀ k, (f k).takes = none ∧ (f k).makes = [] ∧ (f k).drops = none ∧
      ∀ w, (f k).loan ≠ .watchpoint w) : s.Leads a := by
  obtain ⟨k, hk, ha⟩ := exists_of_bind_eq_ok ha
  obtain rfl := Except.ok.inj ha
  obtain ⟨htakes, hmakes, hdrops, hloan⟩ := plain k
  refine leads_plain h (allowed k (handle_of_name h (get?_of_find hk))) ?_ hmakes hdrops rfl
    fun w hl => absurd hl (hloan w)
  rw [htakes]
  exact fun l hl => absurd hl (Option.not_mem_none l)

theorem leads_onSlot (h : s.Proper) {f : SlotId → Call} {a : Action} (ha : s.onSlot name f = .ok a)
    (allowed : ∀ i, (s.world.slot? i).isSome = true → s.world.allows (f i) = true)
    (plain : ∀ i, (f i).takes = some (.slot i) ∧ (f i).makes = [] ∧ (f i).drops = none ∧
      ∀ w, (f i).loan ≠ .watchpoint w) : s.Leads a := by
  obtain ⟨i, hi, ha⟩ := exists_of_bind_eq_ok ha
  obtain rfl := Except.ok.inj ha
  obtain ⟨hnamed, hfree⟩ := of_freeSlot hi
  obtain ⟨htakes, hmakes, hdrops, hloan⟩ := plain i
  refine leads_plain h (allowed i (slot_of_name h hnamed)) ?_ hmakes hdrops rfl
    fun w hl => absurd hl (hloan w)
  rw [htakes]
  intro l hl
  obtain rfl := Option.some.inj hl
  exact hfree

theorem leads_reportSlotSet (h : s.Proper) {copy : Option String} {f : SlotId → Call} {a : Action}
    (ha : s.reportSlotSet name copy f = .ok a)
    (plain : ∀ i, (f i).takes = some (.slot i) ∧ (f i).makes = [] ∧ (f i).drops = none ∧
      (f i).loan = .nothing ∧ (s.world.allows (f i) = (s.world.slot? i).isSome) ∧
      ∀ r p, (s.world.begin (f i)).next ≠ .waiting r p) : s.Leads a := by
  obtain ⟨i, hi, ha⟩ := exists_of_bind_eq_ok ha
  obtain rfl : .call s { closing := .reportSet i copy } (f i) = a := by
    cases copy with
    | none => exact Except.ok.inj ha
    | some k =>
      obtain ⟨_, -, ha⟩ := exists_of_bind_eq_ok ha
      exact Except.ok.inj ha
  obtain ⟨hnamed, hfree⟩ := of_freeSlot hi
  obtain ⟨htakes, hmakes, hdrops, hloan, hallows, hquick⟩ := plain i
  have hsame : (s.world.begin (f i)).world.held? = s.world.held? := by
    funext x
    exact World.held?_begin_of_ne (hmakes ▸ List.not_mem_nil)
      (hdrops.trans_ne (Option.some_ne_none x).symm)
  refine .call (.nil _) Transition.quiet_nil (permits_of (hallows.trans (slot_of_name h hnamed)) ?_)
    (hsame ▸ h) ?_
  · rw [htakes]
    exact fun l hl => Option.some.inj hl ▸ hfree
  · refine fits_of_quick hquick (fun w => (Option.some_ne_none w).symm)
      (fun _ => hloan.trans_ne Loan.noConfusion) (fun _ _ => Closing.noConfusion) fun j k he => ?_
    obtain ⟨rfl, -⟩ := Closing.reportSet.inj he
    exact ⟨hsame ▸ h.held name (.slot i) hnamed, hfree⟩

/-! ### Steps that make something -/

/-- A step that names a new object and then makes it. -/
theorem leads_making {s' : Session} {c : Call} {x : Identity} (h : s.Proper)
    (same : s'.world = s.world ∧ s'.stack = s.stack ∧ s'.fresh = s.fresh + 1)
    (names : ∀ n y, s'.Names n y → s.Names n y ∨ n = name ∧ y = x)
    (made : x ∈ c.makes) (numbers : ∀ y ∈ c.makes, y.number = s.fresh)
    (allowed : s.world.allows c = true) (returned : (s.world.begin c).next = .returned)
    (quick : c.drops = none ∧ c.takes = none ∧ c.loan = .nothing ∧ ∀ i k, c ≠ .handleOfSlot i k) :
    s.Leads (.call s' {} c) := by
  obtain ⟨hworld, hstack, hfresh⟩ := same
  obtain ⟨hdrops, htakes, hloan, hother⟩ := quick
  have hx := numbers x made
  have hmoment : s'.moment = s.moment := by rw [moment, hworld, hstack]; rfl
  have hwaits : s'.waits = s.waits := by rw [waits, hstack]; rfl
  have hheld : (s.world.begin c).world.held? x = some true :=
    World.held?_begin_of_makes made allowed returned fun i k he => absurd he (hother i k)
  have horderly : Orderly s'.Names s'.fresh s'.waits (s'.world.begin c).world.held? := by
    rw [hworld, hfresh, hwaits]
    exact (orderly_of_makes h numbers hdrops).enter names (unnamed_of_fresh h hx) hheld
      (unreserved_of_fresh h hx)
  have hrun : Run s.moment [] s'.moment := by
    rw [hmoment]
    exact .nil _
  refine .call hrun Transition.quiet_nil ?_ horderly ?_
  · rw [hmoment]
    exact permits_of allowed fun l hl => by rw [htakes] at hl; exact absurd hl (Option.not_mem_none l)
  · refine fits_of_no_watchpoint rfl fun w hl => ?_
    cases hloan.symm.trans hl

theorem leads_makeSet (h : s.Proper) {mode : InitialMode} {runtime : Option String} {a : Action}
    (ha : s.makeSet name mode runtime = .ok a) : s.Leads a := by
  obtain ⟨_, -, ha⟩ := exists_of_bind_eq_ok ha
  obtain ⟨_, -, ha⟩ := exists_of_bind_eq_ok ha
  obtain rfl := Except.ok.inj ha
  have hnew : s.world.held? (.handle s.fresh) = none := held?_fresh h rfl
  exact leads_making h ⟨rfl, rfl, rfl⟩ (fun _ _ hn => names_putHandle hn) List.mem_cons_self
    (by simp [Call.makes, Identity.number]) (by simp [World.allows, World.contains_handles, hnew]) rfl
    ⟨rfl, rfl, rfl, fun _ _ => Call.noConfusion⟩

theorem leads_makeSlot (h : s.Proper) {mode : InitialMode} {runtime : Option String} {a : Action}
    (ha : s.makeSlot name mode runtime = .ok a) : s.Leads a := by
  obtain ⟨_, -, ha⟩ := exists_of_bind_eq_ok ha
  obtain ⟨_, -, ha⟩ := exists_of_bind_eq_ok ha
  obtain rfl := Except.ok.inj ha
  have hnew : s.world.held? (.slot s.fresh) = none := held?_fresh h rfl
  exact leads_making h ⟨rfl, rfl, rfl⟩ (fun _ _ hn => names_putSlot hn) List.mem_cons_self
    (by simp [Call.makes, Identity.number]) (by simp [World.allows, World.contains_slots, hnew]) rfl
    ⟨rfl, rfl, rfl, fun _ _ => Call.noConfusion⟩

theorem leads_cloneHandle (h : s.Proper) {set : String} {a : Action}
    (ha : s.cloneHandle name set = .ok a) : s.Leads a := by
  obtain ⟨_, -, ha⟩ := exists_of_bind_eq_ok ha
  obtain ⟨k, hk, ha⟩ := exists_of_bind_eq_ok ha
  obtain rfl := Except.ok.inj ha
  have hset := handle_of_name h (get?_of_find hk)
  have hnew : s.world.held? (.handle s.fresh) = none := held?_fresh h rfl
  exact leads_making h ⟨rfl, rfl, rfl⟩ (fun _ _ hn => names_putHandle hn) List.mem_cons_self
    (by simp [Call.makes, Identity.number])
    (by simp [World.allows, World.contains_handles, hnew, hset]) rfl
      ⟨rfl, rfl, rfl, fun _ _ => Call.noConfusion⟩

theorem leads_makeWatchpoint (h : s.Proper) {source destination : Label} {home : Home} {a : Action}
    (ha : s.makeWatchpoint name source destination home = .ok a) : s.Leads a := by
  obtain ⟨_, -, ha⟩ := exists_of_bind_eq_ok ha
  have hnew : s.world.held? (.watchpoint s.fresh) = none := held?_fresh h rfl
  have hcontext : s.world.held? (.context (.ofWatchpoint s.fresh)) = none := held?_fresh h rfl
  cases home with
  | runtime runtime =>
    obtain ⟨r, hr, ha⟩ := exists_of_bind_eq_ok ha
    obtain rfl := Except.ok.inj ha
    have hopen := h.held runtime (.context (.ofRuntime r)) (get?_of_find hr)
    exact leads_making h ⟨rfl, rfl, rfl⟩ (fun _ _ hn => names_putWatchpoint hn) List.mem_cons_self
      (by simp [Call.makes, Identity.number])
      (by simp [World.allows, World.contains_watchpoints, World.contains_contexts, hnew, hopen]) rfl
      ⟨rfl, rfl, rfl, fun _ _ => Call.noConfusion⟩
  | alone patcher =>
    obtain ⟨p, -, ha⟩ := exists_of_bind_eq_ok ha
    obtain rfl := Except.ok.inj ha
    exact leads_making h ⟨rfl, rfl, rfl⟩ (fun _ _ hn => names_putWatchpoint hn)
      (List.mem_cons_of_mem _ List.mem_cons_self) (by simp [Call.makes, Identity.number])
      (by simp [World.allows, World.contains_watchpoints, World.contains_contexts, hnew, hcontext]) rfl
      ⟨rfl, rfl, rfl, fun _ _ => Call.noConfusion⟩

theorem leads_openRuntime (h : s.Proper) {patcher : PatcherName} {settings : Option Json} {a : Action}
    (ha : s.openRuntime name patcher settings = .ok a) : s.Leads a := by
  obtain ⟨_, -, ha⟩ := exists_of_bind_eq_ok ha
  obtain ⟨p, -, ha⟩ := exists_of_bind_eq_ok ha
  obtain ⟨set, -, ha⟩ := exists_of_bind_eq_ok ha
  obtain rfl := Except.ok.inj ha
  have hnew : s.world.held? (.context (.ofRuntime s.fresh)) = none := held?_fresh h rfl
  have hallows : s.world.allows (.openRuntime s.fresh p set) = true := by
    simp [World.allows, World.contains_contexts, hnew]
  have hpermits : s.moment.permits (.openRuntime s.fresh p set) = true :=
    permits_of hallows fun l hl => absurd hl (Option.not_mem_none l)
  have hrun : Run s.moment [] (moment { s with fresh := s.fresh + 1 }) := .nil _
  refine .call hrun Transition.quiet_nil hpermits
    (orderly_of_makes h (by simp [Call.makes, Identity.number]) rfl) ?_
  refine fits_of_quick (fun r p hn => ?_) (fun w => (Option.some_ne_none w).symm)
    (fun _ => Loan.noConfusion) (fun n r he hn => ?_) fun _ _ => Closing.noConfusion
  · simp only [World.begin, World.openRuntime] at hn
    split at hn <;> cases hn
  · obtain ⟨-, rfl⟩ := Closing.nameRuntime.inj he
    exact ⟨World.held?_begin_of_makes List.mem_cons_self hallows hn fun _ _ => Call.noConfusion,
      unnamed_of_fresh (x := .context (.ofRuntime s.fresh)) h rfl⟩

theorem leads_makeResolved (h : s.Proper) {recorder : String} {source destination : Label} {a : Action}
    (ha : s.makeResolved name recorder source destination = .ok a) : s.Leads a := by
  obtain ⟨_, -, ha⟩ := exists_of_bind_eq_ok ha
  obtain ⟨p, -, ha⟩ := exists_of_bind_eq_ok ha
  obtain rfl := Except.ok.inj ha
  let c : Call := .createAlone s.fresh p source destination
  have hnew : s.world.held? (.watchpoint s.fresh) = none := held?_fresh h rfl
  have hcontext : s.world.held? (.context (.ofWatchpoint s.fresh)) = none := held?_fresh h rfl
  have hallows : s.world.allows c = true := by
    simp [c, World.allows, World.contains_watchpoints, World.contains_contexts, hnew, hcontext]
  have hpermits : s.moment.permits c = true :=
    permits_of hallows fun l hl => absurd hl (Option.not_mem_none l)
  have hheld : (s.world.begin c).world.held? (.watchpoint s.fresh) = some true :=
    World.held?_begin_of_makes (List.mem_cons_of_mem _ List.mem_cons_self) hallows rfl
      fun _ _ => Call.noConfusion
  have horderly := orderly_of_makes (c := c) h (by simp [c, Call.makes, Identity.number]) rfl
  let s' : Session := { s with world := (s.world.begin c).world, fresh := s.fresh + 1 }
  have hrun : Run s.moment _ s'.moment := Moment.run_of_returned hpermits rfl
  have hsame : (s'.world.begin (.resolve s.fresh)).world.held? = s'.world.held? := World.held?_resolve _
  have hresolve : s'.moment.permits (.resolve s.fresh) = true :=
    permits_of (World.held_watchpoint_iff.mpr hheld) fun l hl => absurd hl (Option.not_mem_none l)
  refine .call hrun (Moment.quiet_of_returned hpermits rfl) hresolve (hsame ▸ horderly) ?_
  refine ⟨fun _ _ _ => Or.inr ⟨_, _, rfl⟩, fun _ _ => Closing.noConfusion,
    fun _ _ => Closing.noConfusion,
    fun w hw => ?_, fun d hd => ⟨fun w hw hl => ?_, fun w hw hl => ?_⟩, fun w hl => ?_⟩
  · obtain rfl := Option.some.inj hw
    exact ⟨hsame ▸ hheld, unnamed_of_fresh (x := .watchpoint s.fresh) h rfl, rfl⟩
  · obtain rfl := Option.some.inj hw
    exact Nat.lt_irrefl _ (h.lent d hd _ hl)
  · obtain rfl := Loan.watchpoint.inj hl
    exact unreserved_of_fresh (x := .watchpoint s.fresh) h rfl d hd _ hw rfl
  · obtain rfl := Loan.watchpoint.inj hl
    exact Nat.lt_succ_self _

/-! ### Steps that let something go -/

/-- A step that takes the name of an object away and then drops the object. -/
theorem leads_dropping {s' : Session} {c : Call} {x : Identity} (h : s.Proper)
    (same : s'.world = s.world ∧ s'.stack = s.stack ∧ s'.fresh = s.fresh) (named : s.Names name x)
    (names : ∀ n y, s'.Names n y → s.Names n y ∧ (y = x → n ≠ name))
    (drops : c.drops = some x) (makes : c.makes = []) (loan : c.loan = .nothing)
    (allowed : s.world.allows c = true) (free : ∀ l ∈ c.takes, s.moment.lends l = false) :
    s.Leads (.call s' {} c) := by
  obtain ⟨hworld, hstack, hfresh⟩ := same
  have hmoment : s'.moment = s.moment := by rw [moment, hworld, hstack]; rfl
  have hwaits : s'.waits = s.waits := by rw [waits, hstack]; rfl
  have horderly : Orderly s'.Names s'.fresh s'.waits (s'.world.begin c).world.held? := by
    rw [hworld, hfresh, hwaits]
    refine (h.forget fun n y hn => (names n y hn).1).drop (x := x) (fun n hn => ?_)
      (fun d hd w hw he => ?_) (fun y hy => ?_) ?_
    · exact (names n x hn).2 rfl (h.once n name x (names n x hn).1 named)
    · exact (h.reserved d hd w hw).2.1 name (he ▸ named)
    · refine World.held?_begin_of_ne (makes ▸ List.not_mem_nil) fun he => hy ?_
      exact Option.some.inj (he.symm.trans drops)
    · rw [h.held name x named]
      exact Option.some_ne_none _
  have hrun : Run s.moment [] s'.moment := by
    rw [hmoment]
    exact .nil _
  refine .call hrun Transition.quiet_nil ?_ horderly (fits_of_no_watchpoint rfl fun w hl => ?_)
  · rw [hmoment]
    exact permits_of allowed free
  · cases loan.symm.trans hl

theorem leads_dropWatchpoint (h : s.Proper) {a : Action} (ha : s.dropWatchpoint name = .ok a) :
    s.Leads a := by
  obtain ⟨w, hw, ha⟩ := exists_of_bind_eq_ok ha
  obtain ⟨_, hfree, ha⟩ := exists_of_bind_eq_ok ha
  obtain rfl := Except.ok.inj ha
  have hnamed := get?_of_find hw
  exact leads_dropping h ⟨rfl, rfl, rfl⟩ (x := .watchpoint w) hnamed
    (fun _ _ => names_eraseWatchpoint) rfl rfl rfl
    (held_of_name h hnamed) fun l hl => Option.some.inj hl ▸ lends_of_notLent hfree

theorem leads_dropHandle (h : s.Proper) {a : Action} (ha : s.dropHandle name = .ok a) : s.Leads a := by
  obtain ⟨k, hk, ha⟩ := exists_of_bind_eq_ok ha
  obtain ⟨_, hfree, ha⟩ := exists_of_bind_eq_ok ha
  obtain rfl := Except.ok.inj ha
  have hnamed := get?_of_find hk
  exact leads_dropping h ⟨rfl, rfl, rfl⟩ (x := .handle k) hnamed
    (fun _ _ => names_eraseHandle) rfl rfl rfl
    (handle_of_name h hnamed) fun l hl => Option.some.inj hl ▸ lends_of_notLent hfree

theorem leads_dropSlot (h : s.Proper) {a : Action} (ha : s.dropSlot name = .ok a) : s.Leads a := by
  obtain ⟨i, hi, ha⟩ := exists_of_bind_eq_ok ha
  obtain rfl := Except.ok.inj ha
  obtain ⟨hnamed, hfree⟩ := of_freeSlot hi
  exact leads_dropping h ⟨rfl, rfl, rfl⟩ (x := .slot i) hnamed
    (fun _ _ => names_eraseSlot) rfl rfl rfl
    (slot_of_name h hnamed) fun l hl => Option.some.inj hl ▸ hfree

theorem leads_dropRuntime (h : s.Proper) {a : Action} (ha : s.dropRuntime name = .ok a) :
    s.Leads a := by
  obtain ⟨r, -, ha⟩ := exists_of_bind_eq_ok ha
  obtain rfl := Except.ok.inj ha
  exact .result (h.forget fun _ _ => names_eraseRuntime) rfl

/-! ### All steps -/

/-- Whatever a step comes to, the surroundings may do it. -/
theorem leads_action (h : s.Proper) {step : Step} {a : Action} (ha : s.action step = .ok a) :
    s.Leads a := by
  cases step with
  | patcher | buffer | recorder | fixed =>
    obtain ⟨_, -, ha⟩ := exists_of_bind_eq_ok ha
    obtain rfl := Except.ok.inj ha
    exact .result h rfl
  | recorderInfo | recorderDebug | runtimeStats | runtimeConfig | runtimeDebug | watchpointInfo
  | watchpointDebug | setInfo | setDebug | slotInfo | slotDebug =>
    obtain ⟨_, -, ha⟩ := exists_of_bind_eq_ok ha
    obtain rfl := Except.ok.inj ha
    exact .result h rfl
  | setSame =>
    obtain ⟨_, -, ha⟩ := exists_of_bind_eq_ok ha
    obtain ⟨_, -, ha⟩ := exists_of_bind_eq_ok ha
    obtain rfl := Except.ok.inj ha
    exact .result h rfl
  | address | modes =>
    obtain rfl := Except.ok.inj ha
    exact .result h rfl
  | resolvedWatchpoint => exact leads_makeResolved h ha
  | runtime => exact leads_openRuntime h ha
  | runtimeDrop => exact leads_dropRuntime h ha
  | watchpoint => exact leads_makeWatchpoint h ha
  | watchpointDrop => exact leads_dropWatchpoint h ha
  | set => exact leads_makeSet h ha
  | setClone => exact leads_cloneHandle h ha
  | setDrop => exact leads_dropHandle h ha
  | slot => exact leads_makeSlot h ha
  | slotDrop => exact leads_dropSlot h ha
  | resolve | resolveFixed =>
    obtain ⟨w, hw, ha⟩ := exists_of_bind_eq_ok ha
    obtain ⟨_, -, ha⟩ := exists_of_bind_eq_ok ha
    obtain rfl := Except.ok.inj ha
    exact leads_onWatchpoint h (get?_of_find hw) rfl id ⟨rfl, rfl, rfl, rfl⟩
  | fire =>
    obtain ⟨w, hw, ha⟩ := exists_of_bind_eq_ok ha
    obtain rfl := Except.ok.inj ha
    exact leads_onWatchpoint h (get?_of_find hw) rfl id ⟨rfl, rfl, rfl, rfl⟩
  | register watchpoint set =>
    obtain ⟨w, hw, ha⟩ := exists_of_bind_eq_ok ha
    have hheld := held_of_name h (get?_of_find hw)
    refine leads_onHandle h ha (fun k hk => ?_) fun k => ⟨rfl, rfl, rfl, fun _ => Loan.noConfusion⟩
    exact Bool.and_eq_true_iff.mpr ⟨hk, hheld⟩
  | add set watchpoint =>
    obtain ⟨k, hk, ha⟩ := exists_of_bind_eq_ok ha
    obtain ⟨w, hw, ha⟩ := exists_of_bind_eq_ok ha
    obtain rfl := Except.ok.inj ha
    have hset := handle_of_name h (get?_of_find hk)
    have hheld := all_held_of_names h (get?_of_findOptional hw)
    exact leads_plain h (Bool.and_eq_true_iff.mpr ⟨hset, hheld⟩)
      (fun l hl => absurd hl (Option.not_mem_none l)) rfl rfl rfl fun _ => Loan.noConfusion
  | startWatching | notifyWrite | fireAll =>
    exact leads_onHandle h ha (fun _ hk => hk) fun _ => ⟨rfl, rfl, rfl, fun _ => Loan.noConfusion⟩
  | slotAdd watchpoint slot =>
    obtain ⟨w, hw, ha⟩ := exists_of_bind_eq_ok ha
    have hheld := all_held_of_names h (get?_of_findOptional hw)
    refine leads_onSlot h ha (fun i hi => ?_) fun i => ⟨rfl, rfl, rfl, fun _ => Loan.noConfusion⟩
    exact Bool.and_eq_true_iff.mpr ⟨hi, hheld⟩
  | slotStartWatching | slotNotifyWrite | slotFreeFat =>
    exact leads_onSlot h ha (fun _ hi => hi) fun _ => ⟨rfl, rfl, rfl, fun _ => Loan.noConfusion⟩
  | slotInflate slot copy =>
    exact leads_reportSlotSet h ha fun i => ⟨rfl, rfl, rfl, rfl, rfl, fun _ _ => Next.noConfusion⟩
  | slotPromote slot copy =>
    refine leads_reportSlotSet h ha fun i => ⟨rfl, rfl, rfl, rfl, rfl, fun r p hn => ?_⟩
    simp only [World.begin, World.promote] at hn
    split at hn <;> cases hn
  | panic message => cases ha

end Session

end Scenario

end Invalidation
