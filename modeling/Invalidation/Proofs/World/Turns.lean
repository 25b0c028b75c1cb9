import Invalidation.Proofs.World.Edit
import Invalidation.Proofs.World.Coherent

/-! What a turn amounts to. A turn *does* a list of changes if it is made of edits with just these
    labels, asks for no jump but that of the watchpoint it is about to fire, and leaves no sweep behind
    that would strike off a set which somebody still owns. Every call, and every answer to a call that
    waits, has a turn that does at most one change:

        registering ──▶ join        dropping a watchpoint, or going on after its jump ──▶ leave

    A turn that is cut short, because a watchpoint without addresses was to fire or because whoever was
    asked has failed, may at last strike off the set that was being destroyed, with all that is still
    registered on it. -/

namespace Invalidation

variable {σ τ : World}

/-- Whether a call neither fires nor sweeps, whatever the world is like. -/
def Call.isQuiet : Call → Bool
  | .fire _ | .notifyWrite _ | .fireAll _ | .dropHandle _ | .slotNotifyWrite _ | .freeFat _
  | .dropSlot _ => false
  | _ => true

/-- A sweep that will strike off its set has a set that nobody owns any more. -/
def Sweep.Ready (σ : World) (s : Sweep) : Prop :=
  s.ending = .destroy → σ.Issued s.set ∧ ¬ σ.Owned s.set

/-- A watchpoint without addresses was to fire, or whoever was asked has failed. -/
def Turn.isCut (t : Turn) : Bool :=
  match t.next with
  | .panicked (.unresolved _ _) | .panicked (.foreign _) => true
  | _ => false

/-- A turn that is made of edits with just these labels, and neither fires nor is cut short. -/
structure Turn.Settles (σ : World) (changes : List Change) (t : Turn) : Prop where
  edits : World.Edits σ changes t.world
  still : ∀ r p, t.next ≠ .waiting r (.patch p)
  whole : t.isCut = false

/-- What a turn does: these changes, and at last it may do away with the set that it sweeps. -/
structure Turn.Does (σ : World) (changes : List Change) (t : Turn) : Prop where
  edits : ∃ last : Option Change, World.Edits σ (changes ++ last.toList) t.world ∧
    ∀ c, last = some c → ∃ s, c = .retire s ∨ c = .vanish s ∧ t.isCut = true
  ready : ∀ r p s, t.next = .waiting r (.patch p) → p.sweep = some s → s.Ready t.world
  own : ∀ r p, t.next = .waiting r (.patch p) → ∃ source destination,
    (t.world.watchpoint p.watchpoint).addresses? = some (source, destination) ∧
      r = .patch (t.world.contextOf p.watchpoint).patcher source destination

namespace Turn

variable {cs ds : List Change} {t : Turn}

theorem Settles.does (h : Settles σ cs t) : Does σ cs t where
  edits := ⟨none, by simpa using h.edits, fun _ hc => by cases hc⟩
  ready r p _ hn := absurd hn (h.still r p)
  own r p hn := absurd hn (h.still r p)

theorem Settles.after (h : Settles σ cs t) (events : List LogEvent) : Settles σ cs (t.after events) :=
  ⟨h.edits, h.still, h.whole⟩

theorem Settles.trans (e : World.Edits σ cs τ) (h : Settles τ ds t) : Settles σ (cs ++ ds) t :=
  ⟨e.trans h.edits, h.still, h.whole⟩

theorem settles_done (e : World.Edits σ cs τ) : Settles σ cs τ.done :=
  ⟨e, fun _ _ => Next.noConfusion, rfl⟩

theorem settles_panic {fault : Fault} (whole : (τ.panic fault).isCut = false)
    (e : World.Edits σ cs τ) : Settles σ cs (τ.panic fault) :=
  ⟨e, fun _ _ => Next.noConfusion, whole⟩

theorem Does.after (h : Does σ cs t) (events : List LogEvent) : Does σ cs (t.after events) :=
  ⟨h.edits, h.ready, h.own⟩

theorem Does.trans (e : World.Edits σ cs τ) (h : Does τ ds t) : Does σ (cs ++ ds) t := by
  obtain ⟨last, he, hl⟩ := h.edits
  exact ⟨⟨last, List.append_assoc .. ▸ e.trans he, hl⟩, h.ready, h.own⟩

/-- A turn that ends a call where it stands does nothing more than to strike off a set. -/
theorem does_panic {last : Option Change} {fault : Fault} (e : World.Edits σ last.toList τ)
    (hl : ∀ c, last = some c → ∃ s, c = .retire s ∨ c = .vanish s ∧ (τ.panic fault).isCut = true) :
    Does σ [] (τ.panic fault) :=
  ⟨⟨last, e, hl⟩, fun _ _ _ => Next.noConfusion, fun _ _ => Next.noConfusion⟩

end Turn

theorem Sweep.Ready.edits {s : Sweep} {cs : List Change} (h : s.Ready σ) (e : World.Edits σ cs τ) :
    s.Ready τ := fun hd => by
  obtain ⟨issued, alone⟩ := h hd
  exact ⟨e.issued issued, fun ho => alone (e.owned ho issued)⟩

namespace World

open Turn

variable {s : SetId} {w : WatchpointId}

/-! ### Firing and sweeping -/

theorem fire_of_unresolved (h : (σ.watchpoint w).addresses? = none) (sweep : Option Sweep) :
    σ.fire w sweep = (σ.abandon sweep).panic
      (.unresolved (σ.watchpoint w).source (σ.watchpoint w).destination) := by
  rw [fire]
  simp only [h]

theorem fire_of_resolved {source destination : Address}
    (h : (σ.watchpoint w).addresses? = some (source, destination)) (sweep : Option Sweep) :
    σ.fire w sweep =
      ⟨σ, if (σ.contextOf w).settings.firing.traceRedirects then
          [.redirecting source destination] else [],
        .waiting (.patch (σ.contextOf w).patcher source destination) (.patch ⟨w, sweep⟩)⟩ := by
  rw [fire]
  simp only [h]

theorem sweepOn_of_front {sweep : Sweep} (h : (σ.watchersOf sweep.set).front? = some w) :
    σ.sweepOn sweep = σ.fire w (some sweep) := by
  rw [sweepOn, h]

theorem sweepOn_of_drained {sweep : Sweep} (h : (σ.watchersOf sweep.set).front? = none) :
    σ.sweepOn sweep = (σ.finish sweep.set sweep.ending).done.after
      (if sweep.fired > 0 then [.sweepFinished sweep.fired] else []) := by
  rw [sweepOn, h]

/-- A sweep that ends abruptly changes nothing, or strikes off a set that nobody owns. -/
theorem edits_abandon {sweep : Option Sweep} (ready : ∀ s, sweep = some s → s.Ready σ) :
    ∃ last : Option Change, Edits σ last.toList (σ.abandon sweep) ∧
      ∀ c, last = some c → ∃ s, c = .vanish s := by
  unfold abandon
  split
  · next s n =>
    refine ⟨_, (Edit.discard (ready ⟨s, n, .destroy⟩ rfl rfl).2).edits, fun c hc => ⟨s, ?_⟩⟩
    exact (Option.some.inj hc).symm
  · exact ⟨none, .refl σ, fun _ hc => by cases hc⟩

/-- Giving up where something fires is a turn that is cut short. -/
theorem does_abandon {sweep : Option Sweep} {fault : Fault} (ready : ∀ s, sweep = some s → s.Ready σ)
    (cut : ((σ.abandon sweep).panic fault).isCut = true) :
    Does σ [] ((σ.abandon sweep).panic fault) := by
  obtain ⟨last, e, hl⟩ := edits_abandon ready
  refine does_panic e fun c hc => ?_
  obtain ⟨s, hs⟩ := hl c hc
  exact ⟨s, Or.inr ⟨hs, cut⟩⟩

theorem does_finish {s : Sweep} (ready : s.Ready σ) (drained : (σ.watchersOf s.set).front? = none) :
    Does σ [] (σ.finish s.set s.ending).done := by
  cases h : s.ending with
  | rest => exact (settles_done (.refl σ)).does
  | invalidate => exact (settles_done (Edit.break drained).edits).does
  | destroy =>
    refine ⟨⟨some (.retire s.set), (Edit.erase (ready h).2 drained).edits,
      fun c hc => ⟨s.set, Or.inl ?_⟩⟩, fun _ _ _ => Next.noConfusion, fun _ _ => Next.noConfusion⟩
    exact (Option.some.inj hc).symm

theorem does_fire (w : WatchpointId) {sweep : Option Sweep}
    (ready : ∀ s, sweep = some s → s.Ready σ) : Does σ [] (σ.fire w sweep) := by
  rcases ha : (σ.watchpoint w).addresses? with _ | ⟨source, destination⟩
  · rw [fire_of_unresolved ha]
    exact does_abandon ready rfl
  · rw [fire_of_resolved ha]
    refine ⟨⟨none, .refl σ, fun _ hc => by cases hc⟩, ?_, ?_⟩
    · rintro r p s ⟨⟩ hs
      exact ready s hs
    · rintro r p ⟨⟩
      exact ⟨source, destination, ha, rfl⟩

theorem does_sweepOn {sweep : Sweep} (ready : sweep.Ready σ) : Does σ [] (σ.sweepOn sweep) := by
  cases hf : (σ.watchersOf sweep.set).front? with
  | some w =>
    rw [sweepOn_of_front hf]
    exact does_fire w fun s hs => Option.some.inj hs ▸ ready
  | none =>
    rw [sweepOn_of_drained hf]
    exact (does_finish ready hf).after _

theorem does_sweep {ending : Ending} (ready : ending = .destroy → σ.Issued s ∧ ¬ σ.Owned s) :
    Does σ [] (σ.sweep s ending) := by
  have hr : Sweep.Ready σ ⟨s, 0, ending⟩ := ready
  exact does_sweepOn hr

theorem edits_fired (σ : World) (w : WatchpointId) :
    Edits σ [.leave w] ((σ.countRedirect w).unlink w) :=
  (Edit.count w _).edits.trans (Edit.unlink w).edits

/-- After its jump is installed, a watchpoint leaves the list that it is on at that time. -/
theorem does_patched {p : Patching} (ready : ∀ s, p.sweep = some s → s.Ready σ) :
    Does σ [.leave p.watchpoint] (σ.patched p) := by
  have e := edits_fired σ p.watchpoint
  rw [patched]
  split
  · exact (settles_done e).does
  · next s hs =>
    have hr : Sweep.Ready _ { s with fired := s.fired + 1 } := (ready s hs).edits e
    exact Does.trans e (does_sweepOn hr)

theorem does_release (issued : σ.Issued s) : Does σ [] (σ.release s) := by
  rw [release]
  split
  · next h => exact does_sweep fun _ => ⟨issued, not_owned_of_owners_eq_zero h⟩
  · exact (settles_done (.refl σ)).does

/-! ### Answers -/

/-- Looking a label up changes nothing but the locations of the watchpoint. -/
theorem settles_located (l : Locating) (answer : Except LinkFailure Address) :
    Settles σ [] (σ.located l answer) := by
  unfold located
  split
  · exact ⟨.refl σ, fun _ _ => Next.noConfusion, rfl⟩
  · refine ⟨.refl σ, fun _ _ h => ?_, rfl⟩
    injection h with _ h
    cases h
  · split
    · exact ⟨.refl σ, fun _ _ => Next.noConfusion, rfl⟩
    · exact (settles_done ((Edit.locate _ _ _).edits.trans (Edit.count _ _).edits)).after _

/-! ### Calls -/

/-- The identities of a call: what it makes has not been made before, and what it works on is held. -/
def allows (σ : World) : Call → Bool
  | .openRuntime r _ _ => !σ.contexts.contains (.ofRuntime r)
  | .create w r _ _ => !σ.watchpoints.contains w && σ.contexts.contains (.ofRuntime r)
  | .createAlone w _ _ _ => !σ.watchpoints.contains w && !σ.contexts.contains (.ofWatchpoint w)
  | .resolve w | .fire w | .dropWatchpoint w => (σ.watchpoint w).held
  | .newSet h _ => !σ.handles.contains h
  | .cloneHandle h copy => (σ.handleSet? h).isSome && !σ.handles.contains copy
  | .add h w => (σ.handleSet? h).isSome && w.all fun w => (σ.watchpoint w).held
  | .startWatching h | .notifyWrite h | .fireAll h | .dropHandle h => (σ.handleSet? h).isSome
  | .newSlot i _ => !σ.slots.contains i
  | .slotAdd i w => (σ.slot? i).isSome && w.all fun w => (σ.watchpoint w).held
  | .handleOfSlot i h => (σ.slot? i).isSome && !σ.handles.contains h
  | .slotStartWatching i | .slotNotifyWrite i | .inflate i | .promote i | .freeFat i
  | .dropSlot i => (σ.slot? i).isSome

/-- The change of a registration: there is one if there is somebody to register and the call returns. -/
def join? (s : Option SetId) (w : Option WatchpointId) : Next → Option Change
  | .returned => s.bind fun s => w.map fun w => .join w s
  | _ => none

/-- The change that a call does: registering and dropping a watchpoint are the only ones with any. -/
def change? (σ : World) (c : Call) : Option Change :=
  match c with
  | .add h w => join? (σ.handleSet? h) w (σ.begin c).next
  | .slotAdd i w => join? ((σ.begin c).world.fatSet? i) w (σ.begin c).next
  | .dropWatchpoint w => some (.leave w)
  | _ => none

theorem eq_of_join? {t : Option SetId} {v : Option WatchpointId} {n : Next} {c : Change}
    (h : join? t v n = some c) : n = .returned ∧ ∃ w s, v = some w ∧ t = some s ∧ c = .join w s := by
  unfold join? at h
  split at h
  · obtain ⟨s, rfl, h⟩ := Option.bind_eq_some_iff.mp h
    obtain ⟨w, rfl, rfl⟩ := Option.map_eq_some_iff.mp h
    exact ⟨rfl, w, s, rfl, rfl, rfl⟩
  · cases h

/-- A call that does something to a list has returned, or has dropped a watchpoint. -/
theorem cases_of_change? {call : Call} {c : Change} (h : σ.change? call = some c) :
    ((σ.begin call).next = .returned ∧ ∃ w s, c = .join w s) ∨
      ∃ w, call = .dropWatchpoint w ∧ c = .leave w := by
  cases call with
  | add | slotAdd =>
    obtain ⟨hn, w, s, -, -, hc⟩ := eq_of_join? h
    exact Or.inl ⟨hn, w, s, hc⟩
  | dropWatchpoint w => exact Or.inr ⟨w, rfl, (Option.some.inj h).symm⟩
  | _ => cases h

theorem known_of_held (h : (σ.watchpoint w).held = true) :
    σ.watchpoints.get? w = some (σ.watchpoint w) := by
  unfold watchpoint at h ⊢
  cases hw : σ.watchpoints.get? w with
  | none =>
    rw [hw] at h
    cases h
  | some v => rfl

theorem get?_eq_none_of_not_contains {κ α : Type} [DecidableEq κ] {t : Store κ α} {k : κ}
    (h : (!t.contains k) = true) : t.get? k = none := by
  rw [Store.contains, Bool.not_eq_true'] at h
  exact Option.not_isSome_iff_eq_none.mp (by simp [h])

theorem Coherent.issued_of_owned (h : σ.Coherent) (hs : σ.Owned s) : σ.Issued s := by
  obtain ⟨l, hl⟩ := h.alive s hs
  exact h.made s l hl

theorem add_of_off (s : SetId) (off : (σ.watchpoint w).membership = none) :
    ∃ events, σ.add s (some w) = (σ.link s w).done.after events := by
  have hoff : ¬ (σ.watchpoint w).isOnList = true := by simp [Watchpoint.isOnList, off]
  simp only [add]
  rw [if_neg hoff]
  exact ⟨_, rfl⟩

theorem add_of_on (s : SetId) {m : Membership} (on : (σ.watchpoint w).membership = some m) :
    ∃ events, σ.add s (some w) = (σ.panic (.alreadyRegistered (σ.watchpoint w).source
      (σ.watchpoint w).destination)).after events := by
  have hon : (σ.watchpoint w).isOnList = true := by simp [Watchpoint.isOnList, on]
  simp only [add]
  rw [if_pos hon]
  exact ⟨_, rfl⟩

/-- Registering does nothing, fails, or joins the list; who shares in which set stays as it is. -/
theorem settles_add (owned : σ.Owned s) {w : Option WatchpointId}
    (held : ∀ v, w = some v → (σ.watchpoint v).held = true) :
    Settles σ (join? (some s) w (σ.add s w).next).toList (σ.add s w) ∧
      ∀ i, (σ.add s w).world.fatSet? i = σ.fatSet? i := by
  cases w with
  | none => exact ⟨settles_done (.refl σ), fun _ => rfl⟩
  | some w =>
    cases hm : (σ.watchpoint w).membership with
    | none =>
      obtain ⟨events, h⟩ := add_of_off s hm
      have e := (Edit.link owned (known_of_held (held w rfl)) (held w rfl) hm).edits
      rw [h]
      exact ⟨(settles_done e).after _, fun _ => rfl⟩
    | some m =>
      obtain ⟨events, h⟩ := add_of_on s hm
      rw [h]
      exact ⟨(settles_panic rfl (.refl σ)).after _, fun _ => rfl⟩

theorem edits_inflate (i : SlotId) : Edits σ [] (σ.inflate i).1 := by
  unfold inflate
  split
  · next t f n held h => exact (Edit.promote h rfl).edits
  · exact .refl σ

theorem watchpoint_inflate (i : SlotId) (w : WatchpointId) :
    (σ.inflate i).1.watchpoint w = σ.watchpoint w := by
  unfold inflate
  split <;> rfl

/-- Registering on a slot first gives it a set, which is the one that the slot shares in from then
    on. -/
theorem settles_slotAdd (i : SlotId) {w : Option WatchpointId}
    (held : ∀ v, w = some v → (σ.watchpoint v).held = true) :
    Settles σ (join? ((σ.slotAdd i w).world.fatSet? i) w (σ.slotAdd i w).next).toList
      (σ.slotAdd i w) := by
  have e := edits_inflate (σ := σ) i
  cases hs : (σ.inflate i).1.fatSet? i with
  | none =>
    have heq : σ.slotAdd i w = (σ.inflate i).1.done.after (σ.inflate i).2 := by
      simp only [slotAdd, hs]
    rw [heq, show ((σ.inflate i).1.done.after (σ.inflate i).2).world.fatSet? i = none from hs]
    exact (settles_done e).after _
  | some s =>
    have heq : σ.slotAdd i w = ((σ.inflate i).1.add s w).after (σ.inflate i).2 := by
      simp only [slotAdd, hs]
    have hheld : ∀ v, w = some v → ((σ.inflate i).1.watchpoint v).held = true := fun v hv => by
      rw [watchpoint_inflate, held v hv]
    obtain ⟨hd, hshare⟩ := settles_add (Or.inr ⟨i, hs⟩) hheld
    rw [heq, show (((σ.inflate i).1.add s w).after (σ.inflate i).2).world.fatSet? i = some s from
      (hshare i).trans hs]
    exact (Settles.trans e hd).after _

/-- A watchpoint that has left its list is on none. -/
theorem membership_unlink (σ : World) (w : WatchpointId) :
    ((σ.unlink w).watchpoint w).membership = none := by
  rw [membership_eq, tie?_unlink, if_pos rfl]
  cases σ.tie? w <;> rfl

theorem settles_dropWatchpoint (w : WatchpointId) : Settles σ [.leave w] (σ.dropWatchpoint w) :=
  (settles_done ((Edit.unlink w).edits.trans (Edit.letGo (membership_unlink σ w)).edits)).after _

theorem settles_resolve (w : WatchpointId) : Settles σ [] (σ.resolve w) := by
  rw [resolve]
  split
  · exact ⟨.refl σ, fun _ _ => Next.noConfusion, rfl⟩
  · refine ⟨.refl σ, fun _ _ h => ?_, rfl⟩
    injection h with _ h
    cases h

theorem edits_create {c : ContextId} {source destination : Label}
    (new : σ.watchpoints.get? w = none) : Edits σ [] (σ.create w c source destination) :=
  (Edit.appear _ new rfl).edits.trans (Edit.count w _).edits

theorem edits_slotStartWatching (i : SlotId) : Edits σ [] (σ.slotStartWatching i) := by
  unfold slotStartWatching
  split
  · next f _ _ held => exact (Edit.store held f.mayBecome_watched).edits
  · exact (Edit.watch _).edits
  · exact .refl σ

theorem settles_promote (i : SlotId) : Settles σ [] (σ.promote i) := by
  unfold promote
  split
  · next t f n held h => exact (settles_done (Edit.promote h rfl).edits).after _
  · exact settles_panic rfl (.refl σ)

theorem edits_newHandle {t : Option SetId} {h : HandleId} (owned : ∀ s, t = some s → σ.Owned s)
    (new : σ.handles.get? h = none) : Edits σ [] (σ.newHandle t h) := by
  cases t with
  | none => exact .refl σ
  | some s => exact (Edit.newHandle new (owned s rfl)).edits

theorem settles_startWatching (h : HandleId) : Settles σ [] (σ.begin (.startWatching h)) := by
  simp only [begin, onHandle]
  split
  · exact settles_done (Edit.watch _).edits
  · exact settles_done (.refl σ)

theorem settles_openRuntime {r : RuntimeId} (new : σ.contexts.get? (.ofRuntime r) = none)
    (p : PatcherId) (settings : Settings) : Settles σ [] (σ.openRuntime r p settings) := by
  rw [openRuntime]
  split
  · exact ⟨.refl σ, fun _ _ => Next.noConfusion, rfl⟩
  · exact (settles_done (Edit.openContext _ new).edits).after _

/-- A quiet call does the change that it is known for, and nothing else. -/
theorem settles_begin {c : Call} (quiet : c.isQuiet = true) (allowed : σ.allows c = true) :
    Settles σ (σ.change? c).toList (σ.begin c) := by
  cases c with
  | fire | notifyWrite | fireAll | dropHandle | slotNotifyWrite | freeFat | dropSlot => cases quiet
  | openRuntime r p settings =>
    exact settles_openRuntime (get?_eq_none_of_not_contains allowed) p settings
  | create w r source destination =>
    have hnew := get?_eq_none_of_not_contains (Bool.and_eq_true_iff.mp allowed).1
    exact settles_done (edits_create hnew)
  | createAlone w p source destination =>
    obtain ⟨hw, hc⟩ := Bool.and_eq_true_iff.mp allowed
    have hnew := get?_eq_none_of_not_contains hw
    have e := (Edit.openContext (σ := σ) { patcher := p } (get?_eq_none_of_not_contains hc)).edits
    exact settles_done (e.trans (edits_create hnew))
  | resolve w => exact settles_resolve w
  | dropWatchpoint w => exact settles_dropWatchpoint w
  | newSet h mode =>
    exact settles_done (Edit.newSet mode (get?_eq_none_of_not_contains allowed)).edits
  | cloneHandle h copy =>
    have hnew := get?_eq_none_of_not_contains (Bool.and_eq_true_iff.mp allowed).2
    exact settles_done (edits_newHandle (fun s hs => Or.inl ⟨h, hs⟩) hnew)
  | add h w =>
    obtain ⟨hs, hheld⟩ := Bool.and_eq_true_iff.mp allowed
    obtain ⟨s, hs⟩ := Option.isSome_iff_exists.mp hs
    have hd := settles_add (Or.inl ⟨h, hs⟩) (w := w) fun v hv => by simpa [hv] using hheld
    have heq : σ.begin (.add h w) = σ.add s w := by simp only [begin, onHandle, hs]
    rw [change?, heq, hs]
    exact hd.1
  | startWatching h => exact settles_startWatching h
  | newSlot i mode =>
    exact settles_done (Edit.newSlot mode (get?_eq_none_of_not_contains allowed)).edits
  | slotAdd i w =>
    have hheld := (Bool.and_eq_true_iff.mp allowed).2
    exact settles_slotAdd i fun v hv => by simpa [hv] using hheld
  | slotStartWatching i => exact settles_done (edits_slotStartWatching i)
  | inflate i => exact (settles_done (edits_inflate i)).after _
  | promote i => exact settles_promote i
  | handleOfSlot i h =>
    have hnew := get?_eq_none_of_not_contains (Bool.and_eq_true_iff.mp allowed).2
    exact settles_done (edits_newHandle (fun s hs => Or.inr ⟨i, hs⟩) hnew)

/-! ### Calls that fire or sweep -/

theorem does_notifyWrite (s : SetId) : Does σ [] (σ.notifyWrite s) := by
  rw [notifyWrite]
  split
  · exact does_sweep Ending.noConfusion
  · exact (settles_panic rfl (.refl σ)).does

theorem does_slotNotifyWrite (i : SlotId) : Does σ [] (σ.slotNotifyWrite i) := by
  unfold slotNotifyWrite
  split
  · next f _ _ held =>
    split
    · exact (settles_done (Edit.store held f.mayBecome_broken).edits).does
    · exact (settles_done (.refl σ)).does
  · split
    · exact does_notifyWrite _
    · exact (settles_done (.refl σ)).does
  · exact (settles_done (.refl σ)).does

theorem does_dropHandle (h : σ.Coherent) (h' : HandleId) : Does σ [] (σ.dropHandle h') := by
  have e := (Edit.dropHandle (σ := σ) h').edits
  unfold dropHandle
  split
  · next s hs => exact Does.trans e (does_release (e.issued (h.issued_of_owned (Or.inl ⟨h', hs⟩))))
  · exact (settles_done e).does

theorem does_dropSlot (h : σ.Coherent) (i : SlotId) : Does σ [] (σ.dropSlot i) := by
  have e := (Edit.dropSlot (σ := σ) i).edits
  unfold dropSlot
  split
  · next s hs => exact Does.trans e (does_release (e.issued (h.issued_of_owned (Or.inr ⟨i, hs⟩))))
  · exact (settles_done e).does

theorem mayBecome_flagsAfterFree (σ : World) (s : SetId) (shared : Bool) :
    (σ.flagsOf s).MayBecome (σ.flagsAfterFree s shared) := by
  rw [flagsAfterFree]
  split
  · exact Flags.mayBecome_broken _
  · exact .refl _

/-- A slot that gives up its share keeps flags that those of the set may become. -/
theorem edits_giveUp {i : SlotId} (share : σ.fatSet? i = some s) (shared : Bool) :
    Edits σ [] (σ.store i (.thin (σ.flagsAfterFree s shared))) := by
  obtain ⟨n, held, hslot⟩ := slot?_of_fatSet? share
  exact (Edit.store hslot (mayBecome_flagsAfterFree σ s shared)).edits

theorem does_freeFat (h : σ.Coherent) (i : SlotId) : Does σ [] (σ.freeFat i) := by
  unfold freeFat
  split
  · exact (settles_panic rfl (.refl σ)).does
  · next s hs =>
    have e := edits_giveUp hs (σ.owners s > 1)
    exact (Does.trans e (does_release (e.issued (h.issued_of_owned (Or.inr ⟨i, hs⟩))))).after _

theorem does_onHandle {h : HandleId} {f : SetId → Turn}
    (hf : ∀ s, σ.handleSet? h = some s → Does σ [] (f s)) : Does σ [] (σ.onHandle h f) := by
  rw [onHandle]
  split
  · next s hs => exact hf s hs
  · exact (settles_done (.refl σ)).does

/-- Every call does the change that it is known for, and nothing else. -/
theorem does_begin (h : σ.Coherent) {c : Call} (allowed : σ.allows c = true) :
    Does σ (σ.change? c).toList (σ.begin c) := by
  by_cases quiet : c.isQuiet = true
  · exact (settles_begin quiet allowed).does
  · cases c with
    | fire w => exact does_fire w fun _ hs => by cases hs
    | notifyWrite h' => exact does_onHandle fun s _ => does_notifyWrite s
    | fireAll h' => exact does_onHandle fun s _ => does_sweep Ending.noConfusion
    | dropHandle h' => exact does_dropHandle h h'
    | slotNotifyWrite i => exact does_slotNotifyWrite i
    | freeFat i => exact does_freeFat h i
    | dropSlot i => exact does_dropSlot h i
    | _ => exact absurd rfl quiet

end World

end Invalidation
