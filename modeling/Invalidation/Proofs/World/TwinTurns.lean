import Invalidation.Proofs.Run.Moment
import Invalidation.Proofs.World.Held
import Invalidation.Proofs.World.Twin
import Invalidation.World.Report

/-! The same turn on both sides. A call on the left, and its twin on the right, have turns that end in
    worlds which are alike, ask for the same and report the same events, where it does not count that a
    slot gets its set.

        left                            right
        call on slot i        ──▶       the same on handle h
        any other call        ──▶       the same call
        inflate slot i        ──▶       nothing
        a write to slot i     ──▶       a write to handle h, if its set is watched -/

namespace Invalidation

/-- A sweep on the left, with the names of the right. -/
def Sweep.twin (i : SlotId) (h : HandleId) (s : Sweep) : Sweep := { s with set := s.set.twin i h }

/-- What a call on the left still has to do, with the names of the right. -/
def Pending.twin (i : SlotId) (h : HandleId) : Pending → Pending
  | .patch p => .patch { p with sweep := p.sweep.map (Sweep.twin i h) }
  | .locate l => .locate l

/-- The end of a turn on the left, with the names of the right. -/
def Next.twin (i : SlotId) (h : HandleId) : Next → Next
  | .waiting r p => .waiting r (p.twin i h)
  | n => n

/-- Whether an event reports that a slot has got a set of its own. -/
def LogEvent.isPromotion : LogEvent → Bool
  | .promoted _ => true
  | _ => false

/-- The events but for those that report a promotion. -/
def unpromoted (events : List LogEvent) : List LogEvent := events.filter fun e => !e.isPromotion

/-- Two turns that end alike, and ask for and report the same. -/
structure Turn.Twins (i : SlotId) (h : HandleId) (t u : Turn) : Prop where
  world : t.world.Alike i h u.world
  next : u.next = t.next.twin i h
  events : unpromoted u.events = unpromoted t.events
  /-- What goes on being swept has been made. -/
  made : ∀ r p s, t.next = .waiting r (.patch p) → p.sweep = some s → t.world.Issued s.set

variable {i : SlotId} {h : HandleId} {σ τ : World} {s : SetId} {w : WatchpointId} {j : SlotId}
  {k : HandleId}

namespace Turn.Twins

variable {t u : Turn}

theorem after (T : Twins i h t u) (events : List LogEvent) :
    Twins i h (t.after events) (u.after events) where
  world := T.world
  next := T.next
  events := by
    have hevents := T.events
    unfold unpromoted at hevents ⊢
    rw [Turn.after, Turn.after, List.filter_append, List.filter_append, hevents]
  made := T.made

/-- That a slot gets its set may be reported on the left alone. -/
theorem after_promoted (T : Twins i h t u) (f : Flags) : Twins i h (t.after [.promoted f]) u where
  world := T.world
  next := T.next
  events := T.events
  made := T.made

end Turn.Twins

namespace World.Alike

open Turn

theorem twins_done (A : Alike i h σ τ) : Twins i h σ.done τ.done :=
  ⟨A, rfl, rfl, fun _ _ _ => Next.noConfusion⟩

theorem twins_panic (A : Alike i h σ τ) (fault : Fault) : Twins i h (σ.panic fault) (τ.panic fault) :=
  ⟨A, rfl, rfl, fun _ _ _ => Next.noConfusion⟩

theorem twins_failed (A : Alike i h σ τ) (failure : LinkFailure) :
    Twins i h ⟨σ, [], .failed failure⟩ ⟨τ, [], .failed failure⟩ :=
  ⟨A, rfl, rfl, fun _ _ _ => Next.noConfusion⟩

theorem twins_locating (A : Alike i h σ τ) (label : Label) (l : Locating) :
    Twins i h ⟨σ, [], .waiting (.locate label) (.locate l)⟩
      ⟨τ, [], .waiting (.locate label) (.locate l)⟩ := by
  refine ⟨A, rfl, rfl, fun _ _ _ hn => ?_⟩
  injection hn with _ hn
  cases hn

/-! ### Firing and sweeping -/

theorem finish (A : Alike i h σ τ) {sweep : Sweep} (made : σ.Issued sweep.set) (ready : sweep.Ready σ) :
    Alike i h (σ.finish sweep.set sweep.ending) (τ.finish (sweep.set.twin i h) sweep.ending) := by
  cases he : sweep.ending with
  | rest => exact A
  | invalidate => exact A.modifyFlags made fun _ => .broken
  | destroy => exact A.erase made (ready he).2

theorem abandon (A : Alike i h σ τ) {sweep : Option Sweep} (made : ∀ s, sweep = some s → σ.Issued s.set)
    (ready : ∀ s, sweep = some s → s.Ready σ) :
    Alike i h (σ.abandon sweep) (τ.abandon (sweep.map (Sweep.twin i h))) := by
  rcases sweep with _ | ⟨s, n, ending⟩
  · exact A
  · cases ending with
    | rest | invalidate => exact A
    | destroy => exact A.erase (made _ rfl) (ready _ rfl rfl).2

theorem twins_fire (A : Alike i h σ τ) (w : WatchpointId) (sweep : Option Sweep)
    (made : ∀ s, sweep = some s → σ.Issued s.set) (ready : ∀ s, sweep = some s → s.Ready σ) :
    Twins i h (σ.fire w sweep) (τ.fire w (sweep.map (Sweep.twin i h))) := by
  have hw := A.watchpoint w
  rcases ha : (σ.watchpoint w).addresses? with _ | ⟨source, destination⟩
  · have ha' : (τ.watchpoint w).addresses? = none := by rw [hw]; exact ha
    rw [fire_of_unresolved ha, fire_of_unresolved ha', hw]
    exact (A.abandon made ready).twins_panic _
  · have ha' : (τ.watchpoint w).addresses? = some (source, destination) := by rw [hw]; exact ha
    rw [fire_of_resolved ha, fire_of_resolved ha', A.contextOf]
    refine ⟨A, rfl, rfl, fun r p s hn hs => made s ?_⟩
    injection hn with _ hn
    injection hn with hn
    rw [← hs, ← hn]

theorem twins_sweepOn (A : Alike i h σ τ) (sweep : Sweep) (made : σ.Issued sweep.set)
    (ready : sweep.Ready σ) : Twins i h (σ.sweepOn sweep) (τ.sweepOn (sweep.twin i h)) := by
  have hlist := A.watchersOf made
  cases hfront : (σ.watchersOf sweep.set).front? with
  | some w =>
    have hfront' : (τ.watchersOf (sweep.twin i h).set).front? = some w := by rw [← hfront, ← hlist]; rfl
    rw [sweepOn_of_front hfront, sweepOn_of_front hfront']
    exact A.twins_fire w (some sweep) (fun _ hs => Option.some.inj hs ▸ made)
      fun _ hs => Option.some.inj hs ▸ ready
  | none =>
    have hfront' : (τ.watchersOf (sweep.twin i h).set).front? = none := by rw [← hfront, ← hlist]; rfl
    rw [sweepOn_of_drained hfront, sweepOn_of_drained hfront']
    exact (A.finish made ready).twins_done.after _

theorem fired (A : Alike i h σ τ) (hσ : σ.Coherent) (w : WatchpointId) :
    Alike i h ((σ.countRedirect w).unlink w) ((τ.countRedirect w).unlink w) :=
  (A.count w _).unlink (hσ.edits (Edit.count w _).edits) w

theorem twins_patched (A : Alike i h σ τ) (hσ : σ.Coherent) {p : Patching}
    (made : ∀ s, p.sweep = some s → σ.Issued s.set) (ready : ∀ s, p.sweep = some s → s.Ready σ) :
    Twins i h (σ.patched p) (τ.patched { p with sweep := p.sweep.map (Sweep.twin i h) }) := by
  obtain ⟨w, sweep⟩ := p
  have A' := A.fired hσ w
  have e := edits_fired σ w
  cases sweep with
  | none => exact A'.twins_done
  | some s =>
    have hr : Sweep.Ready _ { s with fired := s.fired + 1 } := (ready s rfl).edits e
    exact A'.twins_sweepOn { s with fired := s.fired + 1 } (e.issued (made s rfl)) hr

theorem twins_release (A : Alike i h σ τ) (hσ : σ.Coherent) (tidy : σ.Tidy) (tidy' : τ.Tidy)
    (issued : σ.Issued s) : Twins i h (σ.release s) (τ.release (s.twin i h)) := by
  have hlast : τ.owners (s.twin i h) = 0 ↔ σ.owners s = 0 := by
    rw [tidy.owners_eq_zero_iff, tidy'.owners_eq_zero_iff, A.owned_iff hσ tidy issued]
  rw [release, release]
  by_cases last : σ.owners s = 0
  · rw [if_pos last, if_pos (hlast.mpr last)]
    exact A.twins_sweepOn ⟨s, 0, .destroy⟩ issued fun _ =>
      ⟨issued, not_owned_of_owners_eq_zero last⟩
  · rw [if_neg last, if_neg (mt hlast.mp last)]
    exact A.twins_done

/-! ### Registering, writing, letting go -/

theorem twins_add (A : Alike i h σ τ) (issued : σ.Issued s) (w : Option WatchpointId) :
    Twins i h (σ.add s w) (τ.add (s.twin i h) w) := by
  cases w with
  | none => exact A.twins_done
  | some w =>
    simp only [World.add, A.flagsOf issued, A.isOnList, A.source, A.destination]
    refine Twins.after ?_ _
    split
    · exact A.twins_panic _
    · exact (A.link issued w).twins_done

theorem twins_notifyWrite (A : Alike i h σ τ) (issued : σ.Issued s) :
    Twins i h (σ.notifyWrite s) (τ.notifyWrite (s.twin i h)) := by
  rw [World.notifyWrite, World.notifyWrite, A.flagsOf issued]
  split
  · exact A.twins_sweepOn ⟨s, 0, .invalidate⟩ issued Ending.noConfusion
  · exact A.twins_panic _

theorem twins_watch (A : Alike i h σ τ) (issued : σ.Issued s) :
    Twins i h (σ.modifyFlags s fun f => { f with watched := true }).done
      (τ.modifyFlags (s.twin i h) fun f => { f with watched := true }).done :=
  (A.modifyFlags issued _).twins_done

theorem twins_dropWatchpoint (A : Alike i h σ τ) (hσ : σ.Coherent) (w : WatchpointId) :
    Twins i h (σ.dropWatchpoint w) (τ.dropWatchpoint w) := by
  simp only [World.dropWatchpoint, A.isOnList, A.source, A.destination]
  have A' := (A.unlink hσ w).modifyWatchpoint (f := fun v => { v with held := false })
    (g := fun v => { v with held := false }) (fun _ => rfl) w
  exact A'.twins_done.after _

theorem twins_resolve (A : Alike i h σ τ) (w : WatchpointId) :
    Twins i h (σ.resolve w) (τ.resolve w) := by
  have hlabels : (τ.watchpoint w).labels? = (σ.watchpoint w).labels? := by
    rw [A.watchpoint]
    rfl
  rw [World.resolve, World.resolve, hlabels]
  split
  · exact A.twins_failed _
  · exact A.twins_locating _ _

theorem twins_located (A : Alike i h σ τ) (l : Locating) (answer : Except LinkFailure Address) :
    Twins i h (σ.located l answer) (τ.located l answer) := by
  unfold World.located
  rw [A.contextOf]
  split
  · exact A.twins_failed _
  · exact A.twins_locating _ _
  · next destination source _ =>
    split
    · exact A.twins_failed _
    · have A' := A.modifyWatchpoint
        (f := fun v => { v with source := .address source, destination := .address destination })
        (g := fun v => { v with source := .address source, destination := .address destination })
        (fun _ => rfl) l.watchpoint
      exact (A'.count l.watchpoint _).twins_done.after _

theorem twins_openRuntime (A : Alike i h σ τ) (r : RuntimeId) (p : PatcherId) (settings : Settings) :
    Twins i h (σ.openRuntime r p settings) (τ.openRuntime r p settings) := by
  rw [World.openRuntime, World.openRuntime]
  split
  · exact A.twins_failed _
  · exact (A.putContext _ _).twins_done.after _

theorem create (A : Alike i h σ τ) (w : WatchpointId) (c : ContextId) (source destination : Label) :
    Alike i h (σ.create w c source destination) (τ.create w c source destination) :=
  (A.putWatchpoint w rfl).count w _

/-- A call on a handle is the same on both sides if it is on the set and on its twin. -/
theorem twins_onHandle (A : Alike i h σ τ) (hk : k ≠ h) {f g : SetId → Turn}
    (same : ∀ s, σ.handleSet? k = some s → Twins i h (f s) (g (s.twin i h))) :
    Twins i h (σ.onHandle k f) (τ.onHandle k g) := by
  rw [onHandle, onHandle, A.shares k hk]
  cases hs : σ.handleSet? k with
  | none => exact A.twins_done
  | some s => exact same s hs

theorem twins_dropHandle (A : Alike i h σ τ) (hσ : σ.Coherent) (tidy : σ.Tidy) (tidy' : τ.Tidy)
    (hk : k ≠ h) : Twins i h (σ.dropHandle k) (τ.dropHandle k) := by
  have A' := A.dropHandle hk
  rw [World.dropHandle, World.dropHandle, A.shares k hk]
  cases hs : σ.handleSet? k with
  | none => exact A'.twins_done
  | some s =>
    have e := (Edit.dropHandle (σ := σ) k).edits
    have e' := (Edit.dropHandle (σ := τ) k).edits
    exact A'.twins_release (hσ.edits e) (tidy.edits e) (tidy'.edits e')
      (e.issued (hσ.issued_of_owned (Or.inl ⟨k, hs⟩)))

/-! ### Other slots -/

theorem inflate (A : Alike i h σ τ) (hj : j ≠ i) :
    Alike i h (σ.inflate j).1 (τ.inflate j).1 ∧ (τ.inflate j).2 = (σ.inflate j).2 := by
  rw [World.inflate, World.inflate, A.slot? hj]
  split
  · exact ⟨A.promoteFrom hj _ _, rfl⟩
  · exact ⟨A, rfl⟩

theorem twins_promote (A : Alike i h σ τ) (hj : j ≠ i) : Twins i h (σ.promote j) (τ.promote j) := by
  rw [World.promote, World.promote, A.slot? hj]
  split
  · exact (A.promoteFrom hj _ _).twins_done.after _
  · exact A.twins_panic _

theorem twins_slotAdd (A : Alike i h σ τ) (hσ : σ.Coherent) (tidy : σ.Tidy) (hj : j ≠ i)
    (w : Option WatchpointId) : Twins i h (σ.slotAdd j w) (τ.slotAdd j w) := by
  obtain ⟨A', hevents⟩ := A.inflate hj
  have e := edits_inflate (σ := σ) j
  simp only [World.slotAdd, hevents, A'.fatSet? hj]
  cases hs : (σ.inflate j).1.fatSet? j with
  | none => exact A'.twins_done.after _
  | some s =>
    have issued := (hσ.edits e).issued_of_owned (Or.inr ⟨j, hs⟩)
    have T := A'.twins_add issued w
    rw [twin_of_fatSet? (tidy.edits e) hj hs] at T
    exact T.after _

theorem slotStartWatching (A : Alike i h σ τ) (hσ : σ.Coherent) (tidy : σ.Tidy) (hj : j ≠ i) :
    Alike i h (σ.slotStartWatching j) (τ.slotStartWatching j) := by
  rw [World.slotStartWatching, World.slotStartWatching, A.slot? hj]
  split
  · exact A.modifySlot hj _
  · next s n held hs =>
    have share : σ.fatSet? j = some s := by rw [World.fatSet?, hs]
    have A' :=
      A.modifyFlags (hσ.issued_of_owned (Or.inr ⟨j, share⟩)) fun f => { f with watched := true }
    rwa [twin_of_fatSet? tidy hj share] at A'
  · exact A

theorem twins_slotNotifyWrite (A : Alike i h σ τ) (hσ : σ.Coherent) (tidy : σ.Tidy) (hj : j ≠ i) :
    Twins i h (σ.slotNotifyWrite j) (τ.slotNotifyWrite j) := by
  rw [World.slotNotifyWrite, World.slotNotifyWrite, A.slot? hj]
  split
  · split
    · exact (A.modifySlot hj _).twins_done
    · exact A.twins_done
  · next s n held hs =>
    have share : σ.fatSet? j = some s := by rw [World.fatSet?, hs]
    have issued := hσ.issued_of_owned (Or.inr ⟨j, share⟩)
    have hflags := A.flagsOf issued
    have T := A.twins_notifyWrite issued
    rw [twin_of_fatSet? tidy hj share] at hflags T
    rw [hflags]
    split
    · exact T
    · exact A.twins_done
  · exact A.twins_done

theorem twins_dropSlot (A : Alike i h σ τ) (hσ : σ.Coherent) (tidy : σ.Tidy) (tidy' : τ.Tidy)
    (hj : j ≠ i) : Twins i h (σ.dropSlot j) (τ.dropSlot j) := by
  have A' := A.modifySlot hj fun t => { t with held := false }
  rw [World.dropSlot, World.dropSlot, A.fatSet? hj]
  cases hs : σ.fatSet? j with
  | none => exact A'.twins_done
  | some s =>
    have e := (Edit.dropSlot (σ := σ) j).edits
    have e' := (Edit.dropSlot (σ := τ) j).edits
    have T := A'.twins_release (hσ.edits e) (tidy.edits e) (tidy'.edits e')
      (e.issued (hσ.issued_of_owned (Or.inr ⟨j, hs⟩)))
    rwa [twin_of_fatSet? tidy hj hs] at T

theorem twins_freeFat (A : Alike i h σ τ) (hσ : σ.Coherent) (tidy : σ.Tidy) (tidy' : τ.Tidy)
    (hj : j ≠ i) : Twins i h (σ.freeFat j) (τ.freeFat j) := by
  rw [World.freeFat, World.freeFat, A.fatSet? hj]
  cases hs : σ.fatSet? j with
  | none => exact A.twins_panic _
  | some s =>
    have issued := hσ.issued_of_owned (Or.inr ⟨j, hs⟩)
    have htwin : s.twin i h = s := twin_of_fatSet? tidy hj hs
    have hown : s ≠ .ofSlot i 0 := by
      rintro rfl
      rw [SetId.twin_own] at htwin
      cases htwin
    have hflags := A.flagsOf issued
    have hlist := A.watchersOf issued
    rw [htwin] at hflags hlist
    have hkept : ∀ shared, τ.flagsAfterFree s shared = σ.flagsAfterFree s shared := fun shared => by
      rw [flagsAfterFree, flagsAfterFree, hflags, hlist]
    simp only [A.owners_eq hσ tidy tidy' issued hown, hkept]
    have e := edits_giveUp hs (σ.owners s > 1)
    have e' := edits_giveUp ((A.fatSet? hj).trans hs) (σ.owners s > 1)
    rw [hkept] at e'
    have T := (A.modifySlot hj _).twins_release (hσ.edits e) (tidy.edits e) (tidy'.edits e')
      (e.issued issued)
    rw [htwin] at T
    exact T.after _

/-! ### Calls that are not on the slot -/

theorem ne_of_newSlot (A : Alike i h σ τ) {mode : InitialMode}
    (allowed : σ.allows (.newSlot j mode) = true) : j ≠ i := by
  rintro rfl
  have hnone := get?_eq_none_of_not_contains allowed
  rcases A.own with ⟨f, ht, -⟩ | ⟨ht, -⟩ <;> cases ht.symm.trans hnone

theorem allows_elsewhere (A : Alike i h σ τ) {c : Call} (elsewhere : c.takes ≠ some (.slot i))
    (unnamed : .handle h ∉ c.makes) (allowed : σ.allows c = true) : τ.allows c = true := by
  have hcontexts : ∀ x, τ.contexts.contains x = σ.contexts.contains x := fun x => by
    rw [Store.contains, Store.contains, A.contexts]
  have hwatchpoints : ∀ w, τ.watchpoints.contains w = σ.watchpoints.contains w := fun w => by
    rw [Store.contains, Store.contains, A.watchpoints, Option.isSome_map]
  have hshare : ∀ k, (σ.handleSet? k).isSome = true → (τ.handleSet? k).isSome = true := fun k hk => by
    obtain ⟨s, hs⟩ := Option.isSome_iff_exists.mp hk
    rw [A.shares k (A.ne_of_handleSet? hs), Option.isSome_map, hk]
  have hslot : ∀ j, Loan.slot j ≠ .slot i → τ.slot? j = σ.slot? j := fun j hj =>
    A.slot? fun he => hj (congrArg Loan.slot he)
  cases c with
  | openRuntime | create | createAlone =>
    simpa only [allows, hcontexts, hwatchpoints] using allowed
  | resolve | fire | dropWatchpoint => simpa only [allows, A.held] using allowed
  | newSet k mode =>
    have hk : k ≠ h := fun he => unnamed (by simp [Call.makes, he])
    simpa only [allows, A.known k hk] using allowed
  | cloneHandle k copy =>
    have hcopy : copy ≠ h := fun he => unnamed (by simp [Call.makes, he])
    obtain ⟨hk, hnew⟩ := Bool.and_eq_true_iff.mp allowed
    exact Bool.and_eq_true_iff.mpr ⟨hshare k hk, by rw [A.known copy hcopy, hnew]⟩
  | add k w =>
    obtain ⟨hk, hw⟩ := Bool.and_eq_true_iff.mp allowed
    exact Bool.and_eq_true_iff.mpr ⟨hshare k hk, by simpa only [A.held] using hw⟩
  | startWatching k | notifyWrite k | fireAll k | dropHandle k => exact hshare k allowed
  | newSlot j mode =>
    rw [allows, Store.contains, A.slots j (A.ne_of_newSlot allowed)]
    exact allowed
  | slotAdd j w =>
    have hj := hslot j fun he => elsewhere (congrArg some he)
    simpa only [allows, hj, A.held] using allowed
  | handleOfSlot j k =>
    have hj := hslot j fun he => elsewhere (congrArg some he)
    have hk : k ≠ h := fun he => unnamed (by simp [Call.makes, he])
    simpa only [allows, hj, A.known k hk] using allowed
  | slotStartWatching j | slotNotifyWrite j | inflate j | promote j | freeFat j | dropSlot j =>
    have hj := hslot j fun he => elsewhere (congrArg some he)
    simpa only [allows, hj] using allowed

theorem twins_begin_elsewhere (A : Alike i h σ τ) (hσ : σ.Coherent) (tidy : σ.Tidy) (tidy' : τ.Tidy)
    {c : Call} (elsewhere : c.takes ≠ some (.slot i)) (unnamed : .handle h ∉ c.makes)
    (allowed : σ.allows c = true) : Twins i h (σ.begin c) (τ.begin c) := by
  have hhandle : ∀ k, (σ.handleSet? k).isSome = true → k ≠ h := fun k hk => by
    obtain ⟨s, hs⟩ := Option.isSome_iff_exists.mp hk
    exact A.ne_of_handleSet? hs
  have hissued : ∀ k s, σ.handleSet? k = some s → σ.Issued s := fun k s hs =>
    hσ.issued_of_owned (Or.inl ⟨k, hs⟩)
  cases c with
  | openRuntime r p settings => exact A.twins_openRuntime r p settings
  | create w r source destination => exact (A.create w _ source destination).twins_done
  | createAlone w p source destination =>
    exact ((A.putContext (.ofWatchpoint w) { patcher := p }).create w _ source destination).twins_done
  | resolve w => exact A.twins_resolve w
  | fire w =>
    exact A.twins_fire w none (fun _ hs => by cases hs) fun _ hs => by cases hs
  | dropWatchpoint w => exact A.twins_dropWatchpoint hσ w
  | newSet k mode =>
    exact (A.newSet (fun he => unnamed (by simp [Call.makes, he])) mode).twins_done
  | cloneHandle k copy =>
    have hk := hhandle k (Bool.and_eq_true_iff.mp allowed).1
    have A' := A.newHandle (k := copy) (fun he => unnamed (by simp [Call.makes, he])) (σ.handleSet? k)
    rw [← A.shares k hk] at A'
    exact A'.twins_done
  | add k w =>
    exact A.twins_onHandle (hhandle k (Bool.and_eq_true_iff.mp allowed).1) fun s hs =>
      A.twins_add (hissued k s hs) w
  | startWatching k =>
    exact A.twins_onHandle (hhandle k allowed) fun s hs => A.twins_watch (hissued k s hs)
  | notifyWrite k =>
    exact A.twins_onHandle (hhandle k allowed) fun s hs => A.twins_notifyWrite (hissued k s hs)
  | fireAll k =>
    exact A.twins_onHandle (hhandle k allowed) fun s hs =>
      A.twins_sweepOn ⟨s, 0, .rest⟩ (hissued k s hs) Ending.noConfusion
  | dropHandle k => exact A.twins_dropHandle hσ tidy tidy' (hhandle k allowed)
  | newSlot j mode =>
    exact (A.putSlot (A.ne_of_newSlot allowed) _).twins_done
  | slotAdd j w => exact A.twins_slotAdd hσ tidy (fun he => elsewhere (by rw [he]; rfl)) w
  | slotStartWatching j =>
    exact (A.slotStartWatching hσ tidy fun he => elsewhere (by rw [he]; rfl)).twins_done
  | slotNotifyWrite j =>
    exact A.twins_slotNotifyWrite hσ tidy fun he => elsewhere (by rw [he]; rfl)
  | inflate j =>
    obtain ⟨A', hevents⟩ := A.inflate (j := j) fun he => elsewhere (by rw [he]; rfl)
    rw [begin, begin, hevents]
    exact A'.twins_done.after _
  | promote j => exact A.twins_promote fun he => elsewhere (by rw [he]; rfl)
  | handleOfSlot j k =>
    have hj : j ≠ i := fun he => elsewhere (by rw [he]; rfl)
    have A' := A.newHandle (k := k) (fun he => unnamed (by simp [Call.makes, he])) (σ.fatSet? j)
    have htwin : (σ.fatSet? j).map (SetId.twin i h) = τ.fatSet? j := by
      rw [A.fatSet? hj]
      cases hs : σ.fatSet? j with
      | none => rfl
      | some s => rw [Option.map_some, twin_of_fatSet? tidy hj hs]
    rw [htwin] at A'
    exact A'.twins_done
  | freeFat j => exact A.twins_freeFat hσ tidy tidy' fun he => elsewhere (by rw [he]; rfl)
  | dropSlot j => exact A.twins_dropSlot hσ tidy tidy' fun he => elsewhere (by rw [he]; rfl)

end World.Alike

end Invalidation
