import Invalidation.Proofs.World.Linkage

/-! What turns do to the linkage of a world. Most do nothing: whatever joins or leaves a list, changes a
    flag, lets go of a share, fires or sweeps is a *plain* turn, which looks no label up either. What is
    left are the calls that make something, and resolving:

        resolve ──▶ ask for the source ──▶ ask for the destination ──▶ settled
           └──▶ already resolved    └──▶ refused       └──▶ refused, or not allowed -/

namespace Invalidation

variable {σ τ : World}

/-- The world as far as linking goes. -/
def World.linkage (σ : World) : Linkage :=
  ⟨σ.contexts, fun w => (σ.watchpoints.get? w).map Watchpoint.site⟩

/-- A turn that has nothing to do with linking. -/
structure Turn.Plain (σ : World) (t : Turn) : Prop where
  same : t.world.linkage = σ.linkage
  silent : ∀ r l, t.next ≠ .waiting r (.locate l)

/-- What a call does to a linkage at once. -/
def Call.deed? : Call → Option Deed
  | .openRuntime r p settings =>
    match settings.validate with
    | .ok settings => some (.opens r p settings)
    | .error _ => none
  | .create w r s d => some (.makes w r s d)
  | .createAlone w p s d => some (.makesAlone w p s d)
  | _ => none

/-- The deed of a call opens a runtime, or makes a watchpoint. -/
theorem Call.cases_of_deed? {c : Call} {d : Deed} (h : c.deed? = some d) :
    (∃ r p settings valid, c = .openRuntime r p settings ∧ settings.validate = .ok valid ∧
        d = .opens r p valid) ∨
      (∃ w r s t, c = .create w r s t ∧ d = .makes w r s t) ∨
      ∃ w p s t, c = .createAlone w p s t ∧ d = .makesAlone w p s t := by
  cases c with
  | openRuntime r p settings =>
    simp only [deed?] at h
    split at h
    · next valid hv => exact Or.inl ⟨r, p, settings, valid, rfl, hv, (Option.some.inj h).symm⟩
    · cases h
  | create w r s t => exact Or.inr (Or.inl ⟨w, r, s, t, rfl, (Option.some.inj h).symm⟩)
  | createAlone w p s t => exact Or.inr (Or.inr ⟨w, p, s, t, rfl, (Option.some.inj h).symm⟩)
  | _ => cases h

namespace Turn

variable {t : Turn}

theorem plain_done (h : τ.linkage = σ.linkage) : Plain σ τ.done := ⟨h, fun _ _ => Next.noConfusion⟩

theorem plain_panic (h : τ.linkage = σ.linkage) (fault : Fault) : Plain σ (τ.panic fault) :=
  ⟨h, fun _ _ => Next.noConfusion⟩

theorem Plain.after (h : Plain σ t) (events : List LogEvent) : Plain σ (t.after events) :=
  ⟨h.same, h.silent⟩

theorem Plain.trans (h : τ.linkage = σ.linkage) (h' : Plain τ t) : Plain σ t :=
  ⟨h'.same.trans h, h'.silent⟩

end Turn

namespace World

open Turn

variable {w : WatchpointId} {s : SetId}

/-! ### Changes to one object -/

theorem sites_linkage (σ : World) (w : WatchpointId) :
    σ.linkage.sites w = (σ.watchpoints.get? w).map Watchpoint.site := rfl

theorem contextOf_linkage (σ : World) (w : WatchpointId) :
    σ.linkage.contextOf w = (σ.watchpoint w).context := by
  rw [Linkage.contextOf, sites_linkage, watchpoint]
  cases σ.watchpoints.get? w <;> rfl

/-- The site of a watchpoint is where the watchpoint is. -/
theorem site_eq {x : Site} (h : σ.linkage.sites w = some x) : x = (σ.watchpoint w).site := by
  obtain ⟨v, hv, rfl⟩ := Option.map_eq_some_iff.mp h
  rw [watchpoint, hv, Option.getD_some]

theorem rules_of_site {x : Site} (h : σ.linkage.sites w = some x) :
    σ.linkage.rules x.context = (σ.contextOf w).settings.linking := by
  rw [site_eq h]
  rfl

theorem known_of_addresses {a : Address × Address} (h : (σ.watchpoint w).addresses? = some a) :
    ∃ x, σ.linkage.sites w = some x := by
  rw [watchpoint] at h
  cases hw : σ.watchpoints.get? w with
  | none =>
    rw [hw] at h
    cases h
  | some v => exact ⟨v.site, by rw [sites_linkage, hw, Option.map_some]⟩

theorem sites_linkage_of_held (h : (σ.watchpoint w).held = true) :
    σ.linkage.sites w = some (σ.watchpoint w).site := by
  rw [sites_linkage, known_of_held h, Option.map_some]

theorem linkage_count (σ : World) (w : WatchpointId) (f : Counters → Counters) :
    (σ.count w f).linkage = σ.linkage.count w f := by
  rw [Linkage.count, contextOf_linkage]
  rfl

theorem linkage_modifyWatchpoint {f : Watchpoint → Watchpoint} (same : ∀ v, (f v).site = v.site) :
    (σ.modifyWatchpoint w f).linkage = σ.linkage := by
  refine congrArg (Linkage.mk σ.contexts) (funext fun v => ?_)
  exact get?_modify_map _ _ _ _ _ same

@[simp] theorem linkage_unlink (σ : World) (w : WatchpointId) : (σ.unlink w).linkage = σ.linkage := by
  rw [unlink]
  split
  · rfl
  · exact linkage_modifyWatchpoint (σ := σ) (f := fun v => { v with membership := none }) fun _ => rfl

@[simp] theorem linkage_link (σ : World) (s : SetId) (w : WatchpointId) :
    (σ.link s w).linkage = σ.linkage := by
  refine congrArg (Linkage.mk σ.contexts) (funext fun v => ?_)
  exact get?_modify_map _ _ _ _ _ fun _ => rfl

@[simp] theorem linkage_abandon (σ : World) (sweep : Option Sweep) :
    (σ.abandon sweep).linkage = σ.linkage := by
  unfold abandon
  split <;> rfl

@[simp] theorem linkage_finish (σ : World) (s : SetId) (ending : Ending) :
    (σ.finish s ending).linkage = σ.linkage := by
  cases ending <;> rfl

@[simp] theorem linkage_unwind (σ : World) (pending : Pending) :
    (σ.unwind pending).linkage = σ.linkage := by
  cases pending with
  | patch p => exact linkage_abandon σ p.sweep
  | locate l => rfl

@[simp] theorem linkage_inflate (σ : World) (i : SlotId) : (σ.inflate i).1.linkage = σ.linkage := by
  rw [inflate]
  split <;> rfl

/-! ### Firing and sweeping -/

theorem plain_fire (w : WatchpointId) (sweep : Option Sweep) : Plain σ (σ.fire w sweep) := by
  rcases ha : (σ.watchpoint w).addresses? with _ | ⟨source, destination⟩
  · rw [fire_of_unresolved ha]
    exact plain_panic (linkage_abandon σ sweep) _
  · rw [fire_of_resolved ha]
    refine ⟨rfl, fun r l h => ?_⟩
    injection h with _ h
    cases h

theorem plain_sweepOn (sweep : Sweep) : Plain σ (σ.sweepOn sweep) := by
  rw [sweepOn]
  split
  · exact plain_fire _ _
  · exact (plain_done (linkage_finish σ _ _)).after _

theorem plain_release (s : SetId) : Plain σ (σ.release s) := by
  rw [release]
  split
  · exact plain_sweepOn _
  · exact plain_done rfl

/-- Going on after a jump is seen only in what is counted. -/
theorem linkage_patched (σ : World) (p : Patching) :
    (σ.patched p).world.linkage = σ.linkage.after (.redirects p.watchpoint) ∧
      ∀ r l, (σ.patched p).next ≠ .waiting r (.locate l) := by
  have hcount : ((σ.countRedirect p.watchpoint).unlink p.watchpoint).linkage =
      σ.linkage.after (.redirects p.watchpoint) :=
    (linkage_unlink _ _).trans (linkage_count _ _ _)
  rw [patched]
  split
  · exact ⟨hcount, fun _ _ => Next.noConfusion⟩
  · have h := plain_sweepOn (σ := (σ.countRedirect p.watchpoint).unlink p.watchpoint)
    exact ⟨(h _).same.trans hcount, (h _).silent⟩

/-! ### Resolving -/

/-- Resolving is turned down, or asks for the source label. -/
theorem resolve_cases (σ : World) (w : WatchpointId) :
    (σ.watchpoint w).labels? = none ∧ σ.resolve w = ⟨σ, [], .failed (.link .alreadyResolved)⟩ ∨
      ∃ s d, (σ.watchpoint w).labels? = some (s, d) ∧
        σ.resolve w = ⟨σ, [], .waiting (.locate s) (.locate ⟨w, s, d, none⟩)⟩ := by
  rw [resolve]
  split
  · next h => exact Or.inl ⟨h, rfl⟩
  · next s d h => exact Or.inr ⟨s, d, h, rfl⟩

/-- An answer ends the call with a failure, or leads to the question for the destination label, or
    settles both addresses. -/
theorem located_cases (σ : World) (l : Locating) (answer : Except LinkFailure Address) :
    (∃ e, σ.located l answer = ⟨σ, [], .failed e⟩) ∨
      (∃ a, answer = .ok a ∧ l.source = none ∧ σ.located l answer =
        ⟨σ, [], .waiting (.locate l.destinationLabel) (.locate { l with source := some a })⟩) ∨
      ∃ s d, answer = .ok d ∧ l.source = some s ∧
        (σ.contextOf l.watchpoint).settings.linking.checkJump s d = .ok () ∧
        σ.located l answer = (σ.settle l.watchpoint s d).done.after
          [.resolved l.sourceLabel l.destinationLabel s d] := by
  unfold located
  split
  · next e => exact Or.inl ⟨e, rfl⟩
  · next a h => exact Or.inr (Or.inl ⟨a, rfl, h, rfl⟩)
  · next d s h =>
    split
    · next e _ => exact Or.inl ⟨.link e, rfl⟩
    · next hcheck => exact Or.inr (Or.inr ⟨s, d, rfl, h, hcheck, rfl⟩)

theorem linkage_settle (σ : World) (w : WatchpointId) (s d : Address) :
    (σ.settle w s d).linkage = σ.linkage.after (.settles w s d) := by
  rw [settle, linkage_count, Linkage.after]
  refine congrArg (Linkage.count · w _) (congrArg (Linkage.mk σ.contexts) (funext fun v => ?_))
  simp only [modifyWatchpoint, Store.get?_modify, linkage]
  by_cases hv : w = v
  · subst hv
    rw [if_pos rfl, if_pos rfl]
    cases σ.watchpoints.get? w <;> rfl
  · rw [if_neg hv, if_neg (Ne.symm hv)]

/-! ### Calls -/

theorem plain_add (s : SetId) (w : Option WatchpointId) : Plain σ (σ.add s w) := by
  cases w with
  | none => exact plain_done rfl
  | some w =>
    simp only [add]
    refine Plain.after ?_ _
    split
    · exact plain_panic rfl _
    · exact plain_done (linkage_link σ s w)

theorem plain_notifyWrite (s : SetId) : Plain σ (σ.notifyWrite s) := by
  rw [notifyWrite]
  split
  · exact plain_sweepOn _
  · exact plain_panic rfl _

theorem plain_dropWatchpoint (w : WatchpointId) : Plain σ (σ.dropWatchpoint w) := by
  refine (plain_done ?_).after _
  exact (linkage_modifyWatchpoint (f := fun v => { v with held := false }) fun _ => rfl).trans
    (linkage_unlink σ w)

theorem plain_slotAdd (i : SlotId) (w : Option WatchpointId) : Plain σ (σ.slotAdd i w) := by
  simp only [slotAdd]
  split
  · exact (Plain.trans (linkage_inflate σ i) (plain_add _ w)).after _
  · exact (plain_done (linkage_inflate σ i)).after _

theorem plain_promote (i : SlotId) : Plain σ (σ.promote i) := by
  rw [promote]
  split
  · next t f _ _ _ =>
      exact (plain_done (show (σ.promoteFrom i _ f).linkage = σ.linkage from rfl)).after _
  · exact plain_panic rfl _

theorem plain_slotNotifyWrite (i : SlotId) : Plain σ (σ.slotNotifyWrite i) := by
  rw [slotNotifyWrite]
  split
  · refine plain_done ?_
    split <;> rfl
  · split
    · exact plain_notifyWrite _
    · exact plain_done rfl
  · exact plain_done rfl

theorem plain_freeFat (i : SlotId) : Plain σ (σ.freeFat i) := by
  unfold freeFat
  split
  · exact plain_panic rfl _
  · next s _ =>
    exact ⟨(plain_release s).same, (plain_release s).silent⟩

theorem plain_dropHandle (h : HandleId) : Plain σ (σ.dropHandle h) := by
  unfold dropHandle
  split
  · next s _ => exact ⟨(plain_release s).same, (plain_release s).silent⟩
  · exact plain_done rfl

theorem plain_dropSlot (i : SlotId) : Plain σ (σ.dropSlot i) := by
  unfold dropSlot
  split
  · next s _ => exact ⟨(plain_release s).same, (plain_release s).silent⟩
  · exact plain_done rfl

theorem plain_onHandle {f : SetId → Turn} (h : HandleId) (plain : ∀ s, Plain σ (f s)) :
    Plain σ (σ.onHandle h f) := by
  rw [onHandle]
  split
  · exact plain _
  · exact plain_done rfl

theorem linkage_newHandle (σ : World) (t : Option SetId) (h : HandleId) :
    (σ.newHandle t h).linkage = σ.linkage := by
  cases t <;> rfl

theorem linkage_slotStartWatching (σ : World) (i : SlotId) :
    (σ.slotStartWatching i).linkage = σ.linkage := by
  rw [slotStartWatching]
  split <;> rfl

theorem linkage_create (σ : World) (w : WatchpointId) (c : ContextId) (s d : Label) :
    (σ.create w c s d).linkage =
      (σ.linkage.place w (some ⟨.label s, .label d, c⟩)).count w
        fun n => { n with created := n.created + 1 } := by
  rw [create, linkage_count]
  refine congrArg (Linkage.count · w _) (congrArg (Linkage.mk σ.contexts) (funext fun v => ?_))
  simp only [Store.get?_put, linkage]
  by_cases hv : w = v
  · rw [if_pos hv, if_pos hv.symm]
    rfl
  · rw [if_neg hv, if_neg (Ne.symm hv)]

theorem maxJumpDistance_ne_zero {settings valid : Settings} (h : settings.validate = .ok valid) :
    valid.linking.maxJumpDistance ≠ 0 := by
  intro hzero
  obtain ⟨firing, linking⟩ := settings
  by_cases hl : linking.maxJumpDistance = 0
  · simp [Settings.validate, Firing.validate, Linking.validate, hl] at h
    cases h
  · simp [Settings.validate, Firing.validate, Linking.validate, hl] at h
    cases h
    exact hl hzero

/-- The deed of a call that the surroundings may make is allowed. -/
theorem allows_of_deed? {c : Call} {d : Deed} (allowed : σ.allows c = true) (h : c.deed? = some d) :
    σ.linkage.Allows d := by
  have new : ∀ {w}, (!σ.watchpoints.contains w) = true → σ.linkage.sites w = none := by
    intro w hw
    rw [sites_linkage, get?_eq_none_of_not_contains hw, Option.map_none]
  rcases c.cases_of_deed? h with ⟨r, p, settings, valid, rfl, hv, rfl⟩ | ⟨w, r, s, t, rfl, rfl⟩ |
    ⟨w, p, s, t, rfl, rfl⟩
  · exact ⟨get?_eq_none_of_not_contains allowed, maxJumpDistance_ne_zero hv⟩
  · obtain ⟨hw, hr⟩ := Bool.and_eq_true_iff.mp allowed
    exact ⟨new hw, Option.isSome_iff_exists.mp hr⟩
  · obtain ⟨hw, hc⟩ := Bool.and_eq_true_iff.mp allowed
    exact ⟨new hw, get?_eq_none_of_not_contains hc⟩

/-- A call does the deed that it is known for, and only the one that resolves a watchpoint looks a label
    up. -/
theorem linkage_begin (σ : World) (c : Call) :
    (σ.begin c).world.linkage = c.deed?.elim σ.linkage σ.linkage.after ∧
      ((∀ w, c ≠ .resolve w) → ∀ r l, (σ.begin c).next ≠ .waiting r (.locate l)) := by
  have plain : ∀ {t : Turn}, Plain σ t → t.world.linkage = σ.linkage ∧
      ((∀ w, c ≠ .resolve w) → ∀ r l, t.next ≠ .waiting r (.locate l)) :=
    fun h => ⟨h.same, fun _ => h.silent⟩
  cases c with
  | openRuntime r p settings =>
    simp only [begin, openRuntime, Call.deed?]
    cases settings.validate with
    | ok settings => exact ⟨rfl, fun _ _ _ => Next.noConfusion⟩
    | error reason => exact ⟨rfl, fun _ _ _ => Next.noConfusion⟩
  | create w r s d => exact ⟨linkage_create σ w _ s d, fun _ _ _ => Next.noConfusion⟩
  | createAlone w p s d => exact ⟨linkage_create _ w _ s d, fun _ _ _ => Next.noConfusion⟩
  | resolve w =>
    rcases resolve_cases σ w with ⟨-, h⟩ | ⟨s, d, -, h⟩
    · rw [begin, h]
      exact ⟨rfl, fun hne => absurd rfl (hne w)⟩
    · rw [begin, h]
      exact ⟨rfl, fun hne => absurd rfl (hne w)⟩
  | fire w => exact plain (plain_fire w none)
  | dropWatchpoint w => exact plain (plain_dropWatchpoint w)
  | newSet h mode => exact plain (plain_done rfl)
  | cloneHandle h copy => exact plain (plain_done (linkage_newHandle σ _ _))
  | add h w => exact plain (plain_onHandle h fun s => plain_add s w)
  | startWatching h => exact plain (plain_onHandle h fun _ => plain_done rfl)
  | notifyWrite h => exact plain (plain_onHandle h plain_notifyWrite)
  | fireAll h => exact plain (plain_onHandle h fun s => plain_sweepOn _)
  | dropHandle h => exact plain (plain_dropHandle h)
  | newSlot i mode => exact plain (plain_done rfl)
  | slotAdd i w => exact plain (plain_slotAdd i w)
  | slotStartWatching i => exact plain (plain_done (linkage_slotStartWatching σ i))
  | slotNotifyWrite i => exact plain (plain_slotNotifyWrite i)
  | inflate i => exact plain ((plain_done (linkage_inflate σ i)).after _)
  | promote i => exact plain (plain_promote i)
  | handleOfSlot i h => exact plain (plain_done (linkage_newHandle σ _ _))
  | freeFat i => exact plain (plain_freeFat i)
  | dropSlot i => exact plain (plain_dropSlot i)

end World

end Invalidation
