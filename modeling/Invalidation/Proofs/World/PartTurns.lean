import Invalidation.Proofs.World.Part

/-! Turns seen from a group. Each operation is taken once, whatever group looks on: what it reads,
    it reads in its own group, and so it comes to the same turn on the part; what it changes, it
    changes there, and so the other parts stay as they are.

        sweep s ─▶ head of the list of s ─▶ its context, its membership = s
          └──────── all in the group of s ────────┘ -/

namespace Invalidation

variable {Group : Type} [DecidableEq Group] {group : Identity → Group} {g d : Group}

namespace World

variable {σ τ : World} {w : WatchpointId} {s : SetId} {h : HandleId} {i : SlotId}

/-! ### Firing -/

section

variable (apart : σ.Apart group)
include apart

theorem confined_unlink (hw : group (.watchpoint w) = d) :
    Confined group g d σ (σ.unlink w) ((σ.part group g).unlink w) := by
  have hread : d = g → (σ.part group g).watchpoint w = σ.watchpoint w :=
    fun e => watchpoint_part (hw.trans e)
  cases hm : (σ.watchpoint w).membership with
  | none =>
    have hunlink : ∀ τ : World, τ.watchpoint w = σ.watchpoint w → τ.unlink w = τ := fun τ he => by
      rw [unlink, he, hm]
    exact .reads hunlink hread (.refl apart)
  | some m =>
    have hunlink : ∀ τ : World, τ.watchpoint w = σ.watchpoint w → τ.unlink w =
        (τ.modifyWatchpoint w fun v => { v with membership := none }).modifySet m.set fun t =>
          { t with watchers := (t.watchers.remove m.key).1 } := fun τ he => by rw [unlink, he, hm]
    have hs : group m.set.home = d := (apart.membership hm).trans hw
    have hfirst :=
      confined_modifyWatchpoint (g := g) apart hw (f := fun v => { v with membership := none })
      fun v hv => ⟨hv.context, fun _ h => by cases h⟩
    exact .reads hunlink hread
      (hfirst.trans (f := fun τ => τ.modifySet m.set _) (confined_modifySet hfirst.apart hs _))

theorem confined_abandon {sweep : Option Sweep} (hs : ∀ s, sweep = some s → group s.set.home = d) :
    Confined group g d σ (σ.abandon sweep) ((σ.part group g).abandon sweep) := by
  unfold abandon
  split
  · next s n => exact confined_eraseSet apart (hs _ rfl)
  · exact .refl apart

theorem confined_finish (hs : group s.home = d) (ending : Ending) :
    Confined group g d σ (σ.finish s ending) ((σ.part group g).finish s ending) := by
  cases ending with
  | rest => exact .refl apart
  | invalidate => exact confined_modifySet apart hs _
  | destroy => exact confined_eraseSet apart hs

theorem confined_fire (known : σ.watchpoints.contains w = true) (hw : group (.watchpoint w) = d)
    {sweep : Option Sweep} (hs : ∀ s, sweep = some s → group s.set.home = d) :
    Turn.Confined group g d σ (σ.fire w sweep) ((σ.part group g).fire w sweep) := by
  have hread : d = g → (σ.part group g).watchpoint w = σ.watchpoint w :=
    fun e => watchpoint_part (hw.trans e)
  cases ha : (σ.watchpoint w).addresses? with
  | none =>
    rw [fire_of_unresolved ha]
    refine ((confined_abandon apart hs).panic _).congr fun e => ?_
    rw [fire_of_unresolved (by rw [hread e, ha]), hread e]
  | some a =>
    obtain ⟨source, destination⟩ := a
    rw [fire_of_resolved ha]
    refine ((Confined.refl apart).ends _ _ fun r p hn => ?_).congr fun e => ?_
    · obtain ⟨-, rfl⟩ := Next.waiting.inj hn
      exact ⟨hw, hs⟩
    · have hc := (apart.context known).trans (hw.trans e)
      rw [fire_of_resolved (by rw [hread e, ha]), contextOf_part (hw.trans e) hc]

theorem confined_sweepOn (coherent : σ.Coherent) {sweep : Sweep} (hs : group sweep.set.home = d) :
    Turn.Confined group g d σ (σ.sweepOn sweep) ((σ.part group g).sweepOn sweep) := by
  have hread : d = g → (σ.part group g).watchersOf sweep.set = σ.watchersOf sweep.set := fun e =>
    watchersOf_part (hs.trans e)
  cases hf : (σ.watchersOf sweep.set).front? with
  | some w =>
    have hmem : w ∈ σ.queue sweep.set := List.mem_of_head? (coherent.front?_eq _ ▸ hf)
    obtain ⟨known, hw⟩ := apart.queue coherent hmem
    rw [sweepOn_of_front hf]
    refine (confined_fire apart known (hw.trans hs) fun s he => Option.some.inj he ▸ hs).congr
      fun e => ?_
    rw [sweepOn_of_front (by rw [hread e, hf])]
  | none =>
    rw [sweepOn_of_drained hf]
    refine ((confined_finish apart hs _).done.after _).congr fun e => ?_
    rw [sweepOn_of_drained (by rw [hread e, hf])]

theorem confined_sweep (coherent : σ.Coherent) (hs : group s.home = d) (ending : Ending) :
    Turn.Confined group g d σ (σ.sweep s ending) ((σ.part group g).sweep s ending) :=
  confined_sweepOn apart coherent hs

theorem confined_release (coherent : σ.Coherent) (tidy : σ.Tidy) (hs : group s.home = d) :
    Turn.Confined group g d σ (σ.release s) ((σ.part group g).release s) := by
  have hread : d = g → (σ.part group g).owners s = σ.owners s :=
    fun e => owners_part tidy apart (hs.trans e)
  by_cases ho : σ.owners s = 0
  · rw [release, if_pos ho]
    refine (confined_sweep apart coherent hs .destroy).congr fun e => ?_
    rw [release, if_pos ((hread e).trans ho)]
  · rw [release, if_neg ho]
    refine (Confined.refl apart).done.congr fun e => ?_
    rw [release, if_neg (hread e ▸ ho)]

theorem confined_patched (coherent : σ.Coherent) {p : Patching}
    (known : σ.watchpoints.contains p.watchpoint = true) (within : Pending.KeepsTo group d (.patch p)) :
    Turn.Confined group g d σ (σ.patched p) ((σ.part group g).patched p) := by
  obtain ⟨hw, hs⟩ := within
  have hcount := confined_count (g := g) apart hw ((apart.context known).trans hw)
    fun c => { c with redirects := c.redirects + 1 }
  have hfired := hcount.trans (f := fun τ => τ.unlink p.watchpoint) (confined_unlink hcount.apart hw)
  have hcoherent : ((σ.countRedirect p.watchpoint).unlink p.watchpoint).Coherent :=
    (coherent.edit (.count _ _)).edit (.unlink _)
  rw [patched, patched]
  cases hp : p.sweep with
  | none => exact hfired.done
  | some s =>
    exact hfired.turn (f := fun τ => τ.sweepOn { s with fired := s.fired + 1 })
      (confined_sweepOn hfired.apart hcoherent (hs s hp))

/-! ### Resolving -/

theorem confined_resolve (hw : group (.watchpoint w) = d) :
    Turn.Confined group g d σ (σ.resolve w) ((σ.part group g).resolve w) := by
  have hread : d = g → (σ.part group g).watchpoint w = σ.watchpoint w :=
    fun e => watchpoint_part (hw.trans e)
  cases hl : (σ.watchpoint w).labels? with
  | none =>
    have hresolve : ∀ τ : World, τ.watchpoint w = σ.watchpoint w → τ.resolve w = ⟨τ, [], _⟩ :=
      fun τ he => by
      rw [resolve, he, hl]
    exact .reads hresolve hread ((Confined.refl apart).ends [] _ fun _ _ => Next.noConfusion)
  | some l =>
    have hresolve : ∀ τ : World, τ.watchpoint w = σ.watchpoint w → τ.resolve w =
        ⟨τ, [], .waiting (.locate l.1) (.locate ⟨w, l.1, l.2, none⟩)⟩ := fun τ he => by
          rw [resolve, he, hl]
    refine .reads hresolve hread ((Confined.refl apart).ends [] _ fun r p hn => ?_)
    obtain ⟨-, rfl⟩ := Next.waiting.inj hn
    exact hw

theorem confined_settle (known : σ.watchpoints.contains w = true) (hw : group (.watchpoint w) = d)
    (source destination : Address) :
    Confined group g d σ (σ.settle w source destination)
    ((σ.part group g).settle w source destination) := by
  have hlocate := confined_modifyWatchpoint (g := g) apart hw
    (f := fun v => { v with source := .address source, destination := .address destination })
    fun v hv => ⟨hv.context, hv.membership⟩
  refine hlocate.trans (f := fun τ => τ.count w _) (confined_count hlocate.apart hw ?_ _)
  exact (hlocate.apart.context ((Store.contains_modify _ _ _ _).trans known)).trans hw

theorem confined_located {l : Locating} (known : σ.watchpoints.contains l.watchpoint = true)
    (hw : group (.watchpoint l.watchpoint) = d) (answer : Except LinkFailure Address) :
    Turn.Confined group g d σ (σ.located l answer) ((σ.part group g).located l answer) := by
  have hread : d = g → (σ.part group g).contextOf l.watchpoint = σ.contextOf l.watchpoint := fun e =>
    contextOf_part (hw.trans e) ((apart.context known).trans (hw.trans e))
  rw [located.eq_def, located.eq_def]
  cases answer with
  | error e => exact (Confined.refl apart).ends [] _ fun _ _ => Next.noConfusion
  | ok a =>
    cases hsource : l.source with
    | none =>
      refine (Confined.refl apart).ends [] _ fun r p hn => ?_
      obtain ⟨-, rfl⟩ := Next.waiting.inj hn
      exact hw
    | some source =>
      have hsettle := (confined_settle (g := g) apart known hw source a).done.after
        [.resolved l.sourceLabel l.destinationLabel source a]
      dsimp only
      cases hcheck : (σ.contextOf l.watchpoint).settings.linking.checkJump source a with
      | error failure =>
        refine ((Confined.refl apart).ends [] (.failed (.link failure)) fun _ _ =>
          Next.noConfusion).congr fun e => ?_
        rw [hread e, hcheck]
      | ok u => exact hsettle.congr fun e => by rw [hread e, hcheck]

theorem confined_unwind {p : Pending} (within : p.KeepsTo group d) :
    Confined group g d σ (σ.unwind p) ((σ.part group g).unwind p) := by
  cases p with
  | patch p => exact confined_abandon apart within.2
  | locate l => exact .refl apart

end

/-! ### Registering -/

section

variable (apart : σ.Apart group)
include apart

theorem confined_link (hs : group s.home = d) (hw : group (.watchpoint w) = d) :
    Confined group g d σ (σ.link s w) ((σ.part group g).link s w) := by
  have hread : d = g → (σ.part group g).watchersOf s = σ.watchersOf s :=
    fun e => watchersOf_part (hs.trans e)
  have hset := confined_modifySet (g := g) apart hs fun t =>
    { flags := { t.flags with watched := true }, watchers := ((σ.watchersOf s).pushBack w).1 }
  have hlink := hset.trans (f := fun τ => τ.modifyWatchpoint w fun v =>
      { v with membership := some ⟨s, ((σ.watchersOf s).pushBack w).2⟩ })
    (confined_modifyWatchpoint hset.apart hw fun v hv =>
      ⟨hv.context, fun m hm => Option.some.inj hm ▸ hs⟩)
  exact hlink.congr fun e => by rw [link, hread e]

theorem confined_add (hs : group s.home = d) {w : Option WatchpointId}
    (hw : ∀ v, w = some v → group (.watchpoint v) = d) :
    Turn.Confined group g d σ (σ.add s w) ((σ.part group g).add s w) := by
  cases w with
  | none => exact (Confined.refl apart).done
  | some w =>
    have hw := hw w rfl
    have hwatchpoint : d = g → (σ.part group g).watchpoint w = σ.watchpoint w := fun e =>
      watchpoint_part (hw.trans e)
    have hflags : d = g → (σ.part group g).flagsOf s = σ.flagsOf s := fun e => flagsOf_part (hs.trans e)
    rw [add, add]
    cases hon : (σ.watchpoint w).isOnList with
    | true =>
      refine (((Confined.refl apart).panic _).after _).congr fun e => ?_
      simp only [hwatchpoint e, hflags e, hon, if_true]
    | false =>
      refine ((confined_link apart hs hw).done.after _).congr fun e => ?_
      simp only [hwatchpoint e, hflags e, hon, Bool.false_eq_true, if_false]

theorem confined_notifyWrite (coherent : σ.Coherent) (hs : group s.home = d) :
    Turn.Confined group g d σ (σ.notifyWrite s) ((σ.part group g).notifyWrite s) := by
  have hread : d = g → (σ.part group g).flagsOf s = σ.flagsOf s := fun e => flagsOf_part (hs.trans e)
  by_cases hf : (σ.flagsOf s).watched = true
  · rw [notifyWrite, if_pos hf]
    refine (confined_sweep apart coherent hs .invalidate).congr fun e => ?_
    rw [notifyWrite, hread e, if_pos hf]
  · rw [notifyWrite, if_neg hf]
    refine ((Confined.refl apart).panic _).congr fun e => ?_
    rw [notifyWrite, hread e, if_neg hf]

theorem confined_dropWatchpoint (hw : group (.watchpoint w) = d) :
    Turn.Confined group g d σ (σ.dropWatchpoint w) ((σ.part group g).dropWatchpoint w) := by
  have hunlink := confined_unlink (g := g) apart hw
  have hdrop := hunlink.trans (f := fun τ => τ.modifyWatchpoint w fun v => { v with held := false })
    (confined_modifyWatchpoint hunlink.apart hw fun v hv => ⟨hv.context, hv.membership⟩)
  refine (hdrop.done.after _).congr fun e => ?_
  rw [dropWatchpoint, watchpoint_part (hw.trans e)]

/-! ### Slots -/

theorem confined_promoteFrom (hi : group (.slot i) = d) (t : Slot) (f : Flags) :
    Confined group g d σ (σ.promoteFrom i t f) ((σ.part group g).promoteFrom i t f) := by
  have hset := confined_putSet (g := g) apart (s := .ofSlot i t.promotions) hi { flags := f }
  exact hset.trans (f := fun τ => { τ with slots := τ.slots.put i _ })
    (confined_putSlot hset.apart hi _)

theorem confined_inflate (hi : group (.slot i) = d) :
    Confined group g d σ (σ.inflate i).1 ((σ.part group g).inflate i).1 ∧
      (d = g → ((σ.part group g).inflate i).2 = (σ.inflate i).2) := by
  have hread : d = g → (σ.part group g).slot? i = σ.slot? i := fun e => slot?_part (hi.trans e)
  rcases hslot : σ.slot? i with _ | ⟨f | s, n, held⟩
  case some.thin =>
    have hinflate : ∀ τ : World, τ.slot? i = σ.slot? i →
        τ.inflate i = (τ.promoteFrom i ⟨.thin f, n, held⟩ f, [.promoted f]) := fun τ he => by
      simp only [inflate, he, hslot]
    rw [hinflate σ rfl]
    exact ⟨(confined_promoteFrom apart hi _ f).congr fun e => congrArg Prod.fst (hinflate _ (hread e)),
      fun e => by rw [hinflate _ (hread e)]⟩
  all_goals
    have hinflate : ∀ τ : World, τ.slot? i = σ.slot? i → τ.inflate i = (τ, []) := fun τ he => by
      simp only [inflate, he, hslot]
    rw [hinflate σ rfl]
    exact ⟨(Confined.refl apart).congr fun e => congrArg Prod.fst (hinflate _ (hread e)),
      fun e => by rw [hinflate _ (hread e)]⟩

theorem confined_promote (hi : group (.slot i) = d) :
    Turn.Confined group g d σ (σ.promote i) ((σ.part group g).promote i) := by
  have hread : d = g → (σ.part group g).slot? i = σ.slot? i := fun e => slot?_part (hi.trans e)
  rcases hslot : σ.slot? i with _ | ⟨f | s, n, held⟩
  case some.thin =>
    have hpromote : ∀ τ : World, τ.slot? i = σ.slot? i →
        τ.promote i = (τ.promoteFrom i ⟨.thin f, n, held⟩ f).done.after [.promoted f] := fun τ he => by
      simp only [promote, he, hslot]
    exact .reads hpromote hread ((confined_promoteFrom apart hi _ f).done.after _)
  all_goals
    have hpromote : ∀ τ : World, τ.slot? i = σ.slot? i → τ.promote i = τ.panic .alreadyFat :=
      fun τ he => by
      simp only [promote, he, hslot]
    exact .reads hpromote hread ((Confined.refl apart).panic _)

theorem confined_slotAdd (tidy : σ.Tidy) (hi : group (.slot i) = d) {w : Option WatchpointId}
    (hw : ∀ v, w = some v → group (.watchpoint v) = d) :
    Turn.Confined group g d σ (σ.slotAdd i w) ((σ.part group g).slotAdd i w) := by
  obtain ⟨hinflate, hevents⟩ := confined_inflate (g := g) apart hi
  have hread : d = g → ((σ.part group g).inflate i).1.fatSet? i = (σ.inflate i).1.fatSet? i :=
    fun e => by
    rw [← hinflate.own e, fatSet?_part (hi.trans e)]
  cases hfat : (σ.inflate i).1.fatSet? i with
  | none =>
    have hadd : ∀ τ : World, (τ.inflate i).1.fatSet? i = (σ.inflate i).1.fatSet? i →
        τ.slotAdd i w = (τ.inflate i).1.done.after (τ.inflate i).2 := fun τ he => by
      simp only [slotAdd, he, hfat]
    rw [hadd σ rfl]
    exact (hinflate.done.after _).congr fun e => by rw [hadd _ (hread e), hevents e]
  | some s =>
    have hs : group s.home = d := (tidy.edits (edits_inflate i)).home_of_fatSet? hfat ▸ hi
    have hadd : ∀ τ : World, (τ.inflate i).1.fatSet? i = (σ.inflate i).1.fatSet? i →
        τ.slotAdd i w = ((τ.inflate i).1.add s w).after (τ.inflate i).2 := fun τ he => by
      simp only [slotAdd, he, hfat]
    have hregister := hinflate.turn (f := fun τ => τ.add s w) (confined_add hinflate.apart hs hw)
    rw [hadd σ rfl]
    exact (hregister.after _).congr fun e => by rw [hadd _ (hread e), hevents e]

theorem confined_slotStartWatching (tidy : σ.Tidy) (hi : group (.slot i) = d) :
    Confined group g d σ (σ.slotStartWatching i) ((σ.part group g).slotStartWatching i) := by
  have hread : d = g → (σ.part group g).slot? i = σ.slot? i := fun e => slot?_part (hi.trans e)
  rcases hslot : σ.slot? i with _ | ⟨f | s, n, held⟩
  · have hwatch : ∀ τ : World, τ.slot? i = σ.slot? i → τ.slotStartWatching i = τ := fun τ he => by
      simp only [slotStartWatching, he, hslot]
    exact .reads hwatch hread (.refl apart)
  · have hwatch : ∀ τ : World, τ.slot? i = σ.slot? i →
        τ.slotStartWatching i = τ.store i (.thin { f with watched := true }) := fun τ he => by
      simp only [slotStartWatching, he, hslot]
    exact .reads hwatch hread (confined_modifySlot apart hi _)
  · have hwatch : ∀ τ : World, τ.slot? i = σ.slot? i →
        τ.slotStartWatching i = τ.modifyFlags s fun f => { f with watched := true } := fun τ he => by
      simp only [slotStartWatching, he, hslot]
    have hfat : σ.fatSet? i = some s := by simp only [fatSet?, hslot]
    have hs : group s.home = d := tidy.home_of_fatSet? hfat ▸ hi
    exact .reads hwatch hread (confined_modifySet apart hs _)

theorem confined_slotNotifyWrite (coherent : σ.Coherent) (tidy : σ.Tidy) (hi : group (.slot i) = d) :
    Turn.Confined group g d σ (σ.slotNotifyWrite i) ((σ.part group g).slotNotifyWrite i) := by
  have hread : d = g → (σ.part group g).slot? i = σ.slot? i := fun e => slot?_part (hi.trans e)
  rcases hslot : σ.slot? i with _ | ⟨f | s, n, held⟩
  · have hwrite : ∀ τ : World, τ.slot? i = σ.slot? i → τ.slotNotifyWrite i = τ.done := fun τ he => by
      simp only [slotNotifyWrite, he, hslot]
    exact .reads hwrite hread (Confined.refl apart).done
  · have hwrite : ∀ τ : World, τ.slot? i = σ.slot? i →
        τ.slotNotifyWrite i = (if f.watched then τ.store i (.thin .broken) else τ).done :=
          fun τ he => by
      simp only [slotNotifyWrite, he, hslot]
    refine .reads hwrite hread ?_
    split
    · exact (confined_modifySlot apart hi _).done
    · exact (Confined.refl apart).done
  · have hwrite : ∀ τ : World, τ.slot? i = σ.slot? i →
        τ.slotNotifyWrite i = if (τ.flagsOf s).watched then τ.notifyWrite s else τ.done :=
          fun τ he => by
      simp only [slotNotifyWrite, he, hslot]
    have hfat : σ.fatSet? i = some s := by simp only [fatSet?, hslot]
    have hs : group s.home = d := tidy.home_of_fatSet? hfat ▸ hi
    rw [hwrite σ rfl]
    refine Turn.Confined.congr ?_ fun e =>
      (hwrite _ (hread e)).trans (by rw [flagsOf_part (hs.trans e)])
    split
    · exact confined_notifyWrite apart coherent hs
    · exact (Confined.refl apart).done

theorem confined_freeFat (coherent : σ.Coherent) (tidy : σ.Tidy) (hi : group (.slot i) = d) :
    Turn.Confined group g d σ (σ.freeFat i) ((σ.part group g).freeFat i) := by
  have hread : d = g → (σ.part group g).fatSet? i = σ.fatSet? i := fun e => fatSet?_part (hi.trans e)
  cases hfat : σ.fatSet? i with
  | none =>
    have hfree : ∀ τ : World, τ.fatSet? i = σ.fatSet? i → τ.freeFat i = τ.panic .notFat :=
      fun τ he => by
      simp only [freeFat, he, hfat]
    exact .reads hfree hread ((Confined.refl apart).panic _)
  | some s =>
    have hs : group s.home = d := tidy.home_of_fatSet? hfat ▸ hi
    have hedits := edits_giveUp hfat (σ.owners s > 1)
    have hstore := confined_modifySlot (g := g) apart hi fun t =>
      { t with storage := .thin (σ.flagsAfterFree s (σ.owners s > 1)) }
    have hrelease := hstore.turn (f := fun τ => τ.release s)
      (confined_release hstore.apart (coherent.edits hedits) (tidy.edits hedits) hs)
    have hfree : ∀ τ : World, τ.fatSet? i = σ.fatSet? i → τ.freeFat i =
        ((τ.store i (.thin (τ.flagsAfterFree s (τ.owners s > 1)))).release s).after
          [.released (τ.flagsAfterFree s (τ.owners s > 1)) (τ.owners s > 1)] := fun τ he => by
      simp only [freeFat, he, hfat]
    rw [hfree σ rfl]
    refine (hrelease.after _).congr fun e => (hfree _ (hread e)).trans ?_
    rw [owners_part tidy apart (hs.trans e), flagsAfterFree_part (hs.trans e)]
    rfl

theorem confined_dropHandle (coherent : σ.Coherent) (tidy : σ.Tidy) (hh : group (.handle h) = d) :
    Turn.Confined group g d σ (σ.dropHandle h) ((σ.part group g).dropHandle h) := by
  have hread : d = g → (σ.part group g).handleSet? h = σ.handleSet? h :=
    fun e => handleSet?_part (hh.trans e)
  have hdrop :=
    confined_modifyHandle (g := g) apart hh (f := fun t => { t with held := false }) fun _ => rfl
  cases hset : σ.handleSet? h with
  | none =>
    have he : ∀ τ : World, τ.handleSet? h = σ.handleSet? h → τ.dropHandle h =
        done { τ with handles := τ.handles.modify h fun t => { t with held := false } } :=
          fun τ he => by
      simp only [dropHandle, he, hset]
    exact .reads he hread hdrop.done
  | some s =>
    have hs : group s.home = d := (apart.handleSet hset).trans hh
    have he : ∀ τ : World, τ.handleSet? h = σ.handleSet? h → τ.dropHandle h =
        release { τ with handles := τ.handles.modify h fun t => { t with held := false } } s :=
          fun τ he => by
      simp only [dropHandle, he, hset]
    refine .reads he hread (hdrop.turn (f := fun τ => τ.release s) ?_)
    exact confined_release hdrop.apart (coherent.edit (.dropHandle h)) (tidy.edit (.dropHandle h)) hs

theorem confined_dropSlot (coherent : σ.Coherent) (tidy : σ.Tidy) (hi : group (.slot i) = d) :
    Turn.Confined group g d σ (σ.dropSlot i) ((σ.part group g).dropSlot i) := by
  have hread : d = g → (σ.part group g).fatSet? i = σ.fatSet? i := fun e => fatSet?_part (hi.trans e)
  have hdrop := confined_modifySlot (g := g) apart hi fun t => { t with held := false }
  cases hset : σ.fatSet? i with
  | none =>
    have he : ∀ τ : World, τ.fatSet? i = σ.fatSet? i → τ.dropSlot i =
        done { τ with slots := τ.slots.modify i fun t => { t with held := false } } := fun τ he => by
      simp only [dropSlot, he, hset]
    exact .reads he hread hdrop.done
  | some s =>
    have hs : group s.home = d := tidy.home_of_fatSet? hset ▸ hi
    have he : ∀ τ : World, τ.fatSet? i = σ.fatSet? i → τ.dropSlot i =
        release { τ with slots := τ.slots.modify i fun t => { t with held := false } } s :=
          fun τ he => by
      simp only [dropSlot, he, hset]
    refine .reads he hread (hdrop.turn (f := fun τ => τ.release s) ?_)
    exact confined_release hdrop.apart (coherent.edit (.dropSlot i)) (tidy.edit (.dropSlot i)) hs

/-! ### Making something -/

theorem confined_openRuntime {r : RuntimeId} (hr : group (.context (.ofRuntime r)) = d) (p : PatcherId)
    (settings : Settings) :
    Turn.Confined group g d σ (σ.openRuntime r p settings)
    ((σ.part group g).openRuntime r p settings) := by
  unfold openRuntime
  split
  · exact (Confined.refl apart).ends [] _ fun _ _ => Next.noConfusion
  · exact (confined_openContext apart hr _).done.after _

theorem confined_create {c : ContextId} (hw : group (.watchpoint w) = d) (hc : group (.context c) = d)
    (source destination : Label) :
    Confined group g d σ (σ.create w c source destination)
      ((σ.part group g).create w c source destination) := by
  have happear := confined_appear (g := g) apart hw
    (v := { source := .label source, destination := .label destination, context := c, held := true })
    ⟨hc, fun _ h => by cases h⟩
  refine happear.trans (f := fun τ => τ.count w _) (confined_count happear.apart hw ?_ _)
  rw [watchpoint, Store.get?_put_self]
  exact hc

theorem confined_createAlone (hw : group (.watchpoint w) = d)
    (hc : group (.context (.ofWatchpoint w)) = d) (p : PatcherId) (source destination : Label) :
    Confined group g d σ ((σ.ownContext w p).create w (.ofWatchpoint w) source destination)
      (((σ.part group g).ownContext w p).create w (.ofWatchpoint w) source destination) := by
  have hcontext := confined_openContext (g := g) apart hc { patcher := p }
  exact hcontext.trans (f := fun τ => τ.create w _ source destination)
    (confined_create hcontext.apart hw hc source destination)

theorem confined_newSet (hh : group (.handle h) = d) (mode : InitialMode) :
    Confined group g d σ (σ.newSet h mode) ((σ.part group g).newSet h mode) := by
  have hset := confined_putSet (g := g) apart (s := .ofHandle h) hh { flags := mode.flags }
  exact hset.trans (f := fun τ => { τ with handles := τ.handles.put h _ })
    (confined_putHandle hset.apart hh (t := { set := .ofHandle h }) hh)

theorem confined_newHandle {s : Option SetId} (hs : ∀ t, s = some t → group t.home = d)
    (hh : group (.handle h) = d) :
    Confined group g d σ (σ.newHandle s h) ((σ.part group g).newHandle s h) := by
  cases s with
  | none => exact .refl apart
  | some t => exact confined_putHandle apart hh (t := { set := t }) (hs t rfl)

/-- A call on the set of a handle. -/
theorem confined_onHandle (hh : group (.handle h) = d) {f : World → SetId → Turn}
    (hf : ∀ s, group s.home = d → Turn.Confined group g d σ (f σ s) (f (σ.part group g) s)) :
    Turn.Confined group g d σ (σ.onHandle h (f σ))
      ((σ.part group g).onHandle h (f (σ.part group g))) := by
  have hread : d = g → (σ.part group g).handleSet? h = σ.handleSet? h :=
    fun e => handleSet?_part (hh.trans e)
  cases hset : σ.handleSet? h with
  | none =>
    have he : ∀ τ : World, τ.handleSet? h = σ.handleSet? h → τ.onHandle h (f τ) = τ.done :=
      fun τ he => by
      simp only [onHandle, he, hset]
    exact .reads he hread (Confined.refl apart).done
  | some s =>
    have he : ∀ τ : World, τ.handleSet? h = σ.handleSet? h → τ.onHandle h (f τ) = f τ s :=
      fun τ he => by
      simp only [onHandle, he, hset]
    exact .reads he hread (hf s ((apart.handleSet hset).trans hh))

end

end World

/-! ### Calls -/

/-- The objects that a call names. -/
def Call.names : Call → List Identity
  | .openRuntime r _ _ => [.context (.ofRuntime r)]
  | .create w r _ _ => [.watchpoint w, .context (.ofRuntime r)]
  | .createAlone w _ _ _ => [.watchpoint w, .context (.ofWatchpoint w)]
  | .resolve w | .fire w | .dropWatchpoint w => [.watchpoint w]
  | .newSet h _ | .startWatching h | .notifyWrite h | .fireAll h | .dropHandle h => [.handle h]
  | .cloneHandle h copy => [.handle h, .handle copy]
  | .add h w => .handle h :: w.toList.map .watchpoint
  | .newSlot i _ | .slotStartWatching i | .slotNotifyWrite i | .inflate i | .promote i | .freeFat i
  | .dropSlot i => [.slot i]
  | .slotAdd i w => .slot i :: w.toList.map .watchpoint
  | .handleOfSlot i h => [.slot i, .handle h]

theorem Call.exists_mem_names (c : Call) : ∃ x, x ∈ c.names := by
  cases c <;> exact ⟨_, List.mem_cons_self⟩

/-- All that a call names is in one group. -/
def Call.KeepsTo (group : Identity → Group) (d : Group) (c : Call) : Prop := ∀ x ∈ c.names, group x = d

instance {c : Call} : Decidable (c.KeepsTo group d) :=
  inferInstanceAs (Decidable (∀ x ∈ c.names, group x = d))

namespace World

variable {σ : World} {c : Call}

/-- Whether a call is allowed can be told from the part of its group. -/
theorem allows_part (hc : c.KeepsTo group g) : (σ.part group g).allows c = σ.allows c := by
  have watchpoints : ∀ {w}, group (.watchpoint w) = g →
      (σ.part group g).watchpoints.contains w = σ.watchpoints.contains w := Store.contains_part
  have contexts : ∀ {c}, group (.context c) = g →
      (σ.part group g).contexts.contains c = σ.contexts.contains c := Store.contains_part
  have handles : ∀ {h}, group (.handle h) = g →
      (σ.part group g).handles.contains h = σ.handles.contains h := Store.contains_part
  have slots : ∀ {i}, group (.slot i) = g →
      (σ.part group g).slots.contains i = σ.slots.contains i := Store.contains_part
  have held : ∀ w : Option WatchpointId, (∀ v, w = some v → group (.watchpoint v) = g) →
      (w.all fun v => ((σ.part group g).watchpoint v).held) = w.all fun v => (σ.watchpoint v).held := by
    rintro (_ | v) hv
    · rfl
    · exact congrArg Watchpoint.held (watchpoint_part (hv v rfl))
  cases c with
  | openRuntime r p settings => rw [allows, allows, contexts (hc _ List.mem_cons_self)]
  | create w r s t =>
    rw [allows, allows, watchpoints (hc _ List.mem_cons_self),
      contexts (hc _ (List.mem_cons_of_mem _ List.mem_cons_self))]
  | createAlone w p s t =>
    rw [allows, allows, watchpoints (hc _ List.mem_cons_self),
      contexts (hc _ (List.mem_cons_of_mem _ List.mem_cons_self))]
  | resolve w | fire w | dropWatchpoint w =>
    exact congrArg Watchpoint.held (watchpoint_part (hc _ List.mem_cons_self))
  | newSet h mode => rw [allows, allows, handles (hc _ List.mem_cons_self)]
  | cloneHandle h copy =>
    rw [allows, allows, handleSet?_part (hc _ List.mem_cons_self),
      handles (hc _ (List.mem_cons_of_mem _ List.mem_cons_self))]
  | add h w =>
    rw [allows, allows, handleSet?_part (hc _ List.mem_cons_self), held w]
    rintro v rfl
    exact hc _ (List.mem_cons_of_mem _ List.mem_cons_self)
  | startWatching h | notifyWrite h | fireAll h | dropHandle h =>
    rw [allows, allows, handleSet?_part (hc _ List.mem_cons_self)]
  | newSlot i mode => rw [allows, allows, slots (hc _ List.mem_cons_self)]
  | slotAdd i w =>
    rw [allows, allows, slot?_part (hc _ List.mem_cons_self), held w]
    rintro v rfl
    exact hc _ (List.mem_cons_of_mem _ List.mem_cons_self)
  | handleOfSlot i h =>
    rw [allows, allows, slot?_part (hc _ List.mem_cons_self),
      handles (hc _ (List.mem_cons_of_mem _ List.mem_cons_self))]
  | slotStartWatching i | slotNotifyWrite i | inflate i | promote i | freeFat i | dropSlot i =>
    rw [allows, allows, slot?_part (hc _ List.mem_cons_self)]

theorem contains_of_held {w : WatchpointId} (held : (σ.watchpoint w).held = true) :
    σ.watchpoints.contains w = true := by
  rw [contains_watchpoints, held_watchpoint_iff.mp held]
  rfl

/-- Whatever a call does, it does to objects of its group. -/
theorem confined_begin (apart : σ.Apart group) (coherent : σ.Coherent) (tidy : σ.Tidy)
    (allowed : σ.allows c = true) (hc : c.KeepsTo group d) :
    Turn.Confined group g d σ (σ.begin c) ((σ.part group g).begin c) := by
  cases c with
  | openRuntime r p settings => exact confined_openRuntime apart (hc _ List.mem_cons_self) p settings
  | create w r s t =>
    have hr := hc _ (List.mem_cons_of_mem _ List.mem_cons_self)
    exact (confined_create apart (hc _ List.mem_cons_self) hr s t).done
  | createAlone w p s t =>
    have hown := hc _ (List.mem_cons_of_mem _ List.mem_cons_self)
    exact (confined_createAlone apart (hc _ List.mem_cons_self) hown p s t).done
  | resolve w => exact confined_resolve apart (hc _ List.mem_cons_self)
  | fire w =>
    exact confined_fire apart (contains_of_held allowed) (hc _ List.mem_cons_self) fun _ h => by cases h
  | dropWatchpoint w => exact confined_dropWatchpoint apart (hc _ List.mem_cons_self)
  | newSet h mode => exact (confined_newSet apart (hc _ List.mem_cons_self) mode).done
  | cloneHandle h copy =>
    have hh : group (.handle h) = d := hc _ List.mem_cons_self
    have hcopy := hc _ (List.mem_cons_of_mem _ List.mem_cons_self)
    refine (confined_newHandle apart (fun t ht => (apart.handleSet ht).trans hh) hcopy).done.congr
      fun e => ?_
    rw [begin, handleSet?_part (hh.trans e)]
  | add h w =>
    refine confined_onHandle apart (hc _ List.mem_cons_self) (f := fun τ s => τ.add s w) fun s hs =>
      confined_add apart hs ?_
    rintro v rfl
    exact hc _ (List.mem_cons_of_mem _ List.mem_cons_self)
  | startWatching h =>
    exact confined_onHandle apart (hc _ List.mem_cons_self) (f := fun τ s => (τ.modifyFlags s _).done)
      fun s hs => (confined_modifySet apart hs _).done
  | notifyWrite h =>
    exact confined_onHandle apart (hc _ List.mem_cons_self) (f := fun τ s => τ.notifyWrite s)
      fun s hs =>
      confined_notifyWrite apart coherent hs
  | fireAll h =>
    exact confined_onHandle apart (hc _ List.mem_cons_self) (f := fun τ s => τ.sweep s .rest)
      fun s hs =>
      confined_sweep apart coherent hs .rest
  | dropHandle h => exact confined_dropHandle apart coherent tidy (hc _ List.mem_cons_self)
  | newSlot i mode => exact (confined_putSlot apart (hc _ List.mem_cons_self) _).done
  | slotAdd i w =>
    refine confined_slotAdd apart tidy (hc _ List.mem_cons_self) ?_
    rintro v rfl
    exact hc _ (List.mem_cons_of_mem _ List.mem_cons_self)
  | slotStartWatching i => exact (confined_slotStartWatching apart tidy (hc _ List.mem_cons_self)).done
  | slotNotifyWrite i => exact confined_slotNotifyWrite apart coherent tidy (hc _ List.mem_cons_self)
  | inflate i =>
    obtain ⟨hinflate, hevents⟩ := confined_inflate (g := g) apart (hc _ List.mem_cons_self)
    exact (hinflate.done.after _).congr fun e => by rw [begin, hevents e]
  | promote i => exact confined_promote apart (hc _ List.mem_cons_self)
  | handleOfSlot i h =>
    have hi : group (.slot i) = d := hc _ List.mem_cons_self
    have hh := hc _ (List.mem_cons_of_mem _ List.mem_cons_self)
    have hset : ∀ t, σ.fatSet? i = some t → group t.home = d := fun t ht => tidy.home_of_fatSet? ht ▸ hi
    refine (confined_newHandle apart hset hh).done.congr fun e => ?_
    rw [begin, fatSet?_part (hi.trans e)]
  | freeFat i => exact confined_freeFat apart coherent tidy (hc _ List.mem_cons_self)
  | dropSlot i => exact confined_dropSlot apart coherent tidy (hc _ List.mem_cons_self)

end World

end Invalidation
