import Invalidation.Proofs.Run.Alongside
import Invalidation.Proofs.Run.Bystander

/-! Giving up a share. A slot that gives up its share in a set keeps flags of its own, which it has
    to know before the set is destroyed, if it is; afterwards slot and set go separate ways.

                         ┌─ somebody else has a share ──▶ slot: flags of the set     set: as it was
        slot ──▶ set ────┤
                         └─ nobody else ────────────────▶ slot: broken if watched    set: swept, gone

    The last share may as well be given up after a write has been reported: that makes no
    difference. From then on, what is done to the slot does not reach the set, nor the other way
    round, but for a watchpoint that changes over from one to the other while its jump is being
    installed. -/

namespace Invalidation

/-- What is true of a slot with a share in the set at this moment, and of giving that share up. -/
structure Moment.GivesUp (k : Moment) (i : SlotId) (s : SetId) : Prop where
  /-- From the first turn on, and whatever is done from inside, the slot keeps flags of its own. It
      is watched if the set was and somebody else has a share in it; it is broken if the set was, or
      if the set was watched and nobody else has a share. -/
  reads : ∀ start inside m, Run k (start :: inside) m → start.action = .call (.freeFat i) →
    (∀ t ∈ inside, t.before.stack ≠ k.stack) → ∃ f n, m.world.slot? i = some ⟨.thin f, n, true⟩ ∧
      (f.watched = true ↔ (k.world.flagsOf s).watched = true ∧ k.world.Shared i s) ∧
      (f.invalidated = true ↔ (k.world.flagsOf s).invalidated = true ∨
        ¬ k.world.Shared i s ∧ (k.world.flagsOf s).watched = true)
  /-- To give up the last share is the same as to report a write first: the same can be done from
      inside, the same jumps are asked for, and the world is the same in the end. -/
  last : ¬ k.world.Shared i s → ∀ inside js m, k.Completes (.freeFat i) inside js m ↔
    ∃ l, k.Completes (.slotNotifyWrite i) inside js l ∧ l.Completes (.freeFat i) [] [] m
  /-- That can be done wherever all who are registered have addresses; they are patched in their
      order. -/
  possible : ¬ k.world.Shared i s → k.lends (.slot i) = false →
    (∀ w ∈ k.world.queue s, k.world.Resolved w) → ∃ js m,
      k.Completes (.freeFat i) (List.replicate (k.world.queue s).length .patched) js m ∧
        js.map some = (k.world.queue s).map k.world.jumpOf?
  /-- To give up any other share ends at once, asks for no jump, and changes no set and no
      watchpoint. -/
  shared : k.world.Shared i s → ∀ t : Transition, t.before = k → t.action = .call (.freeFat i) →
    t.move.turn.next = .returned ∧ t.jump? = none ∧ t.after.stack = k.stack ∧
      k.world.SharesApart t.after.world
  /-- From then on, a call on the slot leaves the set as it is. -/
  set : ∀ free : Transition, free.before = k → free.action = .call (.freeFat i) →
    ∀ past (start : Transition), Run free.after past start.before →
      ∀ c : Call, c.takes = some (.slot i) →
    ∀ pre (t : Transition), t.TurnOf c start pre → t.Bypasses s start.before.stack pre
  /-- From then on, a call on a handle of the set leaves the slot as it is, and any set that the
      slot has. -/
  slot : ∀ free : Transition, free.before = k → free.action = .call (.freeFat i) →
    ∀ past (start : Transition), Run free.after past start.before → ∀ (c : Call) h, c.handle? = some h →
    start.before.world.handleSet? h = some s → ∀ pre (t : Transition), t.TurnOf c start pre →
    t.after.world.slots = t.before.world.slots ∧
      ∀ v, t.before.world.fatSet? i = some v → t.Bypasses v start.before.stack pre

variable {below : List Waiting} {i : SlotId} {s : SetId} {x : Slot} {k m : Moment} {t free : Transition}
  {l : Loan}

namespace World

variable {σ : World}

/-- The flags that a slot keeps can be told from those of the set and from whether it is shared,
    since nobody is registered on a set that is not watched. -/
theorem flagsAfterFree_eq (h : σ.Coherent) (alert : σ.Alert) (s : SetId) (shared : Bool) :
    σ.flagsAfterFree s shared = ⟨(σ.flagsOf s).watched && shared,
      (σ.flagsOf s).invalidated || (!shared && (σ.flagsOf s).watched)⟩ := by
  have hlength : (σ.flagsOf s).watched = false → (σ.watchersOf s).length = 0 := by
    intro unwatched
    have hempty : σ.queue s = [] := by
      by_contra hne
      exact Bool.false_ne_true (unwatched.symm.trans (alert s hne))
    cases hl : σ.list? s with
    | none =>
      rw [watchersOf, ← list?, hl]
      rfl
    | some l =>
      rw [queue_of_list? hl] at hempty
      rw [watchersOf_of_list? hl, ← (h.sound s l hl).length_toList, hempty, List.length_nil]
  cases hflags : σ.flagsOf s with
  | mk watched invalidated =>
    rw [hflags] at hlength
    rw [flagsAfterFree, hflags]
    cases shared with
    | true => simp
    | false =>
      cases watched with
      | true => simp [Flags.broken]
      | false => simp [hlength rfl]

/-- A slot whose share is not the last takes the flags along, and that is all. -/
theorem Fat.begin_freeFat_of_shared (h : σ.Fat i s x) (tidy : σ.Tidy) (shared : σ.Shared i s) :
    σ.begin (.freeFat i) = Turn.after [.released (σ.flagsAfterFree s true) true]
      (σ.withSlot i { x with storage := .thin (σ.flagsAfterFree s true) }).done := by
  have hmany : decide (σ.owners s > 1) = true := decide_eq_true ((tidy.shared_iff h.share).mpr shared)
  let y : Slot := { x with storage := .thin (σ.flagsAfterFree s true) }
  have hrelease : (σ.withSlot i y).release s = (σ.withSlot i y).done := by
    rw [release, if_neg]
    rw [(tidy.withSlot (x := y) rfl).owners_eq_zero_iff, not_not, owned_iff]
    obtain ⟨o, ho, hne⟩ := shared
    refine ⟨o, ?_⟩
    cases o with
    | handle h => exact ho
    | slot j => exact (fatSet?_withSlot (fun he => hne (congrArg Owner.slot he)) y).trans ho
  simp only [World.begin, World.freeFat, h.share, hmany, store_eq_withSlot h.there]
  rw [hrelease]

end World

/-! ### The slot while it is on loan -/

/-- Slot `i` is `x`, which is thin, and set `s` has lost its owners; the slot is on loan to the call
    above `below`, if that is not over. -/
structure Freeing (below : List Waiting) (i : SlotId) (s : SetId) (x : Slot) (m : Moment) : Prop where
  sound : m.Sound
  tidy : m.world.Tidy
  gone : (⟨s, 0, .destroy⟩ : Sweep).Ready m.world
  there : m.world.slots.get? i = some x
  lent : m.stack ≠ below → ∃ q, ⟨q, .slot i⟩ :: below <:+ m.stack

namespace Transition

/-- What a call has on loan it has until it is over. -/
theorem lent_after {q : Pending} (h : ⟨q, l⟩ :: below <:+ t.before.stack) :
    t.after.stack ≠ below → ∃ q, ⟨q, l⟩ :: below <:+ t.after.stack := by
  rcases t.waits_or_turns h with hwaits | ⟨hstack, hbelow⟩
  · exact fun _ => ⟨q, still_waits hwaits⟩
  · intro hne
    have hloan : t.move.loan = l := by
      obtain ⟨k, a, move, possible⟩ := t
      cases Moment.moves_of_move? possible with
      | call => exact absurd hbelow (ne_of_suffix h)
      | patched top | located _ top | failed _ top =>
        exact congrArg Waiting.loan (List.cons.inj (top.symm.trans hstack)).1
    rw [after, Move.after] at hne ⊢
    split at hne
    · next r q' _ =>
      exact ⟨q', by simp only [hloan, hbelow, List.suffix_rfl]⟩
    · exact absurd hbelow hne

end Transition

namespace Freeing

variable {f : Flags}

theorem aside (h : Freeing below i s x m) (thin : x.storage = .thin f) : m.world.Aside i s x where
  slots := h.tidy.slots
  there := h.there
  own _ hfat := by cases thin.symm.trans hfat
  only o ho := absurd (World.owned_iff.mpr ⟨o, ho⟩) (h.gone rfl).2

/-- As long as the slot is on loan it stays as it is. -/
theorem step (h : Freeing below i s x t.before) (thin : x.storage = .thin f)
    (lasting : t.before.stack ≠ below) : Freeing below i s x t.after := by
  obtain ⟨q, hframe⟩ := h.lent lasting
  obtain ⟨last, e, -⟩ := (Transition.does h.sound).edits
  refine ⟨Transition.sound h.sound, Transition.tidy h.sound h.tidy, h.gone.edits e, ?_,
    Transition.lent_after hframe⟩
  by_cases hcall : ∃ c, t.action = .call c
  · obtain ⟨c, hc⟩ := hcall
    obtain ⟨permitted, hmove⟩ := t.of_call hc
    obtain ⟨hallowed, hfree⟩ := Bool.and_eq_true_iff.mp permitted
    have helsewhere : c.takes ≠ some (.slot i) := by
      intro htakes
      have hlends : t.before.lends (.slot i) = true :=
        List.any_eq_true.mpr ⟨_, hframe.subset List.mem_cons_self, decide_eq_true rfl⟩
      simp [htakes, hlends] at hfree
    have hturn := congrArg (fun u : Move => u.turn.world.slots.get? i) hmove
    exact hturn.trans ((h.aside thin).kept_begin helsewhere hallowed)
  · have hslots := t.slots_of_answer fun c hc => hcall ⟨c, hc⟩
    rw [hslots, h.there]

theorem run {us : List Transition} (r : Run k us m) (h : Freeing below i s x k)
    (thin : x.storage = .thin f)
    (lasting : ∀ t ∈ us, t.before.stack ≠ below) : Freeing below i s x m :=
  r.keeps_along (fun _ ht h => h.step thin ht) lasting h

end Freeing

/-! ### Giving up -/

namespace Transition

/-- The last share is given up: what the slot keeps is settled with the first turn. -/
theorem freeing_of_last (h : t.before.LastShare i s x) (frees : t.action = .call (.freeFat i)) :
    Freeing t.before.stack i s
      { x with storage := .thin (t.before.world.flagsAfterFree s false) } t.after := by
  have hmove := (t.of_call frees).2
  rw [h.begin_freeFat] at hmove
  let y : Slot := { x with storage := .thin (t.before.world.flagsAfterFree s false) }
  have hworld : t.after.world = ((t.before.world.withSlot i y).sweepOn ⟨s, 0, .destroy⟩).world := by
    rw [after, Move.after, hmove]
    rfl
  have hready : (⟨s, 0, .destroy⟩ : Sweep).Ready (t.before.world.withSlot i y) := by
    intro _
    refine ⟨?_,
      (h.tidy.withSlot rfl).owners_eq_zero_iff.mp (h.aside.owners_eq_zero (x := y) h.tidy rfl)⟩
    rw [← World.store_eq_withSlot h.fat.there]
    exact (World.edits_giveUp h.fat.share false).issued
      (h.sound.coherent.issued_of_owned (Or.inr ⟨i, h.fat.share⟩))
  obtain ⟨last, e, -⟩ := (World.does_sweepOn hready).edits
  refine ⟨sound h.sound, t.tidy h.sound h.tidy, ?_, ?_, fun hne => ?_⟩
  · rw [hworld]
    exact hready.edits e
  · rw [hworld, World.slots_sweepOn]
    exact Store.get?_put_self _ i y
  · rw [after, Move.after, hmove] at hne ⊢
    split at hne
    · next r q _ => exact ⟨q, List.suffix_rfl⟩
    · exact absurd rfl hne

theorem fatSet?_of_freed (frees : t.action = .call (.freeFat i))
    (share : t.before.world.fatSet? i = some s) : t.after.world.fatSet? i = none := by
  obtain ⟨τ, events, hgo, hbegin⟩ := World.begin_of_release (o := .slot i) (c := .freeFat i) rfl share
  have hmove := (t.of_call frees).2
  rw [hbegin] at hmove
  have hslots : t.after.world.slots = τ.slots := by
    rw [after, Move.after, hmove]
    exact World.slots_release s
  have hnone : τ.fatSet? i = none := (hgo.shares (.slot i)).trans (if_pos rfl)
  rwa [World.fatSet?, World.slot?, hslots]

/-- A slot does not get a share back that it has given up. -/
theorem never_shares (h : t.before.Sound) (issued : t.before.world.Issued s)
    (other : t.before.world.fatSet? i ≠ some s) :
    t.after.world.Issued s ∧ t.after.world.fatSet? i ≠ some s := by
  obtain ⟨last, e, -⟩ := (does h).edits
  exact ⟨e.issued issued, fun share => other (e.share_before issued share)⟩

end Transition

namespace Moment

variable {start : Transition} {inside : List Transition}

/-- From the first turn on the slot keeps flags of its own, and these are settled. -/
theorem slot?_of_freed (hk : k.Sound) (tidy : k.world.Tidy) (fat : k.world.Fat i s x)
    (r : Run k (start :: inside) m) (frees : start.action = .call (.freeFat i))
    (lasting : ∀ t ∈ inside, t.before.stack ≠ k.stack) :
    ∃ shared, (shared = true ↔ k.world.Shared i s) ∧ m.world.slot? i =
      some ⟨.thin (k.world.flagsAfterFree s shared), x.promotions, true⟩ := by
  cases r with
  | cons hstart rest =>
    subst hstart
    by_cases hshared : start.before.world.Shared i s
    · refine ⟨true, iff_of_true rfl hshared, ?_⟩
      have hmove := (start.of_call frees).2
      rw [fat.begin_freeFat_of_shared tidy hshared] at hmove
      have hafter : start.after.stack = start.before.stack := by
        rw [Transition.after, Move.after, hmove]; rfl
      obtain ⟨rfl, rfl⟩ := rest.eq_nil_of_over hafter lasting
      refine World.slot?_eq_some_iff.mpr ⟨?_, rfl⟩
      rw [Transition.after, Move.after, hmove, ← fat.held]
      exact Store.get?_put_self _ i _
    · refine ⟨false, iff_of_false Bool.false_ne_true hshared, ?_⟩
      have hfreeing := (Transition.freeing_of_last ⟨hk, tidy, fat, hshared⟩ frees).run rest rfl lasting
      exact World.slot?_eq_some_iff.mpr ⟨fat.held ▸ hfreeing.there, rfl⟩

/-- The last share can be given up where all who are registered have addresses. -/
theorem LastShare.completes (h : k.LastShare i s x) (free : k.lends (.slot i) = false)
    (resolved : ∀ w ∈ k.world.queue s, k.world.Resolved w) :
    ∃ js m, k.Completes (.freeFat i) (List.replicate (k.world.queue s).length .patched) js m ∧
      js.map some = (k.world.queue s).map k.world.jumpOf? := by
  let t := k.calling (.freeFat i) (permits_release (o := .slot i) rfl h.fat.share free)
  have hturn : t.move.turn = _ := h.begin_freeFat
  have hcoherent := h.sound.coherent.edits (World.edits_giveUp h.fat.share false)
  rw [World.store_eq_withSlot h.fat.there] at hcoherent
  obtain ⟨us, m, r, hactions, hlasting, hcalm, hjumps, hstack, -⟩ :=
    exists_run_sweep hcoherent rfl resolved hturn
  exact ⟨jumps (t :: us), m, ⟨t, us, .cons rfl r, rfl, hactions, rfl, hlasting, hstack, fun u hu _ =>
    (Transition.whole_of_not_panics (w := 0) (hcalm u hu)).1⟩, hjumps⟩

end Moment

namespace Run

variable {past : List Transition}

/-- What a slot keeps that gives up its share, what becomes of the set, and that they go separate
    ways. -/
theorem gives_up (run : Run {} past k) (share : k.world.fatSet? i = some s) : k.GivesUp i s := by
  have hk := run.sound Moment.sound_empty
  have tidy := run.tidy Moment.sound_empty World.tidy_empty
  have alert := run.alert Moment.sound_empty World.alert_empty
  obtain ⟨x, fat⟩ := World.exists_fat share
  -- what comes later comes after the slot has lost its share for good
  have later : ∀ free : Transition, free.before = k → free.action = .call (.freeFat i) → ∀ past m,
      Run free.after past m → m.Sound ∧ m.world.Issued s ∧ m.world.fatSet? i ≠ some s := by
    rintro free rfl frees past m r
    have issued : free.after.world.Issued s := by
      obtain ⟨last, e, -⟩ := (Transition.does hk).edits
      exact e.issued (hk.coherent.issued_of_owned (Or.inr ⟨i, share⟩))
    have other : free.after.world.fatSet? i ≠ some s := by
      rw [Transition.fatSet?_of_freed frees share]
      exact (Option.some_ne_none s).symm
    exact r.keeps (P := fun m => m.Sound ∧ m.world.Issued s ∧ m.world.fatSet? i ≠ some s)
      (fun t ht => ⟨Transition.sound ht.1, Transition.never_shares ht.1 ht.2.1 ht.2.2⟩)
      ⟨Transition.sound hk, issued, other⟩
  refine ⟨?_, ?_, ?_, ?_, ?_, ?_⟩
  · intro start inside m r frees lasting
    obtain ⟨shared, hshared, hslot⟩ := Moment.slot?_of_freed hk tidy fat r frees lasting
    rw [World.flagsAfterFree_eq hk.coherent alert] at hslot
    refine ⟨_, _, hslot, ?_, ?_⟩
    · simp [hshared]
    · cases shared with
      | true => simp [hshared.mp rfl]
      | false => simp [← hshared]
  · intro alone inside js m
    exact Moment.LastShare.freeing_iff_writing ⟨hk, tidy, fat, alone⟩ alert
  · intro alone free resolved
    exact Moment.LastShare.completes ⟨hk, tidy, fat, alone⟩ free resolved
  · rintro ⟨o, ho, hne⟩ t rfl frees
    obtain ⟨hnext, hjump, hstack, hgo⟩ := Transition.letsGo_of_other tidy frees rfl share ho hne
    exact ⟨hnext, hjump, hstack, hgo.apart⟩
  · intro free hfree frees past start r c takes pre t hturn
    obtain ⟨hsound, issued, hother⟩ := later free hfree frees past _ r
    exact hturn.bypasses hsound (World.avoids_slot takes issued hother)
  · intro free hfree frees past start r c h on hset pre t hturn
    obtain ⟨hsound, -, -⟩ := later free hfree frees past _ r
    refine ⟨hturn.slots_kept (World.slots_handle on), fun v hv => ?_⟩
    obtain ⟨us, r'⟩ := hturn.reached
    obtain ⟨-, -, hother⟩ := later free hfree frees _ _ (r.append r')
    exact hturn.bypasses hsound (World.avoids_handle on hset fun he => hother (he ▸ hv))

end Run

/-- Two watchpoints wait on a slot, whose set nobody else has a share in. -/
def waitingOnSlot : List Action :=
  [.call (.createAlone 0 (.scripted "p") ⟨16⟩ ⟨96⟩), .call (.resolve 0), .located (.ok ⟨4112⟩),
    .located (.ok ⟨4192⟩), .call (.createAlone 1 (.scripted "p") ⟨32⟩ ⟨112⟩), .call (.resolve 1),
    .located (.ok ⟨4128⟩), .located (.ok ⟨4208⟩), .call (.newSlot 2 .blind),
      .call (.slotAdd 2 (some 0)),
    .call (.slotAdd 2 (some 1))]

theorem gives_up_waitingOnSlot :
    ∃ past k, Run {} past k ∧ k.world.fatSet? 2 = some (.ofSlot 2 0) ∧
    k.world.owners (.ofSlot 2 0) = 1 ∧
      (k.world.flagsOf (.ofSlot 2 0)).watched = true ∧ k.world.queue (.ofSlot 2 0) = [0, 1] ∧
      (∀ w ∈ k.world.queue (.ofSlot 2 0), k.world.Resolved w) ∧ k.lends (.slot 2) = false ∧
      k.GivesUp 2 (.ofSlot 2 0) := by
  have run := Moment.run_play {} waitingOnSlot
  exact ⟨_, _, run, by decide, by decide, by decide, by decide, by decide, by decide,
    run.gives_up (i := 2) (s := .ofSlot 2 0) (by decide)⟩

/-- A slot gives up a share that is not its last and has a watchpoint registered on it; then a write
    to it is reported. While the jump is installed, the watchpoint fires by itself and is registered
    on the other set. -/
def changedOverInsideJump : List Action :=
  [.call (.createAlone 0 (.scripted "p") ⟨16⟩ ⟨96⟩), .call (.resolve 0), .located (.ok ⟨4112⟩),
    .located (.ok ⟨4192⟩), .call (.newSlot 1 .blind), .call (.inflate 1), .call (.handleOfSlot 1 2),
    .call (.freeFat 1), .call (.slotAdd 1 (some 0)), .call (.slotNotifyWrite 1),
      .call (.fire 0), .patched,
    .call (.add 2 (some 0)), .patched]

/-- A call on a slot may reach the set that the slot has given up, though nobody panics: it takes a
    watchpoint off its list. -/
theorem freed_set_reached_from_slot :
    ∃ past free between start inside t,
    Run {} (past ++ free :: (between ++ start :: (inside ++ [t]))) t.after ∧
      (∀ u ∈ past ++ free :: (between ++ start :: (inside ++ [t])), u.panics = false) ∧
      free.action = .call (.freeFat 1) ∧ free.before.world.fatSet? 1 = some (.ofSlot 1 0) ∧
      free.before.world.Shared 1 (.ofSlot 1 0) ∧ t.TurnOf (.slotNotifyWrite 1) start (start :: inside) ∧
      t.after.world.Exists (.ofSlot 1 0) ∧ t.before.world.queue (.ofSlot 1 0) = [0] ∧
      t.after.world.queue (.ofSlot 1 0) = [] := by
  let ts := Moment.play {} changedOverInsideJump
  let start := ts.get ⟨9, by decide⟩
  let inside := (ts.drop 10).take 3
  let t := ts.get ⟨13, by decide⟩
  have run : Run {} (ts.take 9 ++ start :: (inside ++ [t])) t.after :=
    Moment.run_play {} changedOverInsideJump
  have turn : t.TurnOf (.slotNotifyWrite 1) start (start :: inside) := by
    obtain ⟨k, -, r⟩ := run.split
    cases r with
    | cons hstart rest => exact ⟨rfl, ⟨inside ++ [t], rfl, .cons rfl rest, by decide⟩, by decide⟩
  exact ⟨ts.take 7, ts.get ⟨7, by decide⟩, [ts.get ⟨8, by decide⟩], start, inside, t, run,
    by decide, rfl,
    by decide, ⟨.handle 2, by decide, by decide⟩, turn, ⟨_, rfl⟩, by decide, by decide⟩

end Invalidation
