import Invalidation.Proofs.Run.Sweep
import Invalidation.Proofs.World.Flags
import Invalidation.World.Report

/-! Who is registered is within reach of a write. Whoever reports a write looks at one flag only,
    and the owner of a slot does nothing at all where it is not set; so the flag has to be set
    wherever somebody is registered.

        registered on s ──▶ s is watched ──▶ the write sweeps s ──▶ nobody is registered on s

    That is so at every moment, whatever has failed on the way there: a sweep that fails half way leaves
    the flag as it is, and a sweep only clears it where it has found nobody any more. While the call
    that reports the write is in progress its sweep waits below all calls from inside; they may
    sweep the same set, clear the flag and register anew, and the sweep still does not return before
    the list is empty. -/

namespace Invalidation

/-- The call reports that the assumption of the set no longer holds. -/
inductive World.Writes (σ : World) : Call → SetId → Prop where
  | handle {h : HandleId} {s : SetId} (share : σ.handleSet? h = some s) : σ.Writes (.notifyWrite h) s
  | slot {i : SlotId} {s : SetId} (share : σ.fatSet? i = some s) : σ.Writes (.slotNotifyWrite i) s

/-- A sweep of the set waits above the calls `below`, with any others above it. -/
def Sweeping (below : List Waiting) (s : SetId) (ending : Ending) (m : Moment) : Prop :=
  ∃ inner w n loan, m.stack = inner ++ ⟨.patch ⟨w, some ⟨s, n, ending⟩⟩, loan⟩ :: below

/-- What a write can rely on at this moment. -/
structure Moment.WithinReach (m : Moment) : Prop where
  /-- A set with somebody registered on it reads as watched. -/
  watched : ∀ s, m.world.queue s ≠ [] → (m.world.setReport s).watched = true
  /-- No write to such a set is turned down. -/
  accepted : ∀ t : Transition, t.before = m → ∀ c s, t.action = .call c → m.world.Writes c s →
    m.world.queue s ≠ [] → t.move.turn.next ≠ .panicked .notWatched
  /-- A write that is reported now leaves nobody registered, if it returns: it is in progress before
      each transition in `inside`, and with `t` it comes to its end. -/
  drained : ∀ start inside m', Run m (start :: inside) m' → ∀ c s, start.action = .call c →
    m.world.Writes c s → (∀ t ∈ inside, t.before.stack ≠ m.stack) →
    ∀ t, (start :: inside).getLast? = some t → t.after.stack = m.stack →
    t.move.turn.next = .returned → t.after.world.queue s = []

variable {below : List Waiting} {s : SetId} {ending : Ending} {t : Transition} {c : Call}

/-! ### A sweep does not return before the list is empty -/

namespace World

variable {σ : World}

/-- A sweep asks for the next jump, or is cut short, or returns with nobody left on the list. -/
theorem sweepOn_cases (h : σ.Coherent) (sweep : Sweep) :
    (∃ r w, (σ.sweepOn sweep).next = .waiting r (.patch ⟨w, some sweep⟩)) ∨
      (∃ source destination, (σ.sweepOn sweep).next = .panicked (.unresolved source destination)) ∨
      (σ.sweepOn sweep).next = .returned ∧ (σ.sweepOn sweep).world.queue sweep.set = [] := by
  cases hfront : (σ.watchersOf sweep.set).front? with
  | some w =>
    rw [sweepOn_of_front hfront]
    cases ha : (σ.watchpoint w).addresses? with
    | none =>
      rw [fire_of_unresolved ha]
      exact Or.inr (Or.inl ⟨_, _, rfl⟩)
    | some a =>
      rw [fire_of_resolved ha]
      exact Or.inl ⟨_, w, rfl⟩
  | none =>
    rw [sweepOn_of_drained hfront]
    rw [h.front?_eq, List.head?_eq_none_iff] at hfront
    exact Or.inr (Or.inr ⟨rfl, queue_finish hfront⟩)

end World

namespace Transition

/-- No more than the call itself is put above those that go on waiting. -/
theorem stack_after (t : Transition) : ∃ inner, t.after.stack = inner ++ t.move.below := by
  rw [after, Move.after]
  cases t.move.turn.next with
  | waiting r pending => exact ⟨[⟨pending, t.move.loan⟩], rfl⟩
  | returned | failed | panicked => exact ⟨[], rfl⟩

/-- A call that goes on waiting waits afterwards, whatever has been put above it. -/
theorem still_waits {x : Waiting} (h : x :: below <:+ t.move.below) : x :: below <:+ t.after.stack := by
  obtain ⟨inner, hafter⟩ := t.stack_after
  exact hafter ▸ h.trans (List.suffix_append _ _)

/-- A call that waits goes on waiting, or it is its turn. -/
theorem waits_or_turns {x : Waiting} (h : x :: below <:+ t.before.stack) :
    x :: below <:+ t.move.below ∨ t.before.stack = x :: below ∧ t.move.below = below := by
  obtain ⟨m, a, v, possible⟩ := t
  cases Moment.moves_of_move? possible with
  | call => exact Or.inl h
  | patched top | located _ top | failed _ top =>
    rcases List.suffix_cons_iff.mp (top ▸ h) with heq | h
    · exact Or.inr ⟨top.trans heq.symm, (List.cons.inj heq).2.symm⟩
    · exact Or.inl h

theorem ne_of_suffix {x : Waiting} {stack : List Waiting} (h : x :: below <:+ stack) :
    stack ≠ below := by
  rintro rfl
  exact absurd h.length_le (by simp)

/-- A transition that goes on with a sweep leaves it waiting, or cuts it short, or ends it where
    nobody is left on the list. -/
theorem sweeping_or_ends {σ : World} {n : Nat} (events : List LogEvent) (h : σ.Coherent)
    (turn : t.move.turn = (σ.sweepOn ⟨s, n, ending⟩).after events) (hbelow : t.move.below = below) :
    Sweeping below s ending t.after ∨
      t.after.stack = below ∧ (t.move.turn.next = .returned → t.after.world.queue s = []) := by
  have hnext : t.move.turn.next = (σ.sweepOn ⟨s, n, ending⟩).next := by rw [turn]; rfl
  have hworld : t.after.world = (σ.sweepOn ⟨s, n, ending⟩).world := by
    rw [after, Move.after, turn]
    rfl
  rcases World.sweepOn_cases h ⟨s, n, ending⟩ with ⟨r, w, hw⟩ | ⟨_, _, hp⟩ | ⟨hr, hq⟩
  · refine Or.inl ⟨[], w, n, t.move.loan, ?_⟩
    simp only [after, Move.after, hnext, hw, hbelow]
    rfl
  · refine Or.inr ⟨?_, fun hr => ?_⟩
    · simp only [after, Move.after, hnext, hp, hbelow]
    · rw [hnext, hp] at hr
      cases hr
  · refine Or.inr ⟨?_, fun _ => hworld ▸ hq⟩
    simp only [after, Move.after, hnext, hr, hbelow]

end Transition

/-- A sweep that waits goes on waiting, whatever happens above it, until a transition ends it; if it
    returns then, nobody is left on the list. -/
theorem Sweeping.step (u : Sweeping below s ending t.before) (h : t.before.Sound) :
    Sweeping below s ending t.after ∨
      t.after.stack = below ∧ (t.move.turn.next = .returned → t.after.world.queue s = []) := by
  obtain ⟨inner, w, n, loan, hstack⟩ := u
  -- whatever goes on above the sweep leaves it where it is
  have above : ∀ inner', t.move.below = inner' ++ ⟨.patch ⟨w, some ⟨s, n, ending⟩⟩, loan⟩ :: below →
      Sweeping below s ending t.after := by
    intro inner' hbelow
    obtain ⟨more, hmore⟩ := t.stack_after
    exact ⟨more ++ inner', w, n, loan, by rw [hmore, hbelow, List.append_assoc]⟩
  obtain ⟨m, a, v, possible⟩ := t
  cases Moment.moves_of_move? possible with
  | call => exact Or.inl (above inner hstack)
  | located answer top =>
    cases inner with
    | nil => cases top.symm.trans hstack
    | cons x inner =>
      exact Or.inl (above inner (List.cons.inj (top.symm.trans hstack)).2)
  | @failed pending loan' rest message top =>
    cases inner with
    | nil =>
      obtain ⟨-, hrest⟩ := List.cons.inj (top.symm.trans hstack)
      exact Or.inr ⟨hrest, Next.noConfusion⟩
    | cons x inner =>
      exact Or.inl (above inner (List.cons.inj (top.symm.trans hstack)).2)
  | @patched p loan' rest top =>
    cases inner with
    | nil =>
      obtain ⟨hx, hrest⟩ := List.cons.inj (top.symm.trans hstack)
      obtain rfl : p = _ := Pending.patch.inj (congrArg Waiting.pending hx)
      have hcoherent := h.coherent.edits (World.edits_fired m.world w)
      exact Transition.sweeping_or_ends [] hcoherent rfl hrest
    | cons x inner =>
      exact Or.inl (above inner (List.cons.inj (top.symm.trans hstack)).2)

theorem Sweeping.stack_ne {m : Moment} (u : Sweeping below s ending m) : m.stack ≠ below := by
  obtain ⟨inner, w, n, loan, hstack⟩ := u
  intro he
  have hlen := congrArg List.length (he.symm.trans hstack)
  simp at hlen
  omega

theorem Sweeping.run {k m : Moment} {inside : List Transition} (r : Run k inside m) (hk : k.Sound)
    (u : Sweeping below s ending k) (lasting : ∀ t ∈ inside, t.before.stack ≠ below)
    (last : inside.getLast? = some t) (ended : t.after.stack = below)
    (returned : t.move.turn.next = .returned) : t.after.world.queue s = [] := by
  induction r with
  | nil => cases last
  | @cons k m u' ts start rest ih =>
    subst start
    obtain ⟨-, hlasting⟩ := List.forall_mem_cons.mp lasting
    cases rest with
    | nil =>
      obtain rfl := Option.some.inj last
      rcases u.step hk with hu | ⟨-, hq⟩
      · exact absurd ended hu.stack_ne
      · exact hq returned
    | @cons _ _ t' ts' start' rest' =>
      rcases u.step hk with hu | ⟨hstack, -⟩
      · exact ih (Transition.sound hk) hu hlasting last
      · exact absurd (start' ▸ hstack) (hlasting t' List.mem_cons_self)

/-! ### A write sweeps its set unless there is nobody on it -/

namespace World

variable {σ : World}

theorem Writes.owned (h : σ.Writes c s) : σ.Owned s := by
  cases h with
  | handle share => exact Or.inl ⟨_, share⟩
  | slot share => exact Or.inr ⟨_, share⟩

theorem Writes.sweeps (h : σ.Writes c s) (watched : (σ.flagsOf s).watched = true) :
    σ.Sweeps c s .invalidate := by
  cases h with
  | handle share => exact .notifyWrite share watched
  | slot share => exact .slotNotifyWrite share watched

/-- A write to a set that nobody watches does nothing: it is turned down, or returns. -/
theorem Writes.begin_of_unwatched (h : σ.Writes c s) (unwatched : (σ.flagsOf s).watched = false) :
    (σ.begin c).world = σ ∧ ∀ r p, (σ.begin c).next ≠ .waiting r p := by
  cases h with
  | handle share =>
    simp only [begin, onHandle, share, notifyWrite, unwatched]
    exact ⟨rfl, fun _ _ => Next.noConfusion⟩
  | slot share =>
    obtain ⟨n, b, hslot⟩ := slot?_of_fatSet? share
    simp only [begin, slotNotifyWrite, hslot, unwatched]
    exact ⟨rfl, fun _ _ => Next.noConfusion⟩

end World

namespace Transition

/-- A write starts a sweep, or is over at once; if it returns then, nobody is registered. -/
theorem sweeping_of_writes (h : t.before.Sound) (alert : t.before.world.Alert)
    (action : t.action = .call c) (writes : t.before.world.Writes c s) :
    Sweeping t.before.stack s .invalidate t.after ∨
      t.after.stack = t.before.stack ∧
        (t.move.turn.next = .returned → t.after.world.queue s = []) := by
  obtain ⟨m, a, v, possible⟩ := t
  obtain rfl : a = .call c := action
  cases Moment.moves_of_move? possible with
  | call =>
    cases hw : (m.world.flagsOf s).watched with
    | true =>
      obtain ⟨τ, events, e, -, -, hbegin⟩ := (writes.sweeps hw).begin
      exact sweeping_or_ends events (h.coherent.edits e) hbegin rfl
    | false =>
      obtain ⟨hworld, hnext⟩ := writes.begin_of_unwatched hw
      have hnil : m.world.queue s = [] := by
        by_contra hne
        exact Bool.false_ne_true (hw.symm.trans (alert s hne))
      refine Or.inr ⟨?_, fun _ => (congrArg (World.queue · s) hworld).trans hnil⟩
      rw [after, Move.after]
      split
      · next r pending hn => exact absurd hn (hnext r pending)
      · rfl

/-- A write is turned down only if nobody is registered. -/
theorem not_turned_down (h : t.before.Sound) (alert : t.before.world.Alert)
    (action : t.action = .call c)
    (writes : t.before.world.Writes c s) (registered : t.before.world.queue s ≠ []) :
    t.move.turn.next ≠ .panicked .notWatched := by
  obtain ⟨m, a, v, possible⟩ := t
  obtain rfl : a = .call c := action
  cases Moment.moves_of_move? possible with
  | call =>
    obtain ⟨τ, events, e, -, -, hbegin⟩ := (writes.sweeps (alert s registered)).begin
    intro hn
    have hsweep : (τ.sweepOn ⟨s, 0, .invalidate⟩).next = .panicked .notWatched :=
      (congrArg Turn.next hbegin).symm.trans hn
    rcases World.sweepOn_cases (h.coherent.edits e) ⟨s, 0, .invalidate⟩ with
      ⟨r, w, hw⟩ | ⟨_, _, hp⟩ | ⟨hr, -⟩
    · cases hsweep.symm.trans hw
    · cases hsweep.symm.trans hp
    · cases hsweep.symm.trans hr

theorem alert (h : t.before.Sound) (ha : t.before.world.Alert) : t.after.world.Alert := by
  obtain ⟨last, e, -⟩ := (does h).edits
  exact ha.edits h.coherent e

end Transition

namespace Run

variable {ts inside : List Transition} {start : Transition} {k m : Moment}

theorem alert (r : Run k ts m) (hk : k.Sound) (ha : k.world.Alert) : m.world.Alert :=
  (r.keeps (P := fun m => m.Sound ∧ m.world.Alert)
    (fun _ h => ⟨Transition.sound h.1, Transition.alert h.1 h.2⟩) ⟨hk, ha⟩).2

/-- A write that returns leaves nobody registered. -/
theorem drained_of_writes (r : Run k (start :: inside) m) (hk : k.Sound) (ha : k.world.Alert)
    (action : start.action = .call c) (writes : k.world.Writes c s)
    (lasting : ∀ t ∈ inside, t.before.stack ≠ k.stack) (last : (start :: inside).getLast? = some t)
    (ended : t.after.stack = k.stack) (returned : t.move.turn.next = .returned) :
    t.after.world.queue s = [] := by
  cases r with
  | cons hstart rest =>
    subst hstart
    have hu := Transition.sweeping_of_writes hk ha action writes
    cases inside with
    | nil =>
      obtain rfl := Option.some.inj last
      rcases hu with hu | ⟨-, hq⟩
      · exact absurd ended hu.stack_ne
      · exact hq returned
    | cons t' inside =>
      rcases hu with hu | ⟨hstack, -⟩
      · exact hu.run rest (Transition.sound hk) lasting last ended returned
      · cases rest with
        | cons hnext _ => exact absurd (hnext ▸ hstack) (lasting t' List.mem_cons_self)

/-- At every moment of every run, whoever is registered on a set is within reach of a write to it. -/
theorem within_reach_of_writes (run : Run {} ts m) : m.WithinReach where
  watched := run.alert Moment.sound_empty World.alert_empty
  accepted t ht c s action writes registered := by
    subst ht
    exact Transition.not_turned_down (run.sound Moment.sound_empty)
      (run.alert Moment.sound_empty World.alert_empty) action writes registered
  drained start inside m' r c s action writes lasting t last ended returned :=
    r.drained_of_writes (run.sound Moment.sound_empty)
      (run.alert Moment.sound_empty World.alert_empty) action writes lasting last ended returned

end Run

/-- A watchpoint waits on the set of a slot when a write is reported. Inside its jump another write is
    reported through a handle, which sweeps the set and declares the assumption broken; then a second
    watchpoint is registered, and the patcher fails. -/
def writeInsideBrokenOffWrite : List Action :=
  [.call (.createAlone 0 (.scripted "p") ⟨16⟩ ⟨96⟩), .call (.resolve 0), .located (.ok ⟨4112⟩),
    .located (.ok ⟨4192⟩), .call (.createAlone 1 (.scripted "p") ⟨32⟩ ⟨112⟩), .call (.resolve 1),
    .located (.ok ⟨4128⟩), .located (.ok ⟨4208⟩), .call (.newSlot 2 .blind),
      .call (.slotAdd 2 (some 0)),
    .call (.handleOfSlot 2 3), .call (.slotNotifyWrite 2), .call (.notifyWrite 3), .patched,
    .call (.add 3 (some 1)), .failed "no memory"]

/-- A write is reported again, once all that is over. -/
def writeAfterwards : List Action := [.call (.slotNotifyWrite 2), .patched]

theorem within_reach_of_writes_brokenOff :
    ∃ ts m, Run {} ts m ∧ m.stack = [] ∧ m.world.queue (.ofSlot 2 0) = [1] ∧
      (m.world.setReport (.ofSlot 2 0)).invalidated = true ∧ m.WithinReach ∧
      (m.last (m.play writeAfterwards)).world.queue (.ofSlot 2 0) = [] :=
  ⟨_, _, Moment.run_play {} writeInsideBrokenOffWrite, by decide, by decide, by decide,
    (Moment.run_play {} writeInsideBrokenOffWrite).within_reach_of_writes, by decide⟩

end Invalidation
