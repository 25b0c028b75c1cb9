import Invalidation.Proofs.Run.Write
import Invalidation.Proofs.World.Deeds
import Invalidation.Proofs.World.Tables
import Mathlib.Data.Nat.Find

/-! Every sweep ends. Nothing counts its rounds: it fires whoever is at the head of the list until
    nobody is, while calls from inside register others, sweep the same list, or take off it whom it
    is firing and put it on again. What makes an end is that a round, however it goes, leaves the
    list without the watchpoint that it has fired.

        round 1 ──▶ round 2 ──▶ … ──▶ returned / panicked    rounds ≤ on the list + registered since
           └── calls from inside, sweeps with rounds of their own among them

    Each sweep that waits, at whatever depth, is given a credit: the others on its list, and one for
    whom it is firing. An answer uses up one unit of credit or more, whichever call it is for. Only
    a call gives new credit, to a call that comes to wait or, by a registration, to those that wait
    already. -/

namespace Invalidation

/-- The change is a registration on the set. -/
def Change.joins (s : SetId) : Change → Bool
  | .join _ r => r = s
  | _ => false

namespace Transition

/-- With this transition a registration on the set is completed. -/
def registers (s : SetId) (t : Transition) : Bool := t.change?.any (·.joins s)

/-- With this transition the sweep above the calls `below` begins a round: it fires the watchpoint
    at the head of its list, which waits for its jump or turns out to have no addresses. -/
def begins (below : List Waiting) (t : Transition) : Bool :=
  match t.action with
  | .failed _ => false
  | _ => t.move.below = below && t.move.turn.next ≠ .returned

end Transition

namespace Pending

/-- How many answers the call is due at most, as its list is now. -/
def credit (σ : World) : Pending → Nat
  | .patch ⟨w, some sweep⟩ => ((σ.queue sweep.set).erase w).length + 1
  | .patch ⟨_, none⟩ => 1
  | .locate l => (Pending.locate l).answers

end Pending

/-- How many answers calls that wait are due at most, as their lists are now. -/
def credit (σ : World) : List Waiting → Nat
  | [] => 0
  | x :: xs => x.pending.credit σ + credit σ xs

/-- How many answers are due at most because of the end of a turn. -/
def Next.credit (σ : World) : Next → Nat
  | .waiting _ p => p.credit σ
  | _ => 0

/-- What is true of a sweep that one transition has started, with others inside it since. -/
structure DuringSweep (s : SetId) (start : Transition) (inside : List Transition) (m : Moment) :
    Prop where
  /-- A round is for somebody who was on the list at the start, or has been registered since. -/
  rounds : (start :: inside).countP (·.begins start.before.stack) ≤
    (start.before.world.queue s).length + inside.countP (·.registers s)
  /-- A round that is completed leaves whom it has fired on no list. -/
  leaves : ∀ t ∈ inside, ∀ p loan, t.before.stack = ⟨.patch p, loan⟩ :: start.before.stack →
    t.action = .patched → ∀ r, p.watchpoint ∉ t.after.world.queue r
  /-- It cannot go on for ever, unless somebody makes calls for ever. -/
  bounded : inside.length ≤ (start.before.world.queue s).length + inside.countP (·.call?.isSome) *
    (start.before.world.watchpoints.values.length + inside.countP (·.call?.isSome) + 3)
  /-- It cannot be stuck: as long as it is in progress, some answer is possible. -/
  goesOn : m.stack ≠ start.before.stack → ∃ a v, (∀ c, a ≠ .call c) ∧ m.move? a = some v
  /-- If it is over, it has returned or panicked. -/
  ends : m.stack = start.before.stack → ∃ t, (start :: inside).getLast? = some t ∧
    (t.move.turn.next = .returned ∨ t.panics = true)

/-- A sweep that starts with this transition comes to its end. -/
structure SweepEnds (s : SetId) (start : Transition) : Prop where
  during : ∀ inside m, Run start.after inside m → (∀ t ∈ inside, t.before.stack ≠ start.before.stack) →
    DuringSweep s start inside m
  /-- Whatever the surroundings do, it returns or panics, if they make so many calls at most while
      it is in progress. -/
  returns : ∀ f : ℕ → Transition, f 0 = start → (∀ i, (f (i + 1)).before = (f i).after) →
    ∀ calls, (∀ n, (∀ i < n, (f i).after.stack ≠ start.before.stack) →
        ((List.range n).map fun i => f (i + 1)).countP (·.call?.isSome) ≤ calls) →
      ∃ n, (f n).after.stack = start.before.stack ∧
        ((f n).move.turn.next = .returned ∨ (f n).panics = true)

variable {below : List Waiting} {s : SetId} {ending : Ending} {v w : WatchpointId} {t : Transition}
  {c : Call} {σ : World}

/-! ### Lists through one transition -/

namespace Change

theorem length_on_le_joins (s : SetId) (c : Change) (ws : List WatchpointId) :
    (c.on s ws).length ≤ ws.length + if c.joins s then 1 else 0 := by
  cases c with
  | join v r =>
    simp only [on, joins, decide_eq_true_eq]
    split <;> simp
  | leave v => exact Nat.le_add_right_of_le List.length_erase_le
  | retire r => exact Nat.le_add_right _ _
  | vanish r =>
    rw [on]
    split <;> simp

/-- Who is being fired aside, a list gets longer only by a registration on it. -/
theorem length_erase_on_le (s : SetId) (c : Change) (ws : List WatchpointId) (w : WatchpointId) :
    ((c.on s ws).erase w).length ≤ (ws.erase w).length + if c.joins s then 1 else 0 := by
  cases c with
  | join v r =>
    simp only [on, joins, decide_eq_true_eq]
    split
    · by_cases hw : w ∈ ws
      · rw [List.erase_append_left _ hw, List.length_append, List.length_singleton]
      · rw [List.erase_append_right _ hw, List.length_append, List.erase_of_not_mem hw]
        exact Nat.add_le_add_left List.length_erase_le _
    · exact Nat.le_add_right _ _
  | leave v =>
    rw [on, List.erase_comm]
    exact Nat.le_add_right_of_le List.length_erase_le
  | retire r => exact Nat.le_add_right _ _
  | vanish r =>
    rw [on]
    split <;> simp

end Change

/-- No list is longer than there are watchpoints. -/
theorem World.Coherent.length_queue_le (h : σ.Coherent) (s : SetId) :
    (σ.queue s).length ≤ σ.watchpoints.values.length := by
  have hsub : σ.queue s ⊆ σ.watchpoints.pairs.map Prod.fst := by
    intro w hw
    obtain ⟨k, hk⟩ := h.tie?_of_mem hw
    obtain ⟨x, hx, -⟩ := Option.map_eq_some_iff.mp hk
    exact List.mem_map.mpr ⟨(w, x), Store.mem_pairs_of_get? hx, rfl⟩
  have hle := ((h.nodup_queue s).subperm hsub).length_le
  rwa [List.length_map, ← List.length_map (f := Prod.snd)] at hle

namespace Transition

theorem length_queue_le (h : t.before.Sound) (s : SetId) :
    (t.after.world.queue s).length ≤
      (t.before.world.queue s).length + if t.registers s then 1 else 0 := by
  obtain ⟨struck, -, hq⟩ := queue_after h
  rw [hq, registers]
  split
  · exact Nat.zero_le _
  · cases t.change? with
    | none => exact Nat.le_add_right _ _
    | some c => exact c.length_on_le_joins s _

theorem length_erase_queue_le (h : t.before.Sound) (s : SetId) (w : WatchpointId) :
    ((t.after.world.queue s).erase w).length ≤
      ((t.before.world.queue s).erase w).length + if t.registers s then 1 else 0 := by
  obtain ⟨struck, -, hq⟩ := queue_after h
  rw [hq, registers]
  split
  · exact Nat.zero_le _
  · cases t.change? with
    | none => exact Nat.le_add_right _ _
    | some c => exact c.length_erase_on_le s _ w

/-- Only a call registers, and it returns at once. -/
theorem returned_of_registers (h : t.registers s = true) :
    t.call?.isSome = true ∧ t.move.turn.next = .returned := by
  cases hx : t.change? with
  | none => simp [registers, hx] at h
  | some x =>
    rcases join_or_leave hx with ⟨v, r, rfl⟩ | ⟨v, rfl⟩
    · refine ⟨?_, (returned_of_join hx).1⟩
      obtain ⟨m, a, v, possible⟩ := t
      cases Moment.moves_of_move? possible with
      | call => rfl
      | patched top => simp [change?, top, Pending.patching?] at hx
      | located | failed => cases hx
    · simp [registers, hx, Change.joins] at h

theorem not_registers_of_answer (h : t.call? = none) (s : SetId) : t.registers s = false :=
  Bool.eq_false_iff.mpr fun hr => by
    have hcall := (returned_of_registers hr).1
    rw [h] at hcall
    cases hcall

end Transition

/-! ### Rounds -/

/-- The sweep above the calls `below` is in a round for the watchpoint. -/
def InRound (below : List Waiting) (s : SetId) (w : WatchpointId) (m : Moment) : Prop :=
  ∃ n ending loan, ⟨.patch ⟨w, some ⟨s, n, ending⟩⟩, loan⟩ :: below <:+ m.stack

/-- A sweep that goes on asks for the jump of somebody on its list, or it finds somebody without
    addresses, or it returns. -/
theorem World.Coherent.sweepOn_head (h : σ.Coherent) (sweep : Sweep) :
    (∃ r w, (σ.sweepOn sweep).next = .waiting r (.patch ⟨w, some sweep⟩) ∧ (σ.sweepOn sweep).world = σ ∧
        w ∈ σ.queue sweep.set) ∨
      (∃ fault, (σ.sweepOn sweep).next = .panicked fault) ∧ σ.queue sweep.set ≠ [] ∨
      (σ.sweepOn sweep).next = .returned := by
  cases hfront : (σ.watchersOf sweep.set).front? with
  | some w =>
    have hmem : w ∈ σ.queue sweep.set := List.mem_of_head? ((h.front?_eq _).symm.trans hfront)
    rw [World.sweepOn_of_front hfront]
    cases ha : (σ.watchpoint w).addresses? with
    | none =>
      rw [World.fire_of_unresolved ha]
      exact Or.inr (Or.inl ⟨⟨_, rfl⟩, List.ne_nil_of_mem hmem⟩)
    | some a =>
      rw [World.fire_of_resolved ha]
      exact Or.inl ⟨_, w, rfl, rfl, hmem⟩
  | none =>
    rw [World.sweepOn_of_drained hfront]
    exact Or.inr (Or.inr rfl)

/-- A sweep that goes on begins a round for one of those on its list, or it is over. -/
theorem round_or_over {n : Nat} (events : List LogEvent) (h : σ.Coherent)
    (turn : t.move.turn = (σ.sweepOn ⟨s, n, ending⟩).after events) (hbelow : t.move.below = below) :
    (∃ w, InRound below s w t.after ∧
        ((t.after.world.queue s).erase w).length + 1 = (σ.queue s).length) ∨
      t.after.stack = below ∧ (t.move.turn.next = .returned ∨ t.panics = true) ∧
        (if t.begins below then 1 else 0) ≤ (σ.queue s).length := by
  have hnext : t.move.turn.next = (σ.sweepOn ⟨s, n, ending⟩).next := by rw [turn]; rfl
  have hworld : t.after.world = (σ.sweepOn ⟨s, n, ending⟩).world := by
    rw [Transition.after, Move.after, turn]
    rfl
  have hstack : t.after.stack = match t.move.turn.next with
      | .waiting _ pending => ⟨pending, t.move.loan⟩ :: below
      | _ => below := by rw [← hbelow]; rfl
  rcases h.sweepOn_head ⟨s, n, ending⟩ with ⟨r, w, hw, hsame, hmem⟩ | ⟨⟨fault, hp⟩, hne⟩ | hr
  · refine Or.inl ⟨w, ⟨n, ending, t.move.loan, ?_⟩, ?_⟩
    · simpa only [hstack, hnext, hw] using List.suffix_rfl
    · rw [hworld, hsame, List.length_erase_of_mem hmem]
      exact Nat.sub_add_cancel (List.length_pos_of_mem hmem)
  · refine Or.inr ⟨by rw [hstack, hnext, hp], Or.inr ?_, ?_⟩
    · rw [Transition.panics, hnext, hp]
    · exact Nat.le_trans (by split <;> omega) (List.length_pos_iff.mpr hne)
  · refine Or.inr ⟨by rw [hstack, hnext, hr], Or.inl (hnext.trans hr), ?_⟩
    have hbegins : t.begins below = false := by
      rw [Transition.begins]
      split
      · rfl
      · simp [hnext.trans hr]
    rw [hbegins]
    exact Nat.zero_le _

namespace InRound

theorem stack_ne {m : Moment} (u : InRound below s w m) : m.stack ≠ below := by
  obtain ⟨n, ending, loan, h⟩ := u
  exact Transition.ne_of_suffix h

/-- A round goes on beneath what is called from inside, or it is completed and the next begins, or the
    sweep is over. -/
theorem step (u : InRound below s w t.before) (h : t.before.Sound) :
    (InRound below s w t.after ∧ t.begins below = false) ∨
      (∃ v, InRound below s v t.after ∧
        ((t.after.world.queue s).erase v).length + 1 = ((t.before.world.queue s).erase w).length) ∨
      t.after.stack = below ∧ (t.move.turn.next = .returned ∨ t.panics = true) ∧
        (if t.begins below then 1 else 0) ≤ ((t.before.world.queue s).erase w).length := by
  obtain ⟨n, ending, loan, hsuffix⟩ := u
  rcases t.waits_or_turns hsuffix with hon | ⟨top, hbelow⟩
  · refine Or.inl ⟨⟨n, ending, loan, ?_⟩, ?_⟩
    · exact Transition.still_waits hon
    · rw [Transition.begins]
      split
      · rfl
      · simp [Transition.ne_of_suffix hon]
  · refine Or.inr ?_
    obtain ⟨m, a, v, possible⟩ := t
    cases Moment.moves_of_move? possible with
    | call => exact absurd (top.symm.trans hbelow) (List.cons_ne_self _ _)
    | located answer top' => cases top'.symm.trans top
    | failed message top' => exact Or.inr ⟨hbelow, Or.inr rfl, Nat.zero_le _⟩
    | @patched p loan' rest top' =>
      obtain ⟨hx, -⟩ := List.cons.inj (top'.symm.trans top)
      obtain rfl : p = _ := Pending.patch.inj (congrArg Waiting.pending hx)
      have e := World.edits_fired m.world w
      rw [← h.coherent.queue_fired]
      exact round_or_over [] (h.coherent.edits e) rfl hbelow

/-- As many rounds begin at most as there are others on the list, or register meanwhile. -/
theorem run {k m : Moment} {inside : List Transition} (r : Run k inside m) (hk : k.Sound)
    (u : InRound below s w k) (lasting : ∀ t ∈ inside, t.before.stack ≠ below) :
    inside.countP (·.begins below) ≤
        ((k.world.queue s).erase w).length + inside.countP (·.registers s) ∧
      ((∃ v, InRound below s v m) ∨ m.stack = below ∧ ∃ t, inside.getLast? = some t ∧
        (t.move.turn.next = .returned ∨ t.panics = true)) := by
  induction r generalizing w with
  | nil => exact ⟨Nat.zero_le _, Or.inl ⟨w, u⟩⟩
  | @cons k m t ts start rest ih =>
    subst start
    obtain ⟨-, hlasting⟩ := List.forall_mem_cons.mp lasting
    have hlonger := Transition.length_erase_queue_le hk s w
    have hone : (if t.begins below then 1 else 0) ≤ 1 := by split <;> omega
    rw [List.countP_cons, List.countP_cons]
    rcases u.step hk with ⟨hu, hnone⟩ | ⟨v, hu, hshorter⟩ | ⟨hstack, hends, hbegins⟩
    · obtain ⟨hcount, hend⟩ := ih (Transition.sound hk) hu hlasting
      rw [if_neg (by simp [hnone])]
      exact ⟨by omega, hend.imp_right fun ⟨he, x, hx, hr⟩ =>
        ⟨he, x, by rw [List.getLast?_cons, hx]; rfl, hr⟩⟩
    · obtain ⟨hcount, hend⟩ := ih (Transition.sound hk) hu hlasting
      exact ⟨by omega, hend.imp_right fun ⟨he, x, hx, hr⟩ =>
        ⟨he, x, by rw [List.getLast?_cons, hx]; rfl, hr⟩⟩
    · obtain ⟨rfl, rfl⟩ := rest.eq_nil_of_over hstack hlasting
      exact ⟨by simpa using Nat.le_add_right_of_le hbegins, Or.inr ⟨hstack, t, rfl, hends⟩⟩

end InRound

/-! ### Credit -/

theorem credit_append (σ : World) (xs ys : List Waiting) :
    credit σ (xs ++ ys) = credit σ xs + credit σ ys := by
  induction xs with
  | nil => exact (Nat.zero_add _).symm
  | cons x xs ih => rw [List.cons_append, credit, credit, ih, Nat.add_assoc]

theorem one_le_credit (σ : World) (p : Pending) : 1 ≤ p.credit σ := by
  match p with
  | .patch ⟨w, some sweep⟩ => exact Nat.le_add_left 1 _
  | .patch ⟨w, none⟩ => exact Nat.le_refl 1
  | .locate l => exact one_le_answers (.locate l)

/-- Above a call from inside all calls go on waiting. -/
theorem Transition.below_of_call (h : t.call? = some c) : t.move.below = t.before.stack := by
  obtain ⟨m, a, v, possible⟩ := t
  cases Moment.moves_of_move? possible with
  | call => rfl
  | patched | located | failed => cases h

/-- An answer is for the call that waits innermost. -/
theorem Transition.stack_of_answer (h : t.call? = none) : ∃ x, t.before.stack = x :: t.move.below := by
  obtain ⟨m, a, v, possible⟩ := t
  cases Moment.moves_of_move? possible with
  | call => cases h
  | patched top | located _ top | failed _ top => exact ⟨_, top⟩

/-- The call itself, if it waits, is put above those that go on waiting. -/
theorem Transition.stack_after_credit (t : Transition) : ∃ more, t.after.stack = more ++ t.move.below ∧
    more.length ≤ 1 ∧ credit t.after.world more = t.move.turn.next.credit t.after.world := by
  rw [after, Move.after]
  cases t.move.turn.next with
  | waiting r pending => exact ⟨[⟨pending, t.move.loan⟩], rfl, Nat.le_refl 1, rfl⟩
  | returned | failed | panicked => exact ⟨[], rfl, Nat.zero_le 1, rfl⟩

namespace World

/-- A sweep that goes on is due the answers for those on its list. -/
theorem Coherent.credit_sweepOn (h : σ.Coherent) (sweep : Sweep) :
    (σ.sweepOn sweep).next.credit (σ.sweepOn sweep).world ≤ (σ.queue sweep.set).length := by
  rcases h.sweepOn_head sweep with ⟨r, w, hnext, hworld, hmem⟩ | ⟨⟨fault, hnext⟩, -⟩ | hnext
  · rw [hnext, hworld, Next.credit, Pending.credit, List.length_erase_of_mem hmem]
    exact Nat.le_of_eq (Nat.sub_add_cancel (List.length_pos_of_mem hmem))
  · rw [hnext]
    exact Nat.zero_le _
  · rw [hnext]
    exact Nat.zero_le _

theorem credit_located (σ : World) (l : Locating) (answer : Except LinkFailure Address) :
    (σ.located l answer).next.credit (σ.located l answer).world ≤ (σ.located l answer).next.due := by
  rcases located_cases σ l answer with ⟨e, he⟩ | ⟨a, -, -, he⟩ | ⟨a, b, -, -, -, he⟩
  · rw [he]
    exact Nat.le_refl _
  · rw [he]
    exact Nat.le_refl _
  · rw [he]
    exact Nat.le_refl _

end World

namespace Transition

/-- A call that goes on waiting is given no more than what is registered. -/
theorem credit_pending_le (h : t.before.Sound) {n : Nat}
    (given : ∀ s, (if t.registers s then 1 else 0) ≤ n)
    (p : Pending) : p.credit t.after.world ≤ p.credit t.before.world + n := by
  match p with
  | .patch ⟨w, some sweep⟩ =>
    have hle := length_erase_queue_le h sweep.set w
    have hn := given sweep.set
    simp only [Pending.credit]
    omega
  | .patch ⟨w, none⟩ => exact Nat.le_add_right _ _
  | .locate l => exact Nat.le_add_right _ _

theorem credit_le (h : t.before.Sound) {n : Nat} (given : ∀ s, (if t.registers s then 1 else 0) ≤ n)
    (xs : List Waiting) : credit t.after.world xs ≤ credit t.before.world xs + n * xs.length := by
  induction xs with
  | nil => exact Nat.zero_le _
  | cons x xs ih =>
    have hx := credit_pending_le h given x.pending
    rw [credit, credit, List.length_cons, Nat.mul_succ]
    omega

/-- An answer uses up credit of the call that it is for. -/
theorem credit_answer {x : Waiting} (h : t.before.Sound) (top : t.before.stack = x :: t.move.below) :
    t.move.turn.next.credit t.after.world + 1 ≤ x.pending.credit t.before.world := by
  obtain ⟨m, a, v, possible⟩ := t
  cases Moment.moves_of_move? possible with
  | call => exact absurd top.symm (List.cons_ne_self _ _)
  | @failed pending loan below message top' => exact one_le_credit _ _
  | @located l loan below answer top' =>
    obtain ⟨rfl, -⟩ := List.cons.inj (top'.symm.trans top)
    exact (Nat.add_le_add_right (World.credit_located m.world l answer) 1).trans
      (due_located m.world l answer)
  | @patched p loan below top' =>
    obtain ⟨rfl, -⟩ := List.cons.inj (top'.symm.trans top)
    obtain ⟨w, sweep⟩ := p
    cases sweep with
    | none => exact Nat.le_refl 1
    | some sweep =>
      have e := World.edits_fired m.world w
      refine Nat.add_le_add_right ?_ 1
      rw [← h.coherent.queue_fired]
      exact (h.coherent.edits e).credit_sweepOn { sweep with fired := sweep.fired + 1 }

end Transition

/-- The credit of a call is bounded by the lengths of the lists. -/
theorem Next.credit_le {K : Nat} (short : ∀ s, (σ.queue s).length ≤ K) (n : Next) :
    n.credit σ ≤ K + 2 := by
  match n with
  | .waiting _ (.patch ⟨w, some sweep⟩) =>
    have hle := (List.length_erase_le (a := w) (l := σ.queue sweep.set)).trans (short sweep.set)
    simp only [Next.credit, Pending.credit]
    omega
  | .waiting _ (.patch ⟨w, none⟩) => exact Nat.le_add_left 1 _
  | .waiting _ (.locate l) =>
    simp only [Next.credit, Pending.credit, Pending.answers]
    split <;> omega
  | .returned | .failed _ | .panicked _ => exact Nat.zero_le _

/-- Whatever is waited for, as many answers are given at most as there is credit, at first and given
    by calls. -/
theorem Run.length_le_credit {k m : Moment} {ts : List Transition} {xs : List Waiting} {K : Nat}
    (r : Run k ts m) (hk : k.Sound) (stack : k.stack = xs ++ below) (few : xs.length ≤ K + 1)
    (short : ∀ s, (k.world.queue s).length ≤ K) (lasting : ∀ t ∈ ts, t.before.stack ≠ below) :
    ts.length ≤
    credit k.world xs + ts.countP (·.call?.isSome) * (K + ts.countP (·.call?.isSome) + 3) := by
  induction r generalizing xs K with
  | nil => exact Nat.zero_le _
  | @cons k m t ts start rest ih =>
    subst start
    obtain ⟨hne, hlasting⟩ := List.forall_mem_cons.mp lasting
    obtain ⟨more, hstack, hmore, hcredit⟩ := t.stack_after_credit
    have hlonger := Transition.length_queue_le hk
    rw [List.countP_cons, List.length_cons]
    cases hc : t.call? with
    | some c =>
      rw [Transition.below_of_call hc, stack, ← List.append_assoc] at hstack
      have hfew : (more ++ xs).length ≤ K + 1 + 1 := by
        rw [List.length_append]
        omega
      have hshort : ∀ s, (t.after.world.queue s).length ≤ K + 1 := fun s =>
        (hlonger s).trans (Nat.add_le_add (short s) (by split <;> omega))
      have hrest := ih (Transition.sound hk) hstack hfew hshort hlasting
      have hgiven : credit t.after.world (more ++ xs) ≤ credit t.before.world xs + (K + 2) := by
        rw [credit_append, hcredit]
        by_cases hr : ∃ s, t.registers s = true
        · obtain ⟨s, hs⟩ := hr
          have hold := Transition.credit_le hk (n := 1) (fun s => by split <;> omega) xs
          rw [(Transition.returned_of_registers hs).2]
          simp only [Next.credit]
          omega
        · have hnone : ∀ s, t.registers s = false := fun s => Bool.eq_false_iff.mpr fun hs => hr ⟨s, hs⟩
          have hold := Transition.credit_le hk (n := 0) (fun s => by simp [hnone s]) xs
          have hnew := Next.credit_le (fun s => (hlonger s).trans (by simpa [hnone s] using short s))
            t.move.turn.next
          omega
      have hsum :
        K + (ts.countP (·.call?.isSome) + 1) + 3 = K + 1 + ts.countP (·.call?.isSome) + 3 := by
        omega
      rw [Option.isSome_some, if_pos rfl, hsum, Nat.succ_mul]
      omega
    | none =>
      obtain ⟨x, top⟩ := Transition.stack_of_answer hc
      obtain ⟨rest, rfl, hrest⟩ : ∃ rest, xs = x :: rest ∧ t.move.below = rest ++ below := by
        cases xs with
        | nil => exact absurd stack hne
        | cons y rest =>
          obtain ⟨rfl, hb⟩ := List.cons.inj (top.symm.trans stack)
          exact ⟨rest, rfl, hb⟩
      rw [hrest, ← List.append_assoc] at hstack
      have hnone := Transition.not_registers_of_answer hc
      have hfew : (more ++ rest).length ≤ K + 1 := by
        rw [List.length_cons] at few
        rw [List.length_append]
        omega
      have hshort : ∀ s, (t.after.world.queue s).length ≤ K := fun s =>
        (hlonger s).trans (by simpa [hnone s] using short s)
      have hle := ih (Transition.sound hk) hstack hfew hshort hlasting
      have hold := Transition.credit_le hk (n := 0) (fun s => by simp [hnone s]) rest
      have hused := Transition.credit_answer hk top
      rw [credit_append, hcredit] at hle
      simp only [Option.isSome_none, Bool.false_eq_true, if_false, Nat.add_zero, credit]
      omega

/-! ### A whole sweep -/

namespace Run

variable {pre inside : List Transition} {start : Transition} {k m : Moment}

/-- A sweep from the call that starts it, as far as it has come. -/
theorem during_sweep (r : Run start.after inside m) (h : start.before.Sound)
    (action : start.action = .call c) (sweeps : start.before.world.Sweeps c s ending)
    (lasting : ∀ t ∈ inside, t.before.stack ≠ start.before.stack) : DuringSweep s start inside m := by
  have hafter := Transition.sound h
  obtain ⟨τ, events, e, -, -, hbegin⟩ := sweeps.begin
  obtain ⟨hturn, hbelow, hquiet⟩ : start.move.turn = (τ.sweepOn ⟨s, 0, ending⟩).after events ∧
      start.move.below = start.before.stack ∧ ∀ r, start.registers r = false := by
    obtain ⟨m, a, v, possible⟩ := start
    obtain rfl : a = .call c := action
    cases Moment.moves_of_move? possible with
    | call => exact ⟨hbegin, rfl, fun r => by cases sweeps <;> rfl⟩
  have hτ := h.coherent.edits e
  have hq : τ.queue s = start.before.world.queue s := h.coherent.queue_edits e s
  have hleaves : ∀ t ∈ inside, ∀ p loan, t.before.stack = ⟨.patch p, loan⟩ :: start.before.stack →
      t.action = .patched → ∀ x, p.watchpoint ∉ t.after.world.queue x := by
    intro t ht p loan top patched x hmem
    refine Transition.not_left_of_mem (r.sound_of_mem hafter ht) hmem ?_
    simp [Transition.change?, patched, top, Pending.patching?]
  have hbounded : inside.length ≤ (start.before.world.queue s).length + inside.countP (·.call?.isSome) *
      (start.before.world.watchpoints.values.length + inside.countP (·.call?.isSome) + 3) := by
    obtain ⟨more, hstack, hmore, hcredit⟩ := start.stack_after_credit
    rw [hbelow] at hstack
    have hshort :
      ∀ x, (start.after.world.queue x).length ≤ start.before.world.watchpoints.values.length :=
      fun x => (Transition.length_queue_le h x).trans
        (by simpa [hquiet x] using h.coherent.length_queue_le x)
    have hle := r.length_le_credit hafter hstack (hmore.trans (Nat.le_add_left 1 _)) hshort lasting
    have hfirst :
      start.move.turn.next.credit start.after.world ≤ (start.before.world.queue s).length := by
      have hworld : start.after.world = (τ.sweepOn ⟨s, 0, ending⟩).world := by
        rw [Transition.after, Move.after, hturn]
        rfl
      rw [hworld, hturn, ← hq]
      exact hτ.credit_sweepOn ⟨s, 0, ending⟩
    rw [hcredit] at hle
    omega
  have hround := round_or_over _ hτ hturn hbelow
  rw [hq] at hround
  have hone : (if start.begins start.before.stack then 1 else 0) ≤ 1 := by split <;> omega
  rcases hround with ⟨w, hu, hfirst⟩ | ⟨hstack, hends, hbegins⟩
  · obtain ⟨hcount, hend⟩ := hu.run r hafter lasting
    have hrounds : (start :: inside).countP (·.begins start.before.stack) ≤
        (start.before.world.queue s).length + inside.countP (·.registers s) := by
      rw [List.countP_cons]
      omega
    rcases hend with ⟨v, n, ending, loan, hv⟩ | ⟨hstack, t, ht, hr⟩
    · refine ⟨hrounds, hleaves, hbounded, fun _ => Moment.answerable ?_, fun he => ?_⟩
      · exact List.ne_nil_of_mem (hv.subset List.mem_cons_self)
      · exact absurd he (Transition.ne_of_suffix hv)
    · exact ⟨hrounds, hleaves, hbounded, fun hne => absurd hstack hne,
        fun _ => ⟨t, by rw [List.getLast?_cons, ht]; rfl, hr⟩⟩
  · obtain ⟨rfl, rfl⟩ := r.eq_nil_of_over hstack lasting
    exact ⟨by simpa using hbegins, hleaves, hbounded, fun hne => absurd hstack hne,
      fun _ => ⟨start, rfl, hends⟩⟩

/-- The first transitions of a way of going on. -/
theorem of_sequence {f : ℕ → Transition} (next : ∀ i, (f (i + 1)).before = (f i).after) (n : ℕ) :
    Run (f 0).after ((List.range n).map fun i => f (i + 1)) (f n).after := by
  induction n with
  | zero => exact .nil _
  | succ n ih =>
    rw [List.range_succ, List.map_append]
    exact ih.append (.cons (next n) (.nil _))

/-- A sweep that is bounded while it is in progress is over at some time. -/
theorem exists_over {f : ℕ → Transition} {calls : ℕ}
    (during : ∀ n, (∀ i < n, (f i).after.stack ≠ start.before.stack) →
      DuringSweep s start ((List.range n).map fun i => f (i + 1)) (f n).after)
    (few : ∀ n, (∀ i < n, (f i).after.stack ≠ start.before.stack) →
      ((List.range n).map fun i => f (i + 1)).countP (·.call?.isSome) ≤ calls) :
    ∃ n, (f n).after.stack = start.before.stack := by
  by_contra hnever
  have lasting : ∀ i, (f i).after.stack ≠ start.before.stack := fun i he => hnever ⟨i, he⟩
  -- one transition more than the bound allows
  obtain ⟨n, hn⟩ : ∃ n, n = (start.before.world.queue s).length +
      calls * (start.before.world.watchpoints.values.length + calls + 3) + 1 := ⟨_, rfl⟩
  have hbounded := (during n fun i _ => lasting i).bounded
  have hfew := few n fun i _ => lasting i
  have hmul := Nat.mul_le_mul hfew (Nat.add_le_add_right
    (Nat.add_le_add_left hfew start.before.world.watchpoints.values.length) 3)
  rw [List.length_map, List.length_range] at hbounded
  omega

/-- Every sweep ends, whatever is called from inside it and whoever fails: by each of its rounds,
    and by each answer, it comes closer to its end. -/
theorem every_sweep_ends (run : Run {} pre start.before) (action : start.action = .call c)
    (sweeps : start.before.world.Sweeps c s ending) : SweepEnds s start := by
  have h := run.sound Moment.sound_empty
  have hduring : ∀ inside m, Run start.after inside m →
      (∀ t ∈ inside, t.before.stack ≠ start.before.stack) → DuringSweep s start inside m :=
    fun inside m r lasting => r.during_sweep h action sweeps lasting
  refine ⟨hduring, fun f first next calls few => ?_⟩
  have hduringFirst : ∀ n, (∀ i < n, (f i).after.stack ≠ start.before.stack) →
      DuringSweep s start ((List.range n).map fun i => f (i + 1)) (f n).after := by
    intro n lasting
    refine hduring _ _ (first ▸ of_sequence next n) fun t ht => ?_
    obtain ⟨i, hi, rfl⟩ := List.mem_map.mp ht
    rw [next]
    exact lasting i (List.mem_range.mp hi)
  have hover := exists_over hduringFirst few
  -- the first time that it is over is the end of the sweep
  have hfirst : ∀ i < Nat.find hover, (f i).after.stack ≠ start.before.stack :=
    fun i hi => Nat.find_min hover hi
  obtain ⟨t, ht, hends⟩ := (hduringFirst _ hfirst).ends (Nat.find_spec hover)
  refine ⟨Nat.find hover, Nat.find_spec hover, ?_⟩
  generalize Nat.find hover = n at ht
  cases n with
  | zero =>
    obtain rfl : start = t := Option.some.inj ht
    exact first ▸ hends
  | succ n =>
    rw [List.range_succ, List.map_append, List.map_singleton, ← List.cons_append,
      List.getLast?_concat] at ht
    exact Option.some.inj ht ▸ hends

end Run

/-- Two watchpoints wait on a set that is swept. Inside the jump of the first another sweep fires
    both, and both are registered again; then the patcher fails the second. -/
def registeredAgainInsideRound : List Action :=
  [.call (.createAlone 0 (.scripted "p") ⟨16⟩ ⟨96⟩), .call (.resolve 0), .located (.ok ⟨4112⟩),
    .located (.ok ⟨4192⟩), .call (.createAlone 1 (.scripted "p") ⟨32⟩ ⟨112⟩), .call (.resolve 1),
    .located (.ok ⟨4128⟩), .located (.ok ⟨4208⟩), .call (.newSet 5 .blind), .call (.add 5 (some 0)),
    .call (.add 5 (some 1)), .call (.fireAll 5), .call (.fireAll 5), .patched, .patched,
    .call (.add 5 (some 1)), .call (.add 5 (some 0)), .patched, .failed "no more room"]

theorem every_sweep_ends_registeredAgainInsideRound :
    ∃ pre start inside m, Run {} pre start.before ∧ start.action = .call (.fireAll 5) ∧
      start.before.world.Sweeps (.fireAll 5) (.ofHandle 5) .rest ∧ SweepEnds (.ofHandle 5) start ∧
      Run start.after inside m ∧ (∀ t ∈ inside, t.before.stack ≠ start.before.stack) ∧
      m.stack = start.before.stack ∧ (start :: inside).countP (·.begins start.before.stack) = 2 ∧
      inside.countP (·.registers (.ofHandle 5)) = 2 := by
  have run := Moment.run_play_at {} registeredAgainInsideRound (n := 11) (by decide)
  obtain ⟨k, r₁, r₂⟩ := run.split
  cases r₂ with
  | cons start r₂ =>
    subst start
    have sweeps : (Moment.play {} registeredAgainInsideRound)[11].before.world.Sweeps (.fireAll 5)
        (.ofHandle 5) .rest := .fireAll (by decide)
    exact ⟨_, _, _, _, r₁, rfl, sweeps, r₁.every_sweep_ends rfl sweeps, r₂, by decide, by decide,
      by decide, by decide⟩

end Invalidation
