import Invalidation.Proofs.Run.Release
import Invalidation.Proofs.Run.Write
import Invalidation.Proofs.World.SlotAside

/-! To give up the last share in a set, or to break the assumption first. On the one side the slot
    lets go at once and the set is destroyed; on the other a write to the slot is reported, and then
    the slot lets go:

        let go ──▶ [ jump ; jump ; … ] ──▶ set gone
        write  ──▶ [ jump ; jump ; … ] ──▶ broken ──let go──▶ set gone

    Meanwhile the two sides differ in what the slot keeps and in how the sweep is going to end.
    Nobody comes to see either: the slot is on loan, and nobody else has a share in the set. So
    whatever is done from inside a jump on one side can be done on the other, and in the end nothing
    is different at all. -/

namespace Invalidation

/-- The transition is not cut short, if it belongs to the call above `below`. -/
def Transition.Whole (below : List Waiting) (t : Transition) : Prop :=
  t.move.below = below → t.isCut = false

/-- The call is made at `k`; the surroundings do `inside` while it is in progress, and at `m` it is
    over. All that it fired had addresses, none of its jumps failed, and these are the jumps that
    were asked for meanwhile, by the call and from inside. -/
def Moment.Completes (k : Moment) (c : Call) (inside : List Action) (js : List Jump)
    (m : Moment) : Prop :=
  ∃ start us, Run k (start :: us) m ∧ start.action = .call c ∧ us.map Transition.action = inside ∧
    jumps (start :: us) = js ∧ (∀ t ∈ us, t.before.stack ≠ k.stack) ∧ m.stack = k.stack ∧
    ∀ t ∈ start :: us, t.Whole k.stack

/-- A sweep of the set that waits, with slot `i` on loan. -/
def sweepOf (i : SlotId) (s : SetId) (ending : Ending) (w : WatchpointId) (n : Nat) : Waiting :=
  ⟨.patch ⟨w, some ⟨s, n, ending⟩⟩, .slot i⟩

/-- The slot without its share, and with its assumption broken. -/
def Slot.broken (x : Slot) : Slot := { x with storage := .thin .broken }

/-- At `a` slot `i` has let go of its set, which is being destroyed; at `b` the slot is still `x`,
    and a write to it is in progress. There is no other difference. -/
structure Alongside (below : List Waiting) (i : SlotId) (s : SetId) (x : Slot) (a b : Moment) :
    Prop where
  world : a.world = b.world.withSlot i x.broken
  fat : b.world.Fat i s x
  stack : ∃ inner w n, a.stack = inner ++ sweepOf i s .destroy w n :: below ∧
    b.stack = inner ++ sweepOf i s .invalidate w n :: below

/-- At `a` the set has been destroyed; at `b` its assumption has been broken. -/
structure Parted (below : List Waiting) (i : SlotId) (s : SetId) (x : Slot) (a b : Moment) : Prop where
  stack : a.stack = below
  stack' : b.stack = below
  world : ∃ τ : World, a.world = (τ.withSlot i x.broken).finish s .destroy ∧
    b.world = τ.finish s .invalidate ∧
    (τ.watchersOf s).front? = none ∧ τ.Exists s ∧ τ.Fat i s x ∧ τ.Aside i s x

variable {below : List Waiting} {i : SlotId} {s : SetId} {x : Slot} {a b k m : Moment}
  {u v : Transition}

/-! ### One step on either side -/

theorem Slot.sharesOnly_broken (s : SetId) (x : Slot) : x.broken.SharesOnly s :=
  fun _ h => Storage.noConfusion h

namespace World

variable {σ τ : World}

theorem Aside.congr (h : σ.Aside i s x) (handles : τ.handles = σ.handles) (slots : τ.slots = σ.slots) :
    τ.Aside i s x where
  slots := slots ▸ h.slots
  there := slots ▸ h.there
  own := h.own
  only o ho := by
    refine h.only o ?_
    cases o with
    | handle j => rwa [shareOf?, handleSet?, handles] at ho
    | slot j => rwa [shareOf?, fatSet?, slot?, slots] at ho

end World

/-- The two sweeps go on alike: both ask for the same jump, or both are over. -/
theorem alongside_or_parted {τ : World} {n : Nat} (es es' : List LogEvent) (there : τ.Exists s)
    (fat : τ.Fat i s x) (aside : τ.Aside i s x)
    (hu : u.move = ⟨((τ.withSlot i x.broken).sweepOn ⟨s, n, .destroy⟩).after es, .slot i, below⟩)
    (hv : v.move = ⟨(τ.sweepOn ⟨s, n, .invalidate⟩).after es', .slot i, below⟩)
    (whole : u.move.turn.isCut = false ∨ v.move.turn.isCut = false) :
    u.jump? = v.jump? ∧ (u.move.turn.isCut = false ∧ v.move.turn.isCut = false) ∧
      (Alongside below i s x u.after v.after ∨ Parted below i s x u.after v.after) := by
  cases hfront : (τ.watchersOf s).front? with
  | none =>
    have hdestroy : (τ.withSlot i x.broken).sweepOn ⟨s, n, .destroy⟩ = _ :=
      World.sweepOn_of_drained hfront
    have hbreak : τ.sweepOn ⟨s, n, .invalidate⟩ = _ := World.sweepOn_of_drained hfront
    rw [hdestroy] at hu
    rw [hbreak] at hv
    rw [Transition.jump?, Transition.jump?, Transition.after, Transition.after, hu, hv]
    exact ⟨rfl, ⟨rfl, rfl⟩, Or.inr ⟨rfl, rfl, τ, rfl, rfl, hfront, there, fat, aside⟩⟩
  | some w =>
    have hdestroy : (τ.withSlot i x.broken).sweepOn ⟨s, n, .destroy⟩ = _ :=
      World.sweepOn_of_front hfront
    have hbreak : τ.sweepOn ⟨s, n, .invalidate⟩ = _ := World.sweepOn_of_front hfront
    rw [hdestroy] at hu
    rw [hbreak] at hv
    cases ha : (τ.watchpoint w).addresses? with
    | none =>
      have ha' : ((τ.withSlot i x.broken).watchpoint w).addresses? = none := ha
      rw [World.fire_of_unresolved ha'] at hu
      rw [World.fire_of_unresolved ha] at hv
      rw [hu, hv] at whole
      exact absurd whole (by simp [Turn.isCut, Turn.after, World.panic])
    | some p =>
      have ha' : ((τ.withSlot i x.broken).watchpoint w).addresses? = some p := ha
      rw [World.fire_of_resolved ha'] at hu
      rw [World.fire_of_resolved ha] at hv
      rw [Transition.jump?, Transition.jump?, Transition.after, Transition.after, hu, hv]
      exact ⟨rfl, ⟨rfl, rfl⟩, Or.inl ⟨rfl, fat, [], w, n, rfl, rfl⟩⟩

namespace Alongside

theorem stack_ne (h : Alongside below i s x a b) : a.stack ≠ below ∧ b.stack ≠ below := by
  obtain ⟨inner, w, n, ha, hb⟩ := h.stack
  have hsweeping : Sweeping below s .destroy a := ⟨inner, w, n, _, ha⟩
  have hsweeping' : Sweeping below s .invalidate b := ⟨inner, w, n, _, hb⟩
  exact ⟨hsweeping.stack_ne, hsweeping'.stack_ne⟩

/-- Nobody but the slot has a share in the set, where the slot still has it. -/
theorem aside (h : Alongside below i s x a b) (ha : a.Sound) (tidy : b.world.Tidy) :
    b.world.Aside i s x where
  slots := tidy.slots
  there := h.fat.there
  own y hy := (Storage.fat.inj (h.fat.storage.symm.trans hy)).symm
  only o ho := by
    by_contra hne
    obtain ⟨inner, w, n, hstack, -⟩ := h.stack
    have halone := (ha.ready (sweepOf i s .destroy w n) (by simp [hstack]) _ _ rfl rfl rfl).2
    refine halone (World.owned_iff.mpr ⟨o, ?_⟩)
    rw [h.world]
    cases o with
    | handle j => exact ho
    | slot j =>
      have hj : j ≠ i := fun he => hne (congrArg Owner.slot he)
      exact (World.fatSet?_withSlot hj _).trans ho

theorem lends (h : Alongside below i s x a b) (l : Loan) : a.lends l = b.lends l := by
  obtain ⟨inner, w, n, ha, hb⟩ := h.stack
  rw [Moment.lends, Moment.lends, ha, hb, List.any_append, List.any_append, List.any_cons,
    List.any_cons]
  rfl

theorem lends_slot (h : Alongside below i s x a b) : b.lends (.slot i) = true := by
  obtain ⟨inner, w, n, -, hb⟩ := h.stack
  simp [Moment.lends, hb, sweepOf]

/-- No call on the slot is possible. -/
theorem elsewhere (h : Alongside below i s x a b) {c : Call} (permitted : b.permits c = true) :
    c.takes ≠ some (.slot i) := by
  intro htakes
  have hfree := (Bool.and_eq_true_iff.mp permitted).2
  rw [htakes, Option.all_some, h.lends_slot] at hfree
  cases hfree

theorem permits (h : Alongside below i s x a b) (c : Call) : a.permits c = b.permits c := by
  by_cases htakes : c.takes = some (.slot i)
  · simp [Moment.permits, htakes, h.lends, h.lends_slot]
  · rw [Moment.permits, Moment.permits, h.world, World.allows_withSlot h.fat.there htakes]
    simp only [h.lends]

/-- What can be done on one side can be done on the other. -/
theorem possible (h : Alongside below i s x a b) (act : Action) :
    (a.move? act).isSome = (b.move? act).isSome := by
  obtain ⟨inner, w, n, ha, hb⟩ := h.stack
  cases act with
  | call c =>
    simp only [Moment.move?, h.permits c]
    split <;> rfl
  | patched | located =>
    cases inner with
    | nil => simp [Moment.move?, ha, hb, sweepOf]
    | cons y inner =>
      obtain ⟨pending, loan⟩ := y
      simp only [Moment.move?, ha, hb, List.cons_append]
      cases pending <;> rfl
  | failed =>
    cases inner with
    | nil => simp [Moment.move?, ha, hb, sweepOf]
    | cons y inner => simp [Moment.move?, ha, hb]

/-- Above the two sweeps, what does not care about the slot leads to moments that are alike again. -/
theorem above {inner : List Waiting} {w : WatchpointId} {n : Nat} {f : World → Turn}
    (h : Alongside below i s x u.before v.before) (own : x.SharesOnly s)
    (comm : ∀ y : Slot, y.SharesOnly s →
        (f v.before.world).withSlot i y = f (v.before.world.withSlot i y))
    (turn : u.move.turn = f u.before.world) (turn' : v.move.turn = f v.before.world)
    (loan : u.move.loan = v.move.loan) (hu : u.move.below = inner ++ sweepOf i s .destroy w n :: below)
    (hv : v.move.below = inner ++ sweepOf i s .invalidate w n :: below) :
    u.jump? = v.jump? ∧ u.Whole below ∧ v.Whole below ∧ Alongside below i s x u.after v.after := by
  have hturn : u.move.turn = v.move.turn.withSlot i x.broken := by
    rw [turn, turn', h.world, comm _ (Slot.sharesOnly_broken s x)]
  have hkept : v.after.world.slots.get? i = some x := by
    rw [show v.after.world = (f v.before.world).world from congrArg Turn.world turn']
    exact World.kept_of_withSlot h.fat.there (comm x own)
  have hnext : u.move.turn.next = v.move.turn.next := by rw [hturn]; rfl
  have hne : ∀ ending, inner ++ sweepOf i s ending w n :: below ≠ below := fun ending he => by
    have hlength := congrArg List.length he
    simp at hlength
    omega
  refine ⟨by rw [Transition.jump?, Transition.jump?, hnext],
    fun he => absurd (hu.symm.trans he) (hne _),
    fun he => absurd (hv.symm.trans he) (hne _), (congrArg Turn.world hturn :), h.fat.congr hkept, ?_⟩
  rw [Transition.after, Move.after, Transition.after, Move.after, hnext, hu, hv, loan]
  cases v.move.turn.next with
  | returned | failed | panicked => exact ⟨inner, w, n, rfl, rfl⟩
  | waiting r pending => exact ⟨⟨pending, v.move.loan⟩ :: inner, w, n, rfl, rfl⟩

/-- The same step on both sides leads to moments that are alike again, or both are over. -/
theorem step (h : Alongside below i s x u.before v.before) (hu : u.before.Sound) (hv : v.before.Sound)
    (tidy : v.before.world.Tidy) (same : u.action = v.action) (whole : u.Whole below ∨ v.Whole below) :
    u.jump? = v.jump? ∧ u.Whole below ∧ v.Whole below ∧
      (Alongside below i s x u.after v.after ∨ Parted below i s x u.after v.after) := by
  have haside := h.aside hu tidy
  have hthere : v.before.world.Exists s := hv.coherent.exists_of_owned (Or.inr ⟨i, h.fat.share⟩)
  have ends : ∀ {p q r t o : Prop}, p ∧ q ∧ r ∧ t → p ∧ q ∧ r ∧ (t ∨ o) :=
    fun ⟨hp, hq, hr, ht⟩ => ⟨hp, hq, hr, Or.inl ht⟩
  obtain ⟨inner, w, n, ha, hb⟩ := h.stack
  obtain ⟨a, act, y, possible⟩ := u
  obtain ⟨b, act', z, possible'⟩ := v
  obtain rfl : act = act' := same
  cases Moment.moves_of_move? possible with
  | @call c =>
    cases Moment.moves_of_move? possible' with
    | call permitted =>
      refine ends (h.above (f := fun σ => σ.begin c) haside.own (fun y hy => ?_) rfl rfl rfl ha hb)
      exact haside.withSlot_begin hy (h.elsewhere permitted) (Bool.and_eq_true_iff.mp permitted).1
  | @patched p loan rest top =>
    cases Moment.moves_of_move? possible' with
    | @patched p' loan' rest' top' =>
      cases inner with
      | nil =>
        obtain ⟨hp, rfl⟩ := List.cons.inj (top.symm.trans ha)
        obtain ⟨hp', rfl⟩ := List.cons.inj (top'.symm.trans hb)
        cases hp
        cases hp'
        have hfired : (a.world.countRedirect w).unlink w =
            ((b.world.countRedirect w).unlink w).withSlot i x.broken := by
          rw [show a.world = b.world.withSlot i x.broken from h.world]
          exact (World.withSlot_unlink (σ := b.world.countRedirect w) w).symm
        obtain ⟨hhandles, hslots⟩ := World.holders_fired b.world w
        have hturn := congrArg (fun σ : World => (σ.sweepOn ⟨s, n + 1, .destroy⟩).after []) hfired
        obtain ⟨hjump, ⟨hcut, hcut'⟩, hgo⟩ := alongside_or_parted
          (u := ⟨a, .patched, _, possible⟩) (v := ⟨b, .patched, _, possible'⟩) [] []
          ((World.edits_fired b.world w).exists hthere (by simp [Change.IsEnd]))
          (h.fat.congr (hslots ▸ h.fat.there)) (haside.congr hhandles hslots)
            (congrArg (Move.mk · (.slot i) _) hturn) rfl
          (whole.imp (· rfl) (· rfl))
        exact ⟨hjump, fun _ => hcut, fun _ => hcut', hgo⟩
      | cons y inner =>
        obtain ⟨rfl, hrest⟩ := List.cons.inj (top.symm.trans ha)
        obtain ⟨hp', hrest'⟩ := List.cons.inj (top'.symm.trans hb)
        cases hp'
        exact ends
          (h.above (f := fun σ => σ.patched p) haside.own (fun _ _ => World.withSlot_patched p) rfl
          rfl rfl hrest hrest')
  | @located l loan rest answer top =>
    cases Moment.moves_of_move? possible' with
    | @located l' loan' rest' _ top' =>
      cases inner with
      | nil => cases top.symm.trans ha
      | cons y inner =>
        obtain ⟨rfl, hrest⟩ := List.cons.inj (top.symm.trans ha)
        obtain ⟨hp', hrest'⟩ := List.cons.inj (top'.symm.trans hb)
        cases hp'
        exact ends (h.above (f := fun σ => σ.located l answer) haside.own
          (fun _ _ => World.withSlot_located l answer) rfl rfl rfl hrest hrest')
  | @failed pending loan rest message top =>
    cases Moment.moves_of_move? possible' with
    | @failed pending' loan' rest' _ top' =>
      cases inner with
      | nil =>
        obtain ⟨hp, rfl⟩ := List.cons.inj (top.symm.trans ha)
        obtain ⟨hp', rfl⟩ := List.cons.inj (top'.symm.trans hb)
        cases hp
        cases hp'
        -- the failure of a jump of its own cuts the call short
        simp [Transition.Whole, Transition.isCut, Transition.failing?, top, top',
          Pending.patching?] at whole
      | cons y inner =>
        obtain ⟨rfl, hrest⟩ := List.cons.inj (top.symm.trans ha)
        obtain ⟨hp', hrest'⟩ := List.cons.inj (top'.symm.trans hb)
        cases hp'
        exact ends (h.above (f := fun σ => (σ.unwind pending).panic (.foreign message)) haside.own
          (fun _ _ => congrArg (World.panic · (.foreign message)) (World.withSlot_unwind pending))
            rfl rfl rfl
          hrest hrest')

end Alongside

/-! ### Whole runs on either side -/

/-- A run can be followed, transition by transition, as long as each of its steps can. -/
theorem Run.follow {R : Moment → Moment → Prop} {P Q : Transition → Prop}
    (step : ∀ u b, R u.before b → P u → ∃ v : Transition, v.before = b ∧ v.action = u.action ∧
      v.jump? = u.jump? ∧ Q v ∧ R u.after v.after)
    {us : List Transition} (r : Run a us m) (h : R a b) (all : ∀ u ∈ us, P u) :
    ∃ vs l, Run b vs l ∧ vs.map Transition.action = us.map Transition.action ∧ jumps vs = jumps us ∧
      (∀ v ∈ vs, Q v) ∧ R m l := by
  induction r generalizing b with
  | nil m => exact ⟨[], b, .nil b, rfl, rfl, fun _ hv => absurd hv List.not_mem_nil, h⟩
  | @cons k m u us start rest ih =>
    subst start
    obtain ⟨hu, hus⟩ := List.forall_mem_cons.mp all
    obtain ⟨v, rfl, haction, hjump, hv, hafter⟩ := step u b h hu
    obtain ⟨vs, l, hrun, hactions, hjumps, hvs, hend⟩ := ih hafter hus
    refine ⟨v :: vs, l, .cons rfl hrun, ?_, ?_, List.forall_mem_cons.mpr ⟨hv, hvs⟩, hend⟩
    · rw [List.map_cons, List.map_cons, haction, hactions]
    · rw [jumps_cons, jumps_cons, hjump, hjumps]

/-- Two moments that are alike, or at which both calls are over. -/
structure Together (below : List Waiting) (i : SlotId) (s : SetId) (x : Slot) (a b : Moment) :
    Prop where
  sound : a.Sound
  sound' : b.Sound
  tidy : b.world.Tidy
  alike : Alongside below i s x a b ∨ Parted below i s x a b

namespace Together

/-- While the call on either side is in progress, what is done there can be done on the other side. -/
theorem step (h : Together below i s x u.before v.before) (same : u.action = v.action)
    (lasting : u.before.stack ≠ below ∨ v.before.stack ≠ below)
    (whole : u.Whole below ∨ v.Whole below) :
    u.jump? = v.jump? ∧ (u.before.stack ≠ below ∧ u.Whole below) ∧
    (v.before.stack ≠ below ∧ v.Whole below) ∧ Together below i s x u.after v.after := by
  have halike : Alongside below i s x u.before v.before := by
    refine h.alike.resolve_right fun p => ?_
    exact lasting.elim (absurd p.stack) (absurd p.stack')
  obtain ⟨hne, hne'⟩ := halike.stack_ne
  obtain ⟨hjump, hwhole, hwhole', hafter⟩ := halike.step h.sound h.sound' h.tidy same whole
  exact ⟨hjump, ⟨hne, hwhole⟩, ⟨hne', hwhole'⟩, Transition.sound h.sound, Transition.sound h.sound',
    Transition.tidy h.sound' h.tidy, hafter⟩

theorem possible (h : Together below i s x a b) (lasting : a.stack ≠ below ∨ b.stack ≠ below)
    (act : Action) : (a.move? act).isSome = (b.move? act).isSome := by
  refine Alongside.possible (h.alike.resolve_right fun p => ?_) act
  exact lasting.elim (absurd p.stack) (absurd p.stack')

/-- What is done while the slot lets go can be done while the write is in progress. -/
theorem follow {us : List Transition} (h : Together below i s x a b) (r : Run a us m)
    (all : ∀ u ∈ us, u.before.stack ≠ below ∧ u.Whole below) :
    ∃ vs l, Run b vs l ∧ vs.map Transition.action = us.map Transition.action ∧ jumps vs = jumps us ∧
      (∀ v ∈ vs, v.before.stack ≠ below ∧ v.Whole below) ∧ Together below i s x m l := by
  refine r.follow (R := Together below i s x) (fun u b hb hu => ?_) h all
  have hsome := hb.possible (Or.inl hu.1) u.action
  rw [u.possible] at hsome
  obtain ⟨y, hy⟩ := Option.isSome_iff_exists.mp hsome.symm
  obtain ⟨hjump, -, hv, hafter⟩ := Together.step (u := u) (v := ⟨b, u.action, y, hy⟩) hb rfl
    (Or.inl hu.1) (Or.inl hu.2)
  exact ⟨⟨b, u.action, y, hy⟩, rfl, rfl, hjump.symm, hv, hafter⟩

/-- What is done while the write is in progress can be done while the slot lets go. -/
theorem follow_back {vs : List Transition} (h : Together below i s x a b) (r : Run b vs m)
    (all : ∀ v ∈ vs, v.before.stack ≠ below ∧ v.Whole below) :
    ∃ us l, Run a us l ∧ us.map Transition.action = vs.map Transition.action ∧ jumps us = jumps vs ∧
      (∀ u ∈ us, u.before.stack ≠ below ∧ u.Whole below) ∧ Together below i s x l m := by
  refine r.follow (R := fun b a => Together below i s x a b) (fun v a ha hv => ?_) h all
  have hsome := ha.possible (Or.inr hv.1) v.action
  rw [v.possible] at hsome
  obtain ⟨y, hy⟩ := Option.isSome_iff_exists.mp hsome
  obtain ⟨hjump, hu, -, hafter⟩ := Together.step (u := ⟨a, v.action, y, hy⟩) (v := v) ha rfl
    (Or.inr hv.1) (Or.inr hv.2)
  exact ⟨⟨a, v.action, y, hy⟩, rfl, rfl, hjump, hu, hafter⟩

end Together

/-! ### From the first call to the last -/

namespace Moment

variable {c : Call} {inside : List Action} {js : List Jump}

/-- A call that returns at once is completed with nothing inside it. -/
theorem completes_of_returned (returned : (k.world.begin c).next = .returned) :
    k.Completes c inside js m ↔
      k.permits c = true ∧ inside = [] ∧ js = [] ∧ m = ⟨(k.world.begin c).world, k.stack⟩ := by
  constructor
  · rintro ⟨⟨k', act, y, possible⟩, us, r, action, rfl, rfl, lasting, -, -⟩
    obtain rfl : act = .call c := action
    cases r with
    | cons start rest =>
      obtain rfl : k' = k := start
      cases Moment.moves_of_move? possible with
      | call permitted =>
        have hafter :
          Transition.after ⟨k', .call c, _, possible⟩ = ⟨(k'.world.begin c).world, k'.stack⟩ := by
          simp only [Transition.after, Move.after, returned]
        have hjump : Transition.jump? ⟨k', .call c, _, possible⟩ = none := by
          simp only [Transition.jump?, returned]
        obtain ⟨rfl, rfl⟩ := rest.eq_nil_of_over (congrArg Moment.stack hafter) lasting
        exact ⟨permitted, rfl, by rw [jumps_cons, hjump]; rfl, hafter⟩
  · rintro ⟨permitted, rfl, rfl, rfl⟩
    refine ⟨k.calling c permitted, [], run_of_returned permitted returned, rfl, rfl, ?_,
      fun _ ht => absurd ht List.not_mem_nil, rfl, fun t ht _ => ?_⟩
    · simp [jumps, calling, Transition.jump?, returned]
    · obtain rfl := List.mem_singleton.mp ht
      simp only [Transition.isCut, calling, Turn.isCut, returned]

end Moment

/-- Once the assumption is broken and nobody is left on the list, the slot can let go, at once, and
    then there is no difference any more. -/
theorem Parted.completes (h : Parted k.stack i s x a b) (permitted : k.permits (.freeFat i) = true)
    (tidy : b.world.Tidy) : b.Completes (.freeFat i) [] [] m ↔ m = a := by
  obtain ⟨hstack, hstack', τ, ha, hb, hfront, hthere, hfat, haside⟩ := h
  have haside' : b.world.Aside i s x := haside.congr (hb ▸ rfl) (hb ▸ rfl)
  have hfat' : b.world.Fat i s x := hfat.congr haside'.there
  have hflags : b.world.flagsOf s = .broken := by
    rw [hb]
    exact (World.flagsOf_modifySet (f := fun y => { y with flags := .broken }) (g := fun _ => .broken)
      (fun _ => rfl) hthere).trans (if_pos rfl)
  have hfree : ∀ shared, b.world.flagsAfterFree s shared = .broken := fun shared => by
    rw [World.flagsAfterFree, hflags, ite_self]
  have hfront' : ((b.world.withSlot i x.broken).watchersOf s).front? = none := by
    rw [World.watchersOf_withSlot, ← hfront, hb, World.watchersOf, World.watchersOf]
    exact congrArg (fun l : Option (WatchList WatchpointId) => (l.getD {}).front?)
      (World.list?_modifyFlags τ s s _)
  have hrelease : (b.world.withSlot i x.broken).release s = _ :=
    (World.release_of_last (haside'.owners_eq_zero tidy rfl)).trans (World.sweepOn_of_drained hfront')
  have hbegin : b.world.begin (.freeFat i) = Turn.after [.released .broken (b.world.owners s > 1)]
      ((b.world.withSlot i x.broken).release s) := by
    simp only [World.begin, World.freeFat, hfat'.share, hfree, World.store_eq_withSlot haside'.there]
    rfl
  rw [hrelease] at hbegin
  have hworld : a.world = (b.world.withSlot i x.broken).finish s .destroy := by
    rw [ha, hb]
    exact congrArg (fun sets => ({ τ.withSlot i x.broken with sets := sets } : World))
      (Store.erase_modify τ.sets s _).symm
  have hmoment : a = ⟨(b.world.begin (.freeFat i)).world, b.stack⟩ := by
    rw [hbegin]
    exact (congrArg (Moment.mk · a.stack) hworld).trans
      (congrArg (Moment.mk _) (hstack.trans hstack'.symm))
  -- what was not on loan when the write began is not on loan when it is over
  have hslot : b.world.slot? i = some x := World.slot?_eq_some_iff.mpr ⟨hfat'.there, hfat'.held⟩
  have hlends : b.lends (.slot i) = k.lends (.slot i) := by rw [Moment.lends, hstack', Moment.lends]
  have hpermits : b.permits (.freeFat i) = true := by
    refine Bool.and_eq_true_iff.mpr ⟨by simp [World.allows, hslot], ?_⟩
    simpa [Call.takes, hlends] using (Bool.and_eq_true_iff.mp permitted).2
  rw [Moment.completes_of_returned (by rw [hbegin]; rfl), ← hmoment]
  exact ⟨fun h => h.2.2.2, fun h => ⟨hpermits, rfl, rfl, h⟩⟩

/-- At `k` slot `i`, which is `x`, has the only share in the set. -/
structure Moment.LastShare (k : Moment) (i : SlotId) (s : SetId) (x : Slot) : Prop where
  sound : k.Sound
  tidy : k.world.Tidy
  fat : k.world.Fat i s x
  alone : ¬ k.world.Shared i s

namespace Moment.LastShare

variable {inside : List Action} {js : List Jump}

theorem aside (h : k.LastShare i s x) : k.world.Aside i s x := h.tidy.aside h.fat h.alone

/-- The slot lets go of the set, which is destroyed then. -/
theorem begin_freeFat (h : k.LastShare i s x) : k.world.begin (.freeFat i) =
    Turn.after [.released (k.world.flagsAfterFree s false) false]
      ((k.world.withSlot i { x with storage := .thin (k.world.flagsAfterFree s false) }).sweepOn
        ⟨s, 0, .destroy⟩) := by
  have hone : decide (k.world.owners s > 1) = false :=
    decide_eq_false fun hn => h.alone ((h.tidy.shared_iff h.fat.share).mp hn)
  have hrelease := World.release_of_last (h.aside.owners_eq_zero
    (x := { x with storage := .thin (k.world.flagsAfterFree s false) }) h.tidy rfl)
  simp only [World.begin, World.freeFat, h.fat.share, hone,
    World.store_eq_withSlot h.fat.there, hrelease]
  rfl

/-- If the slot is not watched nobody is registered on it, so neither call has anything to fire. -/
theorem freeing_iff_writing_of_unwatched (h : k.LastShare i s x) (alert : k.world.Alert)
    (watched : (k.world.flagsOf s).watched = false) : k.Completes (.freeFat i) inside js m ↔
      ∃ l, k.Completes (.slotNotifyWrite i) inside js l ∧ l.Completes (.freeFat i) [] [] m := by
  have hdrained : (k.world.watchersOf s).front? = none := by
    rw [h.sound.coherent.front?_eq, List.head?_eq_none_iff]
    by_contra hne
    exact Bool.false_ne_true (watched.symm.trans (alert s hne))
  have hwrite : k.world.begin (.slotNotifyWrite i) = k.world.done := by
    obtain ⟨n, b, hslot⟩ := World.slot?_of_fatSet? h.fat.share
    simp only [World.begin, World.slotNotifyWrite, hslot, watched]
    rfl
  have hwritten : (k.world.begin (.slotNotifyWrite i)).next = .returned := by rw [hwrite]; rfl
  have hfreed : (k.world.begin (.freeFat i)).next = .returned := by
    have hfront :
      ((k.world.withSlot i { x with storage := .thin (k.world.flagsAfterFree s false) }).watchersOf
      s).front? = none := hdrained
    rw [h.begin_freeFat, World.sweepOn_of_drained hfront]
    rfl
  simp only [completes_of_returned hwritten, completes_of_returned hfreed, hwrite]
  constructor
  · rintro ⟨permitted, rfl, rfl, hm⟩
    exact ⟨k, ⟨permitted, rfl, rfl, rfl⟩, (completes_of_returned hfreed).mpr ⟨permitted, rfl, rfl, hm⟩⟩
  · rintro ⟨_, ⟨permitted, rfl, rfl, rfl⟩, hfree⟩
    obtain ⟨-, -, -, hm⟩ := (completes_of_returned hfreed).mp hfree
    exact ⟨permitted, rfl, rfl, hm⟩

/-- Letting go and reporting a write begin alike, if the slot is watched. -/
theorem together (h : k.LastShare i s x) (watched : (k.world.flagsOf s).watched = true)
    (hu : u.before = k)
    (hv : v.before = k) (frees : u.action = .call (.freeFat i))
    (writes : v.action = .call (.slotNotifyWrite i)) (whole : u.Whole k.stack ∨ v.Whole k.stack) :
    u.jump? = v.jump? ∧ u.Whole k.stack ∧ v.Whole k.stack ∧ Together k.stack i s x u.after v.after := by
  subst hu
  have hfree := h.begin_freeFat
  have hbroken : u.before.world.flagsAfterFree s false = .broken := by
    rw [World.flagsAfterFree, watched]
    rfl
  rw [hbroken] at hfree
  have hwrite : u.before.world.begin (.slotNotifyWrite i) =
      (u.before.world.sweepOn ⟨s, 0, .invalidate⟩).after [] := by
    obtain ⟨n, b, hslot⟩ := World.slot?_of_fatSet? h.fat.share
    simp only [World.begin, World.slotNotifyWrite, hslot, World.notifyWrite, watched, if_true]
    rfl
  have hmove := (u.of_call frees).2
  have hmove' := (v.of_call writes).2
  rw [hfree] at hmove
  rw [hv, hwrite] at hmove'
  have hcall : ∀ {t : Transition} {c : Call}, t.action = .call c → t.isCut = t.move.turn.isCut :=
    fun ht => by rw [Transition.isCut, ht]
  obtain ⟨hjump, ⟨hcut, hcut'⟩, hgo⟩ := alongside_or_parted _ _
    (h.sound.coherent.exists_of_owned (Or.inr ⟨i, h.fat.share⟩)) h.fat h.aside hmove hmove'
    (whole.imp (fun hw => hcall frees ▸ hw (congrArg Move.below hmove))
      fun hw => hcall writes ▸ hw (congrArg Move.below hmove'))
  exact ⟨hjump, fun _ => (hcall frees).trans hcut, fun _ => (hcall writes).trans hcut',
    Transition.sound h.sound, Transition.sound (hv ▸ h.sound),
    Transition.tidy (hv ▸ h.sound) (hv ▸ h.tidy), hgo⟩

/-- What is done while a watched slot lets go can be done while a write is reported, and then the
    slot can let go. -/
theorem writing_of_freeing (h : k.LastShare i s x) (watched : (k.world.flagsOf s).watched = true)
    (freed : k.Completes (.freeFat i) inside js m) :
    ∃ l, k.Completes (.slotNotifyWrite i) inside js l ∧ l.Completes (.freeFat i) [] [] m := by
  obtain ⟨u, us, r, action, rfl, rfl, lasting, ended, whole⟩ := freed
  cases r with
  | cons start rest =>
    obtain ⟨hu, hus⟩ := List.forall_mem_cons.mp whole
    have permitted : k.permits (.freeFat i) = true := start ▸ (u.of_call action).1
    obtain ⟨hjump, -, hv, htogether⟩ := h.together watched start
      (v := k.calling (.slotNotifyWrite i) permitted) rfl action rfl (Or.inl hu)
    obtain ⟨vs, l, hrun, hactions, hjumps, hvs, hend⟩ :=
      htogether.follow rest fun t ht => ⟨lasting t ht, hus t ht⟩
    have hparted := hend.alike.resolve_left fun h => h.stack_ne.1 ended
    refine ⟨l, ⟨_, vs, .cons rfl hrun, rfl, hactions, ?_, fun t ht => (hvs t ht).1, hparted.stack',
      List.forall_mem_cons.mpr ⟨hv, fun t ht => (hvs t ht).2⟩⟩,
        (hparted.completes permitted hend.tidy).mpr rfl⟩
    rw [jumps_cons, jumps_cons, hjump, hjumps]

/-- What is done while a write is reported, before the slot lets go, can be done while it lets go at
    once. -/
theorem freeing_of_writing (h : k.LastShare i s x) (watched : (k.world.flagsOf s).watched = true)
    (written : k.Completes (.slotNotifyWrite i) inside js a)
    (freed : a.Completes (.freeFat i) [] [] m) : k.Completes (.freeFat i) inside js m := by
  obtain ⟨v, vs, r, action, rfl, rfl, lasting, ended, whole⟩ := written
  cases r with
  | cons start rest =>
    obtain ⟨hv, hvs⟩ := List.forall_mem_cons.mp whole
    have permitted : k.permits (.slotNotifyWrite i) = true := start ▸ (v.of_call action).1
    obtain ⟨hjump, hu, -, htogether⟩ :=
      h.together watched (u := k.calling (.freeFat i) permitted) rfl start
      rfl action (Or.inr hv)
    obtain ⟨us, m', hrun, hactions, hjumps, hus, hend⟩ :=
      htogether.follow_back rest fun t ht => ⟨lasting t ht, hvs t ht⟩
    have hparted := hend.alike.resolve_left fun h => h.stack_ne.2 ended
    obtain rfl := (hparted.completes permitted hend.tidy).mp freed
    refine ⟨_, us, .cons rfl hrun, rfl, hactions, ?_, fun t ht => (hus t ht).1, hparted.stack,
      List.forall_mem_cons.mpr ⟨hu, fun t ht => (hus t ht).2⟩⟩
    rw [jumps_cons, jumps_cons, hjump, hjumps]

/-- To give up the last share in a set is the same as to report a write to it first: the same is
    possible from inside, the same jumps are asked for, and in the end everything is the same. -/
theorem freeing_iff_writing (h : k.LastShare i s x) (alert : k.world.Alert) :
    k.Completes (.freeFat i) inside js m ↔
      ∃ l, k.Completes (.slotNotifyWrite i) inside js l ∧ l.Completes (.freeFat i) [] [] m := by
  cases watched : (k.world.flagsOf s).watched with
  | false => exact h.freeing_iff_writing_of_unwatched alert watched
  | true =>
    exact ⟨h.writing_of_freeing watched,
      fun ⟨_, written, freed⟩ => h.freeing_of_writing watched written freed⟩

end Moment.LastShare

end Invalidation
