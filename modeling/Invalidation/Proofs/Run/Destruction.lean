import Invalidation.Proofs.Run.Delivery
import Invalidation.Proofs.Run.Write
import Invalidation.Proofs.World.Unowned

/-! The destruction of a set. Its sweep strikes the set off whether it comes to its end or not, and
    whoever is still on the list then goes on naming a set that is gone:

        destroy   a b c d ──a──▶ b c d ──b──▶ c d ──no one──▶ …          all are released
        destroy   a b c d ──a──▶ b c d ──b has no addresses──▶ panic     a is released; b c d are left

    Meanwhile the patchers may do what they like. Nobody can join the set, and no other call strikes
    it off, so all they can do is to make somebody leave before the sweep gets there. -/

namespace Invalidation

/-- Who is on the list of the set once the change of a transition has been done. -/
def Transition.remain (s : SetId) (t : Transition) : List WatchpointId :=
  t.change?.toList.foldl (fun ws c => c.on s ws) (t.before.world.queue s)

/-- No sweep of this call strikes the set off. -/
def Waiting.Spares (s : SetId) (x : Waiting) : Prop :=
  ∀ p y, x.pending = .patch p → p.sweep = some y → ¬ y.Destroys s

/-- A set is being destroyed, above the calls `below`: its last sweep waits there, and of the calls from
    inside none will strike the set off. -/
structure Destroying (below : List Waiting) (s : SetId) (m : Moment) : Prop where
  sweeping : ∃ inner w n loan, m.stack = inner ++ ⟨.patch ⟨w, some ⟨s, n, .destroy⟩⟩, loan⟩ :: below ∧
    ∀ x ∈ inner, x.Spares s
  there : m.world.Exists s

/-- With this transition the destruction is over: everybody has been served, or somebody without
    addresses was to be. -/
structure Struck (below : List Waiting) (s : SetId) (t : Transition) : Prop where
  beneath : t.move.below = below
  stack : t.after.stack = below
  gone : ¬ t.after.world.Exists s
  jump : t.jump? = none
  ends : (t.remain s = [] ∧ t.move.turn.next = .returned) ∨
    ∃ w rest, t.remain s = w :: rest ∧ (t.after.world.watchpoint w).addresses? = none ∧
      t.move.turn.next = .panicked (.unresolved (t.after.world.watchpoint w).source
        (t.after.world.watchpoint w).destination)

/-- What is true of a watchpoint that a destruction has released. -/
structure Released (s : SetId) (start : Transition) (inside : List Transition) (m : Moment)
    (w : WatchpointId) : Prop where
  /-- It was dropped meanwhile, or its jump has been installed while it was on the list: once,
      unless it was fired from inside its own fire. -/
  served : ∃ t, departure? w s (start :: inside) = some t ∧ (t.Drops w ∨ t.Completes w ∧
    0 < ((tenure w s (start :: inside)).filter (·.installs w)).length ∧
    (((tenure w s (start :: inside)).filter (·.installs w)).length = 1 ↔
      ∀ t ∈ tenure w s (start :: inside), t.installs w = true →
        firing t.move.below w = firing start.before.stack w))
  /-- It is on no list, and can be registered on another, if that has not been done meanwhile. -/
  free : (∀ t ∈ inside, ∀ x, t.change? ≠ some (.join w x)) →
    (m.world.watchpoint w).isOnList = false ∧ ∀ x, (m.world.add x (some w)).next = .returned

/-- What is true of a watchpoint that a destruction has left on the list. -/
structure Stuck (start : Transition) (inside : List Transition) (m : Moment) (w : WatchpointId) :
    Prop where
  unpatched : ∀ t ∈ start :: inside, t.installs w = false
  /-- From then on it counts as registered, until it is fired by itself or dropped. -/
  lasting : ∀ us k, Run m us k → (∀ t ∈ us, t.change? ≠ some (.leave w)) →
    (k.world.watchpoint w).isOnList = true ∧ ∀ x, (k.world.add x (some w)).next =
      .panicked (.alreadyRegistered (k.world.watchpoint w).source (k.world.watchpoint w).destination)

/-- What is true of the destruction of a set once it is over. -/
structure Destroyed (s : SetId) (start : Transition) (inside : List Transition) (m : Moment)
    (left : List WatchpointId) : Prop where
  gone : ¬ m.world.Exists s
  /-- Those left were registered all the time, in this order, and they alone name the set still. -/
  order : left.Sublist (start.before.world.queue s)
  names : ∀ w, w ∈ left ↔ ∃ k, (m.world.watchpoint w).membership = some ⟨s, k⟩
  /-- It returns if nobody is left; else it panics, at the first of those left, who has no addresses. -/
  ends : ∃ last, (start :: inside).getLast? = some last ∧
    ((left = [] ∧ last.move.turn.next = .returned) ∨
      ∃ w rest, left = w :: rest ∧ (m.world.watchpoint w).addresses? = none ∧
        last.move.turn.next = .panicked (.unresolved (m.world.watchpoint w).source
          (m.world.watchpoint w).destination))
  released : ∀ w ∈ start.before.world.queue s, w ∉ left → Released s start inside m w
  stuck : ∀ w ∈ left, Stuck start inside m w

variable {below : List Waiting} {s : SetId} {w : WatchpointId} {t : Transition} {k m : Moment}

/-! ### One step of a destruction -/

namespace Transition

theorem remain_of_unchanged (h : t.change? = none) : t.remain s = t.before.world.queue s := by
  rw [remain, h]
  rfl

/-- A turn that spares the set puts a call that spares it above those that go on waiting, or none. -/
theorem stack_of_spares {σ : World} (h : t.move.turn.Spares s σ) :
    ∃ more, t.after.stack = more ++ t.move.below ∧ ∀ x ∈ more, x.Spares s := by
  rw [after, Move.after]
  cases hn : t.move.turn.next with
  | returned | failed | panicked => exact ⟨[], rfl, fun _ hx => absurd hx List.not_mem_nil⟩
  | waiting r pending =>
    refine ⟨[⟨pending, t.move.loan⟩], rfl, fun x hx p y hp hy => ?_⟩
    obtain rfl := List.mem_singleton.mp hx
    obtain rfl : pending = .patch p := hp
    exact h.sweeps r p y hn hy

/-- The last sweep of a set goes on: it fires the next, or strikes the set off. -/
theorem destroying_or_struck {σ : World} {n : Nat} (events : List LogEvent) (hσ : σ.Coherent)
    (there : σ.Exists s) (turn : t.move.turn = (σ.sweepOn ⟨s, n, .destroy⟩).after events)
    (hbelow : t.move.below = below) (hq : σ.queue s = t.remain s) :
    (Destroying below s t.after ∧ t.after.world.queue s = t.remain s) ∨ Struck below s t := by
  have hfront := hσ.front?_eq s
  have hworld : t.after.world = (σ.sweepOn ⟨s, n, .destroy⟩).world := by
    rw [after, Move.after, turn]
    rfl
  have hnext : t.move.turn.next = (σ.sweepOn ⟨s, n, .destroy⟩).next := by rw [turn]; rfl
  have hgone : ¬ World.Exists { σ with sets := σ.sets.erase s } s := by simp [World.Exists]
  cases hr : t.remain s with
  | nil =>
    rw [hq, hr] at hfront
    rw [World.sweepOn_of_drained hfront] at hworld hnext
    have hreturned : t.move.turn.next = .returned := hnext
    refine Or.inr ⟨hbelow, ?_, ?_, ?_, Or.inl ⟨hr, hreturned⟩⟩
    · rw [after, Move.after, hreturned, hbelow]
    · rw [hworld]
      exact hgone
    · rw [jump?, hreturned]
  | cons w rest =>
    rw [hq, hr] at hfront
    rw [World.sweepOn_of_front hfront] at hworld hnext
    cases ha : (σ.watchpoint w).addresses? with
    | none =>
      rw [World.fire_of_unresolved ha] at hworld hnext
      have hpanicked : t.move.turn.next =
          .panicked (.unresolved (σ.watchpoint w).source (σ.watchpoint w).destination) := hnext
      have hsame : t.after.world.watchpoint w = σ.watchpoint w := by rw [hworld]; rfl
      refine Or.inr ⟨hbelow, ?_, ?_, ?_, Or.inr ⟨w, rest, hr, ?_, ?_⟩⟩
      · rw [after, Move.after, hpanicked, hbelow]
      · rw [hworld]
        exact hgone
      · rw [jump?, hpanicked]
      · rw [hsame, ha]
      · rw [hsame, hpanicked]
    | some a =>
      rw [World.fire_of_resolved ha] at hworld hnext
      refine Or.inl ⟨⟨⟨[], w, n, t.move.loan, ?_, fun _ hx => absurd hx List.not_mem_nil⟩, ?_⟩, ?_⟩
      · rw [after, Move.after, hnext, hbelow]
        rfl
      · rw [hworld]
        exact there
      · rw [hworld, ← hr, ← hq]

end Transition

namespace Destroying

theorem alone (u : Destroying below s m) (h : m.Sound) : m.world.Issued s ∧ ¬ m.world.Owned s := by
  obtain ⟨inner, w, n, loan, hstack, -⟩ := u.sweeping
  exact h.ready ⟨.patch ⟨w, some ⟨s, n, .destroy⟩⟩, loan⟩ (by simp [hstack]) _ _ rfl rfl rfl

/-- Nothing that happens above the last sweep of a set puts an end to it. -/
theorem above {inner : List Waiting} {n : Nat} {loan : Loan} {σ : World}
    (hbelow : t.move.below = inner ++ ⟨.patch ⟨w, some ⟨s, n, .destroy⟩⟩, loan⟩ :: below)
    (inside : ∀ x ∈ inner, x.Spares s) (spares : t.move.turn.Spares s σ) (there : σ.Exists s)
    (hq : σ.queue s = t.remain s) :
    Destroying below s t.after ∧ t.after.world.queue s = t.remain s := by
  have hlist : t.after.world.list? s = σ.list? s := spares.list
  obtain ⟨more, hmore, hspares⟩ := Transition.stack_of_spares spares
  refine ⟨⟨⟨more ++ inner, w, n, loan, ?_, fun x hx => ?_⟩, ?_⟩, ?_⟩
  · rw [hmore, hbelow, List.append_assoc]
  · exact (List.mem_append.mp hx).elim (hspares x) (inside x)
  · rw [World.exists_iff_list?, hlist, ← World.exists_iff_list?]
    exact there
  · rw [World.queue_congr hlist, hq]

/-- A turn above the last sweep that settles leaves it where it is, and the list sees of it what it
    changes. -/
theorem above_of_settles {inner : List Waiting} {n : Nat} {loan : Loan} (h : t.before.Sound)
    (hbelow : t.move.below = inner ++ ⟨.patch ⟨w, some ⟨s, n, .destroy⟩⟩, loan⟩ :: below)
    (inside : ∀ x ∈ inner, x.Spares s) (settles : t.move.turn.Settles t.before.world t.change?.toList)
    (there : t.before.world.Exists s) :
    Destroying below s t.after ∧ t.after.world.queue s = t.remain s := by
  refine above hbelow inside (Turn.spares_of_settled rfl settles.still) ?_
    (h.coherent.queue_edits settles.edits s)
  refine settles.edits.exists there fun c hc => ?_
  rcases Transition.join_or_leave (Option.mem_toList.mp hc) with ⟨v, x, rfl⟩ | ⟨v, rfl⟩ <;> exact id

/-- One step of a destruction: it goes on, and the list is what the change says; or the set is
    struck off. -/
theorem step (u : Destroying below s t.before) (h : t.before.Sound) (installed : t.failing? = none) :
    (Destroying below s t.after ∧ t.after.world.queue s = t.remain s) ∨ Struck below s t := by
  have alone := (u.alone h).2
  obtain ⟨⟨inner, w, n, loan, hstack, hinner⟩, there⟩ := u
  obtain ⟨m, a, v, possible⟩ := t
  cases Moment.moves_of_move? possible with
  | @call c permitted =>
    by_cases quiet : c.isQuiet = true
    · exact Or.inl (above_of_settles h hstack hinner
        (World.settles_begin quiet (Bool.and_eq_true_iff.mp permitted).1) there)
    · have hnone : Transition.change? ⟨m, .call c, _, possible⟩ = none := World.change?_of_loud quiet
      exact Or.inl (above hstack hinner (World.spares_begin alone quiet) there
        (Transition.remain_of_unchanged hnone).symm)
  | located answer top =>
    cases inner with
    | nil => cases top.symm.trans hstack
    | cons x inner =>
      obtain ⟨-, hbelow⟩ := List.cons.inj (top.symm.trans hstack)
      exact Or.inl (above_of_settles h hbelow (List.forall_mem_cons.mp hinner).2
        (World.settles_located _ answer) there)
  | @failed pending loan' rest message top =>
    cases pending with
    | patch p => simp [Transition.failing?, top, Pending.patching?] at installed
    | locate l =>
      cases inner with
      | nil => cases top.symm.trans hstack
      | cons x inner =>
        obtain ⟨-, hbelow⟩ := List.cons.inj (top.symm.trans hstack)
        have hnone : Transition.change? ⟨m, .failed message, _, possible⟩ = none := rfl
        exact Or.inl (above hbelow (List.forall_mem_cons.mp hinner).2
          (Turn.spares_panic (σ := m.world) rfl) there
          (Transition.remain_of_unchanged hnone).symm)
  | @patched p loan' rest top =>
    have e := World.edits_fired m.world p.watchpoint
    have there' := e.exists there (by simp [Change.IsEnd])
    have hq : ((m.world.countRedirect p.watchpoint).unlink p.watchpoint).queue s =
        Transition.remain s ⟨m, .patched, _, possible⟩ := by
      rw [h.coherent.queue_edits e s]
      simp [Transition.remain, Transition.change?, top, Pending.patching?]
    cases inner with
    | nil =>
      obtain ⟨hx, hbelow⟩ := List.cons.inj (top.symm.trans hstack)
      obtain rfl : p = _ := Pending.patch.inj (congrArg Waiting.pending hx)
      exact Transition.destroying_or_struck [] (h.coherent.edits e) there' rfl hbelow hq
    | cons x inner =>
      obtain ⟨rfl, hbelow⟩ := List.cons.inj (top.symm.trans hstack)
      obtain ⟨hx, hin⟩ := List.forall_mem_cons.mp hinner
      exact Or.inl (above hbelow hin (World.spares_patched fun y hy => hx p y rfl hy) there' hq)

end Destroying

/-! ### Who remains -/

namespace Transition

/-- Of the labels of a transition, only its change concerns a watchpoint. -/
theorem exists_edits (h : t.before.Sound) :
    ∃ cs, World.Edits t.before.world cs t.after.world ∧
      (∀ w, .leave w ∈ cs ↔ t.change? = some (.leave w)) ∧
      ∀ w s, .join w s ∈ cs ↔ t.change? = some (.join w s) := by
  obtain ⟨last, e, hl⟩ := (does h).edits
  refine ⟨_, e, fun w => ?_, fun w s => ?_⟩
  all_goals
    rw [List.mem_append, Option.mem_toList, Option.mem_toList]
    refine or_iff_left fun hc => ?_
    obtain ⟨x, hx | ⟨hx, -⟩⟩ := hl _ hc <;> cases hx

theorem still_on {x : Membership} (h : t.before.Sound)
    (on : (t.before.world.watchpoint w).membership = some x) (stays : t.change? ≠ some (.leave w)) :
    (t.after.world.watchpoint w).membership = some x := by
  obtain ⟨cs, e, hleave, -⟩ := exists_edits h
  exact e.still_on on fun hl => stays ((hleave w).mp hl)

theorem still_off (h : t.before.Sound) (off : (t.before.world.watchpoint w).membership = none)
    (apart : ∀ s, t.change? ≠ some (.join w s)) : (t.after.world.watchpoint w).membership = none := by
  obtain ⟨cs, e, -, hjoin⟩ := exists_edits h
  exact e.still_off off fun s hj => apart s ((hjoin w s).mp hj)

theorem off_of_leave (h : t.before.Sound) (leaves : t.change? = some (.leave w)) :
    (t.after.world.watchpoint w).membership = none := by
  obtain ⟨cs, e, hleave, hjoin⟩ := exists_edits h
  refine e.off_of_leave ((hleave w).mpr leaves) fun s hj => ?_
  cases leaves.symm.trans ((hjoin w s).mp hj)

/-- While nobody joins the set, those remain who were on its list and do not leave. -/
theorem mem_remain_iff (h : t.before.Sound) (apart : ∀ w, t.change? ≠ some (.join w s)) :
    w ∈ t.remain s ↔ w ∈ t.before.world.queue s ∧ t.change? ≠ some (.leave w) := by
  rw [remain]
  rcases hc : t.change? with _ | c
  · simp
  · rcases join_or_leave hc with ⟨v, x, rfl⟩ | ⟨v, rfl⟩
    · have hx : x ≠ s := fun he => apart v (he ▸ hc)
      simp [Change.on, hx]
    · simp [Change.on, (h.coherent.nodup_queue s).mem_erase_iff, and_comm, eq_comm]

theorem remain_sublist (apart : ∀ w, t.change? ≠ some (.join w s)) :
    (t.remain s).Sublist (t.before.world.queue s) := by
  rw [remain]
  rcases hc : t.change? with _ | c
  · exact List.Sublist.refl _
  · rcases join_or_leave hc with ⟨v, x, rfl⟩ | ⟨v, rfl⟩
    · have hx : x ≠ s := fun he => apart v (he ▸ hc)
      simp [Change.on, hx]
    · exact List.erase_sublist

/-- Those who remain are those who name the set afterwards, whether it is there still or not. -/
theorem mem_remain_iff_names (h : t.before.Sound) (there : t.before.world.Exists s)
    (apart : ∀ w, t.change? ≠ some (.join w s)) :
    w ∈ t.remain s ↔ ∃ k, (t.after.world.watchpoint w).membership = some ⟨s, k⟩ := by
  rw [mem_remain_iff h apart]
  constructor
  · rintro ⟨hin, hstays⟩
    obtain ⟨k, hk⟩ := h.coherent.tie?_of_mem hin
    refine ⟨k, still_on h ?_ hstays⟩
    rw [World.membership_eq, hk]
    rfl
  · rintro ⟨k, hk⟩
    obtain ⟨cs, e, hleave, hjoin⟩ := exists_edits h
    obtain ⟨hbefore, hcs⟩ := e.on_before hk fun hj => apart w ((hjoin w s).mp hj)
    obtain ⟨b, hb⟩ := World.tie?_eq_some_of_membership hbefore
    obtain ⟨l, hl⟩ := World.exists_iff_list?.mp there
    exact ⟨h.coherent.mem_queue_of_tie? hl hb, fun hc => hcs ((hleave w).mpr hc)⟩

end Transition

namespace Run

variable {ts us : List Transition}

theorem still_on {x : Membership} (r : Run k us m) (hk : k.Sound)
    (on : (k.world.watchpoint w).membership = some x) (stays : ∀ t ∈ us, t.change? ≠ some (.leave w)) :
    (m.world.watchpoint w).membership = some x :=
  (r.keeps_along (P := fun m => m.Sound ∧ (m.world.watchpoint w).membership = some x)
    (fun _ ht h => ⟨Transition.sound h.1, Transition.still_on h.1 h.2 ht⟩) stays ⟨hk, on⟩).2

theorem still_off (r : Run k us m) (hk : k.Sound) (off : (k.world.watchpoint w).membership = none)
    (apart : ∀ t ∈ us, ∀ s, t.change? ≠ some (.join w s)) : (m.world.watchpoint w).membership = none :=
  (r.keeps_along (P := fun m => m.Sound ∧ (m.world.watchpoint w).membership = none)
    (fun _ ht h => ⟨Transition.sound h.1, Transition.still_off h.1 h.2 ht⟩) apart ⟨hk, off⟩).2

/-- While nobody joins the set, the list at the end is what is left of the list at any time before. -/
theorem queue_sublist (r : Run k ts m) (queue : ∀ t ∈ ts, t.after.world.queue s = t.remain s)
    (apart : ∀ t ∈ ts, ∀ w, t.change? ≠ some (.join w s)) :
    (m.world.queue s).Sublist (k.world.queue s) ∧
      ∀ t ∈ ts, (m.world.queue s).Sublist (t.after.world.queue s) := by
  induction r with
  | nil => exact ⟨List.Sublist.refl _, fun _ ht => absurd ht List.not_mem_nil⟩
  | @cons k m t ts start _ ih =>
    subst start
    obtain ⟨ht, hts⟩ := List.forall_mem_cons.mp queue
    obtain ⟨hj, hjs⟩ := List.forall_mem_cons.mp apart
    obtain ⟨hfirst, hrest⟩ := ih hts hjs
    have hsub := Transition.remain_sublist hj
    rw [← ht] at hsub
    exact ⟨hfirst.trans hsub, List.forall_mem_cons.mpr ⟨hfirst, hrest⟩⟩

end Run

/-! ### A whole destruction -/

theorem firing_append (inner below : List Waiting) (w : WatchpointId) :
    firing (inner ++ below) w = firing inner w + firing below w := List.countP_append

namespace Destroying

theorem stack_ne (u : Destroying below s m) : m.stack ≠ below := by
  obtain ⟨inner, w, n, loan, hstack, -⟩ := u.sweeping
  have hsweeping : Sweeping below s .destroy m := ⟨inner, w, n, loan, hstack⟩
  exact hsweeping.stack_ne

/-- Nobody joins a set that is being destroyed. -/
theorem apart (u : Destroying below s t.before) (h : t.before.Sound) (w : WatchpointId) :
    t.change? ≠ some (.join w s) := by
  intro hc
  obtain ⟨issued, alone⟩ := u.alone h
  obtain ⟨cs, e, -, hjoin⟩ := Transition.exists_edits h
  exact alone (e.owned_of_join issued ((hjoin w s).mpr hc))

/-- A jump of a watchpoint that is completed during the destruction has been asked for during it. -/
theorem firing_lt_of_completes (u : Destroying below s t.before) (h : t.Completes w) :
    firing below w < firing t.before.stack w := by
  obtain ⟨inner, v, n, loan, hstack, -⟩ := u.sweeping
  have hsplit : t.before.stack = (inner ++ [⟨.patch ⟨v, some ⟨s, n, .destroy⟩⟩, loan⟩]) ++ below := by
    rw [hstack, List.append_assoc, List.singleton_append]
  have htop := h.2
  rw [hsplit, List.head?_append_of_ne_nil _ (by simp)] at htop
  obtain ⟨x, hx, hpatching⟩ := Option.bind_eq_some_iff.mp htop
  have hpos : 0 < firing (inner ++ [⟨.patch ⟨v, some ⟨s, n, .destroy⟩⟩, loan⟩]) w :=
    List.countP_pos_iff.mpr ⟨x, List.mem_of_mem_head? hx, by simpa using hpatching⟩
  rw [hsplit, firing_append]
  exact Nat.lt_add_of_pos_left hpos

/-- A destruction that is over went on until its last transition. -/
theorem run {inside : List Transition} (r : Run k inside m) (hk : k.Sound) (u : Destroying below s k)
    (lasting : ∀ t ∈ inside, t.before.stack ≠ below) (installed : ∀ t ∈ inside, t.failing? = none)
    (ended : m.stack = below) :
    ∃ before last, inside = before ++ [last] ∧ Struck below s last ∧
      (∀ t ∈ before, t.after.world.queue s = t.remain s) ∧
      ∀ t ∈ inside, Destroying below s t.before := by
  induction r with
  | nil => exact absurd ended u.stack_ne
  | @cons k m t ts start rest ih =>
    subst start
    obtain ⟨ht, hts⟩ := List.forall_mem_cons.mp installed
    rcases u.step hk ht with ⟨hu, hq⟩ | hstruck
    · obtain ⟨before, last, rfl, hstruck, hbefore, hall⟩ := ih (Transition.sound hk) hu
        (List.forall_mem_cons.mp lasting).2 hts ended
      exact ⟨t :: before, last, rfl, hstruck, List.forall_mem_cons.mpr ⟨hq, hbefore⟩,
        List.forall_mem_cons.mpr ⟨u, hall⟩⟩
    · -- the set has been struck off, so nothing more has happened inside
      cases rest with
      | nil =>
        exact ⟨[], t, rfl, hstruck, fun _ hx => absurd hx List.not_mem_nil,
          fun x hx => List.mem_singleton.mp hx ▸ u⟩
      | cons hnext _ =>
        exact absurd (hnext ▸ hstruck.stack)
          (List.forall_mem_cons.mp (List.forall_mem_cons.mp lasting).2).1

end Destroying

namespace Transition

/-- The call that takes the last share in a set away starts the destruction, or is all of it. -/
theorem destroying_of_sweeps {c : Call} (h : t.before.Sound) (action : t.action = .call c)
    (sweeps : t.before.world.Sweeps c s .destroy) : t.change? = none ∧
    ((Destroying t.before.stack s t.after ∧ t.after.world.queue s = t.remain s) ∨
      Struck t.before.stack s t) := by
  obtain ⟨m, a, v, possible⟩ := t
  obtain rfl : a = .call c := action
  cases Moment.moves_of_move? possible with
  | call =>
    obtain ⟨τ, events, e, -, -, hbegin⟩ := sweeps.begin
    have there : m.world.Exists s := World.exists_iff_list?.mpr (h.coherent.alive s sweeps.owned)
    have hnone : change? ⟨m, .call c, _, possible⟩ = none := World.change?_of_loud sweeps.loud
    refine ⟨hnone, destroying_or_struck events (h.coherent.edits e)
      (e.exists there fun _ hc => absurd hc List.not_mem_nil) hbegin rfl ?_⟩
    rw [remain_of_unchanged hnone]
    exact h.coherent.queue_edits e s

end Transition

/-- The course of a destruction that is over, from the call that starts it to its last transition. -/
structure Course (s : SetId) (start : Transition) (inside before : List Transition)
    (last : Transition) : Prop where
  sound : start.before.Sound
  run : Run start.before (start :: inside) last.after
  split : start :: inside = before ++ [last]
  starts : start.change? = none
  destroying : ∀ t ∈ inside, Destroying start.before.stack s t.before
  struck : Struck start.before.stack s last
  queue : ∀ t ∈ before, t.after.world.queue s = t.remain s
  there : ∀ t ∈ start :: inside, t.before.world.Exists s
  apart : ∀ t ∈ start :: inside, ∀ w, t.change? ≠ some (.join w s)
  installed : ∀ t ∈ start :: inside, t.failing? = none

variable {inside before pre : List Transition} {start last : Transition} {c : Call}

theorem Run.exists_course (r : Run k (start :: inside) m) (hk : k.Sound)
    (action : start.action = .call c) (sweeps : start.before.world.Sweeps c s .destroy)
    (lasting : ∀ t ∈ inside, t.before.stack ≠ start.before.stack)
    (installed : ∀ t ∈ inside, t.failing? = none) (ended : m.stack = start.before.stack) :
    ∃ before last, m = last.after ∧ Course s start inside before last := by
  have hstart : start.failing? = none := by rw [Transition.failing?, action]
  have hinstalled : ∀ t ∈ start :: inside, t.failing? = none :=
    List.forall_mem_cons.mpr ⟨hstart, installed⟩
  cases r with
  | cons h rest =>
    subst h
    have there : start.before.world.Exists s :=
      World.exists_iff_list?.mpr (hk.coherent.alive s sweeps.owned)
    obtain ⟨hnone, hu⟩ := Transition.destroying_of_sweeps hk action sweeps
    have hapart : ∀ w, start.change? ≠ some (.join w s) := fun w hc => by cases hnone.symm.trans hc
    rcases hu with ⟨hu, hq⟩ | hstruck
    · have hsound := Transition.sound hk
      obtain ⟨before, last, rfl, hstruck, hbefore, hall⟩ := hu.run rest hsound lasting installed ended
      obtain rfl := rest.eq_after List.getLast?_concat
      refine ⟨start :: before, last, rfl, hk, .cons rfl rest, rfl, hnone, hall, hstruck,
        List.forall_mem_cons.mpr ⟨hq, hbefore⟩,
        List.forall_mem_cons.mpr ⟨there, fun t ht => (hall t ht).there⟩,
        List.forall_mem_cons.mpr ⟨hapart, fun t ht => ?_⟩, hinstalled⟩
      exact (hall t ht).apart (rest.sound_of_mem hsound ht)
    · obtain ⟨rfl, rfl⟩ := rest.eq_nil_of_over hstruck.stack lasting
      have hnil : ∀ {P : Transition → Prop}, ∀ t ∈ ([] : List Transition), P t :=
        fun _ ht => absurd ht List.not_mem_nil
      exact ⟨[], start, rfl, hk, .cons rfl (.nil _), rfl, hnone, hnil, hstruck, hnil,
        List.forall_mem_cons.mpr ⟨there, hnil⟩, List.forall_mem_cons.mpr ⟨hapart, hnil⟩, hinstalled⟩

namespace Course

theorem last_mem (d : Course s start inside before last) : last ∈ start :: inside := by
  rw [d.split]
  exact List.mem_append_right _ (List.mem_singleton_self last)

theorem sound_of_mem (d : Course s start inside before last) (ht : t ∈ start :: inside) :
    t.before.Sound :=
  d.run.sound_of_mem d.sound ht

/-- Those who remain at the end were on the list all the time. -/
theorem remain_sublist (d : Course s start inside before last) :
    (last.remain s).Sublist (start.before.world.queue s) ∧
      ∀ t ∈ before, (last.remain s).Sublist (t.after.world.queue s) := by
  have r := d.run
  have hapart := d.apart
  rw [d.split] at r hapart
  obtain ⟨k, r₁, r₂⟩ := r.split
  cases r₂ with
  | cons h _ =>
    subst h
    have hlast := Transition.remain_sublist (hapart last (by simp))
    obtain ⟨hfirst, hrest⟩ := r₁.queue_sublist d.queue fun t ht => hapart t (List.mem_append_left _ ht)
    exact ⟨hlast.trans hfirst, fun t ht => hlast.trans (hrest t ht)⟩

/-- Who does not remain at the end has left before, by a change of its own; it was on the list until
    then. -/
theorem exists_departure (d : Course s start inside before last) (hin : w ∈ start.before.world.queue s)
    (hout : w ∉ last.remain s) : ∃ t rest, departure? w s (start :: inside) = some t ∧ t ∈ inside ∧
      t.change? = some (.leave w) ∧ Run start.before (tenure w s (start :: inside)) t.before ∧
      Run t.after rest last.after ∧ ∀ u ∈ rest, u ∈ start :: inside := by
  have hlast : w ∉ last.after.world.queue s := by
    rw [World.queue_of_gone]
    · exact List.not_mem_nil
    · by_contra hne
      exact d.struck.gone (World.exists_iff_list?.mpr (Option.ne_none_iff_exists'.mp hne))
  obtain ⟨t, hd⟩ : ∃ t, departure? w s (start :: inside) = some t := by
    rw [← Option.isSome_iff_exists, departure?, List.find?_isSome]
    exact ⟨last, d.last_mem, by simpa using hlast⟩
  obtain ⟨htout, rest, hsplit⟩ := split_at_departure hd
  have hmem : ∀ u ∈ tenure w s (start :: inside) ++ t :: rest, u ∈ start :: inside := fun u hu => by
    rwa [hsplit]
  have ht : t ∈ start :: inside := hmem t (List.mem_append_right _ List.mem_cons_self)
  have hremain : w ∉ t.remain s := by
    rcases List.mem_append.mp (d.split ▸ ht) with hb | hl
    · rwa [← d.queue t hb]
    · rwa [List.mem_singleton.mp hl]
  have r := d.run
  rw [hsplit] at r
  obtain ⟨k, r₁, r₂⟩ := r.split
  cases r₂ with
  | cons h r₂ =>
    subst h
    have hlisted := r₁.mem_queue hin fun _ => mem_queue_of_mem_tenure
    have hleave : t.change? = some (.leave w) := by
      by_contra hstays
      exact hremain
        ((Transition.mem_remain_iff (d.sound_of_mem ht) (d.apart t ht)).mpr ⟨hlisted, hstays⟩)
    refine ⟨t, rest, hd, ?_, hleave, r₁, r₂, fun u hu => ?_⟩
    · rcases List.mem_cons.mp ht with rfl | ht
      · cases hleave.symm.trans d.starts
      · exact ht
    · exact hmem u (List.mem_append_right _ (List.mem_cons_of_mem _ hu))

/-- A jump that has been completed while the watchpoint was on the list was asked for there. -/
theorem served_of_completes (d : Course s start inside before last) (ht : t ∈ inside)
    (completes : t.Completes w) (r : Run start.before (tenure w s (start :: inside)) t.before) :
    0 < ((tenure w s (start :: inside)).filter (·.installs w)).length ∧
      (((tenure w s (start :: inside)).filter (·.installs w)).length = 1 ↔
        ∀ t ∈ tenure w s (start :: inside), t.installs w = true →
          firing t.move.below w = firing start.before.stack w) := by
  have hlisted : ∀ u ∈ tenure w s (start :: inside), w ∈ u.after.world.queue s :=
    fun _ => mem_queue_of_mem_tenure
  have hwhole : ∀ u ∈ tenure w s (start :: inside), u.failing? ≠ some w := fun u hu hf => by
    cases (d.installed u (mem_of_mem_tenure hu)).symm.trans hf
  have hlaw := r.firing_eq d.sound hlisted hwhole
  have hlt := (d.destroying t ht).firing_lt_of_completes completes
  have hsingle := r.length_installs_le_one_iff d.sound hlisted hwhole
  exact ⟨by omega, by rw [← hsingle]; omega⟩

/-- Who does not remain at the end has been released. -/
theorem released (d : Course s start inside before last) (hin : w ∈ start.before.world.queue s)
    (hout : w ∉ last.remain s) : Released s start inside last.after w := by
  obtain ⟨t, rest, hd, ht, hleave, r₁, r₂, hrest⟩ := d.exists_departure hin hout
  refine ⟨⟨t, hd, ?_⟩, fun hapart => ?_⟩
  · refine (Transition.completes_or_drops_of_leave hleave).symm.imp_right fun completes => ?_
    exact ⟨completes, d.served_of_completes ht completes r₁⟩
  · have hsound := d.sound_of_mem (List.mem_cons_of_mem _ ht)
    have hoff := r₂.still_off (Transition.sound hsound) (Transition.off_of_leave hsound hleave)
      fun u hu x hj => by
        rcases List.mem_cons.mp (hrest u hu) with rfl | hu
        · cases hj.symm.trans d.starts
        · exact hapart u hu x hj
    refine ⟨by rw [Watchpoint.isOnList, hoff]; rfl, fun x => ?_⟩
    obtain ⟨events, hadd⟩ := World.add_of_off x hoff
    rw [hadd]
    rfl

/-- Nobody who remains at the end has been patched meanwhile. -/
theorem unpatched (d : Course s start inside before last) (hin : w ∈ last.remain s) :
    ∀ t ∈ start :: inside, t.installs w = false := by
  have hapart := d.apart last d.last_mem
  have hstays := ((Transition.mem_remain_iff (d.sound_of_mem d.last_mem) hapart).mp hin).2
  have r := d.run
  have hinstalled := d.installed
  rw [d.split] at r hinstalled ⊢
  obtain ⟨hbefore, hfinal⟩ := List.forall_mem_append.mp hinstalled
  obtain ⟨k, r₁, r₂⟩ := r.split
  cases r₂ with
  | cons h _ =>
    subst h
    have hlaw := r₁.firing_eq d.sound (fun t ht => (d.remain_sublist.2 t ht).subset hin)
      fun t ht hf => by cases (hbefore t ht).symm.trans hf
    -- the last transition leaves just the calls from before the destruction, so no jump is left over
    rw [Transition.firing_before (fun hc => hstays (Transition.change?_of_completes hc)) (fun hf => by
      cases (hfinal last (List.mem_singleton_self last)).symm.trans hf), d.struck.beneath] at hlaw
    have hnone : before.filter (·.installs w) = [] := List.length_eq_zero_iff.mp (by omega)
    intro t ht
    rcases List.mem_append.mp ht with ht | ht
    · simpa using List.filter_eq_nil_iff.mp hnone t ht
    · rw [List.mem_singleton.mp ht, Transition.installs, d.struck.jump]
      rfl

/-- Who remains at the end goes on naming the set that is gone. -/
theorem stuck (d : Course s start inside before last) (hin : w ∈ last.remain s) :
    Stuck start inside last.after w := by
  have hsound := d.sound_of_mem d.last_mem
  obtain ⟨j, hj⟩ := (Transition.mem_remain_iff_names hsound (d.there last d.last_mem)
    (d.apart last d.last_mem)).mp hin
  refine ⟨d.unpatched hin, fun us k r stays => ?_⟩
  have hon := r.still_on (Transition.sound hsound) hj stays
  refine ⟨by rw [Watchpoint.isOnList, hon]; rfl, fun x => ?_⟩
  obtain ⟨events, hadd⟩ := World.add_of_on x hon
  rw [hadd]
  rfl

end Course

/-- A destruction releases everybody on the list of its set unless it comes to somebody without
    addresses; then it panics, and all who are on the list at that time go on naming a set that is
    gone. -/
theorem Run.destruction_stops_at_unresolved (run : Run {} (pre ++ start :: inside) m)
    (action : start.action = .call c) (sweeps : start.before.world.Sweeps c s .destroy)
    (lasting : ∀ t ∈ inside, t.before.stack ≠ start.before.stack)
    (installed : ∀ t ∈ inside, t.failing? = none) (ended : m.stack = start.before.stack) :
    ∃ left, Destroyed s start inside m left := by
  obtain ⟨k, r₁, r₂⟩ := run.split
  have hk := r₁.sound Moment.sound_empty
  obtain ⟨before, last, rfl, d⟩ := r₂.exists_course hk action sweeps lasting installed ended
  refine ⟨last.remain s, d.struck.gone, d.remain_sublist.1, fun w => ?_, ⟨last, ?_, d.struck.ends⟩,
    fun w hin hout => d.released hin hout, fun w hin => d.stuck hin⟩
  · exact Transition.mem_remain_iff_names (d.sound_of_mem d.last_mem) (d.there last d.last_mem)
      (d.apart last d.last_mem)
  · rw [d.split]
    exact List.getLast?_concat

/-- Five watchpoints wait on the set of a slot when its last share goes. The third and the fourth
    have no addresses; inside the jump of the first, the second is fired by itself and the fourth is
    dropped. -/
def fireAndDropInsideDestruction : List Action :=
  [.call (.createAlone 0 (.scripted "p") ⟨16⟩ ⟨96⟩), .call (.resolve 0), .located (.ok ⟨4112⟩),
    .located (.ok ⟨4192⟩), .call (.createAlone 1 (.scripted "p") ⟨32⟩ ⟨112⟩), .call (.resolve 1),
    .located (.ok ⟨4128⟩), .located (.ok ⟨4208⟩), .call (.createAlone 2 (.scripted "p") ⟨48⟩ ⟨128⟩),
    .call (.createAlone 3 (.scripted "p") ⟨64⟩ ⟨144⟩),
      .call (.createAlone 4 (.scripted "p") ⟨80⟩ ⟨160⟩),
    .call (.resolve 4), .located (.ok ⟨4176⟩), .located (.ok ⟨4256⟩), .call (.newSlot 5 .blind),
    .call (.slotAdd 5 (some 0)), .call (.slotAdd 5 (some 1)), .call (.slotAdd 5 (some 2)),
    .call (.slotAdd 5 (some 3)), .call (.slotAdd 5 (some 4)), .call (.freeFat 5),
      .call (.fire 1), .patched,
    .call (.dropWatchpoint 3), .patched]

theorem destruction_stops_at_unresolved_fireAndDrop :
    ∃ pre start inside m, Run {} (pre ++ start :: inside) m ∧ start.action = .call (.freeFat 5) ∧
      start.before.world.Sweeps (.freeFat 5) (.ofSlot 5 0) .destroy ∧
      (∀ t ∈ inside, t.before.stack ≠ start.before.stack) ∧ (∀ t ∈ inside, t.failing? = none) ∧
      m.stack = start.before.stack ∧ start.before.world.queue (.ofSlot 5 0) = [0, 1, 2, 3, 4] ∧
      [0, 1, 2, 3, 4].filter (fun w => (m.world.watchpoint w).isOnList) = [2, 4] ∧
      ∃ left, Destroyed (.ofSlot 5 0) start inside m left := by
  have run := Moment.run_play_at {} fireAndDropInsideDestruction (n := 20) (by decide)
  have sweeps : (Moment.play {} fireAndDropInsideDestruction)[20].before.world.Sweeps (.freeFat 5)
      (.ofSlot 5 0) .destroy := .freeFat (by decide) (by decide)
  exact ⟨_, _, _, _, run, rfl, sweeps, by decide, by decide, by decide, by decide,
    by decide, run.destruction_stops_at_unresolved rfl sweeps (by decide) (by decide) (by decide)⟩

/-- Two watchpoints wait on a set, the first without addresses, when its only handle goes. -/
def unresolvedInFront : List Action :=
  [.call (.createAlone 0 (.scripted "p") ⟨16⟩ ⟨96⟩), .call (.createAlone 1 (.scripted "p") ⟨32⟩ ⟨112⟩),
    .call (.resolve 1), .located (.ok ⟨4128⟩), .located (.ok ⟨4208⟩), .call (.newSet 2 .blind),
    .call (.add 2 (some 0)), .call (.add 2 (some 1)), .call (.dropHandle 2)]

/-- A destruction may leave a watchpoint behind that has addresses, though no patcher fails: its jump is
    never asked for, it counts as registered on a set that is gone, and another set turns it down. -/
theorem resolved_left_by_destruction :
    ∃ pre start inside m, Run {} (pre ++ start :: inside) m ∧ start.action = .call (.dropHandle 2) ∧
      start.before.world.Sweeps (.dropHandle 2) (.ofHandle 2) .destroy ∧
      (∀ t ∈ inside, t.before.stack ≠ start.before.stack) ∧ (∀ t ∈ inside, t.failing? = none) ∧
      m.stack = start.before.stack ∧ start.before.world.queue (.ofHandle 2) = [0, 1] ∧
      start.before.world.Resolved 1 ∧ (∀ t ∈ start :: inside, t.installs 1 = false) ∧
      (m.world.watchpoint 0).isOnList = true ∧ (m.world.watchpoint 1).isOnList = true ∧
      ((m.world.begin (.newSet 3 .blind)).world.begin (.add 3 (some 1))).next =
        .panicked (.alreadyRegistered (.address ⟨4128⟩) (.address ⟨4208⟩)) :=
  ⟨_, _, _, _, Moment.run_play_at {} unresolvedInFront (n := 8) (by decide), rfl,
    .dropHandle (by decide) (by decide), by decide, by decide, by decide, by decide, by
      decide, by decide,
    by decide, by decide, by decide⟩

end Invalidation
