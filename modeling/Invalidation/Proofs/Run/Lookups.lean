import Invalidation.Proofs.Run.Resolving
import Invalidation.Proofs.Run.Write

/-! Resolving is all or nothing. A call that resolves a watchpoint makes its checks in one order,
    and the first that fails is its outcome; until all have passed nothing is written, and then
    everything at once.

        labels? ──▶ ask source ──▶ ask destination ──▶ self-loop? ──▶ too far? ──▶ write
           │            │                │                 │             │
           ▼            ▼                ▼                 ▼             ▼
        resolved     refused,         refused,          refused       refused
        before       broken           broken

    Whoever looks the labels up may make calls meanwhile; they go on above the call, which stays
    where it is. What is said here is about the call's own transitions, those that leave just what
    was waiting when it began: they are the first one, and the answers to its questions. -/

namespace Invalidation

/-- What is done by whoever is asked for the address of a label. -/
inductive Lookup where
  | found (address : Address)
  | refused (failure : LinkFailure)
  | broken (message : String)

/-- The answer as it reaches the library. -/
def Lookup.action : Lookup → Action
  | .found a => .located (.ok a)
  | .refused e => .located (.error e)
  | .broken message => .failed message

/-- The question for the source label. -/
def asksSource (w : WatchpointId) (s d : Label) : Next :=
  .waiting (.locate s) (.locate ⟨w, s, d, none⟩)

/-- The question for the destination label, once the source is known. -/
def asksDestination (w : WatchpointId) (s d : Label) (a : Address) : Next :=
  .waiting (.locate d) (.locate ⟨w, s, d, some a⟩)

/-- How far apart two addresses are, exactly. -/
def Address.apart (a b : Address) : Nat := ((a.toNat : Int) - b.toNat).natAbs

/-- What the turns of a call come to that resolves a watchpoint with labels `s` and `d`, given the
    answers to its questions: a row for each point at which it can stand still. -/
inductive Stages (rules : Linking) (w : WatchpointId) (s d : Label) :
    List Lookup → List Next → Prop where
  | asked : Stages rules w s d [] [asksSource w s d]
  | sourceRefused (e : LinkFailure) : Stages rules w s d [.refused e] [asksSource w s d, .failed e]
  | sourceBroken (message : String) :
      Stages rules w s d [.broken message] [asksSource w s d, .panicked (.foreign message)]
  | found (a : Address) : Stages rules w s d [.found a] [asksSource w s d, asksDestination w s d a]
  | destinationRefused (a : Address) (e : LinkFailure) :
      Stages rules w s d [.found a, .refused e] [asksSource w s d, asksDestination w s d a, .failed e]
  | destinationBroken (a : Address) (message : String) :
      Stages rules w s d [.found a, .broken message]
        [asksSource w s d, asksDestination w s d a, .panicked (.foreign message)]
  | selfLoop (a : Address) (reject : rules.rejectSelfLoops = true) :
      Stages rules w s d [.found a, .found a]
        [asksSource w s d, asksDestination w s d a, .failed (.link (.selfLoop a))]
  | tooFar (a b : Address) (proper : rules.rejectSelfLoops = true → a ≠ b)
      (far : rules.maxJumpDistance.toNat < a.apart b) :
      Stages rules w s d [.found a, .found b] [asksSource w s d, asksDestination w s d a,
        .failed (.link (.outOfRange a b rules.maxJumpDistance.toNat))]
  | settled (a b : Address) (proper : rules.rejectSelfLoops = true → a ≠ b)
      (near : a.apart b ≤ rules.maxJumpDistance.toNat) :
      Stages rules w s d [.found a, .found b] [asksSource w s d, asksDestination w s d a, .returned]

/-- The two worlds differ in the locations of a watchpoint, which are these addresses now, and in
    that one more resolution has been counted in its context. -/
structure World.Settled (σ τ : World) (w : WatchpointId) (a b : Address) : Prop where
  watchpoints : ∀ v, τ.watchpoints.get? v = (σ.watchpoints.get? v).map fun x =>
    if w = v then { x with source := .address a, destination := .address b } else x
  contexts : ∀ c, τ.contexts.get? c = (σ.contexts.get? c).map fun x =>
    if (σ.watchpoint w).context = c then
      { x with counters := { x.counters with resolutions := x.counters.resolutions + 1 } }
    else x
  sets : τ.sets = σ.sets
  handles : τ.handles = σ.handles
  slots : τ.slots = σ.slots

/-- The transitions of the call that began when these calls were waiting. -/
def own (below : List Waiting) (ts : List Transition) : List Transition :=
  ts.filter fun t => t.move.below = below

/-- The transitions of a call that resolves a watchpoint with labels `s` and `d`, and what they do:
    nothing but the last writes, and that only if it returns. -/
structure Follows (rules : Linking) (w : WatchpointId) (s d : Label) (ts : List Transition)
    (answers : List Lookup) : Prop where
  answered : ts.tail.map Transition.action = answers.map Lookup.action
  stages : Stages rules w s d answers (ts.map fun t => t.move.turn.next)
  nothing : ∀ t ∈ ts, t.move.turn.next ≠ .returned → t.after.world = t.before.world
  everything : ∀ t ∈ ts, t.move.turn.next = .returned →
    ∃ a b, answers = [.found a, .found b] ∧ t.before.world.Settled t.after.world w a b

/-- What becomes of a call that begins at `k` with `start` and is in progress before each transition in
    `ts`: it resolves a watchpoint altogether, or leaves everything as it is. -/
structure AllOrNothing (w : WatchpointId) (k : Moment) (start : Transition) (ts : List Transition)
    (m : Moment) : Prop where
  /-- A watchpoint that has been resolved is turned down, and nobody is asked. -/
  again : (k.world.watchpoint w).isResolved = true →
    ts = [] ∧ start.move.turn.next = .failed (.link .alreadyResolved) ∧ m.world = k.world
  /-- Any other has its labels, and they are looked up. -/
  stages : (k.world.watchpoint w).isResolved = false →
    ∃ s d answers, (k.world.watchpoint w).labels? = some (s, d) ∧
      Follows (k.world.contextOf w).settings.linking w s d (start :: own k.stack ts) answers
  /-- If the watchpoint is left alone by what is called meanwhile, it is at the end what it was,
      unless the call returns; then it has both addresses, and nothing else about it has changed. -/
  record : (∀ t ∈ ts, t.move.below ≠ k.stack →
      t.after.world.watchpoints.get? w = t.before.world.watchpoints.get? w) →
    ((∀ t ∈ start :: own k.stack ts, t.move.turn.next ≠ .returned) →
      m.world.watchpoints.get? w = k.world.watchpoints.get? w) ∧
    ∀ t ∈ start :: own k.stack ts, t.move.turn.next = .returned → ∃ a b,
      m.world.watchpoints.get? w = (k.world.watchpoints.get? w).map fun x =>
        { x with source := .address a, destination := .address b }

variable {w : WatchpointId} {s d : Label} {a b : Address} {below : List Waiting} {t start : Transition}
  {past ts : List Transition} {k m : Moment} {rules : Linking}

/-! ### One turn -/

/-- Two addresses are refused as a self-loop, or else as too far apart, or they pass. -/
theorem Linking.checkJump_cases (rules : Linking) (a b : Address) :
    (rules.rejectSelfLoops = true ∧ a = b ∧ rules.checkJump a b = .error (.selfLoop a)) ∨
      (rules.rejectSelfLoops = true → a ≠ b) ∧
        (rules.maxJumpDistance.toNat < a.apart b ∧
            rules.checkJump a b = .error (.outOfRange a b rules.maxJumpDistance.toNat) ∨
          a.apart b ≤ rules.maxJumpDistance.toNat ∧ rules.checkJump a b = .ok ()) := by
  have hdistance : a.distance b = a.apart b := by
    rw [Address.distance, Address.apart]
    omega
  by_cases hself : rules.rejectSelfLoops = true ∧ a = b
  · exact Or.inl ⟨hself.1, hself.2, by simp [checkJump, hself.1, hself.2]⟩
  · refine Or.inr ⟨fun hr he => hself ⟨hr, he⟩, ?_⟩
    have hpass : (rules.rejectSelfLoops && a == b) = false := by
      simpa [Bool.and_eq_false_iff] using hself
    simp only [checkJump, hpass, hdistance]
    by_cases hfar : rules.maxJumpDistance.toNat < a.apart b
    · exact Or.inl ⟨hfar, by simp [hfar]⟩
    · exact Or.inr ⟨Nat.le_of_not_lt hfar, by simp [hfar]⟩

theorem World.settled_settle (σ : World) (w : WatchpointId) (a b : Address) :
    σ.Settled (σ.settle w a b) w a b where
  watchpoints v := by
    simp only [settle, count, modifyWatchpoint, Store.get?_modify]
    split
    · rfl
    · rw [Option.map_id']
  contexts c := by
    have hcontext : ((σ.modifyWatchpoint w fun v =>
        { v with source := .address a, destination := .address b }).watchpoint w).context =
        (σ.watchpoint w).context := by
      rw [watchpoint, watchpoint, modifyWatchpoint, Store.get?_modify, if_pos rfl]
      cases σ.watchpoints.get? w <;> rfl
    rw [settle, count, hcontext]
    simp only [modifyWatchpoint, Store.get?_modify]
    split
    · rfl
    · rw [Option.map_id']
  sets := rfl
  handles := rfl
  slots := rfl

namespace Transition

/-- A call that resolves is turned down, or asks for the source label; nothing is written. -/
theorem begins_resolving (action : t.action = .call (.resolve w)) :
    t.after.world = t.before.world ∧ (∃ x, t.before.world.linkage.sites w = some x) ∧
      ((t.before.world.watchpoint w).labels? = none ∧
          t.move.turn.next = .failed (.link .alreadyResolved) ∧ t.after.stack = t.before.stack ∨
        ∃ s d, (t.before.world.watchpoint w).labels? = some (s, d) ∧
          t.move.turn.next = asksSource w s d ∧
          ∃ loan, t.after.stack = ⟨.locate ⟨w, s, d, none⟩, loan⟩ :: t.before.stack) := by
  obtain ⟨m, a, v, possible⟩ := t
  obtain rfl : a = .call (.resolve w) := action
  cases Moment.moves_of_move? possible with
  | call permitted =>
    have known := World.sites_linkage_of_held (Bool.and_eq_true_iff.mp permitted).1
    simp only [after, Move.after, World.begin]
    rcases World.resolve_cases m.world w with ⟨hl, he⟩ | ⟨s, d, hl, he⟩
    · rw [he]
      exact ⟨rfl, ⟨_, known⟩, Or.inl ⟨hl, rfl, rfl⟩⟩
    · rw [he]
      exact ⟨rfl, ⟨_, known⟩, Or.inr ⟨s, d, hl, rfl, _, rfl⟩⟩

/-- A question is refused, or whoever was asked breaks down, or it gets an address. -/
theorem answer_cases {l : Locating} {loan : Loan} (top : t.before.stack = ⟨.locate l, loan⟩ :: below)
    (hbelow : t.move.below = below) :
    (∃ e, t.action = (Lookup.refused e).action ∧ t.move.turn.next = .failed e ∧
        t.after.world = t.before.world) ∨
      (∃ message, t.action = (Lookup.broken message).action ∧
        t.move.turn.next = .panicked (.foreign message) ∧ t.after.world = t.before.world) ∨
      ∃ a, t.action = (Lookup.found a).action ∧ t.move.turn = t.before.world.located l (.ok a) := by
  subst hbelow
  obtain ⟨m, a, v, possible⟩ := t
  cases Moment.moves_of_move? possible with
  | call => exact absurd top.symm (List.cons_ne_self _ _)
  | patched top' => cases top'.symm.trans top
  | @located l' loan' below' answer top' =>
    obtain ⟨hx, -⟩ := List.cons.inj (top'.symm.trans top)
    obtain rfl := Pending.locate.inj (congrArg Waiting.pending hx)
    cases answer with
    | error e => exact Or.inl ⟨e, rfl, rfl, rfl⟩
    | ok a => exact Or.inr (Or.inr ⟨a, rfl, rfl⟩)
  | @failed pending loan' below' message top' =>
    obtain ⟨hx, -⟩ := List.cons.inj (top'.symm.trans top)
    obtain rfl : pending = .locate l := congrArg Waiting.pending hx
    exact Or.inr (Or.inl ⟨message, rfl, rfl, rfl⟩)

/-- The rules of a watchpoint that has been made stay what they are. -/
theorem rules_kept (h : t.before.Linked) {x : Site} (hx : t.before.world.linkage.sites w = some x) :
    (t.after.world.contextOf w).settings.linking = (t.before.world.contextOf w).settings.linking := by
  obtain ⟨y, hy, hcontext⟩ := context_of_site h hx
  obtain ⟨c, hc⟩ := h.lawful.opened w x hx
  obtain ⟨hlinkage, hallows⟩ := linkage_after h
  rw [← World.rules_of_site hx, ← World.rules_of_site hy, hcontext, hlinkage]
  cases hd : t.deed? with
  | none => rfl
  | some e => exact Linkage.rules_kept (hallows e hd) hc

end Transition

/-- A watchpoint that has not been resolved has both labels. -/
theorem Moment.Linked.labels?_or_resolved (h : k.Linked)
    (known : ∃ x, k.world.linkage.sites w = some x) :
    (k.world.watchpoint w).isResolved = true ∧ (k.world.watchpoint w).labels? = none ∨
      (k.world.watchpoint w).isResolved = false ∧
      ∃ s d, (k.world.watchpoint w).labels? = some (s, d) := by
  obtain ⟨x, hx⟩ := known
  have hsite := World.site_eq hx
  rcases h.lawful.whole w x hx with ⟨s, d, hs, hd⟩ | ⟨a, b, ha, hb, -⟩
  · simp only [hsite, Watchpoint.site] at hs hd
    refine Or.inr ⟨?_, s, d, ?_⟩
    · simp [Watchpoint.isResolved, Location.isResolved, Location.address?, hs]
    · simp [Watchpoint.labels?, hs, hd]
  · simp only [hsite, Watchpoint.site] at ha hb
    refine Or.inl ⟨?_, ?_⟩
    · simp [Watchpoint.isResolved, Location.isResolved, Location.address?, ha, hb]
    · simp [Watchpoint.labels?, ha]

/-! ### The call's own transitions -/

namespace Run

theorem rules_kept (r : Run k ts m) (h : k.Linked) {x : Site} (hx : k.world.linkage.sites w = some x) :
    m.Linked ∧ (∃ y, m.world.linkage.sites w = some y) ∧
      (m.world.contextOf w).settings.linking = (k.world.contextOf w).settings.linking := by
  refine r.keeps (P := fun m => m.Linked ∧ (∃ y, m.world.linkage.sites w = some y) ∧
    (m.world.contextOf w).settings.linking = (k.world.contextOf w).settings.linking) ?_
      ⟨h, ⟨x, hx⟩, rfl⟩
  rintro t ⟨hl, ⟨y, hy⟩, hr⟩
  obtain ⟨z, hz, -⟩ := Transition.context_of_site hl hy
  exact ⟨Transition.linked hl, ⟨z, hz⟩, (Transition.rules_kept hl hy).trans hr⟩

/-- As long as a call waits, either it goes on waiting beneath all transitions, or with one of them
    it is its turn again. -/
theorem until_turn {x : Waiting} (r : Run k ts m) (beneath : x :: below <:+ k.stack) :
    own below ts = [] ∨ ∃ inside t rest, ts = inside ++ t :: rest ∧ own below ts = t :: own below rest ∧
      Run k inside t.before ∧ Run t.after rest m ∧ t.before.stack = x :: below ∧
      t.move.below = below := by
  induction r with
  | nil => exact Or.inl rfl
  | @cons k m t ts start rest ih =>
    subst start
    rcases t.waits_or_turns beneath with hon | ⟨top, hbelow⟩
    · have hskip : own below (t :: ts) = own below ts :=
        List.filter_cons_of_neg (by simpa using Transition.ne_of_suffix hon)
      rcases ih (Transition.still_waits hon) with hnone | ⟨inside, u, us, rfl, hown, r, r', top, hu⟩
      · exact Or.inl (hskip.trans hnone)
      · exact Or.inr ⟨t :: inside, u, us, rfl, hskip.trans hown, .cons rfl r, r', top, hu⟩
    · exact Or.inr ⟨[], t, ts, rfl, List.filter_cons_of_pos (by simpa using hbelow), .nil _, rest,
        top, hbelow⟩

end Run

/-- Only the last turn may return. -/
theorem Stages.not_returned {answers : List Lookup} {nexts : List Next} {n : Next}
    (h : Stages rules w s d answers (nexts ++ [n])) : ∀ x ∈ nexts, x ≠ .returned := by
  generalize hall : nexts ++ [n] = all at h
  obtain rfl : nexts = all.dropLast := by rw [← hall, List.dropLast_concat]
  cases h <;> simp [asksSource, asksDestination]

/-- Turns of which none returns and none writes. -/
theorem Follows.of_idle {answers : List Lookup}
    (answered : ts.tail.map Transition.action = answers.map Lookup.action)
    (stages : Stages rules w s d answers (ts.map fun t => t.move.turn.next))
    (idle : ∀ t ∈ ts, t.move.turn.next ≠ .returned ∧ t.after.world = t.before.world) :
    Follows rules w s d ts answers :=
  ⟨answered, stages, fun t ht _ => (idle t ht).2, fun t ht hn => absurd hn (idle t ht).1⟩

namespace Transition

/-- With the address of the source, the call asks for the destination label. -/
theorem asks_destination {l : Locating} (turn : t.move.turn = t.before.world.located l (.ok a))
    (first : l = ⟨w, s, d, none⟩) : t.move.turn.next = asksDestination w s d a ∧
      t.after.world = t.before.world ∧
      t.after.stack = ⟨.locate ⟨w, s, d, some a⟩, t.move.loan⟩ :: t.move.below := by
  subst first
  simp only [after, Move.after, turn]
  exact ⟨rfl, rfl, rfl⟩

/-- With both addresses, the call is refused with nothing written, or returns with everything
    written. -/
theorem settles_or_refuses {l : Locating} (turn : t.move.turn = t.before.world.located l (.ok b))
    (second : l = ⟨w, s, d, some a⟩) :
    let rules := (t.before.world.contextOf w).settings.linking
    Stages rules w s d [.found a, .found b]
        [asksSource w s d, asksDestination w s d a, t.move.turn.next] ∧
      ((t.move.turn.next ≠ .returned ∧ t.after.world = t.before.world) ∨
        t.move.turn.next = .returned ∧ t.before.world.Settled t.after.world w a b) := by
  have hworld : t.after.world = t.move.turn.world := rfl
  rw [hworld, turn, second]
  rcases Linking.checkJump_cases (t.before.world.contextOf w).settings.linking a b with
    ⟨reject, rfl, hcheck⟩ | ⟨proper, ⟨far, hcheck⟩ | ⟨near, hcheck⟩⟩
  · simp only [World.located, hcheck]
    exact ⟨.selfLoop a reject, Or.inl ⟨Next.noConfusion, trivial⟩⟩
  · simp only [World.located, hcheck]
    exact ⟨.tooFar a b proper far, Or.inl ⟨Next.noConfusion, trivial⟩⟩
  · simp only [World.located, hcheck]
    exact ⟨.settled a b proper near, Or.inr ⟨rfl, World.settled_settle _ w a b⟩⟩

theorem over_of_next (ends : ∀ r p, t.move.turn.next ≠ .waiting r p) :
    t.after.stack = t.move.below := by
  rw [after, Move.after]
  split
  · next r p hn => exact absurd hn (ends r p)
  · rfl

end Transition

namespace Run

variable {inside rest : List Transition}

/-- What is said of a call from its question for the destination label on, with the turns before. -/
theorem follows_destination (r : Run k ts m) (h : k.Linked) {x : Site}
    (known : k.world.linkage.sites w = some x) (lasting : ∀ t ∈ ts, t.before.stack ≠ below)
    {loan : Loan} (beneath : ⟨.locate ⟨w, s, d, some a⟩, loan⟩ :: below <:+ k.stack)
    (idle₀ : start.move.turn.next = asksSource w s d ∧ start.after.world = start.before.world)
    (idle₁ : t.move.turn.next = asksDestination w s d a ∧ t.after.world = t.before.world)
    (action : t.action = (Lookup.found a).action) :
    ∃ answers,
    Follows (k.world.contextOf w).settings.linking w s d (start :: t :: own below ts) answers := by
  have idle : ∀ u ∈ [start, t], u.move.turn.next ≠ .returned ∧ u.after.world = u.before.world := by
    simp only [List.mem_cons, List.not_mem_nil, or_false, forall_eq_or_imp, forall_eq, idle₀, idle₁]
    exact ⟨⟨Next.noConfusion, trivial⟩, Next.noConfusion, trivial⟩
  have idle_of : ∀ u : Transition, u.move.turn.next ≠ .returned ∧ u.after.world = u.before.world →
      ∀ v ∈ [start, t, u], v.move.turn.next ≠ .returned ∧ v.after.world = v.before.world := by
    intro u hu v hv
    rcases List.mem_append.mp (show v ∈ [start, t] ++ [u] from hv) with hv | hv
    · exact idle v hv
    · rwa [List.mem_singleton.mp hv]
  rcases r.until_turn beneath with hnone | ⟨inside, u, rest, rfl, hown, r₁, r₂, top, hbelow⟩
  · rw [hnone]
    refine ⟨[.found a], .of_idle (by simp [action]) ?_ idle⟩
    simp only [List.map_cons, List.map_nil, idle₀, idle₁]
    exact .found a
  · have hrest : (∀ r p, u.move.turn.next ≠ .waiting r p) → own below rest = [] := fun ends => by
      rw [(r₂.eq_nil_of_over ((Transition.over_of_next ends).trans hbelow) fun v hv =>
        lasting v (List.mem_append_right _ (List.mem_cons_of_mem _ hv))).1]
      rfl
    obtain ⟨-, -, hrules⟩ := r₁.rules_kept h known
    rw [hown]
    rcases Transition.answer_cases top hbelow with ⟨e, haction, hnext, hworld⟩ |
      ⟨message, haction, hnext, hworld⟩ | ⟨b, haction, hturn⟩
    · rw [hrest (by simp [hnext])]
      refine ⟨[.found a, .refused e],
        .of_idle (by simp [action, haction]) ?_ (idle_of u ⟨by simp [hnext], hworld⟩)⟩
      simp only [List.map_cons, List.map_nil, idle₀, idle₁, hnext]
      exact .destinationRefused a e
    · rw [hrest (by simp [hnext])]
      refine ⟨[.found a, .broken message], .of_idle (by simp [action, haction]) ?_
        (idle_of u ⟨by simp [hnext], hworld⟩)⟩
      simp only [List.map_cons, List.map_nil, idle₀, idle₁, hnext]
      exact .destinationBroken a message
    · obtain ⟨hstages, hends⟩ := Transition.settles_or_refuses hturn rfl
      rw [hrules] at hstages
      have hover : ∀ r p, u.move.turn.next ≠ .waiting r p := by
        intro r p hn
        rw [hn] at hstages
        cases hstages
      rw [hrest hover]
      refine ⟨[.found a, .found b], by simp [action, haction], ?_, fun v hv hn => ?_, fun v hv hn => ?_⟩
      · simpa only [List.map_cons, List.map_nil, idle₀, idle₁] using hstages
      · rcases List.mem_append.mp (show v ∈ [start, t] ++ [u] from hv) with hv | hv
        · exact (idle v hv).2
        · obtain rfl := List.mem_singleton.mp hv
          exact (hends.resolve_right fun hr => hn hr.1).2
      · rcases List.mem_append.mp (show v ∈ [start, t] ++ [u] from hv) with hv | hv
        · exact absurd hn (idle v hv).1
        · obtain rfl := List.mem_singleton.mp hv
          exact ⟨a, b, rfl, (hends.resolve_left fun hl => hl.1 hn).2⟩

/-- What is said of a call that resolves a watchpoint, from its beginning on. -/
theorem follows (r : Run start.after ts m) (h : start.before.Linked)
    (action : start.action = .call (.resolve w))
    (lasting : ∀ t ∈ ts, t.before.stack ≠ start.before.stack)
    (labels : (start.before.world.watchpoint w).labels? = some (s, d)) :
    ∃ answers, Follows (start.before.world.contextOf w).settings.linking w s d
      (start :: own start.before.stack ts) answers := by
  obtain ⟨hworld, ⟨x, known⟩, ⟨hl, -⟩ | ⟨s', d', hl, hnext, loan, hstack⟩⟩ :=
    Transition.begins_resolving action
  · cases hl.symm.trans labels
  obtain ⟨rfl, rfl⟩ := Prod.mk.inj (Option.some.inj (hl.symm.trans labels))
  have idle : ∀ u ∈ [start], u.move.turn.next ≠ .returned ∧ u.after.world = u.before.world := by
    intro u hu
    rw [List.mem_singleton.mp hu, hnext]
    exact ⟨Next.noConfusion, hworld⟩
  have idle_of : ∀ u : Transition, u.move.turn.next ≠ .returned ∧ u.after.world = u.before.world →
      ∀ v ∈ [start, u], v.move.turn.next ≠ .returned ∧ v.after.world = v.before.world := by
    intro u hu v hv
    rcases List.mem_append.mp (show v ∈ [start] ++ [u] from hv) with hv | hv
    · exact idle v hv
    · rwa [List.mem_singleton.mp hv]
  rw [← hworld] at known ⊢
  rcases r.until_turn ⟨[], hstack.symm⟩ with hnone | ⟨inside, t, rest, rfl, hown, r₁, r₂, top, hbelow⟩
  · rw [hnone]
    refine ⟨[], .of_idle rfl ?_ idle⟩
    simp only [List.map_cons, List.map_nil, hnext]
    exact .asked
  · have hlasting : ∀ v ∈ rest, v.before.stack ≠ start.before.stack := fun v hv =>
      lasting v (List.mem_append_right _ (List.mem_cons_of_mem _ hv))
    have hrest : (∀ r p, t.move.turn.next ≠ .waiting r p) → own start.before.stack rest = [] :=
      fun ends => by
      rw [(r₂.eq_nil_of_over ((Transition.over_of_next ends).trans hbelow) hlasting).1]
      rfl
    obtain ⟨hlinked, ⟨y, hy⟩, hrules⟩ := r₁.rules_kept (Transition.linked h) known
    rw [hown]
    rcases Transition.answer_cases top hbelow with ⟨e, haction, hnext', hworld'⟩ |
      ⟨message, haction, hnext', hworld'⟩ | ⟨a, haction, hturn⟩
    · rw [hrest (by simp [hnext'])]
      refine ⟨[.refused e], .of_idle (by simp [haction]) ?_ (idle_of t ⟨by simp [hnext'], hworld'⟩)⟩
      simp only [List.map_cons, List.map_nil, hnext, hnext']
      exact .sourceRefused e
    · rw [hrest (by simp [hnext'])]
      refine ⟨[.broken message],
        .of_idle (by simp [haction]) ?_ (idle_of t ⟨by simp [hnext'], hworld'⟩)⟩
      simp only [List.map_cons, List.map_nil, hnext, hnext']
      exact .sourceBroken message
    · obtain ⟨hasks, hsame, hstack'⟩ := Transition.asks_destination hturn rfl
      have hrules' := (Transition.rules_kept hlinked hy).trans hrules
      obtain ⟨z, hz, -⟩ := Transition.context_of_site hlinked hy
      rw [hbelow] at hstack'
      rw [← hrules']
      exact r₂.follows_destination (Transition.linked hlinked) hz hlasting
        ⟨[], hstack'.symm⟩ ⟨hnext, hworld⟩ ⟨hasks, hsame⟩ haction

/-! ### The record of the watchpoint -/

/-- A watchpoint that is left alone by what is called meanwhile is what it was, up to a turn that
    returns. -/
theorem record_kept (r : Run k ts m)
    (foreign : ∀ t ∈ ts, t.move.below ≠ below →
      t.after.world.watchpoints.get? w = t.before.world.watchpoints.get? w)
    (idle : ∀ t ∈ own below ts, t.after.world = t.before.world) :
    m.world.watchpoints.get? w = k.world.watchpoints.get? w := by
  refine r.keeps_along (P := fun m => m.world.watchpoints.get? w = k.world.watchpoints.get? w)
    (Q := fun t => t.after.world.watchpoints.get? w = t.before.world.watchpoints.get? w)
    (fun t ht h => ht.trans h) (fun t ht => ?_) rfl
  by_cases hbelow : t.move.below = below
  · rw [idle t (List.mem_filter.mpr ⟨ht, decide_eq_true hbelow⟩)]
  · exact foreign t ht hbelow

/-- A watchpoint that is left alone by what is called meanwhile has both addresses once the call
    returns. -/
theorem record_written {answers : List Lookup} (r : Run start.after ts m)
    (lasting : ∀ t ∈ ts, t.before.stack ≠ below)
    (f : Follows rules w s d (start :: own below ts) answers)
    (world : start.after.world = start.before.world)
    (foreign : ∀ t ∈ ts, t.move.below ≠ below →
      t.after.world.watchpoints.get? w = t.before.world.watchpoints.get? w)
    (ht : t ∈ own below ts) (returned : t.move.turn.next = .returned) :
    ∃ a b, m.world.watchpoints.get? w = (start.before.world.watchpoints.get? w).map fun x =>
      { x with source := .address a, destination := .address b } := by
  obtain ⟨hmem, hbelow⟩ := List.mem_filter.mp ht
  obtain ⟨inside, rest, rfl⟩ := List.append_of_mem hmem
  obtain ⟨k', r₁, r₂⟩ := r.split
  cases r₂ with
  | cons hstart r₂ =>
    subst hstart
    have hover : t.after.stack = below :=
      (Transition.over_of_next (by simp [returned])).trans (of_decide_eq_true hbelow)
    obtain ⟨rfl, rfl⟩ := r₂.eq_nil_of_over hover fun v hv =>
      lasting v (List.mem_append_right _ (List.mem_cons_of_mem _ hv))
    have howns : own below (inside ++ [t]) = own below inside ++ [t] := by
      simp [own, of_decide_eq_true hbelow]
    rw [howns] at f
    have hidle : ∀ u ∈ own below inside, u.after.world = u.before.world := by
      intro u hu
      have hstages := f.stages
      rw [← List.cons_append, List.map_append] at hstages
      refine f.nothing u (List.mem_cons_of_mem _ (List.mem_append_left _ hu)) ?_
      exact hstages.not_returned _ (List.mem_map_of_mem (List.mem_cons_of_mem _ hu))
    have hkept := r₁.record_kept (fun u hu => foreign u (List.mem_append_left _ hu)) hidle
    have hlast : t ∈ start :: (own below inside ++ [t]) := by simp
    obtain ⟨a, b, -, hsettled⟩ := f.everything t hlast returned
    refine ⟨a, b, ?_⟩
    simp only [hsettled.watchpoints, hkept, world, if_true]

/-- A call that resolves a watchpoint, whatever the link buffer answers and whatever it calls meanwhile,
    resolves it altogether or leaves everything as it is. -/
theorem resolves_all_or_nothing (run : Run {} past k) (r : Run k (start :: ts) m)
    (action : start.action = .call (.resolve w)) (lasting : ∀ t ∈ ts, t.before.stack ≠ k.stack) :
    AllOrNothing w k start ts m := by
  cases r with
  | cons hstart r =>
    subst hstart
    have h := run.linked Moment.linked_empty
    obtain ⟨hworld, known, hcases⟩ := Transition.begins_resolving action
    have hlabels := h.labels?_or_resolved known
    have hagain : (start.before.world.watchpoint w).isResolved = true →
        start.move.turn.next = .failed (.link .alreadyResolved) ∧ ts = [] ∧ m = start.after := by
      intro resolved
      have hnone := (hlabels.resolve_right fun hr => Bool.false_ne_true (hr.1.symm.trans resolved)).2
      obtain ⟨-, hnext, hover⟩ := hcases.resolve_right fun ⟨s, d, hl, _⟩ => by cases hnone.symm.trans hl
      exact ⟨hnext, r.eq_nil_of_over hover lasting⟩
    have hstages : (start.before.world.watchpoint w).isResolved = false → ∃ s d answers,
        (start.before.world.watchpoint w).labels? = some (s, d) ∧
        Follows (start.before.world.contextOf w).settings.linking w s d
          (start :: own start.before.stack ts) answers := by
      intro unresolved
      obtain ⟨-, s, d, hl⟩ :=
        hlabels.resolve_left fun hr => Bool.false_ne_true (unresolved.symm.trans hr.1)
      obtain ⟨answers, f⟩ := r.follows h action lasting hl
      exact ⟨s, d, answers, hl, f⟩
    refine ⟨fun resolved => ?_, hstages, fun foreign => ⟨fun idle => ?_, fun t ht returned => ?_⟩⟩
    · obtain ⟨hnext, hts, hm⟩ := hagain resolved
      exact ⟨hts, hnext, hm ▸ hworld⟩
    · rw [← hworld]
      cases hr : (start.before.world.watchpoint w).isResolved with
      | true => rw [(hagain hr).2.2]
      | false =>
        obtain ⟨s, d, answers, -, f⟩ := hstages hr
        exact r.record_kept foreign fun t ht =>
          f.nothing t (List.mem_cons_of_mem _ ht) (idle t (List.mem_cons_of_mem _ ht))
    · have hstart : start.move.turn.next ≠ .returned := by
        rcases hcases with ⟨-, hnext, -⟩ | ⟨s, d, -, hnext, -⟩
        · rw [hnext]
          exact Next.noConfusion
        · rw [hnext]
          exact Next.noConfusion
      have ht := (List.mem_cons.mp ht).resolve_left fun he => hstart (he ▸ returned)
      cases hr : (start.before.world.watchpoint w).isResolved with
      | true =>
        rw [(hagain hr).2.1] at ht
        exact absurd ht List.not_mem_nil
      | false =>
        obtain ⟨s, d, answers, -, f⟩ := hstages hr
        exact r.record_written lasting f hworld foreign ht returned

end Run

/-- Two watchpoints of a runtime with a limit of its own, the first registered on a set. -/
def oneOfTwoRegistered : List Action :=
  [.call (.openRuntime 0 (.scripted "p") { linking := { maxJumpDistance := 80 } }),
    .call (.create 1 0 ⟨16⟩ ⟨96⟩), .call (.create 2 0 ⟨32⟩ ⟨112⟩), .call (.newSet 3 .watching),
    .call (.add 3 (some 1))]

/-- The first is resolved; inside the question for its source label the second is resolved and fired. -/
def resolvedAroundAnother : List Action :=
  [.call (.resolve 1), .call (.resolve 2), .located (.ok ⟨4128⟩), .located (.ok ⟨4208⟩),
    .call (.fire 2), .patched, .located (.ok ⟨4192⟩), .located (.ok ⟨4111⟩)]

theorem resolves_all_or_nothing_resolvedAroundAnother :
    ∃ past k start ts m, Run {} past k ∧ Run k (start :: ts) m ∧ start.action = .call (.resolve 1) ∧
      (∀ t ∈ ts, t.before.stack ≠ k.stack) ∧ AllOrNothing 1 k start ts m ∧
      (own k.stack ts).map (fun t => t.move.turn.next) =
        [asksDestination 1 ⟨16⟩ ⟨96⟩ ⟨4192⟩, .failed (.link (.outOfRange ⟨4192⟩ ⟨4111⟩ 80))] ∧
      (m.world.context (.ofRuntime 0)).counters = ⟨2, 1, 1⟩ := by
  have run := Moment.run_play {} oneOfTwoRegistered
  have r :=
    Moment.run_play_at (Moment.last {} (Moment.play {} oneOfTwoRegistered)) resolvedAroundAnother
    (n := 0) (by decide)
  exact ⟨_, _, _, _, _, run, r, rfl, by decide, run.resolves_all_or_nothing r rfl (by decide),
    by decide, by decide⟩

end Invalidation
