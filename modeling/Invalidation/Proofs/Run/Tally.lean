import Invalidation.Proofs.Run.Again
import Invalidation.Proofs.Run.Sweep

/-! The counters of a runtime, and what has happened. Each counter has an event that it counts, and
    counts it wherever it comes from:

        a watchpoint is made in the runtime                          created
        a call that resolves one of its watchpoints returns          resolutions
        the patcher has installed the jump of one of them            redirects

    A jump that has been asked for is installed, or fails to be, or is still being installed; and
    only the first is counted, by the transition that goes on after it. So it makes no difference
    whether a fire, a sweep or the end of a set asked for the jump, or what has become of the
    watchpoint meanwhile. -/

namespace Invalidation

namespace Transition

/-- Whether the transition makes a watchpoint in the runtime. -/
def creates (r : RuntimeId) (t : Transition) : Bool :=
  match t.action with
  | .call (.create _ q _ _) => q = r
  | _ => false

/-- The watchpoint whose jump has been installed: whoever was asked for it has returned. -/
def installed? (t : Transition) : Option WatchpointId :=
  match t.action, t.before.stack with
  | .patched, x :: _ => x.pending.patching?
  | _, _ => none

end Transition

/-- Whether a watchpoint belongs to a context. -/
def World.belongs (σ : World) (c : ContextId) (w : WatchpointId) : Bool := (σ.watchpoint w).context = c

/-- How often that happened which the counters of a runtime count, along transitions that end in a
    world. -/
def tally (σ : World) (r : RuntimeId) (ts : List Transition) : Counters where
  created := ts.countP (·.creates r)
  resolutions := ts.countP fun t => t.resolved?.any (σ.belongs (.ofRuntime r))
  redirects := ts.countP fun t => t.installed?.any (σ.belongs (.ofRuntime r))

variable {ts : List Transition} {t : Transition} {k m : Moment} {r : RuntimeId} {w : WatchpointId}

theorem countP_filterMap_any {α β : Type} (f : α → Option β) (p : β → Bool) (as : List α) :
    (as.filterMap f).countP p = as.countP fun a => (f a).any p := by
  induction as with
  | nil => rfl
  | cons a as ih =>
    rw [List.filterMap_cons, List.countP_cons]
    cases f a with
    | none => simpa using ih
    | some b =>
      rw [List.countP_cons, ih]
      rfl

namespace Transition

/-- The answer of a link buffer settles where a watchpoint is, if it does anything. -/
theorem settles_of_deed? {answer : Except LinkFailure Address} (located : t.action = .located answer)
    {d : Deed} (hd : t.deed? = some d) : ∃ w source destination, d = .settles w source destination := by
  unfold deed? at hd
  split at hd
  · next he => cases located.symm.trans he
  · next he _ => cases located.symm.trans he
  · split at hd <;> cases hd
    exact ⟨_, _, _, rfl⟩
  · cases hd

/-- The jump of a watchpoint is counted just where it has been installed. -/
theorem redirects?_deed? (t : Transition) : t.deed?.bind Deed.redirects? = t.installed? := by
  obtain ⟨m, a, v, possible⟩ := t
  cases Moment.moves_of_move? possible with
  | @call c permitted =>
    refine Option.bind_eq_none_iff.mpr fun d hd => ?_
    rcases c.cases_of_deed? hd with ⟨_, _, _, _, -, -, rfl⟩ | ⟨_, _, _, _, -, rfl⟩ |
      ⟨_, _, _, _, -, rfl⟩ <;> rfl
  | @patched p loan below top => simp [deed?, installed?, top, Pending.patching?, Deed.redirects?]
  | located answer top =>
    refine Option.bind_eq_none_iff.mpr fun d hd => ?_
    obtain ⟨_, _, _, rfl⟩ := settles_of_deed? rfl hd
    rfl
  | failed message top => rfl

/-- A watchpoint is counted in its runtime just where it is made there. -/
theorem makes?_belongs {σ : World} (h : t.before.Linked)
    (last : ∀ w x, t.after.world.linkage.sites w = some x → (σ.watchpoint w).context = x.context) :
    (t.deed?.bind Deed.makes?).any (σ.belongs (.ofRuntime r)) = t.creates r := by
  obtain ⟨hlinkage, -⟩ := linkage_after h
  obtain ⟨m, a, v, possible⟩ := t
  cases Moment.moves_of_move? possible with
  | @call c permitted =>
    have placed : ∀ {w x}, (c.deed?.elim m.world.linkage m.world.linkage.after).sites w = some x →
        (σ.watchpoint w).context = x.context := fun hx => last _ _ (hlinkage ▸ hx)
    cases c with
    | create w q s d =>
      have hw : (σ.watchpoint w).context = .ofRuntime q := placed (if_pos rfl)
      simp [deed?, Call.deed?, Deed.makes?, World.belongs, hw, creates]
    | createAlone w p s d =>
      have hw : (σ.watchpoint w).context = .ofWatchpoint w := placed (if_pos rfl)
      simp [deed?, Call.deed?, Deed.makes?, World.belongs, hw, creates]
    | openRuntime q p settings =>
      simp only [deed?, Call.deed?, creates]
      cases settings.validate <;> rfl
    | _ => rfl
  | @patched p loan below top => simp [deed?, top, Deed.makes?, creates]
  | located answer top =>
    rw [Option.bind_eq_none_iff.mpr fun d hd => ?_]
    · rfl
    · obtain ⟨_, _, _, rfl⟩ := settles_of_deed? rfl hd
      rfl
  | failed message top => rfl

end Transition

namespace Run

/-- A transition on the way, with what comes before and after it. -/
theorem split_of_mem (r : Run k ts m) (ht : t ∈ ts) :
    ∃ pre post, ts = pre ++ t :: post ∧ Run k pre t.before ∧ Run t.after post m := by
  obtain ⟨pre, post, rfl⟩ := List.append_of_mem ht
  obtain ⟨k, r₁, r₂⟩ := r.split
  cases r₂ with
  | cons start r₂ => exact ⟨pre, post, rfl, start ▸ r₁, r₂⟩

/-- A watchpoint that is there at some time stays in its context to the end. -/
theorem context_eq (r : Run k ts m) (h : k.Linked) {x : Site} (hx : k.world.linkage.sites w = some x) :
    (m.world.watchpoint w).context = x.context := by
  rw [← World.contextOf_linkage, r.contextOf_eq h hx, Linkage.contextOf, hx]
  rfl

/-- The counters of a runtime are what has happened. -/
theorem counters_eq_tally (run : Run {} ts m) (r : RuntimeId) :
    (m.world.context (.ofRuntime r)).counters = tally m.world r ts := by
  have hcounters := run.counters_eq Moment.linked_empty (.ofRuntime r)
  have hempty : ({} : Moment).world.linkage.counters (.ofRuntime r) = {} := rfl
  simp only [World.contextOf_linkage, deeds, List.filterMap_filterMap, countP_filterMap_any, hempty,
    Nat.zero_add, Transition.settles?_deed?, Transition.redirects?_deed?] at hcounters
  refine Eq.trans (b := m.world.linkage.counters (.ofRuntime r)) rfl (hcounters.trans ?_)
  have hcreated : ts.countP (fun t => (t.deed?.bind Deed.makes?).any fun w =>
      decide ((m.world.watchpoint w).context = .ofRuntime r)) = ts.countP (·.creates r) := by
    refine List.countP_congr fun t ht => ?_
    obtain ⟨_, _, -, r₁, r₂⟩ := run.split_of_mem ht
    have hk := r₁.linked Moment.linked_empty
    have hmade :=
      Transition.makes?_belongs (r := r) hk fun w x hx => r₂.context_eq (Transition.linked hk) hx
    exact Bool.eq_iff_iff.mp hmade
  rw [hcreated]
  rfl

end Run

/-! ### Jumps asked for, and what became of them -/

/-- How many of the waiting calls install the jump of a watchpoint of a kind. -/
def installing (p : WatchpointId → Bool) (stack : List Waiting) : Nat :=
  stack.countP fun x => x.pending.patching?.any p

namespace Transition

variable {p : WatchpointId → Bool}

/-- A call comes to wait with the jump that it asks for. -/
theorem installing_after (h : t.before.Sound) (p : WatchpointId → Bool) :
    installing p t.after.stack =
      installing p t.move.below + if t.jump?.any fun j => p j.watchpoint then 1 else 0 := by
  rw [jump?, after, Move.after, installing, installing]
  cases hn : t.move.turn.next with
  | returned | failed | panicked => simp
  | waiting r pending =>
    cases pending with
    | locate l => simp [Pending.patching?]
    | patch q =>
      obtain ⟨source, destination, -, rfl⟩ := (does h).own r q hn
      simp [Pending.patching?, List.countP_cons]

/-- A call that waited goes on because its jump is installed, or because it has failed. -/
theorem installing_before (t : Transition) (p : WatchpointId → Bool) :
    installing p t.before.stack = installing p t.move.below +
      ((if t.installed?.any p then 1 else 0) + if t.failing?.any p then 1 else 0) := by
  obtain ⟨m, a, v, possible⟩ := t
  cases Moment.moves_of_move? possible with
  | call => simp [installed?, failing?]
  | patched top => simp [installing, installed?, failing?, top, List.countP_cons]
  | located answer top => simp [installing, installed?, failing?, top, Pending.patching?]
  | failed message top => simp [installing, installed?, failing?, top, List.countP_cons]

end Transition

/-- Every jump that is asked for is installed, or fails to be, or is still being installed. -/
theorem Run.jumps_balance (r : Run k ts m) (h : k.Sound) (p : WatchpointId → Bool) :
    installing p k.stack + (jumps ts).countP (fun j => p j.watchpoint) =
      installing p m.stack +
        (ts.countP (fun t => t.installed?.any p) + ts.countP fun t => t.failing?.any p) := by
  induction r with
  | nil => rfl
  | @cons k m t ts start _ ih =>
    subst start
    have hrest := ih (Transition.sound h)
    have hjumps : (jumps (t :: ts)).countP (fun j => p j.watchpoint) =
        (jumps ts).countP (fun j => p j.watchpoint) +
          if t.jump?.any fun j => p j.watchpoint then 1 else 0 := by
      rw [jumps, countP_filterMap_any, List.countP_cons, ← countP_filterMap_any, ← jumps]
    rw [t.installing_before p, hjumps, List.countP_cons, List.countP_cons]
    rw [Transition.installing_after h p] at hrest
    omega

theorem Pending.watchpoint_of_patching? {p : Pending} (h : p.patching? = some w) :
    p.watchpoint = w := by
  cases p with
  | patch p => exact Option.some.inj h
  | locate l => cases h

/-- Whoever's jump fails is there. -/
theorem Transition.known_of_failing (h : t.before.Linked) (hw : t.failing? = some w) :
    ∃ x, t.before.world.linkage.sites w = some x := by
  unfold failing? at hw
  split at hw
  · next x _ _ top =>
    have hmem : x ∈ t.before.stack := top ▸ List.mem_cons_self
    exact Pending.watchpoint_of_patching? hw ▸ h.known x hmem
  · cases hw

/-! ### Who installs the jumps -/

/-- Whoever installs the jump of a watchpoint. -/
def World.installer? (σ : World) (w : WatchpointId) : Option PatcherId :=
  (σ.watchpoints.get? w).bind fun v => (σ.contexts.get? v.context).map Context.patcher

/-- The patcher of the context that a call opens. -/
def Call.patcher? : Call → Option PatcherId
  | .openRuntime _ p _ | .createAlone _ p _ _ => some p
  | _ => none

/-- A context that is there after a deed was there before, or has been opened by it. -/
theorem Linkage.patcher_before {l : Linkage} {d : Deed} {c : ContextId} {x : Context}
    (hx : (l.after d).contexts.get? c = some x) :
    (∃ y, l.contexts.get? c = some y ∧ y.patcher = x.patcher) ∨
      (∃ r settings, d = .opens r x.patcher settings) ∨ ∃ w s t, d = .makesAlone w x.patcher s t := by
  have counted : ∀ {k : Linkage} {w : WatchpointId} {f : Counters → Counters},
      (k.count w f).contexts.get? c = some x → ∃ y, k.contexts.get? c = some y ∧
        y.patcher = x.patcher := by
    intro k w f hk
    rw [context_count] at hk
    obtain ⟨y, hy, rfl⟩ := Option.map_eq_some_iff.mp hk
    refine ⟨y, hy, ?_⟩
    split <;> rfl
  cases d with
  | opens r p settings =>
    rw [after, enter, Store.get?_put] at hx
    split at hx
    · obtain rfl := Option.some.inj hx
      exact Or.inr (Or.inl ⟨r, settings, rfl⟩)
    · exact Or.inl ⟨x, hx, rfl⟩
  | makesAlone w p s t =>
    obtain ⟨y, hy, hp⟩ := counted hx
    rw [place, enter, Store.get?_put] at hy
    split at hy
    · obtain rfl := Option.some.inj hy
      obtain rfl : p = x.patcher := hp
      exact Or.inr (Or.inr ⟨w, s, t, rfl⟩)
    · exact Or.inl ⟨y, hy, hp⟩
  | makes | settles | redirects =>
    obtain ⟨y, hy, hp⟩ := counted hx
    exact Or.inl ⟨y, hy, hp⟩

theorem World.installer?_congr {σ τ : World} (h : τ.linkage = σ.linkage) :
    τ.installer? = σ.installer? := by
  have hinstaller : ∀ υ : World, υ.installer? =
      fun w => (υ.linkage.sites w).bind fun x =>
        (υ.linkage.contexts.get? x.context).map Context.patcher := by
    intro υ
    funext w
    rw [installer?, sites_linkage]
    cases υ.watchpoints.get? w <;> rfl
  rw [hinstaller, hinstaller, h]

namespace Transition

/-- A context that is there after a transition was there before, or has been opened by it. -/
theorem patcher_before (h : t.before.Linked) {c : ContextId} {x : Context}
    (hx : t.after.world.contexts.get? c = some x) :
    (∃ y, t.before.world.contexts.get? c = some y ∧ y.patcher = x.patcher) ∨
      ∃ call, t.action = .call call ∧ call.patcher? = some x.patcher := by
  obtain ⟨hlinkage, -⟩ := linkage_after h
  have hcontexts := congrArg (fun l => l.contexts.get? c) hlinkage
  cases hd : t.deed? with
  | none =>
    rw [hd] at hcontexts
    exact Or.inl ⟨x, hcontexts.symm.trans hx, rfl⟩
  | some d =>
    rw [hd] at hcontexts
    refine (Linkage.patcher_before (hcontexts.symm.trans hx)).imp_right fun hnew => ?_
    obtain ⟨m, a, v, possible⟩ := t
    cases Moment.moves_of_move? possible with
    | @call call permitted =>
      refine ⟨call, rfl, ?_⟩
      rcases call.cases_of_deed? hd with ⟨_, _, _, _, rfl, -, rfl⟩ | ⟨_, _, _, _, rfl, rfl⟩ |
        ⟨_, _, _, _, rfl, rfl⟩ <;>
      rcases hnew with ⟨_, _, he⟩ | ⟨_, _, _, he⟩ <;> cases he <;> rfl
    | @patched p loan below top =>
      simp only [deed?, top, Option.some.injEq] at hd
      subst hd
      rcases hnew with ⟨_, _, he⟩ | ⟨_, _, _, he⟩ <;> cases he
    | located answer top =>
      obtain ⟨_, _, _, rfl⟩ := settles_of_deed? rfl hd
      rcases hnew with ⟨_, _, he⟩ | ⟨_, _, _, he⟩ <;> cases he
    | failed message top => cases hd

/-- A context keeps its patcher. -/
theorem patcher_kept (h : t.before.Linked) {c : ContextId} {x : Context}
    (hx : t.before.world.contexts.get? c = some x) :
    ∃ y, t.after.world.contexts.get? c = some y ∧ y.patcher = x.patcher := by
  obtain ⟨hlinkage, hallows⟩ := linkage_after h
  have hcontexts := congrArg (fun l => l.contexts.get? c) hlinkage
  cases hd : t.deed? with
  | none =>
    rw [hd] at hcontexts
    exact ⟨x, hcontexts.trans hx, rfl⟩
  | some d =>
    rw [hd] at hcontexts
    obtain ⟨y, hy, hp, -⟩ := Linkage.context_kept (hallows d hd) hx
    exact ⟨y, hcontexts.trans hy, hp⟩

/-- The jump of a watchpoint that is there is installed by the same from then on. -/
theorem installer?_after (h : t.before.Linked) {x : Site}
    (hx : t.before.world.linkage.sites w = some x) :
    t.after.world.installer? w = t.before.world.installer? w := by
  obtain ⟨y, hy, hcontext⟩ := context_of_site h hx
  obtain ⟨u, hu, rfl⟩ := Option.map_eq_some_iff.mp hy
  obtain ⟨v, hv, rfl⟩ := Option.map_eq_some_iff.mp hx
  obtain ⟨c, hc⟩ := h.lawful.opened w _ hx
  have hc : t.before.world.contexts.get? v.context = some c := hc
  obtain ⟨d, hd, hp⟩ := patcher_kept h hc
  have hu' : u.context = v.context := hcontext
  rw [World.installer?, World.installer?, hu, hv, Option.bind_some, Option.bind_some, hu', hc, hd,
    Option.map_some, Option.map_some, hp]

/-- A transition asks for a jump exactly if its call comes to wait for a patcher. -/
theorem jump?_of_next {p : PatcherId} {source destination : Address} {pending : Pending}
    (hn : t.move.turn.next = .waiting (.patch p source destination) pending) :
    t.jump? = some ⟨pending.watchpoint, p, source, destination⟩ := by
  cases pending with
  | patch q => simp only [jump?, hn, Pending.watchpoint]
  | locate l =>
    rcases locating_cases hn with ⟨_, _, -, -, -, -, hr, -⟩ | ⟨_, _, -, -, hr, -⟩ <;> cases hr

theorem next_of_jump? {j : Jump} (hj : t.jump? = some j) :
    ∃ pending, t.move.turn.next = .waiting (.patch j.patcher j.source j.destination) pending := by
  unfold jump? at hj
  split at hj
  · next p hn => exact Option.some.inj hj ▸ ⟨_, hn⟩
  · cases hj

/-- The jump that is asked for is to be installed by whoever installs the jumps of its watchpoint. -/
theorem installer?_of_jump (h : t.before.Linked) {j : Jump} (hj : t.jump? = some j) :
    t.after.world.installer? j.watchpoint = some j.patcher := by
  obtain ⟨ha, hp⟩ := own_jump h.sound hj
  obtain ⟨site, hsite⟩ := World.known_of_addresses ha
  obtain ⟨v, hv, rfl⟩ := Option.map_eq_some_iff.mp hsite
  obtain ⟨x, hx⟩ := (linked h).lawful.opened _ _ hsite
  have hx' : t.after.world.contexts.get? v.context = some x := hx
  rw [← hp, World.installer?, hv, Option.bind_some, hx', Option.map_some, World.contextOf,
    World.context, World.watchpoint, hv, Option.getD_some, hx', Option.getD_some]

/-- What comes to wait for the jump of a watchpoint has asked whoever installs its jumps. -/
theorem request_of_patching (h : t.before.Linked) {request : Request} {pending : Pending}
    (hn : t.move.turn.next = .waiting request pending) (hw : pending.patching? = some w) :
    ∃ p source destination, t.after.world.installer? w = some p ∧
    request = .patch p source destination := by
  cases pending with
  | locate l => cases hw
  | patch q =>
    obtain rfl : q.watchpoint = w := Option.some.inj hw
    obtain ⟨source, destination, -, rfl⟩ := (does h.sound).own _ _ hn
    exact ⟨_, source, destination, installer?_of_jump h (jump?_of_next hn), rfl⟩

end Transition

namespace Run

/-- A watchpoint that is there at some time is there at the end. -/
theorem known_after (r : Run k ts m) (h : k.Linked) {x : Site} (hx : k.world.linkage.sites w = some x) :
    ∃ y, m.world.linkage.sites w = some y := by
  have hkept := r.keeps (P := fun m => m.Linked ∧ ∃ y, m.world.linkage.sites w = some y) ?_ ⟨h, x, hx⟩
  · exact hkept.2
  · rintro t ⟨ht, y, hy⟩
    obtain ⟨z, hz, -⟩ := Transition.context_of_site ht hy
    exact ⟨Transition.linked ht, z, hz⟩

/-- The jump of a watchpoint that is there at some time is installed by the same to the end. -/
theorem installer?_eq (r : Run k ts m) (h : k.Linked) {x : Site}
    (hx : k.world.linkage.sites w = some x) : m.world.installer? w = k.world.installer? w := by
  induction r generalizing x with
  | nil => rfl
  | @cons k m t ts start _ ih =>
    subst start
    obtain ⟨y, hy, -⟩ := Transition.context_of_site h hx
    exact (ih (Transition.linked h) hy).trans (Transition.installer?_after h hx)

end Run

end Invalidation
