import Invalidation.Proofs.Run.Resolving
import Invalidation.Proofs.World.Lasting
import Mathlib.Data.List.Induction

/-! Resolving again. Whether a watchpoint has been resolved is looked at once, when the call begins;
    what the link buffer does while it is asked comes after that. So a call that is made from inside
    the question finds the labels still there:

        resolve w ──▶ asks ── resolve w ──▶ asks ──▶ settled ──▶ … ──▶ settled once more

    There is no other way to resolve a watchpoint twice. Whoever sets out to resolve it later is
    turned down at once, and the addresses stay what they are until a call returns that has been
    waiting beneath. So there is one resolution for each watchpoint at most, and one more for each
    that has happened inside another. -/

namespace Invalidation

/-- The waiting call resolves the watchpoint. -/
def Waiting.resolves (w : WatchpointId) (x : Waiting) : Bool :=
  match x.pending with
  | .locate l => l.watchpoint = w
  | .patch _ => false

namespace Transition

/-- The watchpoint whose resolving ends with this transition, after its link buffer has been asked. -/
def ends? (t : Transition) : Option WatchpointId :=
  match t.action, t.before.stack, t.move.turn.next with
  | .call _, _, _ | .patched, _, _ | _, _, .waiting _ _ => none
  | _, ⟨.locate l, _⟩ :: _, _ => some l.watchpoint
  | _, _, _ => none

/-- The watchpoint that a call resolves with this transition. -/
def resolved? (t : Transition) : Option WatchpointId :=
  if t.move.turn.next = .returned then t.ends? else none

/-- The watchpoint that a call resolves with this transition, while another waits to resolve it. -/
def resolvedInside? (t : Transition) : Option WatchpointId :=
  t.resolved?.filter fun w => t.move.below.any (·.resolves w)

end Transition

/-- How often watchpoints are resolved along these transitions. -/
structure OnceUnlessInside (ts : List Transition) (m : Moment) : Prop where
  /-- Once a watchpoint has been resolved, whoever sets out to resolve it is turned down; what else ends
      later has been waiting beneath the call that resolved it. -/
  later : ts.Pairwise fun t u => ∀ w, t.resolved? = some w →
    (u.action = .call (.resolve w) → u.move.turn.next = .failed (.link .alreadyResolved)) ∧
      (u.ends? = some w → ∃ x, x.resolves w = true ∧ x :: u.move.below <:+ t.move.below)
  /-- Its addresses stay what they are, unless a call resolves it again. -/
  kept : ∀ past t rest, ts = past ++ t :: rest → ∀ w, t.resolved? = some w →
    (∀ u ∈ rest, u.resolved? ≠ some w) →
      (m.world.watchpoint w).addresses? = (t.after.world.watchpoint w).addresses?
  /-- It is resolved once, and once more for each time that this happens inside another call. -/
  often : ∀ w, (ts.filterMap Transition.resolved?).count w ≤
    1 + (ts.filterMap Transition.resolvedInside?).count w
  /-- The resolutions of a runtime are no more than its watchpoints, and those inside another call. -/
  counted : ∀ r, (m.world.context (.ofRuntime r)).counters.resolutions ≤
    (m.world.context (.ofRuntime r)).counters.created +
      (ts.filterMap Transition.resolvedInside?).countP fun w =>
        (m.world.watchpoint w).context = .ofRuntime r

variable {w : WatchpointId} {t u : Transition} {ts us : List Transition} {below : List Waiting}
  {k m : Moment}

/-! ### Calls that end -/

namespace Transition

theorem ends?_eq_some_iff : t.ends? = some w ↔ (∀ r p, t.move.turn.next ≠ .waiting r p) ∧
    ∃ l loan, l.watchpoint = w ∧ t.before.stack = ⟨.locate l, loan⟩ :: t.move.below ∧
      ((∃ answer, t.action = .located answer) ∨ ∃ message, t.action = .failed message) := by
  obtain ⟨m, a, v, possible⟩ := t
  cases Moment.moves_of_move? possible with
  | call | patched => simp [ends?]
  | @located l loan below answer top =>
    simp only [ends?, top]
    cases (m.world.located l answer).next <;> simp
  | @failed pending loan below message top =>
    cases pending <;> simp [ends?, top, World.panic]

/-- A call resolves a watchpoint just where the watchpoint gets its addresses. -/
theorem resolved?_eq_some_iff : t.resolved? = some w ↔ ∃ a b, t.deed? = some (.settles w a b) := by
  simp only [settles_iff]
  obtain ⟨m, a, v, possible⟩ := t
  cases Moment.moves_of_move? possible with
  | call | patched => simp [resolved?, ends?]
  | @located l loan below answer top =>
    rcases World.located_cases m.world l answer with
      ⟨e, he⟩ | ⟨a, rfl, hsource, he⟩ | ⟨s, d, rfl, hsource, -, he⟩
    · simp [resolved?, he]
    · simp [resolved?, he]
    · obtain ⟨v, sl, dl, source⟩ := l
      obtain rfl : source = some s := hsource
      simp [resolved?, ends?, he, top, Turn.after, World.done]
  | failed message top => simp [resolved?, World.panic]

theorem settles?_deed? (t : Transition) : t.deed?.bind Deed.settles? = t.resolved? := by
  refine Option.ext fun w => ?_
  rw [resolved?_eq_some_iff, Option.bind_eq_some_iff]
  constructor
  · rintro ⟨d, hd, hw⟩
    cases d with
    | settles v a b => exact ⟨a, b, Option.some.inj hw ▸ hd⟩
    | opens | makes | makesAlone | redirects => cases hw
  · rintro ⟨a, b, hd⟩
    exact ⟨_, hd, rfl⟩

end Transition

/-! ### Addresses that stay -/

namespace World

variable {σ τ : World}

theorem labels?_of_resolved (h : σ.Resolved w) : (σ.watchpoint w).labels? = none := by
  obtain ⟨a, b, ha⟩ := h.addresses
  unfold Watchpoint.addresses? at ha
  split at ha
  · next hs hd => simp [Watchpoint.labels?, hs]
  · cases ha

theorem resolved_of_site {x : Site} {a b : Address} (h : σ.linkage.sites w = some x)
    (hs : x.source = .address a) (hd : x.destination = .address b) : σ.Resolved w := by
  obtain ⟨v, hv, rfl⟩ := Option.map_eq_some_iff.mp h
  rw [resolved_iff]
  refine ⟨v, hv, ?_⟩
  simp only [Watchpoint.site] at hs hd
  simp [Watchpoint.addresses?, hs, hd]

theorem addresses?_eq_of_site {x : Site} (h : σ.linkage.sites w = some x)
    (h' : τ.linkage.sites w = some x) :
    (τ.watchpoint w).addresses? = (σ.watchpoint w).addresses? := by
  have hsite : (τ.watchpoint w).site = (σ.watchpoint w).site := (site_eq h').symm.trans (site_eq h)
  obtain ⟨hs, hd, -⟩ := Site.mk.inj hsite
  simp only [Watchpoint.addresses?, hs, hd]

end World

namespace Transition

theorem resolved_of_resolved? (h : t.before.Linked) (hw : t.resolved? = some w) :
    t.after.world.Resolved w := by
  obtain ⟨a, b, hd⟩ := resolved?_eq_some_iff.mp hw
  obtain ⟨hlinkage, hallows⟩ := linkage_after h
  obtain ⟨x, hx, -⟩ := hallows _ hd
  rw [hd, Option.elim_some] at hlinkage
  rcases Linkage.sites_after (hallows _ hd) hx with ⟨hne, -⟩ | ⟨s, d, -, hy⟩
  · exact absurd rfl (hne a b)
  · rw [← hlinkage] at hy
    exact World.resolved_of_site hy rfl rfl

theorem keeps_resolved (h : t.before.Linked) (hw : t.before.world.Resolved w) :
    t.after.world.Resolved w := by
  obtain ⟨last, e, -⟩ := (does h.sound).edits
  exact e.resolved hw

/-- A watchpoint keeps its addresses, unless a call resolves it. -/
theorem site_kept (h : t.before.Linked) {x : Site} (hx : t.before.world.linkage.sites w = some x)
    (quiet : t.resolved? ≠ some w) : t.after.world.linkage.sites w = some x := by
  obtain ⟨hlinkage, hallows⟩ := linkage_after h
  rw [hlinkage]
  cases hd : t.deed? with
  | none => exact hx
  | some d =>
    rcases Linkage.sites_after (hallows d hd) hx with ⟨-, hy⟩ | ⟨a, b, rfl, -⟩
    · exact hy
    · exact absurd (resolved?_eq_some_iff.mpr ⟨a, b, hd⟩) quiet

/-- Whoever sets out to resolve a watchpoint that has addresses is turned down at once. -/
theorem turned_down (action : t.action = .call (.resolve w)) (hw : t.before.world.Resolved w) :
    t.move.turn.next = .failed (.link .alreadyResolved) := by
  obtain ⟨m, a, v, possible⟩ := t
  obtain rfl : a = .call (.resolve w) := action
  cases Moment.moves_of_move? possible with
  | call =>
    rcases World.resolve_cases m.world w with ⟨-, he⟩ | ⟨s, d, hl, -⟩
    · exact congrArg Turn.next he
    · cases (World.labels?_of_resolved hw).symm.trans hl

end Transition

namespace Run

theorem resolved (r : Run k ts m) (h : k.Linked) (hw : k.world.Resolved w) : m.world.Resolved w :=
  (r.keeps (P := fun m => m.Linked ∧ m.world.Resolved w)
    (fun _ h => ⟨Transition.linked h.1, Transition.keeps_resolved h.1 h.2⟩) ⟨h, hw⟩).2

theorem resolved_of_mem (r : Run k ts m) (h : k.Linked) (ht : t ∈ ts) (hw : t.resolved? = some w) :
    m.world.Resolved w := by
  obtain ⟨past, rest, rfl⟩ := List.append_of_mem ht
  obtain ⟨k', r₁, r₂⟩ := r.split
  cases r₂ with
  | cons start r₂ =>
    have hk' := start ▸ r₁.linked h
    exact r₂.resolved (Transition.linked hk') (Transition.resolved_of_resolved? hk' hw)

theorem site_kept (r : Run k ts m) (h : k.Linked) {x : Site} (hx : k.world.linkage.sites w = some x)
    (quiet : ∀ t ∈ ts, t.resolved? ≠ some w) : m.world.linkage.sites w = some x :=
  (r.keeps_along (P := fun m => m.Linked ∧ m.world.linkage.sites w = some x)
    (fun _ ht h => ⟨Transition.linked h.1, Transition.site_kept h.1 h.2 ht⟩) quiet ⟨h, hx⟩).2

end Run

/-! ### Calls that have been waiting beneath -/

/-- A call that is still in progress when a watchpoint has been resolved was waiting beneath the
    call that resolved it. -/
theorem Resolving.beneath {s d : Label} {source : Option Address} (h : Resolving w s d below ts source)
    (r : Run {} ts m) (ht : t ∈ ts) (hw : t.resolved? = some w) :
    ∃ x : Waiting, x.resolves w = true ∧ x :: below <:+ t.move.below := by
  have going : ∀ {u : Transition} {q p}, u.move.turn.next = .waiting q p → u.resolved? = none := by
    intro u q p hu
    simp [Transition.resolved?, hu]
  induction h generalizing m with
  | @asked us u action beneath asks =>
    obtain ⟨r, -⟩ := r.of_concat
    rcases List.mem_append.mp ht with ht | ht
    · have hresolved := r.resolved_of_mem Moment.linked_empty ht hw
      cases (Transition.turned_down action hresolved).symm.trans asks
    · obtain rfl := List.mem_singleton.mp ht
      cases (going asks).symm.trans hw
  | @found us u loan a resolving top answer asks ih =>
    obtain ⟨r, -⟩ := r.of_concat
    rcases List.mem_append.mp ht with ht | ht
    · exact ih r ht
    · obtain rfl := List.mem_singleton.mp ht
      cases (going asks).symm.trans hw
  | @inside us u loan source resolving beneath ih =>
    obtain ⟨r, -⟩ := r.of_concat
    rcases List.mem_append.mp ht with ht | ht
    · exact ih r ht
    · obtain rfl := List.mem_singleton.mp ht
      exact ⟨_, by simp [Waiting.resolves], beneath⟩

/-- What is true of a transition and all that have led to it, is true along a run of each pair. -/
theorem Run.pairwise {R : Transition → Transition → Prop}
    (step : ∀ past u, Run {} past u.before → ∀ t ∈ past, R t u) (r : Run {} ts m) : ts.Pairwise R := by
  induction ts using List.reverseRecOn generalizing m with
  | nil => exact .nil
  | append_singleton ts u ih =>
    obtain ⟨r, -⟩ := r.of_concat
    refine List.pairwise_append.mpr ⟨ih r, List.pairwise_singleton _ _, fun t ht v hv => ?_⟩
    obtain rfl := List.mem_singleton.mp hv
    exact step ts v r t ht

theorem later_of_run (r : Run {} ts m) : ts.Pairwise fun t u => ∀ w, t.resolved? = some w →
    (u.action = .call (.resolve w) → u.move.turn.next = .failed (.link .alreadyResolved)) ∧
      (u.ends? = some w → ∃ x : Waiting, x.resolves w = true ∧ x :: u.move.below <:+ t.move.below) := by
  refine r.pairwise fun past u r t ht w hw => ⟨fun action => ?_, fun ends => ?_⟩
  · exact Transition.turned_down action (r.resolved_of_mem Moment.linked_empty ht hw)
  · obtain ⟨-, l, loan, rfl, top, -⟩ := Transition.ends?_eq_some_iff.mp ends
    obtain ⟨-, resolving⟩ := (r.accounted Moment.accounted_empty).resolving l loan _ ⟨[], top.symm⟩
    exact resolving.beneath r ht hw

/-! ### Counting -/

/-- What is found again later only where something else is found as well, is found once more at most. -/
theorem count_filterMap_le {f g : Transition → Option WatchpointId}
    (h : ts.Pairwise fun t u => f t = some w → f u = some w → g t = some w) :
    (ts.filterMap f).count w ≤ 1 + (ts.filterMap g).count w := by
  induction ts with
  | nil => exact Nat.zero_le _
  | cons t ts ih =>
    obtain ⟨ht, hts⟩ := List.pairwise_cons.mp h
    have hle := ih hts
    have cons : ∀ f : Transition → Option WatchpointId, ((t :: ts).filterMap f).count w =
        (if f t = some w then 1 else 0) + (ts.filterMap f).count w := by
      intro f
      rw [List.filterMap_cons]
      cases hf : f t with
      | none => simp
      | some v => by_cases hv : v = w <;> simp [hv, Nat.add_comm]
    rw [cons f, cons g]
    by_cases hf : f t = some w
    · by_cases hlast : (ts.filterMap f).count w = 0
      · rw [hlast]
        split <;> omega
      · obtain ⟨u, hu, hfu⟩ := List.mem_filterMap.mp (List.count_pos_iff.mp (Nat.pos_of_ne_zero hlast))
        rw [if_pos hf, if_pos (ht u hu hf hfu)]
        omega
    · rw [if_neg hf]
      omega

theorem Transition.ends?_of_resolved? (h : t.resolved? = some w) : t.ends? = some w := by
  unfold resolved? at h
  split at h
  · exact h
  · cases h

theorem often_of_run (r : Run {} ts m) (w : WatchpointId) :
    (ts.filterMap Transition.resolved?).count w ≤
    1 + (ts.filterMap Transition.resolvedInside?).count w := by
  refine count_filterMap_le ((later_of_run r).imp fun {t u} later ht hu => ?_)
  obtain ⟨x, hx, hsuffix⟩ := (later w ht).2 (Transition.ends?_of_resolved? hu)
  rw [Transition.resolvedInside?, ht, Option.filter_some, if_pos]
  exact List.any_eq_true.mpr ⟨x, hsuffix.subset List.mem_cons_self, hx⟩

/-- Whoever has been resolved has been made. -/
theorem made_of_resolved (r : Run {} ts m) (h : w ∈ ts.filterMap Transition.resolved?) :
    w ∈ (deeds ts).filterMap Deed.makes? := by
  obtain ⟨t, ht, hw⟩ := List.mem_filterMap.mp h
  obtain ⟨v, hv, -⟩ := World.resolved_iff.mp (r.resolved_of_mem Moment.linked_empty ht hw)
  have hsite : m.world.linkage.sites w = some v.site := by rw [World.sites_linkage, hv, Option.map_some]
  obtain ⟨s, d, hmade, -⟩ := (r.accounted Moment.accounted_empty).sites w _ hsite
  obtain ⟨u, hu, hl⟩ := List.exists_of_findSome?_eq_some hmade
  rcases Transition.labels?_eq_some_iff.mp hl with ⟨_, hd⟩ | ⟨_, hd⟩
  · exact List.mem_filterMap.mpr ⟨_, List.mem_filterMap.mpr ⟨u, hu, hd⟩, rfl⟩
  · exact List.mem_filterMap.mpr ⟨_, List.mem_filterMap.mpr ⟨u, hu, hd⟩, rfl⟩

theorem counted_of_run (r : Run {} ts m) (c : ContextId) :
    (m.world.context c).counters.resolutions ≤ (m.world.context c).counters.created +
      (ts.filterMap Transition.resolvedInside?).countP fun w => (m.world.watchpoint w).context = c := by
  have hcounters := r.counters_eq Moment.linked_empty c
  have hsettles : (deeds ts).filterMap Deed.settles? = ts.filterMap Transition.resolved? := by
    rw [deeds, List.filterMap_filterMap]
    exact List.filterMap_congr fun t _ => t.settles?_deed?
  simp only [World.contextOf_linkage, hsettles] at hcounters
  -- each watchpoint is resolved no more often than it is made, and resolved from inside
  have hsub : List.Subperm (ts.filterMap Transition.resolved?)
      ((deeds ts).filterMap Deed.makes? ++ ts.filterMap Transition.resolvedInside?) := by
    refine List.subperm_ext_iff.mpr fun w hw => ?_
    have hmade := List.count_pos_iff.mpr (made_of_resolved r hw)
    have hoften := often_of_run r w
    rw [List.count_append]
    omega
  have hzero : ({} : Moment).world.linkage.counters c = {} := rfl
  rw [show (m.world.context c).counters = m.world.linkage.counters c from rfl, hcounters, hzero]
  show 0 + _ ≤ 0 + _ + _
  rw [Nat.zero_add, Nat.zero_add, ← List.countP_append]
  exact hsub.countP_le _

/-- A watchpoint is resolved again only from inside the question of another call that resolves it. -/
theorem Run.resolves_again_only_from_inside (run : Run {} ts m) : OnceUnlessInside ts m where
  later := later_of_run run
  kept past t rest hts w hw quiet := by
    subst hts
    obtain ⟨k, r₁, r₂⟩ := run.split
    cases r₂ with
    | cons start r₂ =>
      have hk := start ▸ r₁.linked Moment.linked_empty
      obtain ⟨v, hv, -⟩ := World.resolved_iff.mp (Transition.resolved_of_resolved? hk hw)
      have hsite : t.after.world.linkage.sites w = some v.site := by
        rw [World.sites_linkage, hv, Option.map_some]
      exact World.addresses?_eq_of_site hsite (r₂.site_kept (Transition.linked hk) hsite quiet)
  often := often_of_run run
  counted r := counted_of_run run (.ofRuntime r)

/-- A watchpoint of a runtime is being resolved; while the link buffer looks its source label up, it is
    resolved again, and by that call it gets other addresses. -/
def resolvedFromInside : List Action :=
  [.call (.openRuntime 0 (.scripted "p") {}), .call (.create 1 0 ⟨16⟩ ⟨96⟩), .call (.resolve 1),
    .call (.resolve 1), .located (.ok ⟨20496⟩), .located (.ok ⟨20576⟩), .located (.ok ⟨4112⟩),
    .located (.ok ⟨4192⟩), .call (.resolve 1)]

theorem resolves_again_resolvedFromInside :
    ∃ ts m, Run {} ts m ∧ ts.filterMap Transition.resolvedInside? = [1] ∧
      (ts.map fun t => t.move.turn.next).getLast? = some (.failed (.link .alreadyResolved)) ∧
      OnceUnlessInside ts m :=
  have run := Moment.run_play {} resolvedFromInside
  ⟨_, _, run, by decide, by decide, run.resolves_again_only_from_inside⟩

/-- Two calls resolve one watchpoint: its addresses change after it has been resolved, and its runtime
    counts more resolutions than watchpoints. -/
theorem two_resolutions_of_one_watchpoint :
    ∃ past t mid u rest m, Run {} (past ++ t :: (mid ++ u :: rest)) m ∧
      t.resolved? = some 1 ∧ u.resolved? = some 1 ∧
      (t.after.world.watchpoint 1).addresses? = some (⟨20496⟩, ⟨20576⟩) ∧
      (m.world.watchpoint 1).addresses? = some (⟨4112⟩, ⟨4192⟩) ∧
      (m.world.context (.ofRuntime 0)).counters = { created := 1, resolutions := 2 } := by
  have run := Moment.run_play {} resolvedFromInside
  exact ⟨((Moment.play {} resolvedFromInside).take 5), _, [(Moment.play {} resolvedFromInside)[6]], _,
    [(Moment.play {} resolvedFromInside)[8]], _, run, by decide, by decide, by decide, by
      decide, by decide⟩

end Invalidation
