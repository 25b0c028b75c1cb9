import Invalidation.Proofs.Run.Sound
import Invalidation.Proofs.World.Deeds

/-! Linking along runs. Each transition does one deed or none, and only where the deed is allowed;
    so the laws of a linkage hold at every moment of every run, and what has been counted in a
    context is what the deeds along the run amount to.

        moment ──t──▶ moment ──u──▶ moment
           │ t.deed?     │ u.deed?     │
        linkage ─────▶ linkage ─────▶ linkage -/

namespace Invalidation

/-- The watchpoint that a waiting call is about. -/
def Pending.watchpoint : Pending → WatchpointId
  | .patch p => p.watchpoint
  | .locate l => l.watchpoint

/-- What linking relies on at every moment of every run. -/
structure Moment.Linked (m : Moment) : Prop where
  sound : m.Sound
  lawful : m.world.linkage.Lawful
  /-- Whoever a waiting call is about has been made. -/
  known : ∀ x ∈ m.stack, ∃ site, m.world.linkage.sites x.pending.watchpoint = some site

theorem Moment.linked_empty : Moment.Linked {} where
  sound := sound_empty
  lawful := Linkage.lawful_empty
  known _ hx := by cases hx

namespace Transition

variable {t : Transition}

/-- What a transition does to the linkage. -/
def deed? (t : Transition) : Option Deed :=
  match t.action, t.before.stack with
  | .call c, _ => c.deed?
  | .patched, ⟨.patch p, _⟩ :: _ => some (.redirects p.watchpoint)
  | .located (.ok d), ⟨.locate ⟨w, _, _, some s⟩, _⟩ :: _ =>
    match t.move.turn.next with
    | .returned => some (.settles w s d)
    | _ => none
  | _, _ => none

/-- A transition does its deed and no other, and the deed is allowed. -/
theorem linkage_after (h : t.before.Linked) :
    t.after.world.linkage = t.deed?.elim t.before.world.linkage t.before.world.linkage.after ∧
      ∀ d, t.deed? = some d → t.before.world.linkage.Allows d := by
  obtain ⟨m, a, v, possible⟩ := t
  cases Moment.moves_of_move? possible with
  | @call c permitted =>
    exact ⟨(World.linkage_begin m.world c).1, fun d hd =>
      World.allows_of_deed? (Bool.and_eq_true_iff.mp permitted).1 hd⟩
  | @patched p loan below top =>
    have hd : deed? ⟨m, .patched, ⟨m.world.patched p, loan, below⟩, possible⟩ =
        some (.redirects p.watchpoint) := by simp only [deed?, top]
    rw [hd]
    refine ⟨(World.linkage_patched m.world p).1, fun d hd => ?_⟩
    obtain rfl := Option.some.inj hd
    exact h.known ⟨.patch p, loan⟩ (by simp [top])
  | @located l loan below answer top =>
    have known := h.known ⟨.locate l, loan⟩ (by simp [top])
    obtain ⟨w, sl, dl, source⟩ := l
    rcases World.located_cases m.world ⟨w, sl, dl, source⟩ answer with
      ⟨e, he⟩ | ⟨a, rfl, rfl, he⟩ | ⟨s, d, rfl, rfl, hcheck, he⟩
    · have hd : deed? ⟨m, .located answer, ⟨_, loan, below⟩, possible⟩ = none := by
        cases answer <;> cases source <;> simp [deed?, top, he]
      rw [hd]
      exact ⟨congrArg (fun u => u.world.linkage) he, fun d hd => by cases hd⟩
    · have hd : deed? ⟨m, .located (.ok a), ⟨_, loan, below⟩, possible⟩ = none := by
        simp [deed?, top]
      rw [hd]
      exact ⟨congrArg (fun u => u.world.linkage) he, fun d hd => by cases hd⟩
    · have hd : deed? ⟨m, .located (.ok d), ⟨_, loan, below⟩, possible⟩ = some (.settles w s d) := by
        simp [deed?, top, he, Turn.after, World.done]
      rw [hd]
      refine ⟨(congrArg (fun u => u.world.linkage) he).trans (World.linkage_settle m.world w s d),
        fun d' hd => ?_⟩
      obtain rfl := Option.some.inj hd
      obtain ⟨x, hx⟩ := known
      exact ⟨x, hx, World.rules_of_site hx ▸ hcheck⟩
  | @failed pending loan below message top =>
    have hd : deed? ⟨m, .failed message, ⟨_, loan, below⟩, possible⟩ = none := by simp [deed?]
    rw [hd]
    exact ⟨World.linkage_unwind m.world pending, fun d hd => by cases hd⟩

/-- Only resolving, and its first answer, lead to a label being looked up. -/
theorem locating_cases {r : Request} {l : Locating} (h : t.move.turn.next = .waiting r (.locate l)) :
    (∃ s d, t.action = .call (.resolve l.watchpoint) ∧ t.before.permits (.resolve l.watchpoint) = true ∧
        (t.before.world.watchpoint l.watchpoint).labels? = some (s, d) ∧ t.move.below = t.before.stack ∧
        r = .locate s ∧ l = ⟨l.watchpoint, s, d, none⟩) ∨
      ∃ a loan, t.action = .located (.ok a) ∧
        t.before.stack = ⟨.locate { l with source := none }, loan⟩ :: t.move.below ∧
        r = .locate l.destinationLabel ∧ l.source = some a := by
  obtain ⟨m, a, v, possible⟩ := t
  cases Moment.moves_of_move? possible with
  | @call c permitted =>
    by_cases hc : ∃ w, c = .resolve w
    · obtain ⟨w, rfl⟩ := hc
      rcases World.resolve_cases m.world w with ⟨-, he⟩ | ⟨s, d, hl, he⟩
      · cases (congrArg Turn.next he).symm.trans h
      · obtain ⟨hr, hp⟩ := Next.waiting.inj ((congrArg Turn.next he).symm.trans h)
        obtain rfl := Pending.locate.inj hp
        exact Or.inl ⟨s, d, rfl, permitted, hl, rfl, hr.symm, rfl⟩
    · exact absurd h ((World.linkage_begin m.world c).2 (fun w he => hc ⟨w, he⟩) r l)
  | @patched p loan below top => exact absurd h ((World.linkage_patched m.world p).2 r l)
  | @located l' loan below answer top =>
    rcases World.located_cases m.world l' answer with
      ⟨e, he⟩ | ⟨a, rfl, hsource, he⟩ | ⟨s, d, rfl, hsource, hcheck, he⟩
    · cases (congrArg Turn.next he).symm.trans h
    · obtain ⟨hr, hp⟩ := Next.waiting.inj ((congrArg Turn.next he).symm.trans h)
      obtain rfl := Pending.locate.inj hp
      refine Or.inr ⟨a, loan, rfl, ?_, hr.symm, rfl⟩
      rw [top, ← hsource]
    · cases (congrArg Turn.next he).symm.trans h
  | failed message top => cases h

/-- A transition that settles addresses is the second answer to a call that resolves. -/
theorem settles_iff {w : WatchpointId} {s d : Address} :
    t.deed? = some (.settles w s d) ↔ t.action = .located (.ok d) ∧ t.move.turn.next = .returned ∧
      ∃ sl dl loan, t.before.stack = ⟨.locate ⟨w, sl, dl, some s⟩, loan⟩ :: t.move.below := by
  obtain ⟨m, a, v, possible⟩ := t
  cases Moment.moves_of_move? possible with
  | @call c permitted =>
    refine iff_of_false (fun hd => ?_) (by simp)
    rcases c.cases_of_deed? hd with ⟨_, _, _, _, -, -, he⟩ | ⟨_, _, _, _, -, he⟩ |
      ⟨_, _, _, _, -, he⟩ <;>
      cases he
  | @patched p loan below top => simp [deed?, top]
  | @located l loan below answer top =>
    obtain ⟨w', sl, dl, source⟩ := l
    rcases World.located_cases m.world ⟨w', sl, dl, source⟩ answer with
      ⟨e, he⟩ | ⟨a, rfl, rfl, he⟩ | ⟨s', d', rfl, rfl, -, he⟩
    · refine iff_of_false ?_ (by simp [he])
      cases answer <;> cases source <;> simp [deed?, top, he]
    · simp [deed?, he, top]
    · suffices h : w' = w ∧ s' = s ∧ d' = d ↔ d' = d ∧ w' = w ∧ s' = s by
        simpa [deed?, top, he, Turn.after, World.done] using h
      exact ⟨fun ⟨hw, hs, hd⟩ => ⟨hd, hw, hs⟩, fun ⟨hd, hw, hs⟩ => ⟨hw, hs, hd⟩⟩
  | failed message top => simp [deed?]

/-- A watchpoint that has been made stays in its context. -/
theorem context_of_site (h : t.before.Linked) {w : WatchpointId} {x : Site}
    (hx : t.before.world.linkage.sites w = some x) :
    ∃ y, t.after.world.linkage.sites w = some y ∧ y.context = x.context := by
  obtain ⟨hlinkage, hallows⟩ := linkage_after h
  rw [hlinkage]
  cases hd : t.deed? with
  | none => exact ⟨x, hx, rfl⟩
  | some d => exact Linkage.context_of_site (hallows d hd) hx

theorem linked (h : t.before.Linked) : t.after.Linked := by
  obtain ⟨hlinkage, hallows⟩ := linkage_after h
  have kept : ∀ {w x}, t.before.world.linkage.sites w = some x →
      ∃ y, t.after.world.linkage.sites w = some y := by
    intro w x hx
    obtain ⟨y, hy, -⟩ := context_of_site h hx
    exact ⟨y, hy⟩
  refine ⟨sound h.sound, ?_, fun x hx => ?_⟩
  · rw [hlinkage]
    cases hd : t.deed? with
    | none => exact h.lawful
    | some d => exact h.lawful.after (hallows d hd)
  · rcases mem_stack_after hx with hx | ⟨r, hn⟩
    · obtain ⟨site, hsite⟩ := h.known x (t.below_subset x hx)
      exact kept hsite
    · obtain ⟨pending, loan⟩ := x
      cases pending with
      | patch p =>
        obtain ⟨source, destination, ha, -⟩ := (does h.sound).own r p hn
        exact World.known_of_addresses ha
      | locate l =>
        rcases locating_cases hn with ⟨s, d, -, permitted, -⟩ | ⟨a, loan', -, top, -⟩
        · exact kept (World.sites_linkage_of_held (Bool.and_eq_true_iff.mp permitted).1)
        · obtain ⟨site, hsite⟩ := h.known ⟨.locate { l with source := none }, loan'⟩ (by simp [top])
          exact kept hsite

/-- What a transition adds to the counters of a context: one for its watchpoint, if that belongs
    there. -/
theorem counters_after (h : t.before.Linked) (c : ContextId) :
    t.after.world.linkage.counters c =
      { created := (t.before.world.linkage.counters c).created +
          (t.deed?.bind Deed.makes?).toList.countP fun w => t.after.world.linkage.contextOf w = c
        resolutions := (t.before.world.linkage.counters c).resolutions +
          (t.deed?.bind Deed.settles?).toList.countP fun w => t.after.world.linkage.contextOf w = c
        redirects := (t.before.world.linkage.counters c).redirects +
          (t.deed?.bind Deed.redirects?).toList.countP fun w =>
            t.after.world.linkage.contextOf w = c } := by
  obtain ⟨hlinkage, hallows⟩ := linkage_after h
  cases hd : t.deed? with
  | none =>
    rw [hd] at hlinkage
    rw [hlinkage]
    rfl
  | some d =>
    have hcount := Linkage.counters_after h.lawful (hallows d hd) (c := c)
    rw [hd, Option.elim_some] at hlinkage
    rw [← hlinkage] at hcount
    rw [hcount]
    cases d with
    | opens => rfl
    | makes w | makesAlone w | settles w | redirects w =>
      simp only [Deed.counts, Deed.counting, Deed.makes?, Deed.settles?, Deed.redirects?,
        Option.map_some,
        Option.some.injEq, Option.bind_some, Option.toList_some, Option.toList_none, List.countP_nil,
        List.countP_singleton, decide_eq_true_eq]
      split <;> rfl

/-- Whoever a deed is done for is there from then on. -/
theorem known_of_counts (h : t.before.Linked) {d : Deed} (hd : t.deed? = some d) {w : WatchpointId}
    (hw : d.counts = some w) : ∃ x, t.after.world.linkage.sites w = some x := by
  obtain ⟨hlinkage, hallows⟩ := linkage_after h
  rw [hlinkage, hd]
  exact Linkage.known_of_counts (hallows d hd) hw

end Transition

/-- What transitions do to the linkage, in their order. -/
def deeds (ts : List Transition) : List Deed := ts.filterMap Transition.deed?

theorem filterMap_deeds_cons (kind : Deed → Option WatchpointId) (t : Transition)
    (ts : List Transition) :
    (deeds (t :: ts)).filterMap kind = (t.deed?.bind kind).toList ++ (deeds ts).filterMap kind := by
  rw [deeds, List.filterMap_cons]
  cases t.deed? with
  | none => rfl
  | some d =>
    rw [List.filterMap_cons, Option.bind_some]
    cases kind d <;> rfl

namespace Run

variable {ts : List Transition} {k m : Moment}

theorem linked (r : Run k ts m) (h : k.Linked) : m.Linked := r.keeps (fun _ => Transition.linked) h

theorem contextOf_eq (r : Run k ts m) (h : k.Linked) {w : WatchpointId} {x : Site}
    (hx : k.world.linkage.sites w = some x) :
    m.world.linkage.contextOf w = k.world.linkage.contextOf w := by
  induction r generalizing x with
  | nil => rfl
  | @cons k m t ts start rest ih =>
    subst start
    obtain ⟨y, hy, hc⟩ := Transition.context_of_site h hx
    rw [ih (Transition.linked h) hy, Linkage.contextOf, Linkage.contextOf, hx, hy, Option.map_some,
      Option.map_some, hc]

/-- What has been counted in a context along a run is how often the deeds were done for a watchpoint
    that belongs there. -/
theorem counters_eq (r : Run k ts m) (h : k.Linked) (c : ContextId) :
    m.world.linkage.counters c =
      { created := (k.world.linkage.counters c).created +
          ((deeds ts).filterMap Deed.makes?).countP fun w => m.world.linkage.contextOf w = c
        resolutions := (k.world.linkage.counters c).resolutions +
          ((deeds ts).filterMap Deed.settles?).countP fun w => m.world.linkage.contextOf w = c
        redirects := (k.world.linkage.counters c).redirects +
          ((deeds ts).filterMap Deed.redirects?).countP fun w => m.world.linkage.contextOf w = c } := by
  induction r with
  | nil => rfl
  | @cons k m t ts start rest ih =>
    subst start
    have same : ∀ {kind : Deed → Option WatchpointId}, (∀ {d w}, kind d = some w → d.counts = some w) →
        (t.deed?.bind kind).toList.countP (fun w => t.after.world.linkage.contextOf w = c) =
          (t.deed?.bind kind).toList.countP fun w => m.world.linkage.contextOf w = c := by
      intro kind counts
      refine List.countP_congr fun w hw => ?_
      obtain ⟨d, hd, hkind⟩ := Option.bind_eq_some_iff.mp (Option.mem_toList.mp hw)
      obtain ⟨x, hx⟩ := Transition.known_of_counts h hd (counts hkind)
      rw [rest.contextOf_eq (Transition.linked h) hx]
    rw [ih (Transition.linked h), Transition.counters_after h, same Deed.counts_of_makes?,
      same Deed.counts_of_settles?, same Deed.counts_of_redirects?]
    simp only [filterMap_deeds_cons, List.countP_append, Nat.add_assoc]

/-- All contexts together have counted one redirect for each jump that has been installed. -/
theorem redirects_eq (r : Run k ts m) (h : k.Linked) :
    m.world.linkage.redirects =
      k.world.linkage.redirects + ((deeds ts).filterMap Deed.redirects?).length := by
  induction r with
  | nil => rfl
  | @cons k m t ts start rest ih =>
    subst start
    obtain ⟨hlinkage, hallows⟩ := Transition.linkage_after h
    rw [ih (Transition.linked h), filterMap_deeds_cons, List.length_append, ← Nat.add_assoc, hlinkage]
    cases hd : t.deed? with
    | none => rfl
    | some d => exact congrArg (· + _) (Linkage.redirects_after h.lawful (hallows d hd))

end Run

end Invalidation
