import Invalidation.Proofs.Run.Linked

/-! Where addresses come from. A call that resolves a watchpoint asks its link buffer twice, and
    whatever is called from inside the answers goes on above it. It keeps what it needs to itself:
    the labels that it has read at the beginning, and the first address while it waits for the second.

        resolve w ──▶ source label? ── … ──▶ destination label? ── … ──▶ both addresses at once
                          └── calls from inside, also ones that resolve w ──┘

    So a watchpoint never has an address of one call beside an address of another, or beside a
    label, and every jump that is installed is one that some call has found and held to the rules. -/

namespace Invalidation

/-- The labels that a watchpoint is made with by a transition. -/
def Transition.labels? (w : WatchpointId) (t : Transition) : Option (Label × Label) :=
  match t.action with
  | .call (.create v _ s d) | .call (.createAlone v _ s d) => if v = w then some (s, d) else none
  | _ => none

/-- The labels that a watchpoint has been made with. -/
def made? (w : WatchpointId) (ts : List Transition) : Option (Label × Label) :=
  ts.findSome? (Transition.labels? w)

/-- At the end of these transitions a call that resolves a watchpoint is in progress above the calls
    `below`: it waits for the address of the source label, or for that of the destination label. -/
inductive Resolving (w : WatchpointId) (sourceLabel destinationLabel : Label) (below : List Waiting) :
    List Transition → Option Address → Prop where
  /-- It begins, and asks for the source label. -/
  | asked {ts : List Transition} {t : Transition} (action : t.action = .call (.resolve w))
      (beneath : t.move.below = below)
      (asks : t.move.turn.next =
        .waiting (.locate sourceLabel) (.locate ⟨w, sourceLabel, destinationLabel, none⟩)) :
      Resolving w sourceLabel destinationLabel below (ts ++ [t]) none
  /-- It gets the address of the source label, and asks for the destination label. -/
  | found {ts : List Transition} {t : Transition} {loan : Loan} {a : Address}
      (resolving : Resolving w sourceLabel destinationLabel below ts none)
      (top : t.before.stack = ⟨.locate ⟨w, sourceLabel, destinationLabel, none⟩, loan⟩ :: below)
      (answer : t.action = .located (.ok a))
      (asks : t.move.turn.next =
        .waiting (.locate destinationLabel) (.locate ⟨w, sourceLabel, destinationLabel, some a⟩)) :
      Resolving w sourceLabel destinationLabel below (ts ++ [t]) (some a)
  /-- It goes on waiting beneath what is called from inside. -/
  | inside {ts : List Transition} {t : Transition} {loan : Loan} {source : Option Address}
      (resolving : Resolving w sourceLabel destinationLabel below ts source)
      (beneath : ⟨.locate ⟨w, sourceLabel, destinationLabel, source⟩, loan⟩ :: below <:+ t.move.below) :
      Resolving w sourceLabel destinationLabel below (ts ++ [t]) source

/-- One call among these transitions has resolved a watchpoint: the link buffer has answered it with
    these addresses for these labels, and it has returned. -/
inductive Resolution (w : WatchpointId) (sourceLabel destinationLabel : Label)
    (source destination : Address) : List Transition → Prop where
  | returned {past rest : List Transition} {t : Transition} {below : List Waiting} {loan : Loan}
      (resolving : Resolving w sourceLabel destinationLabel below past (some source))
      (top : t.before.stack =
        ⟨.locate ⟨w, sourceLabel, destinationLabel, some source⟩, loan⟩ :: below)
      (answer : t.action = .located (.ok destination)) (returns : t.move.turn.next = .returned) :
      Resolution w sourceLabel destinationLabel source destination (past ++ t :: rest)

/-- The jump keeps the rules that jumps are held to; its length is that of the exact difference. -/
structure Jump.Legal (rules : Linking) (j : Jump) : Prop where
  positive : 1 ≤ rules.maxJumpDistance.toNat
  short : ((j.source.toNat : Int) - j.destination.toNat).natAbs ≤ rules.maxJumpDistance.toNat
  proper : rules.rejectSelfLoops = true → j.source ≠ j.destination

/-- Every address of a watchpoint, and every jump, comes from one call that resolved the watchpoint. -/
structure OnlyLegalJumps (ts : List Transition) (m : Moment) : Prop where
  /-- A watchpoint has both its labels, or both addresses that one call has found for them. -/
  whole : ∀ w v, m.world.watchpoints.get? w = some v → ∃ s d, made? w ts = some (s, d) ∧
    (v.source = .label s ∧ v.destination = .label d ∨
      ∃ a b, v.source = .address a ∧ v.destination = .address b ∧ Resolution w s d a b ts)
  /-- A jump is between addresses that one call has found, and keeps the rules of its context. -/
  legal : ∀ past t rest, ts = past ++ t :: rest → ∀ j, t.jump? = some j →
    (∃ s d, made? j.watchpoint past = some (s, d) ∧
      Resolution j.watchpoint s d j.source j.destination past) ∧
      j.Legal (t.after.world.contextOf j.watchpoint).settings.linking

variable {w : WatchpointId} {s d : Label} {a b : Address} {t : Transition} {ts us : List Transition}
  {below : List Waiting} {m : Moment}

/-! ### The labels of a watchpoint -/

theorem made?_append (w : WatchpointId) (ts us : List Transition) :
    made? w (ts ++ us) = (made? w ts).or (made? w us) := List.findSome?_append

theorem made?_append_of_some {x : Label × Label} (h : made? w ts = some x) (us : List Transition) :
    made? w (ts ++ us) = some x := by
  rw [made?_append, h, Option.some_or]

theorem made?_concat (w : WatchpointId) (ts : List Transition) (t : Transition) :
    made? w (ts ++ [t]) = (made? w ts).or (t.labels? w) := by
  rw [made?_append]
  exact congrArg _ List.findSome?_singleton

namespace Transition

/-- A transition that makes a watchpoint does the deed of making it with its labels. -/
theorem labels?_eq_some_iff : t.labels? w = some (s, d) ↔
    (∃ r, t.deed? = some (.makes w r s d)) ∨ ∃ p, t.deed? = some (.makesAlone w p s d) := by
  obtain ⟨m, a, v, possible⟩ := t
  cases Moment.moves_of_move? possible with
  | @call c permitted =>
    cases c with
    | create | createAlone => simp [labels?, deed?, Call.deed?]
    | openRuntime r p settings =>
      refine iff_of_false (by simp [labels?]) fun h => ?_
      simp only [deed?, Call.deed?] at h
      split at h <;> simp at h
    | _ => simp [labels?, deed?, Call.deed?]
  | @patched p loan below top => simp [labels?, deed?, top]
  | @located l loan below answer top =>
    refine iff_of_false (by simp [labels?]) fun h => ?_
    simp only [deed?, top] at h
    split at h
    · next he => cases he
    · next he => cases he
    · split at h <;> simp at h
    · simp at h
  | failed message top => simp [labels?, deed?]

theorem sites_none (h : t.before.Linked) (hn : t.after.world.linkage.sites w = none) :
    t.before.world.linkage.sites w = none ∧ t.labels? w = none := by
  obtain ⟨hlinkage, hallows⟩ := linkage_after h
  have counted : ∀ {e : Deed}, t.deed? = some e → e.counts ≠ some w := by
    intro e he hw
    rw [he, Option.elim_some] at hlinkage
    obtain ⟨x, hx⟩ := Linkage.known_of_counts (hallows e he) hw
    cases (hlinkage ▸ hn).symm.trans hx
  constructor
  · cases hx : t.before.world.linkage.sites w with
    | none => rfl
    | some x =>
      obtain ⟨y, hy, -⟩ := context_of_site h hx
      cases hn.symm.trans hy
  · cases hl : t.labels? w with
    | none => rfl
    | some x =>
      rcases labels?_eq_some_iff.mp hl with ⟨r, he⟩ | ⟨p, he⟩
      · exact absurd rfl (counted he)
      · exact absurd rfl (counted he)

/-- Whoever is there after a transition has been made by it, or gets both addresses by it, or was
    there as it is now. -/
theorem site_cases (h : t.before.Linked) {x : Site} (hx : t.after.world.linkage.sites w = some x) :
    (t.before.world.linkage.sites w = none ∧
        ∃ s d, t.labels? w = some (s, d) ∧ x.source = .label s ∧ x.destination = .label d) ∨
      (∃ a b, t.deed? = some (.settles w a b) ∧ x.source = .address a ∧ x.destination = .address b) ∨
      t.before.world.linkage.sites w = some x := by
  obtain ⟨hlinkage, hallows⟩ := linkage_after h
  rw [hlinkage] at hx
  cases hd : t.deed? with
  | none =>
    rw [hd] at hx
    exact Or.inr (Or.inr hx)
  | some e =>
    rw [hd, Option.elim_some] at hx
    cases hy : t.before.world.linkage.sites w with
    | none =>
      refine Or.inl ⟨rfl, ?_⟩
      rcases Linkage.sites_before hx with ⟨y, hy'⟩ | ⟨r, s, d, rfl, rfl⟩ | ⟨p, s, d, rfl, rfl⟩
      · cases hy.symm.trans hy'
      · exact ⟨s, d, labels?_eq_some_iff.mpr (Or.inl ⟨r, hd⟩), rfl, rfl⟩
      · exact ⟨s, d, labels?_eq_some_iff.mpr (Or.inr ⟨p, hd⟩), rfl, rfl⟩
    | some y =>
      rcases Linkage.sites_after (hallows e hd) hy with ⟨-, hy'⟩ | ⟨a, b, rfl, hy'⟩
      · exact Or.inr (Or.inr (hy'.symm.trans hx))
      · obtain rfl := Option.some.inj (hy'.symm.trans hx)
        exact Or.inr (Or.inl ⟨a, b, rfl, rfl, rfl⟩)

/-! ### Calls that wait -/

/-- What goes on waiting through a transition was waiting before. -/
theorem below_suffix (t : Transition) : t.move.below <:+ t.before.stack := by
  obtain ⟨m, a, v, possible⟩ := t
  cases Moment.moves_of_move? possible with
  | call => exact List.suffix_rfl
  | patched top | located _ top | failed _ top => exact top ▸ List.suffix_cons _ _

/-- A call that waits afterwards went on waiting, or has just come to wait above all others. -/
theorem suffix_cases {x : Waiting} (h : x :: below <:+ t.after.stack) :
    x :: below <:+ t.move.below ∨ t.move.below = below ∧
    ∃ r, t.move.turn.next = .waiting r x.pending := by
  simp only [after, Move.after] at h
  split at h
  · next r pending hn =>
    rcases List.suffix_cons_iff.mp h with heq | h
    · obtain ⟨rfl, rfl⟩ := List.cons.inj heq
      exact Or.inr ⟨rfl, r, hn⟩
    · exact Or.inl h
  · exact Or.inl h

end Transition

theorem Resolution.append (h : Resolution w s d a b ts) (us : List Transition) :
    Resolution w s d a b (ts ++ us) := by
  obtain ⟨resolving, top, answer, returns⟩ := h
  rw [List.append_assoc]
  exact .returned resolving top answer returns

/-- A transition after which a call waits has not completed another. -/
theorem Resolution.of_concat (h : Resolution w s d a b (ts ++ [t]))
    (going : t.move.turn.next ≠ .returned) : Resolution w s d a b ts := by
  generalize hus : ts ++ [t] = us at h
  obtain @⟨past, rest, t', below, loan, resolving, top, answer, returns⟩ := h
  rcases List.eq_nil_or_concat rest with rfl | ⟨rest, t'', rfl⟩
  · obtain ⟨-, ht⟩ := List.append_inj' hus rfl
    obtain rfl := (List.cons.inj ht).1
    exact absurd returns going
  · rw [List.concat_eq_append, ← List.cons_append, ← List.append_assoc] at hus
    obtain ⟨rfl, -⟩ := List.append_inj' hus rfl
    exact .returned resolving top answer returns

/-! ### Every address is accounted for -/

/-- All that a moment knows of labels and addresses is accounted for by what has led there. -/
structure Moment.Accounted (ts : List Transition) (m : Moment) : Prop where
  linked : m.Linked
  unmade : ∀ w, m.world.linkage.sites w = none → made? w ts = none
  sites : ∀ w x, m.world.linkage.sites w = some x → ∃ s d, made? w ts = some (s, d) ∧
    (x.source = .label s ∧ x.destination = .label d ∨
      ∃ a b, x.source = .address a ∧ x.destination = .address b ∧ Resolution w s d a b ts)
  resolving : ∀ l loan below, ⟨.locate l, loan⟩ :: below <:+ m.stack →
    made? l.watchpoint ts = some (l.sourceLabel, l.destinationLabel) ∧
      Resolving l.watchpoint l.sourceLabel l.destinationLabel below ts l.source

theorem Moment.accounted_empty : Moment.Accounted [] {} where
  linked := linked_empty
  unmade _ _ := rfl
  sites _ _ h := by cases h
  resolving l loan below h := by
    rw [List.suffix_nil] at h
    cases h

namespace Transition

/-- A call that comes to look a label up does so for the labels that its watchpoint was made with. -/
theorem resolving_of_asks {r : Request} {l : Locating} (h : t.before.Accounted ts)
    (hn : t.move.turn.next = .waiting r (.locate l)) :
    made? l.watchpoint ts = some (l.sourceLabel, l.destinationLabel) ∧
      Resolving l.watchpoint l.sourceLabel l.destinationLabel t.move.below (ts ++ [t]) l.source := by
  rcases locating_cases hn with ⟨s, d, action, permitted, labels, -, rfl, hl⟩ |
    ⟨a, loan, action, top, rfl, hsource⟩
  · have hsite := World.sites_linkage_of_held (Bool.and_eq_true_iff.mp permitted).1
    obtain ⟨s', d', hmade, ⟨hs, hd⟩ | ⟨a, b, ha, -⟩⟩ := h.sites _ _ hsite
    · simp only [Watchpoint.site] at hs hd
      simp only [Watchpoint.labels?, hs, hd, Option.some.injEq, Prod.mk.injEq] at labels
      obtain ⟨rfl, rfl⟩ := labels
      rw [hl] at hn ⊢
      exact ⟨hmade, .asked action rfl hn⟩
    · simp only [Watchpoint.site] at ha
      simp [Watchpoint.labels?, ha] at labels
  · obtain ⟨hmade, hres⟩ := h.resolving { l with source := none } loan _ ⟨[], top.symm⟩
    refine ⟨hmade, ?_⟩
    obtain ⟨w, s, d, source⟩ := l
    obtain rfl : source = some a := hsource
    exact .found hres top action hn

theorem accounted (h : t.before.Accounted ts) : t.after.Accounted (ts ++ [t]) where
  linked := linked h.linked
  unmade w hn := by
    obtain ⟨hbefore, hl⟩ := sites_none h.linked hn
    rw [made?_concat, h.unmade w hbefore, hl, Option.none_or]
  sites w x hx := by
    rcases site_cases h.linked hx with ⟨hn, s, d, hl, hs, hd⟩ | ⟨a, b, hdeed, ha, hb⟩ | hsame
    · exact ⟨s, d, by rw [made?_concat, h.unmade w hn, hl, Option.none_or], Or.inl ⟨hs, hd⟩⟩
    · obtain ⟨action, returns, s, d, loan, top⟩ := settles_iff.mp hdeed
      obtain ⟨hmade, hres⟩ := h.resolving ⟨w, s, d, some a⟩ loan _ ⟨[], top.symm⟩
      exact ⟨s, d, made?_append_of_some hmade _,
        Or.inr ⟨a, b, ha, hb, .returned hres top action returns⟩⟩
    · obtain ⟨s, d, hmade, hlabels | ⟨a, b, ha, hb, hres⟩⟩ := h.sites w x hsame
      · exact ⟨s, d, made?_append_of_some hmade _, Or.inl hlabels⟩
      · exact ⟨s, d, made?_append_of_some hmade _, Or.inr ⟨a, b, ha, hb, hres.append _⟩⟩
  resolving l loan below hx := by
    rcases suffix_cases hx with hx | ⟨rfl, r, hn⟩
    · obtain ⟨hmade, hres⟩ := h.resolving l loan below (hx.trans t.below_suffix)
      exact ⟨made?_append_of_some hmade _, .inside hres hx⟩
    · obtain ⟨hmade, hres⟩ := resolving_of_asks h hn
      exact ⟨made?_append_of_some hmade _, hres⟩

end Transition

/-! ### Jumps -/

/-- The check that a jump is held to is what the rules say, without any wraparound. -/
theorem Linking.legal_of_checkJump {rules : Linking} {j : Jump} (valid : rules.maxJumpDistance ≠ 0)
    (h : rules.checkJump j.source j.destination = .ok ()) : j.Legal rules := by
  unfold checkJump at h
  split at h
  · cases h
  · next hself =>
    split at h
    · cases h
    · next hfar =>
      refine ⟨Nat.one_le_iff_ne_zero.mpr fun hz => valid (UInt64.toNat_inj.mp hz), ?_, ?_⟩
      · rw [Address.distance] at hfar
        omega
      · intro hr he
        exact hself (by simp [hr, he])

namespace Transition

/-- A transition that asks for a jump makes no watchpoint, and no call returns by it. -/
theorem quiet_of_jump {j : Jump} (h : t.jump? = some j) :
    t.labels? w = none ∧ t.move.turn.next ≠ .returned := by
  refine ⟨?_, fun hn => by simp [jump?, hn] at h⟩
  obtain ⟨m, a, v, possible⟩ := t
  cases Moment.moves_of_move? possible with
  | @call c permitted =>
    cases c with
    | create | createAlone => cases h
    | _ => rfl
  | patched | located | failed => rfl

theorem legal_of_jump (h : t.before.Accounted ts) {j : Jump} (hj : t.jump? = some j) :
    (∃ s d, made? j.watchpoint ts = some (s, d) ∧
      Resolution j.watchpoint s d j.source j.destination ts) ∧
      j.Legal (t.after.world.contextOf j.watchpoint).settings.linking := by
  have after := accounted h
  obtain ⟨hl, hreturned⟩ := quiet_of_jump (w := j.watchpoint) hj
  obtain ⟨haddresses, -⟩ := own_jump h.linked.sound hj
  obtain ⟨x, hx⟩ := World.known_of_addresses haddresses
  obtain ⟨hs, hd⟩ : x.source = .address j.source ∧ x.destination = .address j.destination := by
    rw [World.site_eq hx, Watchpoint.site]
    unfold Watchpoint.addresses? at haddresses
    split at haddresses
    · next hs hd =>
      obtain ⟨rfl, rfl⟩ := Prod.mk.inj (Option.some.inj haddresses)
      exact ⟨hs, hd⟩
    · cases haddresses
  constructor
  · obtain ⟨s, d, hmade, ⟨hlabel, -⟩ | ⟨a, b, ha, hb, hres⟩⟩ := after.sites _ x hx
    · cases hs.symm.trans hlabel
    · obtain rfl := Location.address.inj (hs.symm.trans ha)
      obtain rfl := Location.address.inj (hd.symm.trans hb)
      rw [made?_concat, hl, Option.or_none] at hmade
      exact ⟨s, d, hmade, hres.of_concat hreturned⟩
  · rw [← World.rules_of_site hx]
    rcases after.linked.lawful.whole _ x hx with ⟨s, d, hlabel, -⟩ | ⟨a, b, ha, hb, hcheck⟩
    · cases hs.symm.trans hlabel
    · obtain rfl := Location.address.inj (hs.symm.trans ha)
      obtain rfl := Location.address.inj (hd.symm.trans hb)
      obtain ⟨c, hc⟩ := after.linked.lawful.opened _ x hx
      refine Linking.legal_of_checkJump ?_ hcheck
      rw [Linkage.rules, hc, Option.getD_some]
      exact after.linked.lawful.valid _ c hc

end Transition

namespace Run

/-- From one accounted moment to another. -/
theorem accounted {k : Moment} (r : Run k us m) (h : k.Accounted ts) : m.Accounted (ts ++ us) := by
  induction r generalizing ts with
  | nil => exact (List.append_nil ts).symm ▸ h
  | @cons k m t us start rest ih =>
    subst start
    rw [List.append_cons]
    exact ih (Transition.accounted h)

/-- Along every run, whoever answers and whatever is called from inside the answers, only legal
    jumps are installed. -/
theorem only_legal_jumps (run : Run {} ts m) : OnlyLegalJumps ts m where
  whole w v hv := by
    have hx : m.world.linkage.sites w = some v.site := by
      rw [World.sites_linkage, hv, Option.map_some]
    exact (run.accounted Moment.accounted_empty).sites w v.site hx
  legal past t rest hts j hj := by
    subst hts
    obtain ⟨k, r, r'⟩ := run.split
    cases r' with
    | cons start _ => exact Transition.legal_of_jump (start ▸ r.accounted Moment.accounted_empty) hj

end Run

/-- While a link buffer looks up the source label of a watchpoint, it resolves the same watchpoint,
    fires it, and fails to look up a label of another; then it answers with other addresses. -/
def resolvedInsideItself : List Action :=
  [.call (.openRuntime 0 (.scripted "p") { linking := { maxJumpDistance := 100 } }),
    .call (.create 1 0 ⟨16⟩ ⟨96⟩), .call (.create 2 0 ⟨32⟩ ⟨112⟩), .call (.resolve 1),
      .call (.resolve 1),
    .located (.ok ⟨5000⟩), .located (.ok ⟨5080⟩), .call (.fire 1), .patched, .call (.resolve 2),
    .failed "no such code", .located (.ok ⟨4112⟩), .located (.ok ⟨4192⟩), .call (.fire 1), .patched]

theorem only_legal_jumps_resolvedInsideItself :
    ∃ ts m, Run {} ts m ∧ OnlyLegalJumps ts m ∧
      ts.filterMap Transition.jump? =
      [⟨1, .scripted "p", ⟨5000⟩, ⟨5080⟩⟩, ⟨1, .scripted "p", ⟨4112⟩, ⟨4192⟩⟩] ∧
      (m.world.watchpoints.get? 2).bind Watchpoint.labels? = some (⟨32⟩, ⟨112⟩) :=
  have run := Moment.run_play {} resolvedInsideItself
  ⟨_, _, run, run.only_legal_jumps, by decide, by decide⟩

end Invalidation
