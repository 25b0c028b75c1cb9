import Invalidation.Proofs.World.Held
import Mathlib.Algebra.GroupWithZero.Nat

/-! What linking is about: where the two ends of each jump are, the rules that the jump is held to, and
    what has been counted. A *linkage* is a world reduced to that. Little of what the library does
    can be seen in it, and what can is called a *deed*:

        open a runtime ──▶ opens            both addresses found and allowed ──▶ settles
        make a watchpoint ──▶ makes         the jump is installed ──▶ redirects

    Each deed has a condition under which the library does it. From these follow the laws of a linkage:
    a watchpoint has two labels or two addresses and never one of each, and the jump between its
    addresses keeps the rules of its context, which were fixed when the context was opened. -/

namespace Invalidation

/-- The two ends of the jump of a watchpoint, and the context that it belongs to. -/
structure Site where
  source : Location
  destination : Location
  context : ContextId
  deriving DecidableEq

/-- What a watchpoint has to do with linking. -/
def Watchpoint.site (v : Watchpoint) : Site := ⟨v.source, v.destination, v.context⟩

/-- A world as far as linking goes. -/
structure Linkage where
  contexts : Store ContextId Context
  sites : WatchpointId → Option Site

/-- What can be seen of a turn in a linkage. -/
inductive Deed where
  /-- A runtime is opened. -/
  | opens (runtime : RuntimeId) (patcher : PatcherId) (settings : Settings)
  /-- A watchpoint is made in a runtime. -/
  | makes (watchpoint : WatchpointId) (runtime : RuntimeId) (source destination : Label)
  /-- A watchpoint is made that has a context for itself. -/
  | makesAlone (watchpoint : WatchpointId) (patcher : PatcherId) (source destination : Label)
  /-- A watchpoint gets its addresses. -/
  | settles (watchpoint : WatchpointId) (source destination : Address)
  /-- The jump of a watchpoint is installed. -/
  | redirects (watchpoint : WatchpointId)
  deriving DecidableEq

namespace Deed

/-- The watchpoint that the deed is counted for. -/
def counts : Deed → Option WatchpointId
  | .opens _ _ _ => none
  | .makes w _ _ _ | .makesAlone w _ _ _ | .settles w _ _ | .redirects w => some w

/-- The watchpoint that is made. -/
def makes? : Deed → Option WatchpointId
  | .makes w _ _ _ | .makesAlone w _ _ _ => some w
  | _ => none

/-- The watchpoint that gets its addresses. -/
def settles? : Deed → Option WatchpointId
  | .settles w _ _ => some w
  | _ => none

/-- The watchpoint whose jump is installed. -/
def redirects? : Deed → Option WatchpointId
  | .redirects w => some w
  | _ => none

/-- What the deed adds to the counters of the context of its watchpoint. -/
def counting : Deed → Counters → Counters
  | .opens _ _ _, n => n
  | .makes _ _ _ _, n | .makesAlone _ _ _ _, n => { n with created := n.created + 1 }
  | .settles _ _ _, n => { n with resolutions := n.resolutions + 1 }
  | .redirects _, n => { n with redirects := n.redirects + 1 }

theorem counts_of_makes? {d : Deed} {w : WatchpointId} (h : d.makes? = some w) : d.counts = some w := by
  cases d with
  | makes | makesAlone => exact h
  | opens | settles | redirects => cases h

theorem counts_of_settles? {d : Deed} {w : WatchpointId} (h : d.settles? = some w) :
    d.counts = some w := by
  cases d with
  | settles => exact h
  | opens | makes | makesAlone | redirects => cases h

theorem counts_of_redirects? {d : Deed} {w : WatchpointId} (h : d.redirects? = some w) :
    d.counts = some w := by
  cases d with
  | redirects => exact h
  | opens | makes | makesAlone | settles => cases h

end Deed

namespace Linkage

/-- The context of a watchpoint. -/
def contextOf (l : Linkage) (w : WatchpointId) : ContextId :=
  ((l.sites w).map Site.context).getD default

/-- The rules that the jumps of a context are held to. -/
def rules (l : Linkage) (c : ContextId) : Linking := ((l.contexts.get? c).getD default).settings.linking

/-- The redirects of all contexts together. -/
def redirects (l : Linkage) : Nat := (l.contexts.values.map fun c => c.counters.redirects).sum

/-- What has been counted in a context. -/
def counters (l : Linkage) (c : ContextId) : Counters := ((l.contexts.get? c).getD default).counters

/-- Changes the counters of the context of a watchpoint. -/
def count (l : Linkage) (w : WatchpointId) (f : Counters → Counters) : Linkage :=
  { l with contexts := l.contexts.modify (l.contextOf w) fun c => { c with counters := f c.counters } }

/-- Changes the site of a watchpoint. -/
def place (l : Linkage) (w : WatchpointId) (x : Option Site) : Linkage :=
  { l with sites := fun v => if v = w then x else l.sites v }

/-- Adds a context in which nothing has been counted. -/
def enter (l : Linkage) (c : ContextId) (p : PatcherId) (settings : Settings) : Linkage :=
  { l with contexts := l.contexts.put c { patcher := p, settings := settings } }

/-- What a deed does to a linkage. -/
def after (l : Linkage) (d : Deed) : Linkage :=
  match d with
  | .opens r p settings => l.enter (.ofRuntime r) p settings
  | .makes w r s t => (l.place w (some ⟨.label s, .label t, .ofRuntime r⟩)).count w d.counting
  | .makesAlone w p s t =>
    ((l.enter (.ofWatchpoint w) p {}).place w (some ⟨.label s, .label t, .ofWatchpoint w⟩)).count w
      d.counting
  | .settles w s t =>
    (l.place w ((l.sites w).map fun x => ⟨.address s, .address t, x.context⟩)).count w d.counting
  | .redirects w => l.count w d.counting

/-- The condition under which the library does a deed. -/
def Allows (l : Linkage) : Deed → Prop
  | .opens r _ settings => l.contexts.get? (.ofRuntime r) = none ∧ settings.linking.maxJumpDistance ≠ 0
  | .makes w r _ _ => l.sites w = none ∧ ∃ x, l.contexts.get? (.ofRuntime r) = some x
  | .makesAlone w _ _ _ => l.sites w = none ∧ l.contexts.get? (.ofWatchpoint w) = none
  | .settles w s t => ∃ x, l.sites w = some x ∧ (l.rules x.context).checkJump s t = .ok ()
  | .redirects w => ∃ x, l.sites w = some x

/-- What is true of every linkage that deeds lead to. -/
structure Lawful (l : Linkage) : Prop where
  /-- The context of a watchpoint has been opened. -/
  opened : ∀ w x, l.sites w = some x → ∃ c, l.contexts.get? x.context = some c
  /-- The rules of a context allow some jump. -/
  valid : ∀ c x, l.contexts.get? c = some x → x.settings.linking.maxJumpDistance ≠ 0
  /-- Both ends are labels, or both are addresses and the jump between them keeps the rules. -/
  whole : ∀ w x, l.sites w = some x → (∃ s t, x.source = .label s ∧ x.destination = .label t) ∨
    ∃ s t, x.source = .address s ∧ x.destination = .address t ∧
      (l.rules x.context).checkJump s t = .ok ()

variable {l : Linkage} {d : Deed} {c : ContextId} {v w : WatchpointId} {x : Site}

/-! ### Sites -/

/-- A watchpoint that is there keeps its site, but for the addresses that it gets. -/
theorem sites_after (h : l.Allows d) (hx : l.sites v = some x) :
    (∀ s t, d ≠ .settles v s t) ∧ (l.after d).sites v = some x ∨
      ∃ s t, d = .settles v s t ∧ (l.after d).sites v = some ⟨.address s, .address t, x.context⟩ := by
  cases d with
  | opens | redirects => exact Or.inl ⟨fun _ _ => Deed.noConfusion, hx⟩
  | makes w _ s t | makesAlone w _ s t =>
    have hne : v ≠ w := by
      rintro rfl
      cases hx.symm.trans h.1
    exact Or.inl ⟨fun _ _ => Deed.noConfusion, (if_neg hne).trans hx⟩
  | settles w s t =>
    by_cases hv : v = w
    · subst hv
      refine Or.inr ⟨s, t, rfl, (if_pos rfl).trans ?_⟩
      rw [hx, Option.map_some]
    · exact Or.inl ⟨fun _ _ he => hv (Deed.settles.inj he).1.symm, (if_neg hv).trans hx⟩

/-- A watchpoint that is there stays there, in its context. -/
theorem context_of_site (h : l.Allows d) (hx : l.sites v = some x) :
    ∃ y, (l.after d).sites v = some y ∧ y.context = x.context := by
  rcases sites_after h hx with ⟨-, hy⟩ | ⟨s, t, -, hy⟩
  · exact ⟨x, hy, rfl⟩
  · exact ⟨_, hy, rfl⟩

/-- Who is there after a deed was there before, or has been made by it. -/
theorem sites_before (hx : (l.after d).sites v = some x) :
    (∃ y, l.sites v = some y) ∨ (∃ r s t, d = .makes v r s t ∧ x = ⟨.label s, .label t, .ofRuntime r⟩) ∨
      ∃ p s t, d = .makesAlone v p s t ∧ x = ⟨.label s, .label t, .ofWatchpoint v⟩ := by
  cases d with
  | opens | redirects => exact Or.inl ⟨x, hx⟩
  | makes w r s t =>
    by_cases hv : v = w
    · subst hv
      exact Or.inr (Or.inl ⟨r, s, t, rfl, (Option.some.inj ((if_pos rfl).symm.trans hx)).symm⟩)
    · exact Or.inl ⟨x, (if_neg hv).symm.trans hx⟩
  | makesAlone w p s t =>
    by_cases hv : v = w
    · subst hv
      exact Or.inr (Or.inr ⟨p, s, t, rfl, (Option.some.inj ((if_pos rfl).symm.trans hx)).symm⟩)
    · exact Or.inl ⟨x, (if_neg hv).symm.trans hx⟩
  | settles w s t =>
    by_cases hv : v = w
    · subst hv
      obtain ⟨y, hy, -⟩ := Option.map_eq_some_iff.mp ((if_pos rfl).symm.trans hx)
      exact Or.inl ⟨y, hy⟩
    · exact Or.inl ⟨x, (if_neg hv).symm.trans hx⟩

/-! ### Contexts -/

theorem context_count (w : WatchpointId) (f : Counters → Counters) :
    (l.count w f).contexts.get? c = (l.contexts.get? c).map fun x =>
      if l.contextOf w = c then { x with counters := f x.counters } else x := by
  rw [count, Store.get?_modify]
  split
  · rfl
  · rw [Option.map_id']

/-- A context keeps its patcher and its settings. -/
theorem context_kept (h : l.Allows d) {x : Context} (hx : l.contexts.get? c = some x) :
    ∃ y, (l.after d).contexts.get? c = some y ∧ y.patcher = x.patcher ∧ y.settings = x.settings := by
  have counted : ∀ {l' : Linkage} (w : WatchpointId) (f : Counters → Counters),
      l'.contexts.get? c = some x →
      ∃ y, (l'.count w f).contexts.get? c = some y ∧ y.patcher = x.patcher ∧
        y.settings = x.settings := by
    intro l' w f hl
    rw [context_count, hl, Option.map_some]
    refine ⟨_, rfl, ?_⟩
    split <;> exact ⟨rfl, rfl⟩
  cases d with
  | opens r p settings =>
    have hne : ContextId.ofRuntime r ≠ c := by
      rintro rfl
      cases hx.symm.trans h.1
    exact ⟨x, by rw [after, enter, Store.get?_put, if_neg hne, hx], rfl, rfl⟩
  | makesAlone w p s t =>
    have hne : ContextId.ofWatchpoint w ≠ c := by
      rintro rfl
      cases hx.symm.trans h.2
    refine counted w _ ?_
    rw [place, enter, Store.get?_put, if_neg hne, hx]
  | makes w | settles w | redirects w => exact counted w _ hx

theorem rules_kept (h : l.Allows d) {x : Context} (hx : l.contexts.get? c = some x) :
    (l.after d).rules c = l.rules c := by
  obtain ⟨y, hy, -, hs⟩ := context_kept h hx
  rw [rules, rules, hx, hy, Option.getD_some, Option.getD_some, hs]

/-- A context that is there after a deed was there before with the same settings, or is new and
    valid. -/
theorem context_before (h : l.Allows d) {x : Context} (hx : (l.after d).contexts.get? c = some x) :
    (∃ y, l.contexts.get? c = some y) ∨ x.settings.linking.maxJumpDistance ≠ 0 := by
  have counted : ∀ {l' : Linkage} {w : WatchpointId} {f : Counters → Counters},
      (l'.count w f).contexts.get? c = some x →
      ∃ y, l'.contexts.get? c = some y ∧ x.settings = y.settings := by
    intro l' w f hl
    rw [context_count] at hl
    obtain ⟨y, hy, rfl⟩ := Option.map_eq_some_iff.mp hl
    refine ⟨y, hy, ?_⟩
    split <;> rfl
  cases d with
  | opens r p settings =>
    rw [after, enter, Store.get?_put] at hx
    split at hx
    · exact Or.inr (Option.some.inj hx ▸ h.2)
    · exact Or.inl ⟨x, hx⟩
  | makesAlone w p s t =>
    obtain ⟨y, hy, hs⟩ := counted hx
    rw [place, enter, Store.get?_put] at hy
    split at hy
    · rw [hs, ← Option.some.inj hy]
      exact Or.inr (by decide : ({} : Settings).linking.maxJumpDistance ≠ 0)
    · exact Or.inl ⟨y, hy⟩
  | makes | settles | redirects =>
    obtain ⟨y, hy, -⟩ := counted hx
    exact Or.inl ⟨y, hy⟩

/-! ### The laws of a linkage -/

theorem lawful_empty : Lawful ⟨{}, fun _ => none⟩ where
  opened _ _ h := by cases h
  valid _ _ h := by cases h
  whole _ _ h := by cases h

/-- Whoever a deed is counted for is there from then on. -/
theorem known_of_counts (h : l.Allows d) (hw : d.counts = some w) :
    ∃ x, (l.after d).sites w = some x := by
  cases d with
  | opens => cases hw
  | makes v | makesAlone v =>
    obtain rfl := Option.some.inj hw
    exact ⟨_, if_pos rfl⟩
  | settles v s t =>
    obtain rfl := Option.some.inj hw
    obtain ⟨x, hx, hcheck⟩ := h
    obtain ⟨y, hy, -⟩ := context_of_site (d := .settles v s t) ⟨x, hx, hcheck⟩ hx
    exact ⟨y, hy⟩
  | redirects v =>
    obtain rfl := Option.some.inj hw
    exact h

/-- What has just been made is in a context that has been opened. -/
theorem opened_of_made (h : l.Allows d) (hx : (l.after d).sites v = some x) (new : l.sites v = none) :
    ∃ c, (l.after d).contexts.get? x.context = some c := by
  rcases sites_before hx with ⟨y, hy⟩ | ⟨r, s, t, rfl, rfl⟩ | ⟨p, s, t, rfl, rfl⟩
  · cases new.symm.trans hy
  · obtain ⟨y, hy⟩ := h.2
    obtain ⟨z, hz, -⟩ := context_kept h hy
    exact ⟨z, hz⟩
  · simp [after, context_count, enter, place]

theorem Lawful.after (h : l.Lawful) (allowed : l.Allows d) : (l.after d).Lawful where
  opened w y hy := by
    cases hx : l.sites w with
    | none => exact opened_of_made allowed hy hx
    | some x =>
      obtain ⟨z, hz, hc⟩ := context_of_site allowed hx
      obtain rfl : z = y := Option.some.inj (hz.symm.trans hy)
      obtain ⟨c, hc'⟩ := h.opened w x hx
      obtain ⟨c', hc', -⟩ := context_kept allowed hc'
      exact ⟨c', hc ▸ hc'⟩
  valid c y hy := by
    rcases context_before allowed hy with ⟨x, hx⟩ | hv
    · obtain ⟨z, hz, -, hs⟩ := context_kept allowed hx
      obtain rfl : z = y := Option.some.inj (hz.symm.trans hy)
      exact hs ▸ h.valid c x hx
    · exact hv
  whole w y hy := by
    cases hx : l.sites w with
    | none =>
      rcases sites_before hy with ⟨z, hz⟩ | ⟨r, s, t, -, rfl⟩ | ⟨p, s, t, -, rfl⟩
      · cases hx.symm.trans hz
      · exact Or.inl ⟨s, t, rfl, rfl⟩
      · exact Or.inl ⟨s, t, rfl, rfl⟩
    | some x =>
      obtain ⟨c, hc⟩ := h.opened w x hx
      rcases sites_after allowed hx with ⟨-, hz⟩ | ⟨s, t, rfl, hz⟩
      · obtain rfl : x = y := Option.some.inj (hz.symm.trans hy)
        rw [rules_kept allowed hc]
        exact h.whole w x hx
      · obtain rfl : _ = y := Option.some.inj (hz.symm.trans hy)
        obtain ⟨x', hx', hcheck⟩ := allowed
        obtain rfl : x = x' := Option.some.inj (hx.symm.trans hx')
        refine Or.inr ⟨s, t, rfl, rfl, ?_⟩
        rw [rules_kept (d := .settles w s t) ⟨x, hx, hcheck⟩ hc]
        exact hcheck

/-! ### Counting -/

theorem counters_count (there : ∃ x, l.contexts.get? (l.contextOf w) = some x)
    (f : Counters → Counters) :
    (l.count w f).counters c = if l.contextOf w = c then f (l.counters c) else l.counters c := by
  rw [counters, counters, context_count]
  split
  · next hc =>
    obtain ⟨x, hx⟩ := there
    rw [← hc, hx]
    rfl
  · rw [Option.map_id']

theorem counters_enter (new : l.contexts.get? c = none) (p : PatcherId) (settings : Settings)
    (e : ContextId) : (l.enter c p settings).counters e = l.counters e := by
  rw [counters, counters, enter, Store.get?_put]
  split
  · next hc => rw [← hc, new]; rfl
  · rfl

theorem sum_values_put {κ α : Type} [DecidableEq κ] (s : Store κ α) (k : κ) (a : α) (f : α → Nat) :
    ((s.put k a).values.map f).sum + ((s.get? k).map f).getD 0 = (s.values.map f).sum + f a := by
  obtain ⟨ps⟩ := s
  simp only [Store.put, Store.values, Store.get?]
  induction ps with
  | nil => simp [Store.insert, Store.lookup]
  | cons p ps ih =>
    obtain ⟨j, b⟩ := p
    by_cases hj : j = k
    · simp [Store.insert, Store.lookup, hj]
      omega
    · simp only [Store.insert, Store.lookup, if_neg hj, List.map_cons, List.sum_cons]
      omega

theorem redirects_count (there : ∃ x, l.contexts.get? (l.contextOf w) = some x)
    {f : Counters → Counters} {n : Nat} (grows : ∀ m, (f m).redirects = m.redirects + n) :
    (l.count w f).redirects = l.redirects + n := by
  obtain ⟨x, hx⟩ := there
  have hsum := sum_values_put l.contexts (l.contextOf w) { x with counters := f x.counters }
    fun c => c.counters.redirects
  simp only [hx, Option.map_some, Option.getD_some, grows] at hsum
  rw [redirects, count, Store.modify]
  simp only [hx]
  rw [redirects]
  omega

theorem redirects_enter (new : l.contexts.get? c = none) (p : PatcherId) (settings : Settings) :
    (l.enter c p settings).redirects = l.redirects := by
  have hsum := sum_values_put l.contexts c { patcher := p, settings := settings }
    fun c => c.counters.redirects
  simp only [new, Option.map_none, Option.getD_none, Nat.add_zero] at hsum
  exact hsum

/-- Whatever else a deed does, it counts last, in a context that has been opened by then. -/
theorem after_eq_count (h : l.Lawful) (allowed : l.Allows d) (hw : d.counts = some w) :
    ∃ l' : Linkage, l.after d = l'.count w d.counting ∧
      (∃ x, l'.contexts.get? (l'.contextOf w) = some x) ∧ (∀ c, l'.counters c = l.counters c) ∧
      l'.redirects = l.redirects := by
  have known : ∀ {w y}, l.sites w = some y → ∃ x, l.contexts.get? (l.contextOf w) = some x := by
    intro w y hy
    rw [contextOf, hy, Option.map_some, Option.getD_some]
    exact h.opened w y hy
  cases d with
  | opens => cases hw
  | makes v r s t =>
    obtain rfl := Option.some.inj hw
    refine ⟨l.place v _, rfl, ?_, fun _ => rfl, rfl⟩
    simpa [contextOf, place] using allowed.2
  | makesAlone v p s t =>
    obtain rfl := Option.some.inj hw
    refine ⟨(l.enter (.ofWatchpoint v) p {}).place v _, rfl, ?_, counters_enter allowed.2 p {},
      redirects_enter allowed.2 p {}⟩
    simp [contextOf, place, enter]
  | settles v s t =>
    obtain rfl := Option.some.inj hw
    obtain ⟨y, hy, -⟩ := allowed
    refine ⟨l.place v _, rfl, ?_, fun _ => rfl, rfl⟩
    simpa [contextOf, place, hy] using known hy
  | redirects v =>
    obtain rfl := Option.some.inj hw
    obtain ⟨y, hy⟩ := allowed
    exact ⟨l, rfl, known hy, fun _ => rfl, rfl⟩

/-- A deed is counted in the context of its watchpoint, and nowhere else. -/
theorem counters_after (h : l.Lawful) (allowed : l.Allows d) :
    (l.after d).counters c =
      if d.counts.map (l.after d).contextOf =
      some c then d.counting (l.counters c) else l.counters c := by
  cases hw : d.counts with
  | none =>
    cases d with
    | opens r p settings => exact counters_enter allowed.1 p settings c
    | makes | makesAlone | settles | redirects => cases hw
  | some w =>
    obtain ⟨l', hafter, there, same, -⟩ := after_eq_count h allowed hw
    simp only [hafter, counters_count there, same, Option.map_some, Option.some.injEq]
    rfl

/-- All contexts together count one redirect for each jump that is installed. -/
theorem redirects_after (h : l.Lawful) (allowed : l.Allows d) :
    (l.after d).redirects = l.redirects + d.redirects?.toList.length := by
  cases hw : d.counts with
  | none =>
    cases d with
    | opens r p settings => exact redirects_enter allowed.1 p settings
    | makes | makesAlone | settles | redirects => cases hw
  | some w =>
    obtain ⟨l', hafter, there, -, same⟩ := after_eq_count h allowed hw
    rw [hafter, redirects_count there, same]
    intro n
    cases d <;> rfl

end Linkage

end Invalidation
