import Invalidation.Proofs.Run.Linked
import Invalidation.Proofs.Run.Release
import Invalidation.Proofs.World.PartTurns

/-! Groups that do not interfere. Clients of the library take turns. Each of them works on objects
    of its own group, and whoever is asked answers without calling the library, so their operations
    follow one another whole:

        a₁ ── b₁ ── b₂ ── a₂ ── b₃ ──▶ world         what is seen: a₁ b₁ b₂ a₂ b₃
                                         │ part a                    │
        a₁ ────────────── a₂ ────────▶ part          what is seen: a₁ ──── a₂

    For a client it makes no difference whether the others are there: its operations are possible in the
    same cases, it sees the same, and its part of the world is the whole world that it would have
    alone. -/

namespace Invalidation

/-- What whoever was asked replies to a waiting call. -/
inductive Reply where
  | patched
  | located (answer : Except LinkFailure Address)
  | failed (message : String)

/-- The reply as something that the surroundings do. -/
def Reply.action : Reply → Action
  | .patched => .patched
  | .located answer => .located answer
  | .failed message => .failed message

/-- A call of the library with the replies that it gets. -/
structure Operation where
  call : Call
  replies : List Reply

/-- What is seen of a turn: how it ends, or what it asks for, and what it reports. -/
structure Seen where
  next : Next
  events : List LogEvent
  deriving DecidableEq

/-- What is seen of a turn. -/
def Turn.seen (t : Turn) : Seen := ⟨t.next, t.events⟩

/-- Where one action after the other leads, if they are possible, and what is seen of their turns. -/
def Moment.follow? (m : Moment) : List Action → Option (Moment × List Seen)
  | [] => some (m, [])
  | a :: as => (m.move? a).bind fun v => (v.after.follow? as).map fun p => (p.1, v.turn.seen :: p.2)

namespace World

/-- Where an operation leads, from its call to its end, and what is seen of it. -/
def perform? (σ : World) (o : Operation) : Option (World × List Seen) :=
  (Moment.follow? ⟨σ, []⟩ (.call o.call :: o.replies.map Reply.action)).bind fun p =>
    if p.1.stack = [] then some (p.1.world, p.2) else none

/-- Where one operation after the other leads, and what is seen of each. -/
def performAll? (σ : World) : List Operation → Option (World × List (Operation × List Seen))
  | [] => some (σ, [])
  | o :: os => (σ.perform? o).bind fun p => (p.1.performAll? os).map fun q => (q.1, (o, p.2) :: q.2)

end World

variable {Group : Type} {group : Identity → Group} {d : Group}

/-- A moment in whose world nothing reaches from one group into another, and whose calls that wait
    work on objects of one group. -/
structure Moment.Grouped (group : Identity → Group) (d : Group) (m : Moment) : Prop where
  linked : m.Linked
  tidy : m.world.Tidy
  apart : m.world.Apart group
  stack : ∀ x ∈ m.stack, x.pending.KeepsTo group d

theorem Moment.grouped_empty : Moment.Grouped group d {} where
  linked := linked_empty
  tidy := World.tidy_empty
  apart := World.apart_empty
  stack _ hx := by cases hx

/-- Where no call waits, it does not matter which group was the last. -/
theorem Moment.Grouped.idle {σ : World} (h : Moment.Grouped group d ⟨σ, []⟩) (e : Group) :
    Moment.Grouped group e ⟨σ, []⟩ := ⟨h.linked, h.tidy, h.apart, fun _ hx => by cases hx⟩

/-- An operation makes no other call than its own. -/
theorem Operation.within_of_mem {o : Operation} (within : o.call.KeepsTo group d) :
    ∀ c, .call c ∈ Action.call o.call :: o.replies.map Reply.action → c.KeepsTo group d := by
  intro c hc
  rcases List.mem_cons.mp hc with he | hc
  · exact Action.call.inj he ▸ within
  · obtain ⟨r, -, he⟩ := List.mem_map.mp hc
    cases r <;> cases he

variable [DecidableEq Group] {g : Group}

/-- The moment as it is without the objects of other groups. -/
def Moment.part (group : Identity → Group) (g : Group) (m : Moment) : Moment :=
  { m with world := m.world.part group g }

/-- The move as it is without the objects of other groups. -/
def Move.part (group : Identity → Group) (g : Group) (v : Move) : Move :=
  { v with turn := v.turn.part group g }

/-- Whether the operation is one of the group. -/
def Operation.isIn (group : Identity → Group) (g : Group) (o : Operation) : Bool :=
  o.call.names.all fun x => group x = g

/-! ### One transition -/

namespace Moment

variable {m k : Moment} {a : Action} {v : Move}

/-- Whatever is done next by a client, is done to objects of its group. -/
theorem confined_move (h : m.Grouped group d) (hv : m.move? a = some v)
    (hc : ∀ c, a = .call c → c.KeepsTo group d) :
    ∃ own, Turn.Confined group g d m.world v.turn own ∧
      (d = g → (m.part group g).move? a = some { v with turn := own }) := by
  have known : ∀ x ∈ m.stack, m.world.watchpoints.contains x.pending.watchpoint = true := by
    intro x hx
    obtain ⟨site, hsite⟩ := h.linked.known x hx
    obtain ⟨u, hu, -⟩ := Option.map_eq_some_iff.mp hsite
    exact Option.isSome_of_eq_some hu
  cases moves_of_move? hv with
  | @call c permitted =>
    have hcall := hc c rfl
    have hallowed := (Bool.and_eq_true_iff.mp permitted).1
    refine ⟨_, World.confined_begin h.apart h.linked.sound.coherent h.tidy hallowed hcall, fun e => ?_⟩
    have hpermits : (m.part group g).permits c = true := by
      rw [permits, part, World.allows_part (e ▸ hcall)]
      exact permitted
    exact if_pos hpermits
  | @patched p loan below top =>
    have hmem : (⟨.patch p, loan⟩ : Waiting) ∈ m.stack := top ▸ List.mem_cons_self
    refine ⟨_, World.confined_patched h.apart h.linked.sound.coherent (known _ hmem) (h.stack _ hmem),
      fun _ => ?_⟩
    simp only [move?, part, top]
  | @located l loan below answer top =>
    have hmem : (⟨.locate l, loan⟩ : Waiting) ∈ m.stack := top ▸ List.mem_cons_self
    refine ⟨_, World.confined_located h.apart (known _ hmem) (h.stack _ hmem) answer, fun _ => ?_⟩
    simp only [move?, part, top]
  | @failed pending loan below message top =>
    have hmem : (⟨pending, loan⟩ : Waiting) ∈ m.stack := top ▸ List.mem_cons_self
    refine ⟨_, (World.confined_unwind h.apart (h.stack _ hmem)).panic (.foreign message), fun _ => ?_⟩
    simp only [move?, part, top]

/-- What a client can do next does not depend on other groups. -/
theorem isSome_move?_part (hc : ∀ c, a = .call c → c.KeepsTo group g) :
    ((m.part group g).move? a).isSome = (m.move? a).isSome := by
  cases a with
  | call c =>
    have hpermits : (m.part group g).permits c = m.permits c := by
      rw [permits, permits]
      exact congrArg (· && _) (World.allows_part (hc c rfl))
    simp only [move?, hpermits]
    split <;> rfl
  | patched | located | failed =>
    simp only [move?, part]
    split <;> rfl

/-- What a client does next comes to the same without the objects of other groups. -/
theorem move?_part (h : m.Grouped group g) (hc : ∀ c, a = .call c → c.KeepsTo group g) :
    (m.part group g).move? a = (m.move? a).map (Move.part group g) := by
  cases hv : m.move? a with
  | none =>
    have hsame := isSome_move?_part (m := m) hc
    rw [hv, Option.isSome_none, Option.isSome_eq_false_iff, Option.isNone_iff_eq_none] at hsame
    exact hsame
  | some v =>
    obtain ⟨own, hconfined, hmove⟩ := confined_move (g := g) h hv hc
    rw [hmove rfl, ← hconfined.own rfl]
    rfl

theorem Grouped.after (h : m.Grouped group d) (hv : m.move? a = some v)
    (hc : ∀ c, a = .call c → c.KeepsTo group d) : v.after.Grouped group d := by
  obtain ⟨own, hconfined, -⟩ := confined_move (g := d) h hv hc
  have hstack : ∀ x ∈ v.below, x ∈ m.stack := Transition.below_subset ⟨m, a, v, hv⟩
  refine ⟨Transition.linked (t := ⟨m, a, v, hv⟩) h.linked,
    Transition.tidy (t := ⟨m, a, v, hv⟩) h.linked.sound h.tidy, hconfined.apart, fun x hx => ?_⟩
  rcases Transition.mem_stack_after (t := ⟨m, a, v, hv⟩) hx with hx | ⟨r, hn⟩
  · exact h.stack x (hstack x hx)
  · exact hconfined.waits r _ hn

/-! ### One operation -/

variable {as : List Action} {us : List Seen}

theorem Grouped.follow (h : m.Grouped group d) (hc : ∀ c, .call c ∈ as → c.KeepsTo group d)
    (hk : m.follow? as = some (k, us)) :
    k.Grouped group d ∧ ∀ g, d ≠ g → k.world.part group g = m.world.part group g := by
  induction as generalizing m us with
  | nil =>
    obtain ⟨rfl, -⟩ := Prod.mk.inj (Option.some.inj hk)
    exact ⟨h, fun _ _ => rfl⟩
  | cons a as ih =>
    obtain ⟨v, hv, hk⟩ := Option.bind_eq_some_iff.mp hk
    obtain ⟨⟨k', vs⟩, hrest, he⟩ := Option.map_eq_some_iff.mp hk
    obtain ⟨rfl, -⟩ := Prod.mk.inj he
    have hfirst : ∀ c, a = .call c → c.KeepsTo group d := fun c ha => hc c (ha ▸ List.mem_cons_self)
    obtain ⟨hlast, hother⟩ :=
      ih (h.after hv hfirst) (fun c hmem => hc c (List.mem_cons_of_mem _ hmem)) hrest
    refine ⟨hlast, fun g hne => ?_⟩
    obtain ⟨own, hconfined, -⟩ := confined_move (g := g) h hv hfirst
    exact (hother g hne).trans (hconfined.other hne)

theorem follow?_part (h : m.Grouped group g) (hc : ∀ c, .call c ∈ as → c.KeepsTo group g) :
    (m.part group g).follow? as = (m.follow? as).map fun p => (p.1.part group g, p.2) := by
  induction as generalizing m with
  | nil => rfl
  | cons a as ih =>
    have hfirst : ∀ c, a = .call c → c.KeepsTo group g := fun c ha => hc c (ha ▸ List.mem_cons_self)
    rw [follow?, follow?, move?_part h hfirst]
    cases hv : m.move? a with
    | none => rfl
    | some v =>
      have hrest := ih (h.after hv hfirst) fun c hmem => hc c (List.mem_cons_of_mem _ hmem)
      rw [Option.map_some, Option.bind_some, Option.bind_some, Option.map_map]
      change ((v.after.part group g).follow? as).map _ = _
      rw [hrest, Option.map_map]
      rfl

end Moment

namespace Operation

variable {o : Operation}

/-- An operation is in the group of what its call names, and in no other. -/
theorem isIn_iff (within : o.call.KeepsTo group d) : o.isIn group g = true ↔ d = g := by
  rw [isIn, List.all_eq_true]
  constructor
  · intro hall
    obtain ⟨x, hx⟩ := o.call.exists_mem_names
    exact (within x hx).symm.trans (of_decide_eq_true (hall x hx))
  · rintro rfl x hx
    exact decide_eq_true (within x hx)

end Operation

namespace World

variable {σ τ : World} {o : Operation} {us : List Seen}

/-- An operation comes to the same without the objects of other groups. -/
theorem perform?_part (h : Moment.Grouped group g ⟨σ, []⟩) (within : o.call.KeepsTo group g) :
    (σ.part group g).perform? o = (σ.perform? o).map fun p => (p.1.part group g, p.2) := by
  have hfollow := Moment.follow?_part h (o.within_of_mem within)
  rw [perform?, perform?]
  change (Moment.follow? (Moment.part group g ⟨σ, []⟩) _).bind _ = _
  rw [hfollow]
  cases Moment.follow? ⟨σ, []⟩ (.call o.call :: o.replies.map Reply.action) with
  | none => rfl
  | some p =>
    rw [Option.map_some, Option.bind_some, Option.bind_some]
    change (if p.1.stack = [] then _ else _) = _
    split <;> rfl

/-- An operation leaves the parts of other groups as they are. -/
theorem perform?_other (h : Moment.Grouped group d ⟨σ, []⟩) (within : o.call.KeepsTo group d)
    (performed : σ.perform? o = some (τ, us)) :
    Moment.Grouped group d ⟨τ, []⟩ ∧ ∀ g, d ≠ g → τ.part group g = σ.part group g := by
  obtain ⟨⟨k, vs⟩, hk, he⟩ := Option.bind_eq_some_iff.mp performed
  obtain ⟨hgrouped, hother⟩ := h.follow (o.within_of_mem within) hk
  split at he
  · next hidle =>
    obtain ⟨rfl, -⟩ := Prod.mk.inj (Option.some.inj he)
    refine ⟨?_, hother⟩
    obtain ⟨τ, stack⟩ := k
    obtain rfl : stack = [] := hidle
    exact hgrouped
  · cases he

/-! ### All operations -/

variable {os : List Operation} {log : List (Operation × List Seen)}

/-- What operations come to for a group is what those of the group come to alone. -/
theorem performAll?_part (h : Moment.Grouped group d ⟨σ, []⟩)
    (within : ∀ o ∈ os, ∃ d, o.call.KeepsTo group d) (performed : σ.performAll? os = some (τ, log))
    (g : Group) : (σ.part group g).performAll? (os.filter (·.isIn group g)) =
      some (τ.part group g, log.filter (·.1.isIn group g)) := by
  induction os generalizing σ d log with
  | nil =>
    obtain ⟨rfl, rfl⟩ := Prod.mk.inj (Option.some.inj performed)
    rfl
  | cons o os ih =>
    obtain ⟨⟨e, ho⟩, hos⟩ := List.forall_mem_cons.mp within
    obtain ⟨⟨υ, us⟩, hfirst, hrest⟩ := Option.bind_eq_some_iff.mp performed
    obtain ⟨⟨τ', log'⟩, hlast, he⟩ := Option.map_eq_some_iff.mp hrest
    obtain ⟨rfl, rfl⟩ := Prod.mk.inj he
    obtain ⟨hnext, hother⟩ := perform?_other (h.idle e) ho hfirst
    have hsame := ih hnext hos hlast
    by_cases heg : e = g
    · have hin : o.isIn group g = true := (Operation.isIn_iff ho).mpr heg
      have hown := perform?_part (h.idle g) (heg ▸ ho)
      rw [hfirst, Option.map_some] at hown
      have hlog :
        ((o, us) :: log').filter (·.1.isIn group g) = (o, us) :: log'.filter (·.1.isIn group g) :=
        List.filter_cons_of_pos hin
      rw [List.filter_cons_of_pos hin, performAll?, hown, Option.bind_some, hsame,
        Option.map_some, hlog]
    · have hout : ¬ o.isIn group g = true := fun hin => heg ((Operation.isIn_iff ho).mp hin)
      have hlog : ((o, us) :: log').filter (·.1.isIn group g) = log'.filter (·.1.isIn group g) :=
        List.filter_cons_of_neg hout
      rw [List.filter_cons_of_neg hout, ← hother g heg, hsame, hlog]

/-- Operations are possible if those of each group are possible alone. -/
theorem isSome_performAll? (h : Moment.Grouped group d ⟨σ, []⟩)
    (within : ∀ o ∈ os, ∃ d, o.call.KeepsTo group d)
    (each : ∀ g, ((σ.part group g).performAll? (os.filter (·.isIn group g))).isSome = true) :
    (σ.performAll? os).isSome = true := by
  induction os generalizing σ d with
  | nil => rfl
  | cons o os ih =>
    obtain ⟨⟨e, ho⟩, hos⟩ := List.forall_mem_cons.mp within
    have hin : o.isIn group e = true := (Operation.isIn_iff ho).mpr rfl
    have hown := perform?_part (h.idle e) ho
    have halone := each e
    rw [List.filter_cons_of_pos hin, performAll?, hown] at halone
    cases hfirst : σ.perform? o with
    | none =>
      rw [hfirst] at halone
      cases halone
    | some p =>
      obtain ⟨υ, us⟩ := p
      obtain ⟨hnext, hother⟩ := perform?_other (h.idle e) ho hfirst
      rw [hfirst, Option.map_some, Option.bind_some, Option.isSome_map] at halone
      rw [performAll?, hfirst, Option.bind_some, Option.isSome_map]
      refine ih hnext hos fun g => ?_
      by_cases heg : e = g
      · exact heg ▸ halone
      · have hout : ¬ o.isIn group g = true := fun hin => heg ((Operation.isIn_iff ho).mp hin)
        have hothers := each g
        rw [List.filter_cons_of_neg hout, ← hother g heg] at hothers
        exact hothers

end World

/-- Groups do not interfere. If every operation works on objects of one group, then operations of
    several groups that follow one another in whatever order are possible exactly if those of each
    group are possible alone; and then every group sees what it would see alone, and its part of the
    world is the whole world that there would be without the others. -/
theorem groups_do_not_interfere {os : List Operation} (within : ∀ o ∈ os, ∃ d, o.call.KeepsTo group d) :
    ((World.performAll? {} os).isSome = true ↔
        ∀ g, (World.performAll? {} (os.filter (·.isIn group g))).isSome = true) ∧
      ∀ τ log, World.performAll? {} os = some (τ, log) → ∀ g,
        World.performAll? {} (os.filter (·.isIn group g)) =
          some (τ.part group g, log.filter (·.1.isIn group g)) := by
  have h : Moment.Grouped group (group (.slot 0)) ⟨{}, []⟩ := Moment.grouped_empty
  have alone : ∀ τ log, World.performAll? {} os = some (τ, log) → ∀ g,
      World.performAll? {} (os.filter (·.isIn group g)) =
        some (τ.part group g, log.filter (·.1.isIn group g)) := fun τ log hlog g =>
    World.performAll?_part h within hlog g
  refine ⟨⟨fun possible g => ?_, fun each => World.isSome_performAll? h within each⟩, alone⟩
  obtain ⟨⟨τ, log⟩, hlog⟩ := Option.isSome_iff_exists.mp possible
  rw [alone τ log hlog g]
  rfl

/-- The objects with numbers below ten belong to one group, the others to another. -/
def belowTen : Identity → Bool
  | .context (.ofRuntime n) | .context (.ofWatchpoint n) | .watchpoint n | .handle n | .slot n => n < 10

/-- Two groups, by turns. The slot of the one gets a set, gives it up while a handle still has a
    share in it, and gets another one, so that its watchpoints stand behind equal keys on two lists,
    and a watchpoint of the other group on a third; there the patcher fails in the middle of a sweep. -/
def slotBesideSet : List Operation :=
  [⟨.openRuntime 0 (.scripted "p") {}, []⟩, ⟨.openRuntime 10 (.scripted "q") {}, []⟩,
    ⟨.create 1 0 ⟨16⟩ ⟨96⟩, []⟩, ⟨.create 11 10 ⟨16⟩ ⟨96⟩, []⟩,
    ⟨.resolve 11, [.located (.ok ⟨8208⟩), .located (.ok ⟨8288⟩)]⟩,
    ⟨.resolve 1, [.located (.ok ⟨4112⟩), .located (.ok ⟨4192⟩)]⟩,
    ⟨.newSet 12 .blind, []⟩, ⟨.newSlot 2 .blind, []⟩, ⟨.slotAdd 2 (some 1), []⟩,
      ⟨.add 12 (some 11), []⟩,
    ⟨.handleOfSlot 2 3, []⟩, ⟨.freeFat 2, []⟩, ⟨.createAlone 4 (.scripted "p") ⟨32⟩ ⟨112⟩, []⟩,
    ⟨.notifyWrite 12, [.failed "no memory"]⟩, ⟨.slotAdd 2 (some 4), []⟩, ⟨.notifyWrite 3, [.patched]⟩,
    ⟨.notifyWrite 12, [.patched]⟩, ⟨.add 12 (some 11), []⟩, ⟨.fire 4, []⟩]

theorem groups_do_not_interfere_slotBesideSet :
    ∃ os : List Operation, (∀ o ∈ os, ∃ d, o.call.KeepsTo belowTen d) ∧
      ∃ τ log, World.performAll? {} os = some (τ, log) ∧
        [1, 4, 11].map (fun w => (τ.watchpoint w).membership) =
          [none, some ⟨.ofSlot 2 1, ⟨0, 0⟩⟩, some ⟨.ofHandle 12, ⟨0, 1⟩⟩] ∧
        ∀ g, World.performAll? {} (os.filter (·.isIn belowTen g)) =
          some (τ.part belowTen g, log.filter (·.1.isIn belowTen g)) := by
  have within : ∀ o ∈ slotBesideSet, ∃ d, o.call.KeepsTo belowTen d := by decide
  have hmembers : (World.performAll? {} slotBesideSet).map
      (fun p => [1, 4, 11].map fun w => (p.1.watchpoint w).membership) =
        some [none, some ⟨.ofSlot 2 1, ⟨0, 0⟩⟩, some ⟨.ofHandle 12, ⟨0, 1⟩⟩] := by decide
  obtain ⟨⟨τ, log⟩, hlog, hmembers⟩ := Option.map_eq_some_iff.mp hmembers
  exact ⟨_, within, τ, log, hlog, hmembers, (groups_do_not_interfere within).2 τ log hlog⟩

end Invalidation
