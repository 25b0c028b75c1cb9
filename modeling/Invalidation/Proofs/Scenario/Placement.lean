import Invalidation.Proofs.Run.Lookups
import Invalidation.Scenario.Perform
import Mathlib.Logic.Function.Iterate

/-! Resolving against code that lies in one piece. A label is known if it is less than the size of the
    code, and its address is where the code begins plus the label; an address that 64 bits do not hold
    is none, so no address wraps around.

        label   0 ─────── s ─────── d ──── size
                │         │         │       │
        base  base ── base + s ─ base + d ──┤ ≤ 2 ^ 64

    As long as the code fits into the address space, what resolving comes to depends on where the code
    begins only in the addresses that are told. What it comes to is said once without them (`Placing`)
    and then placed. -/

namespace Invalidation

open Scenario

/-- The address of a label in code that begins at `base`. -/
def Address.plus (base : Address) (l : Label) : Address := .ofNat (base.toNat + l.offset.toNat)

/-- How far apart two labels are, exactly. -/
def Label.apart (a b : Label) : Nat := ((a.offset.toNat : Int) - b.offset.toNat).natAbs

/-- Code of that size which begins at `base` ends within the address space. -/
def Address.Holds (base : Address) (size : Nat) : Prop := base.toNat + size ≤ 2 ^ 64

instance (base : Address) (size : Nat) : Decidable (base.Holds size) :=
  inferInstanceAs (Decidable (_ ≤ _))

/-! ### Buffers that answer at once -/

/-- A turn, gone on with by the answer of a link buffer if it stands still for a label. -/
def Turn.answeredBy (b : LinkBuffer) (t : Turn) : Turn :=
  match t.next with
  | .waiting _ (.locate l) =>
    match b.locate l.asked with
    | .found a => t.world.located l (.ok a)
    | .refused e => t.world.located l (.error e)
    | .failed message => (t.world.unwind (.locate l)).panic (.foreign message)
  | _ => t

/-- What resolving a watchpoint comes to against a link buffer that makes no calls of its own. -/
def World.resolveWith (σ : World) (w : WatchpointId) (b : LinkBuffer) : Turn :=
  ((σ.resolve w).answeredBy b).answeredBy b

/-! ### Wherever the code is -/

/-- What resolving two labels comes to, wherever the code is. -/
inductive Placing where
  | unknown (label : Label)
  | selfLoop
  | tooFar
  | linked
  deriving DecidableEq

/-- What resolving two labels comes to in code of that size: the first complaint, if there is any. -/
def Placing.of (rules : Linking) (size : Nat) (s d : Label) : Placing :=
  if size ≤ s.offset.toNat then .unknown s
  else if size ≤ d.offset.toNat then .unknown d
  else if rules.rejectSelfLoops = true ∧ s = d then .selfLoop
  else if rules.maxJumpDistance.toNat < s.apart d then .tooFar
  else .linked

/-- The turn that it comes to in code that begins at `base`. -/
def Placing.turn (σ : World) (w : WatchpointId) (s d : Label) (base : Address) : Placing → Turn
  | .unknown l => ⟨σ, [], .failed (.link (.unknownLabel l))⟩
  | .selfLoop => ⟨σ, [], .failed (.link (.selfLoop (base.plus s)))⟩
  | .tooFar => ⟨σ, [], .failed (.link (.outOfRange (base.plus s) (base.plus d)
      (σ.contextOf w).settings.linking.maxJumpDistance.toNat))⟩
  | .linked => ⟨σ.settle w (base.plus s) (base.plus d),
      [.resolved s d (base.plus s) (base.plus d)], .returned⟩

/-- What is asked for when a watchpoint fires by itself: the jump from `a` to `b`. -/
def World.Installs (σ : World) (w : WatchpointId) (p : PatcherId) (a b : Address) : Prop :=
  (σ.fire w none).next = .waiting (.patch p a b) (.patch ⟨w, none⟩)

/-- Resolving a watchpoint with labels `s` and `d` against code of that size, wherever the code
    begins. -/
structure LinksAnywhere (σ : World) (w : WatchpointId) (s d : Label) (size : Nat) : Prop where
  /-- It comes to an end: after two answers nothing more is asked. -/
  ends : ∀ base r p, (σ.resolveWith w (.offset base size)).next ≠ .waiting r p
  /-- A step of a script that resolves the watchpoint against such code ends with this turn. -/
  performed : ∀ (t : Session) (name code : String) (base : Address), t.world = σ →
    t.watchpoints.get? name = some w → t.fixed.get? code = some (.offset base size) →
    ∃ n ≤ 2, Session.advance^[n] (t.perform (.resolveFixed name code)) =
      t.take { loan := .watchpoint w, buffer := .fixed (.offset base size) }
        (σ.resolveWith w (.offset base size))
  /-- Addresses are exact: if it succeeds, wherever the code begins, nothing has wrapped around. -/
  addresses : ∀ base, (σ.resolveWith w (.offset base size)).next = .returned →
    s.offset.toNat < size ∧ d.offset.toNat < size ∧
      ∃ a b, ((σ.resolveWith w (.offset base size)).world.watchpoint w).addresses? = some (a, b) ∧
        a.toNat = base.toNat + s.offset.toNat ∧ b.toNat = base.toNat + d.offset.toNat ∧
        base.toNat + s.offset.toNat < 2 ^ 64 ∧ base.toNat + d.offset.toNat < 2 ^ 64
  /-- It succeeds just by what the labels and the rules are. -/
  succeeds_iff : ∀ base : Address, base.Holds size →
    ((σ.resolveWith w (.offset base size)).next = .returned ↔
      s.offset.toNat < size ∧ d.offset.toNat < size ∧
        s.apart d ≤ (σ.contextOf w).settings.linking.maxJumpDistance.toNat ∧
        (s ≠ d ∨ (σ.contextOf w).settings.linking.rejectSelfLoops = false))
  /-- It comes to the same thing wherever the code begins, beside the addresses. -/
  alike : ∀ base : Address, base.Holds size → σ.resolveWith w (.offset base size) =
    (Placing.of (σ.contextOf w).settings.linking size s d).turn σ w s d base
  /-- The jumps that are installed are as far apart as the code is. -/
  jumps : ∀ base base' : Address, base.Holds size → base'.Holds size →
    (σ.resolveWith w (.offset base size)).next = .returned →
    ∃ p a b a' b', (σ.resolveWith w (.offset base size)).world.Installs w p a b ∧
      (σ.resolveWith w (.offset base' size)).world.Installs w p a' b' ∧
      (a'.toNat : Int) - a.toNat = base'.toNat - base.toNat ∧
      (b'.toNat : Int) - b.toNat = base'.toNat - base.toNat

variable {σ : World} {w : WatchpointId} {s d : Label} {base base' a b : Address} {size : Nat}
  {labels : LinkBuffer}

/-! ### Turns of a script -/

namespace Turn

/-- A turn that stands still for a label has nothing to report yet. -/
def AsksSilently (t : Turn) : Prop :=
  ∀ r l, t.next = .waiting r (.locate l) → t.events = [] ∧ ∃ label, r = .locate label

theorem answeredBy_of_over {t : Turn} (ended : ∀ r l, t.next ≠ .waiting r (.locate l)) :
    t.answeredBy labels = t := by
  unfold answeredBy
  split
  · next r l hn => exact absurd hn (ended r l)
  · rfl

theorem asksSilently_resolve (σ : World) (w : WatchpointId) : (σ.resolve w).AsksSilently := by
  rcases World.resolve_cases σ w with ⟨-, he⟩ | ⟨s, d, -, he⟩
  · rw [he]
    exact fun _ _ hn => by cases hn
  · rw [he]
    exact fun r l hn => ⟨rfl, s, (Next.waiting.inj hn).1.symm⟩

theorem asksSilently_located (σ : World) (l : Locating) (answer : Except LinkFailure Address) :
    (σ.located l answer).AsksSilently := by
  rcases World.located_cases σ l answer with ⟨e, he⟩ | ⟨a, -, -, he⟩ | ⟨s, d, -, -, -, he⟩
  · rw [he]
    exact fun _ _ hn => by cases hn
  · rw [he]
    exact fun r l' hn => ⟨rfl, l.destinationLabel, (Next.waiting.inj hn).1.symm⟩
  · rw [he]
    exact fun _ _ hn => by cases hn

theorem AsksSilently.answeredBy {t : Turn} (h : t.AsksSilently) (labels : LinkBuffer) :
    (t.answeredBy labels).AsksSilently := by
  unfold Turn.answeredBy
  split
  · split
    · exact asksSilently_located _ _ _
    · exact asksSilently_located _ _ _
    · exact fun _ _ hn => by cases hn
  · exact h

end Turn

namespace Scenario

namespace Session

/-- A call that stands still for a label goes on by the answer of its buffer. -/
theorem advance_take (t : Session) {caller : Caller} {turn : Turn} {label : Label} {l : Locating}
    (fixed : caller.buffer = .fixed labels) (silent : turn.events = [])
    (waits : turn.next = .waiting (.locate label) (.locate l)) :
    (t.take caller turn).advance = t.take caller (turn.answeredBy labels) := by
  have hnone : t.logged? [] = [] := by simp [logged?]
  obtain ⟨world, events, next⟩ := turn
  obtain ⟨loan, buffer, closing, happened⟩ := caller
  obtain rfl : events = [] := silent
  obtain rfl : next = .waiting (.locate label) (.locate l) := waits
  obtain rfl : buffer = .fixed labels := fixed
  rw [take, hnone]
  simp only [receive, advance, answer, answerOf, Turn.answeredBy, List.nil_append]
  cases labels.locate l.asked <;> rfl

/-- A call that may stand still for a label has got its answer after one thing at most. -/
theorem exists_advance_take (t : Session) (caller : Caller) {turn : Turn}
    (fixed : caller.buffer = .fixed labels) (silent : turn.AsksSilently) :
    ∃ n ≤ 1, advance^[n] (t.take caller turn) = t.take caller (turn.answeredBy labels) := by
  by_cases ended : ∀ r l, turn.next ≠ .waiting r (.locate l)
  · exact ⟨0, Nat.zero_le _, by rw [Turn.answeredBy_of_over ended]; rfl⟩
  · simp only [not_forall, not_not] at ended
    obtain ⟨r, l, hn⟩ := ended
    obtain ⟨hevents, label, rfl⟩ := silent r l hn
    exact ⟨1, Nat.le_refl _, t.advance_take fixed hevents hn⟩

/-- A step that resolves a watchpoint against a buffer without reactions comes to an end after two
    answers at most. -/
theorem performs_resolveFixed (t : Session) {name code : String}
    (named : t.watchpoints.get? name = some w) (given : t.fixed.get? code = some labels) :
    ∃ n ≤ 2, advance^[n] (t.perform (.resolveFixed name code)) =
      t.take { loan := .watchpoint w, buffer := .fixed labels } (t.world.resolveWith w labels) := by
  have hcall : t.perform (.resolveFixed name code) =
      t.take { loan := .watchpoint w, buffer := .fixed labels } (t.world.resolve w) := by
    simp only [perform, action, find, named, given]
    rfl
  have hsilent := Turn.asksSilently_resolve t.world w
  obtain ⟨n, hn, hfirst⟩ := t.exists_advance_take { loan := .watchpoint w, buffer := .fixed labels } rfl
    hsilent
  obtain ⟨m, hm, hsecond⟩ :=
    t.exists_advance_take { loan := .watchpoint w, buffer := .fixed labels } rfl
    (hsilent.answeredBy labels)
  refine ⟨m + n, by omega, ?_⟩
  rw [hcall, Function.iterate_add_apply, hfirst, hsecond]
  rfl

end Session

end Scenario

/-! ### The answers of a buffer -/

theorem Address.toNat_plus {l : Label} (h : base.toNat + l.offset.toNat < 2 ^ 64) :
    (base.plus l).toNat = base.toNat + l.offset.toNat := UInt64.toNat_ofNat_of_lt' h

/-- An address in code that lies in one piece is exact, or there is none. -/
theorem LinkBuffer.locate_offset (base : Address) (size : Nat) (l : Label) :
    (size ≤ l.offset.toNat ∧ (offset base size).locate l = unknown l) ∨
      l.offset.toNat < size ∧
        ((base.toNat + l.offset.toNat < 2 ^ 64 ∧ (offset base size).locate l = .found (base.plus l)) ∨
          (2 ^ 64 ≤ base.toNat + l.offset.toNat ∧
            (offset base size).locate l = .failed "attempt to add with overflow")) := by
  have hsize : UInt64.size = 2 ^ 64 := rfl
  simp only [locate, hsize]
  by_cases hl : size ≤ l.offset.toNat
  · exact Or.inl ⟨hl, if_pos hl⟩
  · rw [if_neg hl]
    refine Or.inr ⟨Nat.lt_of_not_le hl, ?_⟩
    by_cases ha : 2 ^ 64 ≤ base.toNat + l.offset.toNat
    · exact Or.inr ⟨ha, if_pos ha⟩
    · exact Or.inl ⟨Nat.lt_of_not_le ha, if_neg ha⟩

theorem LinkBuffer.locate_offset_of_le (base : Address) {l : Label} (hl : size ≤ l.offset.toNat) :
    (offset base size).locate l = unknown l := if_pos hl

namespace World

/-- Resolving comes to an end by the first answer that is no address, or by the check. -/
theorem resolveWith_eq (fresh : (σ.watchpoint w).labels? = some (s, d)) (labels : LinkBuffer) :
    σ.resolveWith w labels =
      match labels.locate s, labels.locate d with
      | .refused e, _ | .found _, .refused e => ⟨σ, [], .failed e⟩
      | .failed message, _ | .found _, .failed message => σ.panic (.foreign message)
      | .found a, .found b =>
        match (σ.contextOf w).settings.linking.checkJump a b with
        | .error e => ⟨σ, [], .failed (.link e)⟩
        | .ok () => ⟨σ.settle w a b, [.resolved s d a b], .returned⟩ := by
  have hresolve : σ.resolve w = ⟨σ, [], .waiting (.locate s) (.locate ⟨w, s, d, none⟩)⟩ := by
    rw [resolve, fresh]
  have hanswer : ∀ l r, Turn.answeredBy labels ⟨σ, [], .waiting r (.locate l)⟩ =
      match labels.locate l.asked with
      | .found a => σ.located l (.ok a)
      | .refused e => σ.located l (.error e)
      | .failed message => (σ.unwind (.locate l)).panic (.foreign message) := fun _ _ => rfl
  have hsource : Locating.asked ⟨w, s, d, none⟩ = s := rfl
  rw [resolveWith, hresolve, hanswer, hsource]
  cases labels.locate s with
  | refused e => rfl
  | failed message => rfl
  | found a =>
    have hdestination : Locating.asked ⟨w, s, d, some a⟩ = d := rfl
    simp only [located, hanswer, hdestination]
    cases labels.locate d with
    | refused e => rfl
    | failed message => rfl
    | found b =>
      dsimp only
      cases (σ.contextOf w).settings.linking.checkJump a b <;> rfl

theorem resolveWith_over (fresh : (σ.watchpoint w).labels? = some (s, d)) (labels : LinkBuffer)
    (r : Request) (p : Pending) : (σ.resolveWith w labels).next ≠ .waiting r p := by
  rw [resolveWith_eq fresh]
  split
  · exact Next.noConfusion
  · exact Next.noConfusion
  · exact Next.noConfusion
  · exact Next.noConfusion
  · split <;> exact Next.noConfusion

theorem addresses_settle {v : Watchpoint} (known : σ.watchpoints.get? w = some v) (a b : Address) :
    ((σ.settle w a b).watchpoint w).addresses? = some (a, b) := by
  rw [watchpoint, (settled_settle σ w a b).watchpoints, known, Option.map_some, if_pos rfl]
  rfl

theorem patcher_settle {v : Watchpoint} (known : σ.watchpoints.get? w = some v) (a b : Address) :
    ((σ.settle w a b).contextOf w).patcher = (σ.contextOf w).patcher := by
  have hcontext : ((σ.settle w a b).watchpoint w).context = (σ.watchpoint w).context := by
    rw [watchpoint, watchpoint, (settled_settle σ w a b).watchpoints, known, Option.map_some,
      if_pos rfl]
    rfl
  rw [contextOf, hcontext, context, (settled_settle σ w a b).contexts, contextOf, context]
  simp only [if_true]
  cases σ.contexts.get? (σ.watchpoint w).context <;> rfl

/-- A watchpoint that has been resolved has the jump between its addresses installed. -/
theorem installs_settle {v : Watchpoint} (known : σ.watchpoints.get? w = some v) (a b : Address) :
    (σ.settle w a b).Installs w (σ.contextOf w).patcher a b := by
  rw [Installs, fire_of_resolved (addresses_settle known a b), patcher_settle known]

end World

/-! ### Code that fits -/

namespace Address.Holds

theorem lt (h : base.Holds size) {l : Label} (hl : l.offset.toNat < size) :
    base.toNat + l.offset.toNat < 2 ^ 64 := Nat.lt_of_lt_of_le (Nat.add_lt_add_left hl _) h

/-- In code that fits, the address of a known label is exact. -/
theorem toNat_plus (h : base.Holds size) {l : Label} (hl : l.offset.toNat < size) :
    (base.plus l).toNat = base.toNat + l.offset.toNat := Address.toNat_plus (h.lt hl)

theorem locate_offset (h : base.Holds size) {l : Label} (hl : l.offset.toNat < size) :
    (LinkBuffer.offset base size).locate l = .found (base.plus l) := by
  rcases LinkBuffer.locate_offset base size l with ⟨hl', -⟩ | ⟨-, ⟨-, he⟩ | ⟨hover, -⟩⟩
  · exact absurd hl (Nat.not_lt.mpr hl')
  · exact he
  · exact absurd (h.lt hl) (Nat.not_lt.mpr hover)

/-- Two known labels have one address only if they are one label. -/
theorem plus_inj (h : base.Holds size) (hs : s.offset.toNat < size) (hd : d.offset.toNat < size) :
    base.plus s = base.plus d ↔ s = d := by
  constructor
  · intro he
    have hnat := congrArg Address.toNat he
    rw [h.toNat_plus hs, h.toNat_plus hd] at hnat
    obtain ⟨s⟩ := s
    obtain ⟨d⟩ := d
    exact congrArg Label.mk (UInt32.toNat_inj.mp (Nat.add_left_cancel hnat))
  · exact congrArg _

/-- Two known labels are as far apart as their addresses. -/
theorem apart_plus (h : base.Holds size) (hs : s.offset.toNat < size) (hd : d.offset.toNat < size) :
    (base.plus s).apart (base.plus d) = s.apart d := by
  rw [Address.apart, Label.apart, h.toNat_plus hs, h.toNat_plus hd]
  omega

/-- In code that fits, resolving comes to what the labels come to, placed where the code is. -/
theorem resolveWith_offset (h : base.Holds size) (fresh : (σ.watchpoint w).labels? = some (s, d)) :
    σ.resolveWith w (.offset base size) =
      (Placing.of (σ.contextOf w).settings.linking size s d).turn σ w s d base := by
  rw [World.resolveWith_eq fresh, Placing.of]
  by_cases hs : size ≤ s.offset.toNat
  · rw [LinkBuffer.locate_offset_of_le base hs, if_pos hs]
    rfl
  rw [h.locate_offset (Nat.lt_of_not_le hs), if_neg hs]
  by_cases hd : size ≤ d.offset.toNat
  · rw [LinkBuffer.locate_offset_of_le base hd, if_pos hd]
    rfl
  rw [h.locate_offset (Nat.lt_of_not_le hd), if_neg hd]
  have hsame := h.plus_inj (Nat.lt_of_not_le hs) (Nat.lt_of_not_le hd)
  have hapart := h.apart_plus (Nat.lt_of_not_le hs) (Nat.lt_of_not_le hd)
  rcases Linking.checkJump_cases (σ.contextOf w).settings.linking (base.plus s) (base.plus d) with
    ⟨reject, he, hcheck⟩ | ⟨proper, hrest⟩
  · rw [if_pos ⟨reject, hsame.mp he⟩]
    simp only [hcheck]
    rfl
  · rw [if_neg fun hloop => proper hloop.1 (hsame.mpr hloop.2)]
    rw [hapart] at hrest
    rcases hrest with ⟨far, hcheck⟩ | ⟨near, hcheck⟩
    · rw [if_pos far]
      simp only [hcheck]
      rfl
    · rw [if_neg (Nat.not_lt.mpr near)]
      simp only [hcheck]
      rfl

end Address.Holds

namespace Placing

/-- Two labels are linked if both are known and the rules allow the jump. -/
theorem of_eq_linked_iff (rules : Linking) (size : Nat) (s d : Label) :
    Placing.of rules size s d = .linked ↔ s.offset.toNat < size ∧ d.offset.toNat < size ∧
      s.apart d ≤ rules.maxJumpDistance.toNat ∧ (s ≠ d ∨ rules.rejectSelfLoops = false) := by
  have hloop : (s ≠ d ∨ rules.rejectSelfLoops = false) ↔ ¬ (rules.rejectSelfLoops = true ∧ s = d) := by
    rw [not_and_or, Bool.not_eq_true, or_comm]
  rw [hloop, Placing.of]
  split
  · next hs => exact iff_of_false Placing.noConfusion fun h => Nat.not_lt.mpr hs h.1
  · next hs =>
    split
    · next hd => exact iff_of_false Placing.noConfusion fun h => Nat.not_lt.mpr hd h.2.1
    · next hd =>
      split
      · next hself => exact iff_of_false Placing.noConfusion fun h => h.2.2.2 hself
      · next hself =>
        split
        · next far => exact iff_of_false Placing.noConfusion fun h => Nat.not_lt.mpr h.2.2.1 far
        · next near =>
          exact iff_of_true rfl
            ⟨Nat.lt_of_not_le hs, Nat.lt_of_not_le hd, Nat.le_of_not_lt near, hself⟩

/-- Only labels that are linked come to a success. -/
theorem next_turn_eq_returned_iff (p : Placing) :
    (p.turn σ w s d base).next = .returned ↔ p = .linked := by
  cases p <;> simp [turn]

end Placing

/-! ### The main statement -/

namespace World

/-- A success tells exact addresses, also where the code reaches beyond the address space. -/
theorem addresses_of_returned {v : Watchpoint} (known : σ.watchpoints.get? w = some v)
    (fresh : (σ.watchpoint w).labels? = some (s, d))
    (returned : (σ.resolveWith w (.offset base size)).next = .returned) :
    s.offset.toNat < size ∧ d.offset.toNat < size ∧
      ∃ a b, ((σ.resolveWith w (.offset base size)).world.watchpoint w).addresses? = some (a, b) ∧
        a.toNat = base.toNat + s.offset.toNat ∧ b.toNat = base.toNat + d.offset.toNat ∧
        base.toNat + s.offset.toNat < 2 ^ 64 ∧ base.toNat + d.offset.toNat < 2 ^ 64 := by
  rw [resolveWith_eq fresh] at returned ⊢
  rcases LinkBuffer.locate_offset base size s with ⟨-, hs⟩ | ⟨hs, ⟨hsa, hl⟩ | ⟨-, hl⟩⟩
  · rw [hs] at returned
    cases returned
  · rcases LinkBuffer.locate_offset base size d with ⟨-, hd⟩ | ⟨hd, ⟨hda, hl'⟩ | ⟨-, hl'⟩⟩
    · rw [hl, hd] at returned
      cases returned
    · rw [hl, hl'] at returned ⊢
      refine ⟨hs, hd, base.plus s, base.plus d, ?_, Address.toNat_plus hsa,
        Address.toNat_plus hda, hsa, hda⟩
      cases hcheck : (σ.contextOf w).settings.linking.checkJump (base.plus s) (base.plus d) with
      | error e =>
        simp only [hcheck] at returned
        cases returned
      | ok =>
        simp only [hcheck]
        exact addresses_settle known _ _
    · rw [hl, hl'] at returned
      cases returned
  · rw [hl] at returned
    cases returned

/-- Resolving against code that lies in one piece is exact, and as long as the code fits into the
    address space it does not depend on where the code begins. -/
theorem links_anywhere (fresh : (σ.watchpoints.get? w).bind Watchpoint.labels? = some (s, d))
    (size : Nat) : LinksAnywhere σ w s d size := by
  obtain ⟨v, known, hlabels⟩ := Option.bind_eq_some_iff.mp fresh
  have hfresh : (σ.watchpoint w).labels? = some (s, d) := by
    rw [watchpoint, known]
    exact hlabels
  have hlinked : ∀ base : Address, base.Holds size →
      ((σ.resolveWith w (.offset base size)).next = .returned ↔
        Placing.of (σ.contextOf w).settings.linking size s d = .linked) := fun base h => by
    rw [h.resolveWith_offset hfresh, Placing.next_turn_eq_returned_iff]
  refine ⟨fun base => resolveWith_over hfresh _, ?_, fun base => addresses_of_returned known hfresh, ?_,
    fun base h => h.resolveWith_offset hfresh, ?_⟩
  · intro t name code base hworld named given
    rw [← hworld]
    exact t.performs_resolveFixed named given
  · intro base h
    rw [hlinked base h, Placing.of_eq_linked_iff]
  · intro base base' h h' returned
    have hof := (hlinked base h).mp returned
    obtain ⟨hs, hd, -⟩ := (Placing.of_eq_linked_iff _ _ _ _).mp hof
    rw [h.resolveWith_offset hfresh, h'.resolveWith_offset hfresh, hof]
    refine ⟨_, _, _, _, _, installs_settle known _ _, installs_settle known _ _, ?_, ?_⟩
    · rw [h.toNat_plus hs, h'.toNat_plus hs]
      omega
    · rw [h.toNat_plus hd, h'.toNat_plus hd]
      omega

/-- A watchpoint whose labels are just as far apart as its runtime allows. -/
def justNearEnough : World :=
  (((({} : World).begin
    (.openRuntime 0 (.scripted "p") { linking := { maxJumpDistance := 239 } })).world.begin
    (.create 1 0 ⟨16⟩ ⟨255⟩)).world)

/-- The last 256 bytes of the address space hold the code, and so do the first; one byte further on it
    ends beyond. -/
theorem links_anywhere_justNearEnough :
    (justNearEnough.watchpoints.get? 1).bind Watchpoint.labels? = some (⟨16⟩, ⟨255⟩) ∧
      LinksAnywhere justNearEnough 1 ⟨16⟩ ⟨255⟩ 256 ∧
      (⟨0xFFFFFFFFFFFFFF00⟩ : Address).Holds 256 ∧ ¬ (⟨0xFFFFFFFFFFFFFF01⟩ : Address).Holds 256 ∧
      (justNearEnough.resolveWith 1 (.offset ⟨0xFFFFFFFFFFFFFF00⟩ 256)).next = .returned ∧
      (justNearEnough.resolveWith 1 (.offset ⟨0⟩ 256)).next = .returned ∧
      (justNearEnough.resolveWith 1 (.offset ⟨0xFFFFFFFFFFFFFF01⟩ 256)).next =
        .panicked (.foreign "attempt to add with overflow") :=
  ⟨by decide, links_anywhere (by decide) 256, by decide, by decide, by decide, by decide, by decide⟩

end World

end Invalidation
