import Invalidation.Proofs.Run.Moment
import Invalidation.Proofs.World.Held
import Invalidation.Scenario.Perform

/-! The order that a script keeps. A script in progress calls its objects by names, and some of its
    callers wait; forget the names and what the steps report, and what is left is a moment of the
    library.

        name ──▶ an object that is held, and no other name for it
        next number ──▶ an object that has not been made
        a caller that will name its watchpoint ──▶ that watchpoint, held and not named yet -/

namespace Invalidation

/-- The number that an object was made with. -/
def Identity.number : Identity → Nat
  | .context (.ofRuntime n) | .context (.ofWatchpoint n) | .watchpoint n | .handle n | .slot n => n

namespace Scenario

namespace Closing

/-- The watchpoint that is named once the call that waits has resolved it. -/
def reserved? : Closing → Option WatchpointId
  | .nameResolved _ w => some w
  | _ => none

/-- What a step can make of the end of a call that may have to wait. -/
def IsPatient (c : Closing) : Prop := c = .nothing ∨ ∃ n w, c = .nameResolved n w

end Closing

/-- A caller that waits: what it has on loan, and what it makes of the end of its call. -/
structure Wait where
  loan : Loan
  closing : Closing

/-- What one caller has reserved is not on loan to another. -/
def Wait.Spares (c d : Wait) : Prop := ∀ w, c.closing.reserved? = some w → d.loan ≠ .watchpoint w

/-- The caller as one that waits. -/
def Caller.wait (c : Caller) : Wait := ⟨c.loan, c.closing⟩

/-- The names of a script, and the callers that wait, go with the objects of a world. -/
structure Orderly (names : String → Identity → Prop) (fresh : Nat) (waits : List Wait)
    (held? : Identity → Option Bool) : Prop where
  /-- The number of an object that has been made is not used again. -/
  used : ∀ x, held? x ≠ none → x.number < fresh
  /-- A name stands for an object that is held. -/
  held : ∀ n x, names n x → held? x = some true
  /-- No two names stand for the same object. -/
  once : ∀ n n' x, names n x → names n' x → n = n'
  /-- A watchpoint that is reserved is held and has no name yet; whoever reserves it has it on loan. -/
  reserved : ∀ c ∈ waits, ∀ w, c.closing.reserved? = some w →
    held? (.watchpoint w) = some true ∧ (∀ n, ¬ names n (.watchpoint w)) ∧ c.loan = .watchpoint w
  /-- It is on loan to nobody else. -/
  lone : waits.Pairwise fun c d => c.Spares d ∧ d.Spares c
  /-- What is on loan has been made. -/
  lent : ∀ c ∈ waits, ∀ w, c.loan = .watchpoint w → w < fresh
  patient : ∀ c ∈ waits, c.closing.IsPatient

namespace Orderly

variable {names names' : String → Identity → Prop} {fresh fresh' : Nat} {waits : List Wait}
  {held? held?' : Identity → Option Bool}

theorem pop {c : Wait} (h : Orderly names fresh (c :: waits) held?) :
    Orderly names fresh waits held? where
  used := h.used
  held := h.held
  once := h.once
  reserved d hd := h.reserved d (List.mem_cons_of_mem _ hd)
  lone := h.lone.of_cons
  lent d hd := h.lent d (List.mem_cons_of_mem _ hd)
  patient d hd := h.patient d (List.mem_cons_of_mem _ hd)

/-- Another caller waits. -/
theorem push {c : Wait} (h : Orderly names fresh waits held?) (patient : c.closing.IsPatient)
    (reserved : ∀ w, c.closing.reserved? = some w →
      held? (.watchpoint w) = some true ∧ (∀ n, ¬ names n (.watchpoint w)) ∧ c.loan = .watchpoint w)
    (lone : ∀ d ∈ waits, c.Spares d ∧ d.Spares c) (lent : ∀ w, c.loan = .watchpoint w → w < fresh) :
    Orderly names fresh (c :: waits) held? where
  used := h.used
  held := h.held
  once := h.once
  reserved := List.forall_mem_cons.mpr ⟨reserved, h.reserved⟩
  lone := List.pairwise_cons.mpr ⟨lone, h.lone⟩
  lent := List.forall_mem_cons.mpr ⟨lent, h.lent⟩
  patient := List.forall_mem_cons.mpr ⟨patient, h.patient⟩

/-- More objects, with numbers that are used from now on. -/
theorem grow (h : Orderly names fresh waits held?) (more : fresh ≤ fresh')
    (keep : ∀ x, held? x = some true → held?' x = some true)
    (used : ∀ x, held?' x ≠ none → x.number < fresh') : Orderly names fresh' waits held?' where
  used := used
  held n x hn := keep x (h.held n x hn)
  once := h.once
  reserved c hc w hw := by
    obtain ⟨hheld, hrest⟩ := h.reserved c hc w hw
    exact ⟨keep _ hheld, hrest⟩
  lone := h.lone
  lent c hc w hw := Nat.lt_of_lt_of_le (h.lent c hc w hw) more
  patient := h.patient

/-- A name for an object that has none. -/
theorem enter {name : String} {x : Identity} (h : Orderly names fresh waits held?)
    (sub : ∀ n y, names' n y → names n y ∨ n = name ∧ y = x) (new : ∀ n, ¬ names n x)
    (held : held? x = some true)
    (free : ∀ c ∈ waits, ∀ w, c.closing.reserved? = some w → x ≠ .watchpoint w) :
    Orderly names' fresh waits held? where
  used := h.used
  held n y hn := by
    rcases sub n y hn with hn | ⟨-, rfl⟩
    · exact h.held n y hn
    · exact held
  once n n' y hn hn' := by
    rcases sub n y hn with ho | ⟨rfl, rfl⟩
    · rcases sub n' y hn' with ho' | ⟨rfl, rfl⟩
      · exact h.once n n' y ho ho'
      · exact absurd ho (new n)
    · rcases sub n' _ hn' with ho' | ⟨rfl, -⟩
      · exact absurd ho' (new n')
      · rfl
  reserved c hc w hw := by
    obtain ⟨hheld, hno, hloan⟩ := h.reserved c hc w hw
    refine ⟨hheld, fun n hn => ?_, hloan⟩
    rcases sub n _ hn with ho | ⟨-, he⟩
    · exact hno n ho
    · exact free c hc w hw he.symm
  lone := h.lone
  lent := h.lent
  patient := h.patient

/-- A name is taken away. -/
theorem forget (h : Orderly names fresh waits held?) (sub : ∀ n y, names' n y → names n y) :
    Orderly names' fresh waits held? where
  used := h.used
  held n y hn := h.held n y (sub n y hn)
  once n n' y hn hn' := h.once n n' y (sub n y hn) (sub n' y hn')
  reserved c hc w hw := by
    obtain ⟨hheld, hno, hloan⟩ := h.reserved c hc w hw
    exact ⟨hheld, fun n hn => hno n (sub n _ hn), hloan⟩
  lone := h.lone
  lent := h.lent
  patient := h.patient

/-- An object without a name is dropped. -/
theorem drop {x : Identity} (h : Orderly names fresh waits held?) (gone : ∀ n, ¬ names n x)
    (free : ∀ c ∈ waits, ∀ w, c.closing.reserved? = some w → x ≠ .watchpoint w)
    (same : ∀ y, y ≠ x → held?' y = held? y) (known : held? x ≠ none) :
    Orderly names fresh waits held?' where
  used y hy := by
    by_cases hx : y = x
    · exact hx ▸ h.used x known
    · exact h.used y (same y hx ▸ hy)
  held n y hn := by
    rw [same y fun he => gone n (he ▸ hn)]
    exact h.held n y hn
  once := h.once
  reserved c hc w hw := by
    obtain ⟨hheld, hrest⟩ := h.reserved c hc w hw
    exact ⟨(same _ (free c hc w hw).symm).trans hheld, hrest⟩
  lone := h.lone
  lent := h.lent
  patient := h.patient

end Orderly

namespace Session

/-- The moment of the library that a script has come to. -/
def moment (s : Session) : Moment := ⟨s.world, s.stack.map fun a => ⟨a.pending, a.caller.loan⟩⟩

/-- The name stands for the object. -/
def Names (s : Session) (name : String) : Identity → Prop
  | .context (.ofRuntime r) => s.runtimes.get? name = some r
  | .context (.ofWatchpoint _) => False
  | .watchpoint w => s.watchpoints.get? name = some w
  | .handle h => s.handles.get? name = some h
  | .slot i => s.slots.get? name = some i

/-- The callers that wait, innermost first. -/
def waits (s : Session) : List Wait := s.stack.map fun a => a.caller.wait

/-- The names of a script go with the objects of its world. -/
def Proper (s : Session) : Prop := Orderly s.Names s.fresh s.waits s.world.held?

theorem proper_empty (p : Script) : p.session.Proper where
  used x hx := by
    cases x <;> exact absurd rfl hx
  held n x hn := by
    rcases x with (r | w) | w | h | i <;> cases hn
  once n n' x hn := by
    rcases x with (r | w) | w | h | i <;> cases hn
  reserved c hc := absurd hc List.not_mem_nil
  lone := .nil
  lent c hc := absurd hc List.not_mem_nil
  patient c hc := absurd hc List.not_mem_nil

variable {s : Session}

/-! ### Names given and taken away -/

theorem eq_of_get?_put {κ α : Type} [DecidableEq κ] {t : Store κ α} {j k : κ} {a b : α}
    (h : (t.put k a).get? j = some b) : t.get? j = some b ∨ j = k ∧ b = a := by
  rw [Store.get?_put] at h
  split at h
  · next he => exact Or.inr ⟨he.symm, (Option.some.inj h).symm⟩
  · exact Or.inl h

theorem get?_of_get?_erase {κ α : Type} [DecidableEq κ] {t : Store κ α} {j k : κ} {b : α}
    (h : (t.erase k).get? j = some b) : t.get? j = some b ∧ j ≠ k := by
  rw [Store.get?_erase] at h
  split at h
  · cases h
  · next hne => exact ⟨h, fun he => hne he.symm⟩

variable {name n : String} {y : Identity}

theorem names_putRuntime {r : RuntimeId}
    (h : Names { s with runtimes := s.runtimes.put name r } n y) :
    s.Names n y ∨ n = name ∧ y = .context (.ofRuntime r) := by
  cases y with
  | context c =>
    cases c with
    | ofRuntime q => exact (eq_of_get?_put h).imp_right fun ⟨hn, hq⟩ => ⟨hn, hq ▸ rfl⟩
    | ofWatchpoint => exact Or.inl h
  | watchpoint | handle | slot => exact Or.inl h

theorem names_putWatchpoint {w : WatchpointId}
    (h : Names { s with watchpoints := s.watchpoints.put name w } n y) :
    s.Names n y ∨ n = name ∧ y = .watchpoint w := by
  cases y with
  | watchpoint v => exact (eq_of_get?_put h).imp_right fun ⟨hn, hv⟩ => ⟨hn, hv ▸ rfl⟩
  | context c => cases c <;> exact Or.inl h
  | handle | slot => exact Or.inl h

theorem names_putHandle {k : HandleId} (h : Names { s with handles := s.handles.put name k } n y) :
    s.Names n y ∨ n = name ∧ y = .handle k := by
  cases y with
  | handle j => exact (eq_of_get?_put h).imp_right fun ⟨hn, hj⟩ => ⟨hn, hj ▸ rfl⟩
  | context c => cases c <;> exact Or.inl h
  | watchpoint | slot => exact Or.inl h

theorem names_putSlot {i : SlotId} (h : Names { s with slots := s.slots.put name i } n y) :
    s.Names n y ∨ n = name ∧ y = .slot i := by
  cases y with
  | slot j => exact (eq_of_get?_put h).imp_right fun ⟨hn, hj⟩ => ⟨hn, hj ▸ rfl⟩
  | context c => cases c <;> exact Or.inl h
  | watchpoint | handle => exact Or.inl h

theorem names_eraseRuntime (h : Names { s with runtimes := s.runtimes.erase name } n y) :
    s.Names n y := by
  cases y with
  | context c =>
    cases c with
    | ofRuntime => exact (get?_of_get?_erase h).1
    | ofWatchpoint => exact h
  | watchpoint | handle | slot => exact h

theorem names_eraseWatchpoint {w : WatchpointId}
    (h : Names { s with watchpoints := s.watchpoints.erase name } n y) :
    s.Names n y ∧ (y = .watchpoint w → n ≠ name) := by
  cases y with
  | watchpoint => exact (get?_of_get?_erase h).imp_right fun hne _ => hne
  | context c => cases c <;> exact ⟨h, Identity.noConfusion⟩
  | handle | slot => exact ⟨h, Identity.noConfusion⟩

theorem names_eraseHandle {k : HandleId} (h : Names { s with handles := s.handles.erase name } n y) :
    s.Names n y ∧ (y = .handle k → n ≠ name) := by
  cases y with
  | handle => exact (get?_of_get?_erase h).imp_right fun hne _ => hne
  | context c => cases c <;> exact ⟨h, Identity.noConfusion⟩
  | watchpoint | slot => exact ⟨h, Identity.noConfusion⟩

theorem names_eraseSlot {i : SlotId} (h : Names { s with slots := s.slots.erase name } n y) :
    s.Names n y ∧ (y = .slot i → n ≠ name) := by
  cases y with
  | slot => exact (get?_of_get?_erase h).imp_right fun hne _ => hne
  | context c => cases c <;> exact ⟨h, Identity.noConfusion⟩
  | watchpoint | handle => exact ⟨h, Identity.noConfusion⟩

/-! ### What is reported changes nothing -/

theorem moment_deliver (s : Session) (outcome : Outcome) (events : List Event) :
    (s.deliver outcome events).moment = s.moment := by
  unfold deliver moment
  cases s.stack <;> rfl

theorem proper_deliver (h : s.Proper) (outcome : Outcome) (events : List Event) :
    (s.deliver outcome events).Proper := by
  unfold deliver
  unfold Proper waits at h ⊢
  cases hs : s.stack with
  | nil =>
    rw [hs] at h
    exact h
  | cons a rest =>
    rw [hs] at h
    exact h

theorem receive_eq (s : Session) (buffer : BufferName) (request : Request) :
    ∃ patchers buffers recorders, (s.receive buffer request).1 =
      { s with patchers := patchers, buffers := buffers, recorders := recorders } := by
  unfold receive
  cases request with
  | patch patcher source destination => cases patcher <;> exact ⟨_, _, _, rfl⟩
  | locate label => cases buffer <;> exact ⟨_, _, _, rfl⟩

/-! ### New objects -/

theorem lends_watchpoint {w : WatchpointId} (h : ∀ d ∈ s.waits, d.loan ≠ .watchpoint w) :
    s.moment.lends (.watchpoint w) = false := by
  refine Moment.not_lends fun x hx => ?_
  obtain ⟨a, ha, rfl⟩ := List.mem_map.mp hx
  exact h _ (List.mem_map_of_mem ha)

theorem held?_fresh (h : s.Proper) {x : Identity} (hx : x.number = s.fresh) :
    s.world.held? x = none := by
  by_contra hn
  exact Nat.lt_irrefl _ (hx ▸ h.used x hn)

theorem unnamed_of_fresh (h : s.Proper) {x : Identity} (hx : x.number = s.fresh) (n : String) :
    ¬ s.Names n x := fun hn => by
  have hheld := h.held n x hn
  rw [held?_fresh h hx] at hheld
  cases hheld

theorem unreserved_of_fresh (h : s.Proper) {x : Identity} (hx : x.number = s.fresh) :
    ∀ c ∈ s.waits, ∀ w, c.closing.reserved? = some w → x ≠ .watchpoint w := by
  rintro c hc w hw rfl
  have hheld := (h.reserved c hc w hw).1
  rw [held?_fresh h hx] at hheld
  cases hheld

end Session

end Scenario

end Invalidation
