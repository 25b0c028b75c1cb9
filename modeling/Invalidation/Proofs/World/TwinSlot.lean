import Invalidation.Proofs.World.TwinTurns

/-! Calls on the slot itself. What is called on slot `i` on the left is called on handle `h` on the
    right, which goes to a set that has been there all along:

        slotAdd i w           ──▶  add h w
        slotStartWatching i   ──▶  startWatching h
        slotNotifyWrite i     ──▶  notifyWrite h, if the set is watched, else nothing
        handleOfSlot i k      ──▶  cloneHandle h k, once there is a set to share in
        inflate i             ──▶  nothing

    Each of them has a case for a slot that keeps flags alone and one for a slot that has a set. In the
    first case the set on the right has the same flags and nobody is registered on it, so a sweep of it
    ends at once. -/

namespace Invalidation

/-- The call on the right that does what the call does on the left, if there has to be one. -/
def Call.twin? (i : SlotId) (h : HandleId) (σ τ : World) (c : Call) : Option Call :=
  if c.takes = some (.slot i) then
    match c with
    | .slotAdd _ w => some (.add h w)
    | .slotStartWatching _ => some (.startWatching h)
    | .slotNotifyWrite _ => if (τ.setReport (.ofHandle h)).watched then some (.notifyWrite h) else none
    | .handleOfSlot _ k => if (σ.fatSet? i).isSome then some (.cloneHandle h k) else none
    | _ => none
  else some c

/-- The call leaves the slot `i` with its set, and the name `h` to the right. -/
structure Call.Within (i : SlotId) (h : HandleId) (c : Call) : Prop where
  kept : c ≠ .freeFat i ∧ c ≠ .promote i ∧ c ≠ .dropSlot i
  unnamed : .handle h ∉ c.makes

instance (i : SlotId) (h : HandleId) (c : Call) : Decidable (c.Within i h) :=
  decidable_of_iff ((c ≠ .freeFat i ∧ c ≠ .promote i ∧ c ≠ .dropSlot i) ∧ .handle h ∉ c.makes)
    ⟨fun w => ⟨w.1, w.2⟩, fun w => ⟨w.kept, w.unnamed⟩⟩

/-- What is on loan on the left, with the names of the right. -/
def Loan.twin (i : SlotId) (h : HandleId) (l : Loan) : Loan := if l = .slot i then .handle h else l

variable {i : SlotId} {h : HandleId} {σ τ : World} {c d : Call}

theorem Loan.twin_of_ne {l : Loan} (hl : l ≠ .slot i) : l.twin i h = l := if_neg hl

/-- A call that is not on the slot is its own twin. -/
theorem Call.twin?_of_ne (elsewhere : c.takes ≠ some (.slot i)) : c.twin? i h σ τ = some c := by
  unfold Call.twin?
  exact if_neg elsewhere

/-- The calls on a slot. -/
inductive Call.On (i : SlotId) : Call → Prop where
  | add (w : Option WatchpointId) : On i (.slotAdd i w)
  | watch : On i (.slotStartWatching i)
  | write : On i (.slotNotifyWrite i)
  | inflate : On i (.inflate i)
  | promote : On i (.promote i)
  | share (k : HandleId) : On i (.handleOfSlot i k)
  | free : On i (.freeFat i)
  | drop : On i (.dropSlot i)

theorem Call.on_of_takes (own : c.takes = some (.slot i)) : c.On i := by
  have hslot : ∀ {j}, some (Loan.slot j) = some (.slot i) → j = i := fun he =>
    Loan.slot.inj (Option.some.inj he)
  cases c with
  | slotAdd j w => exact hslot own ▸ .add w
  | slotStartWatching j => exact hslot own ▸ .watch
  | slotNotifyWrite j => exact hslot own ▸ .write
  | inflate j => exact hslot own ▸ .inflate
  | promote j => exact hslot own ▸ .promote
  | handleOfSlot j k => exact hslot own ▸ .share k
  | freeFat j => exact hslot own ▸ .free
  | dropSlot j => exact hslot own ▸ .drop
  | _ => cases own

/-- The pairs of a call on the left and its twin, one rule for each kind. -/
inductive Call.IsTwin (i : SlotId) (h : HandleId) (σ τ : World) : Call → Call → Prop where
  | add (w : Option WatchpointId) : IsTwin i h σ τ (.slotAdd i w) (.add h w)
  | watch : IsTwin i h σ τ (.slotStartWatching i) (.startWatching h)
  | write (watched : (τ.flagsOf (.ofHandle h)).watched = true) :
      IsTwin i h σ τ (.slotNotifyWrite i) (.notifyWrite h)
  | share (k : HandleId) (fat : (σ.fatSet? i).isSome = true) :
      IsTwin i h σ τ (.handleOfSlot i k) (.cloneHandle h k)
  | same {c : Call} (elsewhere : c.takes ≠ some (.slot i)) : IsTwin i h σ τ c c

theorem Call.isTwin_of_twin? (twin : c.twin? i h σ τ = some d) : IsTwin i h σ τ c d := by
  by_cases own : c.takes = some (.slot i)
  · cases on_of_takes own with
    | add w =>
      rw [twin?, if_pos own] at twin
      exact Option.some.inj twin ▸ .add w
    | watch =>
      rw [twin?, if_pos own] at twin
      exact Option.some.inj twin ▸ .watch
    | write =>
      rw [twin?, if_pos own, Option.ite_none_right_eq_some] at twin
      exact Option.some.inj twin.2 ▸ .write twin.1
    | share k =>
      rw [twin?, if_pos own, Option.ite_none_right_eq_some] at twin
      exact Option.some.inj twin.2 ▸ .share k twin.1
    | inflate | promote | free | drop => simp [twin?, takes] at twin
  · rw [twin?_of_ne own] at twin
    exact Option.some.inj twin ▸ .same own

/-- A call has on loan no slot but the one that it is made on. -/
theorem Call.loan_ne (elsewhere : c.takes ≠ some (.slot i)) : c.loan ≠ .slot i := by
  intro hl
  cases c with
  | slotNotifyWrite j | freeFat j => exact elsewhere (congrArg some hl)
  | _ => cases hl

namespace World.Alike

open Turn

/-- The slot shows the flags of the set on the right. -/
theorem flagsOf_own (A : Alike i h σ τ) : τ.flagsOf (.ofHandle h) = σ.slotFlags (σ.slot i) := by
  rw [World.flagsOf, slot]
  rcases A.own with ⟨f, thin, hset⟩ | ⟨fat, hset⟩
  · rw [thin, hset]
    rfl
  · rw [fat, hset]
    rfl

theorem twins_slotAdd_own (A : Alike i h σ τ) (w : Option WatchpointId) :
    Twins i h (σ.slotAdd i w) (τ.add (.ofHandle h) w) := by
  rcases A.own with ⟨f, thin, -⟩ | ⟨fat, -⟩
  · have A' := A.promote_own thin
    have issued : (σ.promoteFrom i ⟨.thin f, 0, true⟩ f).Issued (.ofSlot i 0) :=
      ⟨_, Store.get?_put_self .., Nat.zero_lt_one⟩
    have hinflate : σ.inflate i = (σ.promoteFrom i ⟨.thin f, 0, true⟩ f, [.promoted f]) := by
      rw [World.inflate, slot?_eq_some_iff.mpr ⟨thin, rfl⟩]
    have T := A'.twins_add issued w
    rw [SetId.twin_own] at T
    simp only [World.slotAdd, hinflate, A'.owns_own issued]
    exact T.after_promoted f
  · have issued : σ.Issued (.ofSlot i 0) := ⟨_, fat, Nat.zero_lt_one⟩
    have hinflate : σ.inflate i = (σ, []) := by
      rw [World.inflate, slot?_eq_some_iff.mpr ⟨fat, rfl⟩]
    have T := A.twins_add issued w
    rw [SetId.twin_own] at T
    simp only [World.slotAdd, hinflate, A.owns_own issued]
    exact T.after []

theorem slotStartWatching_own (A : Alike i h σ τ) :
    Alike i h (σ.slotStartWatching i) (τ.modifyFlags (.ofHandle h) fun f =>
        { f with watched := true }) := by
  rcases A.own with ⟨f, thin, -⟩ | ⟨fat, -⟩
  · rw [World.slotStartWatching, slot?_eq_some_iff.mpr ⟨thin, rfl⟩]
    exact A.store_own thin fun f => { f with watched := true }
  · rw [World.slotStartWatching, slot?_eq_some_iff.mpr ⟨fat, rfl⟩]
    have A' :=
      A.modifyFlags (s := .ofSlot i 0) ⟨_, fat, Nat.zero_lt_one⟩ fun f => { f with watched := true }
    rwa [SetId.twin_own] at A'

theorem twins_slotNotifyWrite_own (A : Alike i h σ τ)
    (watched : (τ.flagsOf (.ofHandle h)).watched = true) :
    Twins i h (σ.slotNotifyWrite i) (τ.notifyWrite (.ofHandle h)) := by
  have hflags := A.flagsOf_own
  rcases A.own with ⟨f, thin, hset⟩ | ⟨fat, -⟩
  · have hf : f.watched = true := by
      rwa [hflags, slot, thin] at watched
    have hempty : (τ.watchersOf (.ofHandle h)).front? = none := by
      rw [World.watchersOf, hset]
      rfl
    rw [World.slotNotifyWrite, slot?_eq_some_iff.mpr ⟨thin, rfl⟩, World.notifyWrite,
      if_pos watched, sweep, sweepOn_of_drained hempty]
    simp only [hf, if_true]
    exact (A.store_own thin fun _ => .broken).twins_done.after []
  · have T := A.twins_notifyWrite (s := .ofSlot i 0) ⟨_, fat, Nat.zero_lt_one⟩
    have hf : (σ.flagsOf (.ofSlot i 0)).watched = true := by
      rwa [hflags, slot, fat] at watched
    rw [SetId.twin_own] at T
    rw [World.slotNotifyWrite, slot?_eq_some_iff.mpr ⟨fat, rfl⟩]
    simp only [hf, if_true]
    exact T

/-- A write to a slot that nobody watches does nothing. -/
theorem slotNotifyWrite_unwatched (A : Alike i h σ τ)
    (unwatched : ¬ (τ.flagsOf (.ofHandle h)).watched = true) : σ.slotNotifyWrite i = σ.done := by
  rw [A.flagsOf_own] at unwatched
  rcases A.own with ⟨f, thin, -⟩ | ⟨fat, -⟩
  · rw [slot, thin] at unwatched
    rw [World.slotNotifyWrite, slot?_eq_some_iff.mpr ⟨thin, rfl⟩]
    exact congrArg done (if_neg unwatched)
  · rw [slot, fat] at unwatched
    rw [World.slotNotifyWrite, slot?_eq_some_iff.mpr ⟨fat, rfl⟩]
    exact if_neg unwatched

/-- The slot gets its set, if it has none, and nothing else happens. -/
theorem inflate_own (A : Alike i h σ τ) :
    Alike i h (σ.inflate i).1 τ ∧ unpromoted (σ.inflate i).2 = [] := by
  rcases A.own with ⟨f, thin, -⟩ | ⟨fat, -⟩
  · rw [World.inflate, slot?_eq_some_iff.mpr ⟨thin, rfl⟩]
    exact ⟨A.promote_own thin, rfl⟩
  · rw [World.inflate, slot?_eq_some_iff.mpr ⟨fat, rfl⟩]
    exact ⟨A, rfl⟩

/-! ### Every call -/

/-- A call and its twin are both possible, and have turns that are twins. -/
theorem twins_begin (A : Alike i h σ τ) (hσ : σ.Coherent) (tidy : σ.Tidy) (tidy' : τ.Tidy)
    (within : c.Within i h) (allowed : σ.allows c = true) (twin : Call.IsTwin i h σ τ c d) :
    τ.allows d = true ∧ d.loan = c.loan.twin i h ∧ Twins i h (σ.begin c) (τ.begin d) := by
  have hhandle : (τ.handleSet? h).isSome = true := by
    rw [A.handle]
    rfl
  have hbegin : ∀ f : SetId → Turn, τ.onHandle h f = f (.ofHandle h) := fun f => by
    rw [onHandle, A.handle]
  cases twin with
  | add w =>
    refine ⟨?_, rfl, ?_⟩
    · rw [allows, hhandle]
      simpa only [A.held, Bool.true_and] using (Bool.and_eq_true_iff.mp allowed).2
    · rw [begin, begin, hbegin]
      exact A.twins_slotAdd_own w
  | watch =>
    refine ⟨hhandle, rfl, ?_⟩
    rw [begin, begin, hbegin]
    exact A.slotStartWatching_own.twins_done
  | write watched =>
    refine ⟨hhandle, (if_pos rfl).symm, ?_⟩
    rw [begin, begin, hbegin]
    exact A.twins_slotNotifyWrite_own watched
  | share k fat =>
    obtain ⟨s, hs⟩ := Option.isSome_iff_exists.mp fat
    obtain rfl := A.eq_own_of_fatSet? hs
    have hk : k ≠ h := fun he => within.unnamed (by simp [Call.makes, he])
    have A' := A.newHandle hk (some (.ofSlot i 0))
    rw [Option.map_some, SetId.twin_own] at A'
    refine ⟨?_, rfl, ?_⟩
    · rw [allows, hhandle, A.known k hk]
      exact (Bool.and_eq_true_iff.mp allowed).2
    · rw [begin, begin, hs, A.handle]
      exact A'.twins_done
  | same elsewhere =>
    exact ⟨A.allows_elsewhere elsewhere within.unnamed allowed,
      (Loan.twin_of_ne (Call.loan_ne elsewhere)).symm,
      A.twins_begin_elsewhere hσ tidy tidy' elsewhere within.unnamed allowed⟩

/-- A call without a twin returns, and changes nothing but that the slot may have got its set. -/
theorem begin_alone (A : Alike i h σ τ) (within : c.Within i h) (twin : c.twin? i h σ τ = none) :
    Alike i h (σ.begin c).world τ ∧ (σ.begin c).next = .returned ∧
    unpromoted (σ.begin c).events = [] := by
  by_cases own : c.takes = some (.slot i)
  · cases Call.on_of_takes own with
    | add | watch =>
      rw [Call.twin?, if_pos own] at twin
      cases twin
    | write =>
      rw [Call.twin?, if_pos own] at twin
      have unwatched : ¬ (τ.flagsOf (.ofHandle h)).watched = true := fun watched => by
        rw [setReport, if_pos watched] at twin
        cases twin
      rw [begin, A.slotNotifyWrite_unwatched unwatched]
      exact ⟨A, rfl, rfl⟩
    | share k =>
      rw [Call.twin?, if_pos own] at twin
      have thin : σ.fatSet? i = none := by simpa using twin
      rw [begin, thin]
      exact ⟨A, rfl, rfl⟩
    | inflate =>
      obtain ⟨A', hevents⟩ := A.inflate_own
      refine ⟨A', rfl, ?_⟩
      rw [begin, after, done, List.append_nil]
      exact hevents
    | promote => exact absurd rfl within.kept.2.1
    | free => exact absurd rfl within.kept.1
    | drop => exact absurd rfl within.kept.2.2
  · rw [Call.twin?_of_ne own] at twin
    cases twin

end World.Alike

end Invalidation
