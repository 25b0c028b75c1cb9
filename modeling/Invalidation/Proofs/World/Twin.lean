import Invalidation.Proofs.World.Owners

/-! A slot and the set that it stands for. Two worlds are *alike* if they agree on everything but one
    assumption, which the left world keeps in a slot and the right one in a set with a handle of its
    own:

        left                                right
        slot i, thin, with flags f          set of handle h, with flags f and nobody registered
        slot i, with a share in its set     set of handle h, the same flags and the same list

    Names are the same on both sides but for that set: where the left says the set of the slot, the
    right says the set of the handle. A change to an object on the left, with the same change to its
    twin on the right, leaves the worlds alike; that the slot gets its set is the one change on the
    left alone. -/

namespace Invalidation

/-- The name that a set on the left has on the right, where the set of slot `i` is that of handle
    `h`. -/
def SetId.twin (i : SlotId) (h : HandleId) (s : SetId) : SetId :=
  if s = .ofSlot i 0 then .ofHandle h else s

/-- A watchpoint on the left, with the names of the right. -/
def Watchpoint.twin (i : SlotId) (h : HandleId) (v : Watchpoint) : Watchpoint :=
  { v with membership := v.membership.map fun m => { m with set := m.set.twin i h } }

/-- The right world is like the left one, but for the slot `i` on the left and the handle `h` on the
    right. -/
structure World.Alike (i : SlotId) (h : HandleId) (σ τ : World) : Prop where
  contexts : ∀ c, τ.contexts.get? c = σ.contexts.get? c
  watchpoints : ∀ w, τ.watchpoints.get? w = (σ.watchpoints.get? w).map (Watchpoint.twin i h)
  sets : ∀ s, s ≠ .ofSlot i 0 → s ≠ .ofHandle h → τ.sets.get? s = σ.sets.get? s
  known : ∀ k, k ≠ h → τ.handles.contains k = σ.handles.contains k
  shares : ∀ k, k ≠ h → τ.handleSet? k = (σ.handleSet? k).map (SetId.twin i h)
  slots : ∀ j, j ≠ i → τ.slots.get? j = σ.slots.get? j
  noHandle : σ.handles.get? h = none
  noSlot : τ.slots.get? i = none
  handle : τ.handleSet? h = some (.ofHandle h)
  /-- The assumption itself: flags in the slot, or a set. -/
  own : (∃ f, σ.slots.get? i = some ⟨.thin f, 0, true⟩ ∧
      τ.sets.get? (.ofHandle h) = some { flags := f }) ∨
    σ.slots.get? i = some ⟨.fat (.ofSlot i 0), 1, true⟩ ∧
      τ.sets.get? (.ofHandle h) = σ.sets.get? (.ofSlot i 0)

variable {i : SlotId} {h : HandleId} {σ τ : World} {s x : SetId} {w : WatchpointId}

theorem SetId.twin_own : SetId.twin i h (.ofSlot i 0) = .ofHandle h := if_pos rfl

theorem SetId.twin_of_ne (hs : s ≠ .ofSlot i 0) : s.twin i h = s := if_neg hs

/-! ### Looking objects up -/

namespace World.Alike

theorem watchpoint (A : Alike i h σ τ) (w : WatchpointId) :
    τ.watchpoint w = (σ.watchpoint w).twin i h := by
  rw [World.watchpoint, World.watchpoint, A.watchpoints]
  cases σ.watchpoints.get? w <;> rfl

theorem held (A : Alike i h σ τ) (w : WatchpointId) :
    (τ.watchpoint w).held = (σ.watchpoint w).held := by
  rw [A.watchpoint]
  rfl

theorem source (A : Alike i h σ τ) (w : WatchpointId) :
    (τ.watchpoint w).source = (σ.watchpoint w).source := by
  rw [A.watchpoint]
  rfl

theorem destination (A : Alike i h σ τ) (w : WatchpointId) :
    (τ.watchpoint w).destination = (σ.watchpoint w).destination := by
  rw [A.watchpoint]
  rfl

theorem isOnList (A : Alike i h σ τ) (w : WatchpointId) :
    (τ.watchpoint w).isOnList = (σ.watchpoint w).isOnList := by
  rw [A.watchpoint]
  exact Option.isSome_map ..

theorem contextOf (A : Alike i h σ τ) (w : WatchpointId) : τ.contextOf w = σ.contextOf w := by
  rw [World.contextOf, World.contextOf, A.watchpoint, context, context, A.contexts]
  rfl

theorem ne_handle (A : Alike i h σ τ) (issued : σ.Issued s) : s ≠ .ofHandle h := by
  rintro rfl
  exact not_issued_of_new_handle A.noHandle issued

/-- Once the set of the slot has been made, the slot has it. -/
theorem fat_of_issued (A : Alike i h σ τ) (issued : σ.Issued (.ofSlot i 0)) :
    σ.slots.get? i = some ⟨.fat (.ofSlot i 0), 1, true⟩ ∧
      τ.sets.get? (.ofHandle h) = σ.sets.get? (.ofSlot i 0) := by
  refine A.own.resolve_left ?_
  rintro ⟨f, ht, -⟩
  exact not_issued_of_promotions ht issued

theorem get?_twin (A : Alike i h σ τ) (issued : σ.Issued s) :
    τ.sets.get? (s.twin i h) = σ.sets.get? s := by
  by_cases hs : s = .ofSlot i 0
  · subst hs
    rw [SetId.twin_own]
    exact (A.fat_of_issued issued).2
  · rw [SetId.twin_of_ne hs]
    exact A.sets s hs (A.ne_handle issued)

/-- Sets that have been made on the left have different names on the right. -/
theorem twin_inj (A : Alike i h σ τ) (hs : σ.Issued s) (hx : σ.Issued x) :
    s.twin i h = x.twin i h ↔ s = x := by
  refine ⟨fun he => ?_, congrArg _⟩
  by_cases hs' : s = .ofSlot i 0 <;> by_cases hx' : x = .ofSlot i 0
  · rw [hs', hx']
  · rw [hs', SetId.twin_own, SetId.twin_of_ne hx'] at he
    exact absurd he.symm (A.ne_handle hx)
  · rw [hx', SetId.twin_own, SetId.twin_of_ne hs'] at he
    exact absurd he (A.ne_handle hs)
  · rwa [SetId.twin_of_ne hs', SetId.twin_of_ne hx'] at he

theorem flagsOf (A : Alike i h σ τ) (issued : σ.Issued s) : τ.flagsOf (s.twin i h) = σ.flagsOf s := by
  rw [World.flagsOf, World.flagsOf, A.get?_twin issued]

theorem watchersOf (A : Alike i h σ τ) (issued : σ.Issued s) :
    τ.watchersOf (s.twin i h) = σ.watchersOf s := by
  rw [World.watchersOf, World.watchersOf, A.get?_twin issued]

theorem slot? (A : Alike i h σ τ) {j : SlotId} (hj : j ≠ i) : τ.slot? j = σ.slot? j := by
  rw [World.slot?, World.slot?, A.slots j hj]

theorem fatSet? (A : Alike i h σ τ) {j : SlotId} (hj : j ≠ i) : τ.fatSet? j = σ.fatSet? j := by
  rw [World.fatSet?, World.fatSet?, A.slot? hj]

theorem ne_of_handleSet? (A : Alike i h σ τ) {k : HandleId} (share : σ.handleSet? k = some s) :
    k ≠ h := by
  rintro rfl
  obtain ⟨t, ht, -⟩ := handleSet?_eq_some_iff.mp share
  rw [A.noHandle] at ht
  cases ht

/-! ### Changes to one object -/

theorem modifyWatchpoint (A : Alike i h σ τ) {f g : Watchpoint → Watchpoint}
    (same : ∀ v, g (v.twin i h) = (f v).twin i h) (w : WatchpointId) :
    Alike i h (σ.modifyWatchpoint w f) (τ.modifyWatchpoint w g) := by
  refine { A with watchpoints := fun x => ?_ }
  rw [World.modifyWatchpoint, World.modifyWatchpoint, Store.get?_modify, Store.get?_modify,
    A.watchpoints x]
  split
  · rw [Option.map_map, Option.map_map]
    exact congrArg (Option.map · _) (funext same)
  · rfl

/-- A change to a set on the left, and the same to its twin on the right. -/
theorem modifySet (A : Alike i h σ τ) (issued : σ.Issued s) (f : WatchpointSet → WatchpointSet) :
    Alike i h (σ.modifySet s f) (τ.modifySet (s.twin i h) f) := by
  have hne := A.ne_handle issued
  by_cases hs : s = .ofSlot i 0
  · subst hs
    obtain ⟨hslot, hown⟩ := A.fat_of_issued issued
    rw [SetId.twin_own]
    refine { A with sets := fun x hx hx' => ?_, own := Or.inr ⟨hslot, ?_⟩ }
    · rw [World.modifySet, World.modifySet, Store.get?_modify, Store.get?_modify, if_neg hx'.symm,
        if_neg hx.symm, A.sets x hx hx']
    · rw [World.modifySet, World.modifySet, Store.get?_modify, Store.get?_modify, if_pos rfl,
        if_pos rfl, hown]
  · rw [SetId.twin_of_ne hs]
    refine { A with sets := fun x hx hx' => ?_, own := ?_ }
    · rw [World.modifySet, World.modifySet, Store.get?_modify, Store.get?_modify, A.sets x hx hx']
    · simp only [World.modifySet, Store.get?_modify, if_neg hs, if_neg hne]
      exact A.own

theorem modifyFlags (A : Alike i h σ τ) (issued : σ.Issued s) (f : Flags → Flags) :
    Alike i h (σ.modifyFlags s f) (τ.modifyFlags (s.twin i h) f) := A.modifySet issued _

theorem count (A : Alike i h σ τ) (w : WatchpointId) (f : Counters → Counters) :
    Alike i h (σ.count w f) (τ.count w f) := by
  have hcontext : (τ.watchpoint w).context = (σ.watchpoint w).context := by
    rw [A.watchpoint]
    rfl
  refine { A with contexts := fun c => ?_ }
  rw [World.count, World.count, Store.get?_modify, Store.get?_modify, hcontext, A.contexts]

theorem unlink (A : Alike i h σ τ) (hσ : σ.Coherent) (w : WatchpointId) :
    Alike i h (σ.unlink w) (τ.unlink w) := by
  have htwin : (τ.watchpoint w).membership =
      (σ.watchpoint w).membership.map fun m => { m with set := m.set.twin i h } := by
    rw [A.watchpoint]
    rfl
  rw [World.unlink, World.unlink, htwin]
  cases hm : (σ.watchpoint w).membership with
  | none => exact A
  | some m =>
    obtain ⟨b, ht⟩ := tie?_eq_some_of_membership hm
    have A' := A.modifyWatchpoint (f := fun v => { v with membership := none })
      (g := fun v => { v with membership := none }) (fun _ => rfl) w
    exact A'.modifySet (s := m.set) (hσ.named w b m ht) _

theorem link (A : Alike i h σ τ) (issued : σ.Issued s) (w : WatchpointId) :
    Alike i h (σ.link s w) (τ.link (s.twin i h) w) := by
  simp only [World.link, A.watchersOf issued]
  exact (A.modifySet issued _).modifyWatchpoint
    (f := fun v => { v with membership := some ⟨s, ((σ.watchersOf s).pushBack w).2⟩ })
    (g := fun v => { v with membership := some ⟨s.twin i h, ((σ.watchersOf s).pushBack w).2⟩ })
    (fun _ => rfl) w

/-- A set that nobody owns is struck off on both sides. -/
theorem erase (A : Alike i h σ τ) (issued : σ.Issued s) (alone : ¬ σ.Owned s) :
    Alike i h { σ with sets := σ.sets.erase s } { τ with sets := τ.sets.erase (s.twin i h) } := by
  have hne := A.ne_handle issued
  have hs : s ≠ .ofSlot i 0 := by
    rintro rfl
    obtain ⟨hslot, -⟩ := A.fat_of_issued issued
    exact alone (Or.inr ⟨i, fatSet?_eq_some_iff.mpr ⟨_, hslot, rfl, rfl⟩⟩)
  rw [SetId.twin_of_ne hs]
  refine { A with sets := fun x hx hx' => ?_, own := ?_ }
  · rw [Store.get?_erase, Store.get?_erase, A.sets x hx hx']
  · simp only [Store.get?_erase, if_neg hs, if_neg hne]
    exact A.own

/-! ### Making objects, and letting go of them -/

theorem putContext (A : Alike i h σ τ) (c : ContextId) (x : Context) :
    Alike i h { σ with contexts := σ.contexts.put c x } { τ with contexts := τ.contexts.put c x } := by
  refine { A with contexts := fun d => ?_ }
  rw [Store.get?_put, Store.get?_put, A.contexts]

theorem putWatchpoint (A : Alike i h σ τ) (w : WatchpointId) {v : Watchpoint}
    (off : v.membership = none) :
    Alike i h { σ with watchpoints := σ.watchpoints.put w v }
      { τ with watchpoints := τ.watchpoints.put w v } := by
  refine { A with watchpoints := fun x => ?_ }
  rw [Store.get?_put, Store.get?_put, A.watchpoints x]
  split
  · rw [Option.map_some, Watchpoint.twin, off, Option.map_none, ← off]
  · rfl

theorem putSet (A : Alike i h σ τ) (own : s ≠ .ofSlot i 0) (other : s ≠ .ofHandle h)
    (t : WatchpointSet) :
    Alike i h { σ with sets := σ.sets.put s t } { τ with sets := τ.sets.put s t } := by
  refine { A with sets := fun x hx hx' => ?_, own := ?_ }
  · rw [Store.get?_put, Store.get?_put, A.sets x hx hx']
  · simp only [Store.get?_put, if_neg own, if_neg other]
    exact A.own

theorem putHandle (A : Alike i h σ τ) {k : HandleId} (hk : k ≠ h) (s : SetId) :
    Alike i h { σ with handles := σ.handles.put k { set := s } }
      { τ with handles := τ.handles.put k { set := s.twin i h } } := by
  have hset : ∀ (υ : World) (x : SetId) (j : HandleId),
      World.handleSet? { υ with handles := υ.handles.put k { set := x } } j =
        if k = j then some x else υ.handleSet? j := by
    intro υ x j
    rw [World.handleSet?, World.handleSet?, Store.get?_put]
    split <;> rfl
  refine { A with known := fun j hj => ?_, shares := fun j hj => ?_, noHandle := ?_, handle := ?_ }
  · have hknown := A.known j hj
    rw [Store.contains, Store.contains] at hknown ⊢
    rw [Store.get?_put, Store.get?_put]
    split
    · rfl
    · exact hknown
  · rw [hset, hset, A.shares j hj]
    split <;> rfl
  · rw [Store.get?_put, if_neg hk]
    exact A.noHandle
  · rw [hset, if_neg hk]
    exact A.handle

theorem newSet (A : Alike i h σ τ) {k : HandleId} (hk : k ≠ h) (mode : InitialMode) :
    Alike i h (σ.newSet k mode) (τ.newSet k mode) :=
  (A.putSet SetId.noConfusion (fun he => hk (SetId.ofHandle.inj he)) _).putHandle hk (.ofHandle k)

theorem newHandle (A : Alike i h σ τ) {k : HandleId} (hk : k ≠ h) (s : Option SetId) :
    Alike i h (σ.newHandle s k) (τ.newHandle (s.map (SetId.twin i h)) k) := by
  cases s with
  | none => exact A
  | some s => exact A.putHandle hk s

theorem dropHandle (A : Alike i h σ τ) {k : HandleId} (hk : k ≠ h) :
    Alike i h { σ with handles := σ.handles.modify k fun t => { t with held := false } }
      { τ with handles := τ.handles.modify k fun t => { t with held := false } } := by
  refine { A with known := fun j hj => ?_, shares := fun j hj => ?_, noHandle := ?_, handle := ?_ }
  · have hknown := A.known j hj
    rw [Store.contains, Store.contains] at hknown ⊢
    rw [Store.get?_modify, Store.get?_modify]
    split
    · rw [Option.isSome_map, Option.isSome_map, hknown]
    · exact hknown
  · rw [handleSet?_dropped, handleSet?_dropped, A.shares j hj]
    split <;> rfl
  · rw [Store.get?_modify, if_neg hk]
    exact A.noHandle
  · rw [handleSet?_dropped, if_neg hk.symm]
    exact A.handle

theorem putSlot (A : Alike i h σ τ) {j : SlotId} (hj : j ≠ i) (t : Slot) :
    Alike i h { σ with slots := σ.slots.put j t } { τ with slots := τ.slots.put j t } := by
  refine { A with slots := fun x hx => ?_, noSlot := ?_, own := ?_ }
  · rw [Store.get?_put, Store.get?_put, A.slots x hx]
  · rw [Store.get?_put, if_neg hj]
    exact A.noSlot
  · simp only [Store.get?_put, if_neg hj]
    exact A.own

theorem modifySlot (A : Alike i h σ τ) {j : SlotId} (hj : j ≠ i) (f : Slot → Slot) :
    Alike i h { σ with slots := σ.slots.modify j f } { τ with slots := τ.slots.modify j f } := by
  refine { A with slots := fun x hx => ?_, noSlot := ?_, own := ?_ }
  · rw [Store.get?_modify, Store.get?_modify, A.slots x hx]
  · rw [Store.get?_modify, if_neg hj]
    exact A.noSlot
  · simp only [Store.get?_modify, if_neg hj]
    exact A.own

theorem promoteFrom (A : Alike i h σ τ) {j : SlotId} (hj : j ≠ i) (t : Slot) (f : Flags) :
    Alike i h (σ.promoteFrom j t f) (τ.promoteFrom j t f) :=
  (A.putSet (fun he => hj (SetId.ofSlot.inj he).1) SetId.noConfusion _).putSlot hj _

/-! ### What happens to the slot alone -/

theorem get?_of_thin (A : Alike i h σ τ) {f : Flags} (thin : σ.slots.get? i = some ⟨.thin f, 0, true⟩) :
    τ.sets.get? (.ofHandle h) = some { flags := f } := by
  rcases A.own with ⟨f', ht, hset⟩ | ⟨ht, -⟩
  · obtain rfl : f' = f := by simpa using ht.symm.trans thin
    exact hset
  · cases ht.symm.trans thin

/-- A slot that keeps flags itself changes them where its twin changes those of the set. -/
theorem store_own (A : Alike i h σ τ) {f : Flags} (thin : σ.slots.get? i = some ⟨.thin f, 0, true⟩)
    (g : Flags → Flags) : Alike i h (σ.store i (.thin (g f))) (τ.modifyFlags (.ofHandle h) g) := by
  have hset := A.get?_of_thin thin
  refine { A with sets := fun x hx hx' => ?_, slots := fun j hj => ?_, own := Or.inl ⟨g f, ?_, ?_⟩ }
  · rw [World.modifyFlags, World.modifySet, Store.get?_modify, if_neg hx'.symm]
    exact A.sets x hx hx'
  · rw [World.store, Store.get?_modify, if_neg hj.symm]
    exact A.slots j hj
  · rw [World.store, Store.get?_modify, if_pos rfl, thin]
    rfl
  · rw [World.modifyFlags, World.modifySet, Store.get?_modify, if_pos rfl, hset]
    rfl

/-- When the slot gets its set, nothing happens on the right. -/
theorem promote_own (A : Alike i h σ τ) {f : Flags} (thin : σ.slots.get? i = some ⟨.thin f, 0, true⟩) :
    Alike i h (σ.promoteFrom i ⟨.thin f, 0, true⟩ f) τ := by
  have hset := A.get?_of_thin thin
  refine { A with sets := fun x hx hx' => ?_, slots := fun j hj => ?_, own := Or.inr ⟨?_, ?_⟩ }
  · rw [World.promoteFrom, Store.get?_put, if_neg hx.symm]
    exact A.sets x hx hx'
  · rw [World.promoteFrom, Store.get?_put, if_neg hj.symm]
    exact A.slots j hj
  · exact Store.get?_put_self ..
  · rw [hset]
    exact (Store.get?_put_self ..).symm

/-- A new slot, and a new set in its place. -/
theorem of_new (hσ : σ.Coherent) (newSlot : σ.slots.get? i = none) (newHandle : σ.handles.get? h = none)
    (mode : InitialMode) :
    Alike i h { σ with slots := σ.slots.put i { storage := .thin mode.flags } } (σ.newSet h mode) := by
  -- no set that has been made so far has another name on the right
  have hsame : ∀ s, σ.Issued s → s.twin i h = s := fun s issued => SetId.twin_of_ne <| by
    rintro rfl
    obtain ⟨t, ht, -⟩ := issued
    rw [newSlot] at ht
    cases ht
  have hput : ∀ k, k ≠ h → (σ.newSet h mode).handles.get? k = σ.handles.get? k := fun k hk =>
    (Store.get?_put _ _ _ _).trans (if_neg hk.symm)
  refine ⟨fun _ => rfl, fun w => ?_, fun s _ hs => ?_, fun k hk => ?_, fun k hk => ?_, fun j hj => ?_,
    newHandle, newSlot, ?_, Or.inl ⟨mode.flags, Store.get?_put_self .., Store.get?_put_self ..⟩⟩
  · show σ.watchpoints.get? w = (σ.watchpoints.get? w).map (Watchpoint.twin i h)
    rcases hw : σ.watchpoints.get? w with _ | ⟨source, destination, _ | m, context, held⟩
    · rfl
    · rfl
    · have issued := hσ.named w held m (by rw [tie?, hw, Option.map_some])
      rw [Option.map_some, Watchpoint.twin, Option.map_some, hsame m.set issued]
  · exact (Store.get?_put _ _ _ _).trans (if_neg hs.symm)
  · rw [Store.contains, hput k hk]
    rfl
  · show (σ.newSet h mode).handleSet? k = (σ.handleSet? k).map (SetId.twin i h)
    rw [World.handleSet?, hput k hk, ← World.handleSet?]
    cases hs : σ.handleSet? k with
    | none => rfl
    | some s => rw [Option.map_some, hsame s (hσ.issued_of_owned (Or.inl ⟨k, hs⟩))]
  · exact ((Store.get?_put _ _ _ _).trans (if_neg hj.symm)).symm
  · exact handleSet?_eq_some_iff.mpr ⟨_, Store.get?_put_self .., rfl, rfl⟩

/-! ### Owners -/

/-- What slots other than `i` share in has the same name on both sides. -/
theorem twin_of_fatSet? (tidy : σ.Tidy) {j : SlotId} (hj : j ≠ i) (share : σ.fatSet? j = some s) :
    s.twin i h = s := by
  obtain ⟨t, ht, -, hfat⟩ := fatSet?_eq_some_iff.mp share
  obtain ⟨n, rfl⟩ := tidy.home j t s ht hfat
  exact SetId.twin_of_ne fun he => hj (SetId.ofSlot.inj he).1

/-- The slot shares in no set but its first one. -/
theorem eq_own_of_fatSet? (A : Alike i h σ τ) (share : σ.fatSet? i = some s) : s = .ofSlot i 0 := by
  obtain ⟨t, ht, -, hfat⟩ := fatSet?_eq_some_iff.mp share
  rcases A.own with ⟨f, ht', -⟩ | ⟨ht', -⟩
  · obtain rfl := Option.some.inj (ht.symm.trans ht')
    cases hfat
  · obtain rfl := Option.some.inj (ht.symm.trans ht')
    exact (Storage.fat.inj hfat).symm

theorem owns_own (A : Alike i h σ τ) (issued : σ.Issued (.ofSlot i 0)) :
    σ.fatSet? i = some (.ofSlot i 0) :=
  fatSet?_eq_some_iff.mpr ⟨_, (A.fat_of_issued issued).1, rfl, rfl⟩

theorem noFatSet (A : Alike i h σ τ) : τ.fatSet? i = none := by
  rw [World.fatSet?, World.slot?, A.noSlot]
  rfl

/-- A handle other than `h` has a share in the twin of a set exactly if it has one in the set. -/
theorem handleSet?_twin_iff (A : Alike i h σ τ) (hσ : σ.Coherent) (issued : σ.Issued s) {k : HandleId}
    (hk : k ≠ h) : τ.handleSet? k = some (s.twin i h) ↔ σ.handleSet? k = some s := by
  rw [A.shares k hk, Option.map_eq_some_iff]
  constructor
  · rintro ⟨x, hx, htwin⟩
    rw [A.twin_inj (hσ.issued_of_owned (Or.inl ⟨k, hx⟩)) issued] at htwin
    rw [← htwin, hx]
  · exact fun hs => ⟨s, hs, rfl⟩

theorem owned_iff (A : Alike i h σ τ) (hσ : σ.Coherent) (tidy : σ.Tidy) (issued : σ.Issued s) :
    τ.Owned (s.twin i h) ↔ σ.Owned s := by
  constructor
  · rintro (⟨k, hk⟩ | ⟨j, hj⟩)
    · by_cases hkh : k = h
      · -- the handle that is on the right alone: its set is that of the slot
        rw [hkh, A.handle] at hk
        have hs : s = .ofSlot i 0 := by
          by_contra hs
          rw [SetId.twin_of_ne hs] at hk
          exact A.ne_handle issued (Option.some.inj hk).symm
        subst hs
        exact Or.inr ⟨i, A.owns_own issued⟩
      · exact Or.inl ⟨k, (A.handleSet?_twin_iff hσ issued hkh).mp hk⟩
    · have hji : j ≠ i := by
        rintro rfl
        rw [A.noFatSet] at hj
        cases hj
      rw [A.fatSet? hji] at hj
      obtain ⟨t, ht, -, hfat⟩ := fatSet?_eq_some_iff.mp hj
      obtain ⟨n, hn⟩ := tidy.home j t _ ht hfat
      have hs : s ≠ .ofSlot i 0 := by
        rintro rfl
        rw [SetId.twin_own] at hn
        cases hn
      rw [SetId.twin_of_ne hs] at hj
      exact Or.inr ⟨j, hj⟩
  · rintro (⟨k, hk⟩ | ⟨j, hj⟩)
    · exact Or.inl ⟨k, (A.handleSet?_twin_iff hσ issued (A.ne_of_handleSet? hk)).mpr hk⟩
    · by_cases hji : j = i
      · obtain rfl := A.eq_own_of_fatSet? (hji ▸ hj)
        rw [SetId.twin_own]
        exact Or.inl ⟨h, A.handle⟩
      · rw [twin_of_fatSet? tidy hji hj]
        exact Or.inr ⟨j, (A.fatSet? hji).trans hj⟩

/-- A set that is not that of the slot has as many owners on the right. -/
theorem owners_eq (A : Alike i h σ τ) (hσ : σ.Coherent) (tidy : σ.Tidy) (tidy' : τ.Tidy)
    (issued : σ.Issued s) (hs : s ≠ .ofSlot i 0) : τ.owners s = σ.owners s := by
  have hne := A.ne_handle issued
  have hany : ∀ (υ : World) (k : HandleId),
      (υ.handles.get? k).any (fun t => t.held && t.set = s) = true ↔ υ.handleSet? k = some s := by
    intro υ k
    rw [handleSet?_eq_some_iff, Option.any_eq_true]
    simp only [Bool.and_eq_true, decide_eq_true_eq]
  have hanySlot : ∀ (υ : World) (j : SlotId),
      (υ.slots.get? j).any (fun t => t.held && t.storage = .fat s) = true ↔ υ.fatSet? j = some s := by
    intro υ j
    rw [fatSet?_eq_some_iff, Option.any_eq_true]
    simp only [Bool.and_eq_true, decide_eq_true_eq]
  have hhandles := tidy'.handles.countP_values_eq tidy.handles (f := fun t => t.held && t.set = s)
    (g := fun t => t.held && t.set = s) fun k => by
      rw [Bool.eq_iff_iff, hany, hany]
      by_cases hk : k = h
      · rw [hk, A.handle, World.handleSet?, A.noHandle]
        exact iff_of_false (fun he => hne (Option.some.inj he).symm) (Option.some_ne_none s).symm
      · have htwin := A.handleSet?_twin_iff hσ issued hk
        rwa [SetId.twin_of_ne hs] at htwin
  have hslots := tidy'.slots.countP_values_eq tidy.slots (f := fun t => t.held && t.storage = .fat s)
    (g := fun t => t.held && t.storage = .fat s) fun j => by
      rw [Bool.eq_iff_iff, hanySlot, hanySlot]
      by_cases hj : j = i
      · rw [hj, A.noFatSet]
        exact iff_of_false (Option.some_ne_none s).symm fun hfat => hs (A.eq_own_of_fatSet? hfat)
      · rw [A.fatSet? hj]
  rw [owners, owners, hhandles, hslots]

end World.Alike

end Invalidation
