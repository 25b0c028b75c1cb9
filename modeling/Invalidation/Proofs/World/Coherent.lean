import Invalidation.Proofs.WatchList.Entries
import Invalidation.Proofs.World.Edit

/-! Lists and memberships agree. The list of a set names its watchpoints, and each of these names the
    set and its own key there: two sides of one link that are stored apart. In a *coherent* world each
    side has the other.

        set s ── entry (k, w) ──▶ watchpoint w
              ◀── membership ⟨s, k⟩ ──

    A membership may outlive its set, when the destruction of the set ended abruptly; it then names a
    set that is gone and whose identity never comes back, which is why `Issued` belongs here. -/

namespace Invalidation

namespace World

variable {σ τ : World}

/-- What a watchpoint has to do with lists: whether it is held, and its membership. -/
def tie? (σ : World) (w : WatchpointId) : Option (Bool × Option Membership) :=
  (σ.watchpoints.get? w).map fun v => (v.held, v.membership)

/-- The list of a set, if the set is there. -/
def list? (σ : World) (s : SetId) : Option (WatchList WatchpointId) :=
  (σ.sets.get? s).map WatchpointSet.watchers

/-- Every entry of a list and the membership of its watchpoint name each other. -/
structure Coherent (σ : World) : Prop where
  /-- The cells of every list form one chain. -/
  sound : ∀ s l, σ.list? s = some l → l.Sound
  /-- Who is on a list has not been dropped, and names that list and the key there. -/
  inward : ∀ s l k w, σ.list? s = some l → l.get? k = some w → σ.tie? w = some (true, some ⟨s, k⟩)
  /-- Who names a list that is still there is behind the key that it names. -/
  outward : ∀ w b s k l, σ.tie? w = some (b, some ⟨s, k⟩) → σ.list? s = some l → l.get? k = some w
  /-- A membership names a set that has been made. -/
  named : ∀ w b m, σ.tie? w = some (b, some m) → σ.Issued m.set
  /-- What is there has been made. -/
  made : ∀ s l, σ.list? s = some l → σ.Issued s
  /-- What has an owner is there. -/
  alive : ∀ s, σ.Owned s → ∃ l, σ.list? s = some l

theorem coherent_empty : Coherent {} where
  sound := by simp [list?]
  inward := by simp [list?]
  outward := by simp [list?]
  named := by simp [tie?]
  made := by simp [list?]
  alive s hs := by simp [Owned, handleSet?_eq_some_iff, fatSet?_eq_some_iff] at hs

/-- A world stays coherent while ties and lists stay, no set loses its record and none wins an owner. -/
theorem Coherent.congr (h : σ.Coherent) (ties : ∀ w, τ.tie? w = σ.tie? w)
    (lists : ∀ s, τ.list? s = σ.list? s) (issued : ∀ s, σ.Issued s → τ.Issued s)
    (owned : ∀ s, τ.Owned s → σ.Owned s) : τ.Coherent where
  sound s l hl := h.sound s l (lists s ▸ hl)
  inward s l k w hl hk := (ties w).trans (h.inward s l k w (lists s ▸ hl) hk)
  outward w b s k l ht hl := h.outward w b s k l (ties w ▸ ht) (lists s ▸ hl)
  named w b m ht := issued _ (h.named w b m (ties w ▸ ht))
  made s l hl := issued _ (h.made s l (lists s ▸ hl))
  alive s hs := by
    obtain ⟨l, hl⟩ := h.alive s (owned s hs)
    exact ⟨l, (lists s).trans hl⟩

/-- Two watchpoints never share an entry, so one that is behind a key is the only one that names it. -/
theorem Coherent.eq_of_tie? (h : σ.Coherent) {w x : WatchpointId} {b c : Bool} {s : SetId}
    {k : WatchList.Key} {l : WatchList WatchpointId} (hl : σ.list? s = some l)
    (hw : σ.tie? w = some (b, some ⟨s, k⟩)) (hx : σ.tie? x = some (c, some ⟨s, k⟩)) : w = x :=
  Option.some.inj ((h.outward w b s k l hw hl).symm.trans (h.outward x c s k l hx hl))

/-! ### What changes to one object do to ties and lists -/

theorem tie?_modifyWatchpoint (σ : World) (w x : WatchpointId) (f : Watchpoint → Watchpoint) :
    (σ.modifyWatchpoint w f).tie? x =
      if w = x then (σ.watchpoints.get? x).map fun v => ((f v).held, (f v).membership)
      else σ.tie? x := by
  unfold tie? modifyWatchpoint
  rw [Store.get?_modify]
  split
  · rw [Option.map_map]
    rfl
  · rfl

theorem list?_modifySet (σ : World) (s x : SetId) (f : WatchpointSet → WatchpointSet) :
    (σ.modifySet s f).list? x =
      if s = x then (σ.sets.get? x).map fun t => (f t).watchers else σ.list? x := by
  unfold list? modifySet
  rw [Store.get?_modify]
  split
  · rw [Option.map_map]
    rfl
  · rfl

theorem membership_eq (σ : World) (w : WatchpointId) :
    (σ.watchpoint w).membership = (σ.tie? w).bind Prod.snd := by
  unfold watchpoint tie?
  cases σ.watchpoints.get? w <;> rfl

theorem watchersOf_of_list? {s : SetId} {l : WatchList WatchpointId} (hl : σ.list? s = some l) :
    σ.watchersOf s = l := by
  rw [watchersOf, ← list?, hl]
  rfl

theorem tie?_eq_some_of_membership {w : WatchpointId} {m : Membership}
    (h : (σ.watchpoint w).membership = some m) : ∃ b, σ.tie? w = some (b, some m) := by
  rw [membership_eq] at h
  obtain ⟨⟨b, m'⟩, ht, hm⟩ := Option.bind_eq_some_iff.mp h
  exact ⟨b, ht.trans (congrArg (fun m => some (b, m)) hm)⟩

/-! ### Leaving a list -/

theorem unlink_of_off {w : WatchpointId} (h : (σ.watchpoint w).membership = none) :
    σ.unlink w = σ := by
  rw [unlink, h]

theorem tie?_unlink (σ : World) (w x : WatchpointId) :
    (σ.unlink w).tie? x = if w = x then (σ.tie? x).map fun p => (p.1, none) else σ.tie? x := by
  unfold unlink
  split
  · next h =>
    split
    · next e =>
      subst e
      rw [membership_eq] at h
      rcases ht : σ.tie? w with _ | ⟨b, m⟩
      · rfl
      · rw [ht] at h
        rw [Option.map_some, show m = none from h]
    · rfl
  · next m h =>
    rw [show ∀ υ : World, (υ.modifySet m.set _).tie? x = υ.tie? x from fun _ => rfl,
      tie?_modifyWatchpoint]
    split
    · next e =>
      subst e
      rw [tie?, Option.map_map]
      rfl
    · rfl

theorem list?_unlink (σ : World) (w : WatchpointId) (s : SetId) :
    (σ.unlink w).list? s =
      match (σ.watchpoint w).membership with
      | some m => if m.set = s then (σ.list? s).map fun l => (l.remove m.key).1 else σ.list? s
      | none => σ.list? s := by
  unfold unlink
  cases (σ.watchpoint w).membership with
  | none => rfl
  | some m =>
    simp only [list?_modifySet]
    split
    · rw [list?, Option.map_map]
      rfl
    · rfl

/-- Leaving its list keeps both sides of every other link. -/
theorem Coherent.unlink (h : σ.Coherent) (w : WatchpointId) : (σ.unlink w).Coherent := by
  cases hm : (σ.watchpoint w).membership with
  | none => rwa [unlink_of_off hm]
  | some m =>
    obtain ⟨s, k⟩ := m
    obtain ⟨b, hw⟩ := tie?_eq_some_of_membership hm
    have hlist : ∀ x, (σ.unlink w).list? x =
        if s = x then (σ.list? x).map fun l => (l.remove k).1 else σ.list? x := fun x => by
      rw [list?_unlink, hm]
    have hissued : ∀ x, σ.Issued x → (σ.unlink w).Issued x := fun x hx => by
      rw [World.unlink, hm]
      exact hx
    have howned : ∀ x, (σ.unlink w).Owned x → σ.Owned x := fun x hx => by
      rw [World.unlink, hm] at hx
      exact hx
    -- a list that is there after the edit was there before, and holds no more than it did
    have hback : ∀ {x l}, (σ.unlink w).list? x = some l →
        ∃ l', σ.list? x = some l' ∧ l.Sound ∧
          ∀ j, l.get? j = if s = x ∧ j = k then none else l'.get? j := by
      intro x l hl
      rw [hlist] at hl
      split at hl
      · next e =>
        obtain ⟨l', hl', rfl⟩ := Option.map_eq_some_iff.mp hl
        have hs := h.sound x l' hl'
        exact ⟨l', hl', hs.remove k, fun j => by simp [hs.get?_remove, e]⟩
      · next e => exact ⟨l, hl, h.sound x l hl, fun j => by simp [e]⟩
    refine ⟨fun x l hl => (hback hl).choose_spec.2.1, ?_, ?_, ?_, ?_, ?_⟩
    · intro x l j y hl hj
      obtain ⟨l', hl', -, hget⟩ := hback hl
      rw [hget] at hj
      split at hj
      · cases hj
      · next hne =>
        have hy := h.inward x l' j y hl' hj
        rw [tie?_unlink, if_neg]
        · exact hy
        · rintro rfl
          rw [hw] at hy
          injection hy with hy
          injection hy with _ hy
          injection hy with hy
          injection hy with hs hk
          exact hne ⟨hs, hk.symm⟩
    · intro y c x j l hy hl
      obtain ⟨l', hl', -, hget⟩ := hback hl
      rw [tie?_unlink] at hy
      split at hy
      · obtain ⟨p, -, hp⟩ := Option.map_eq_some_iff.mp hy
        cases hp
      · next hne =>
        rw [hget, if_neg, h.outward y c x j l' hy hl']
        rintro ⟨rfl, rfl⟩
        exact hne (h.eq_of_tie? hl' hw hy)
    · intro y c m hy
      rw [tie?_unlink] at hy
      split at hy
      · obtain ⟨p, -, hp⟩ := Option.map_eq_some_iff.mp hy
        cases hp
      · exact hissued _ (h.named y c m hy)
    · intro x l hl
      obtain ⟨l', hl', -⟩ := hback hl
      exact hissued x (h.made x l' hl')
    · intro x hx
      obtain ⟨l, hl⟩ := h.alive x (howned x hx)
      rw [hlist, hl]
      split
      · exact ⟨_, rfl⟩
      · exact ⟨_, rfl⟩

/-! ### Joining a list -/

theorem list?_link {s : SetId} {w : WatchpointId} {l : WatchList WatchpointId}
    (hl : σ.list? s = some l) (x : SetId) :
    (σ.link s w).list? x = if s = x then some (l.pushBack w).1 else σ.list? x := by
  unfold link
  rw [show ∀ (υ : World) (f : Watchpoint → Watchpoint),
      (υ.modifyWatchpoint w f).list? x = υ.list? x from fun _ _ => rfl, list?_modifySet,
    watchersOf_of_list? hl]
  split
  · next e =>
    subst e
    obtain ⟨t, ht, -⟩ := Option.map_eq_some_iff.mp hl
    rw [ht]
    rfl
  · rfl

theorem tie?_link {s : SetId} {w : WatchpointId} {l : WatchList WatchpointId}
    (hl : σ.list? s = some l) (x : WatchpointId) :
    (σ.link s w).tie? x =
      if w = x then (σ.tie? x).map fun p => (p.1, some ⟨s, (l.pushBack w).2⟩) else σ.tie? x := by
  unfold link
  rw [watchersOf_of_list? hl, tie?_modifyWatchpoint]
  split
  · rw [tie?, Option.map_map]
    rfl
  · rfl

/-- Joining a list keeps both sides of every link, and makes both sides of a new one. -/
theorem Coherent.link (h : σ.Coherent) {s : SetId} {w : WatchpointId} (hs : σ.Owned s)
    (hw : σ.tie? w = some (true, none)) : (σ.link s w).Coherent := by
  obtain ⟨l₀, hl₀⟩ := h.alive s hs
  have hs₀ := h.sound s l₀ hl₀
  have hlist := list?_link (w := w) hl₀
  have htie : ∀ x, (σ.link s w).tie? x =
      if w = x then some (true, some ⟨s, (l₀.pushBack w).2⟩) else σ.tie? x := fun x => by
    rw [tie?_link hl₀]
    split
    · next e =>
      rw [← e, hw]
      rfl
    · rfl
  have hissued : ∀ x, σ.Issued x → (σ.link s w).Issued x := fun _ hx => hx
  have hoff : ∀ {x l j}, σ.list? x = some l → l.get? j ≠ some w := fun {x l j} hl hj => by
    have hin := h.inward x l j w hl hj
    rw [hw] at hin
    cases hin
  refine ⟨?_, ?_, ?_, ?_, ?_, ?_⟩
  · intro x l hl
    rw [hlist] at hl
    split at hl
    · exact Option.some.inj hl ▸ hs₀.pushBack w
    · exact h.sound x l hl
  · intro x l j y hl hj
    rw [hlist] at hl
    rw [htie]
    split at hl
    · next e =>
      subst e
      obtain rfl := Option.some.inj hl
      rw [hs₀.get?_pushBack] at hj
      split at hj
      · next ej =>
        rw [if_pos (Option.some.inj hj), ej]
      · rw [if_neg fun e => hoff hl₀ (e ▸ hj)]
        exact h.inward s l₀ j y hl₀ hj
    · rw [if_neg fun e => hoff hl (e ▸ hj)]
      exact h.inward x l j y hl hj
  · intro y c x j l hy hl
    rw [htie] at hy
    rw [hlist] at hl
    split at hy
    · next e =>
      injection hy with hy
      injection hy with _ hy
      injection hy with hy
      injection hy with hx hj
      rw [if_pos hx] at hl
      rw [← Option.some.inj hl, hs₀.get?_pushBack, if_pos hj.symm, e]
    · split at hl
      · next e =>
        subst e
        have hget := h.outward y c s j l₀ hy hl₀
        rw [← Option.some.inj hl, hs₀.get?_pushBack, if_neg, hget]
        rintro rfl
        rw [hs₀.get?_key_pushBack] at hget
        cases hget
      · exact h.outward y c x j l hy hl
  · intro y c m hy
    rw [htie] at hy
    split at hy
    · injection hy with hy
      injection hy with _ hy
      rw [← Option.some.inj hy]
      exact hissued s (h.made s l₀ hl₀)
    · exact hissued _ (h.named y c m hy)
  · intro x l hl
    rw [hlist] at hl
    split at hl
    · next e => exact hissued x (e ▸ h.made s l₀ hl₀)
    · exact hissued x (h.made x l hl)
  · intro x hx
    rw [hlist]
    split
    · exact ⟨_, rfl⟩
    · exact h.alive x hx

/-! ### Making and striking off -/

/-- A set that has never been made before begins with an empty list. -/
theorem Coherent.extend (h : σ.Coherent) {s : SetId} (new : ¬ σ.Issued s)
    (ties : ∀ w, τ.tie? w = σ.tie? w)
    (lists : ∀ x, τ.list? x = if s = x then some {} else σ.list? x)
    (issued : ∀ x, σ.Issued x → τ.Issued x) (made : τ.Issued s)
    (owned : ∀ x, τ.Owned x → s = x ∨ σ.Owned x) : τ.Coherent := by
  refine ⟨?_, ?_, ?_, ?_, ?_, ?_⟩
  · intro x l hl
    rw [lists] at hl
    split at hl
    · exact Option.some.inj hl ▸ WatchList.sound_empty
    · exact h.sound x l hl
  · intro x l k w hl hk
    rw [lists] at hl
    split at hl
    · rw [← Option.some.inj hl] at hk
      simp [WatchList.get?] at hk
    · exact (ties w).trans (h.inward x l k w hl hk)
  · intro w b x k l hw hl
    rw [ties] at hw
    rw [lists] at hl
    split at hl
    · next e => exact absurd (e ▸ h.named w b _ hw) new
    · exact h.outward w b x k l hw hl
  · exact fun w b m hw => issued _ (h.named w b m (ties w ▸ hw))
  · intro x l hl
    rw [lists] at hl
    split at hl
    · next e => exact e ▸ made
    · exact issued x (h.made x l hl)
  · intro x hx
    rw [lists]
    split
    · exact ⟨_, rfl⟩
    · next hne => exact h.alive x ((owned x hx).resolve_left hne)

/-- Whom no list knows may appear or change as long as it joins no list. -/
theorem Coherent.retie (h : σ.Coherent) {w : WatchpointId} {b : Bool}
    (off : ∀ c m, σ.tie? w ≠ some (c, some m))
    (ties : ∀ x, τ.tie? x = if w = x then some (b, none) else σ.tie? x)
    (rest : τ.sets = σ.sets ∧ τ.handles = σ.handles ∧ τ.slots = σ.slots) : τ.Coherent := by
  have hlist : ∀ s, τ.list? s = σ.list? s := fun s => by rw [list?, list?, rest.1]
  have hissued : ∀ s, τ.Issued s = σ.Issued s := fun s => by
    cases s <;> simp only [Issued, rest.2.1, rest.2.2]
  have howned : ∀ s, τ.Owned s → σ.Owned s := fun s hs => by
    simpa only [Owned, handleSet?_eq_some_iff, fatSet?_eq_some_iff, rest.2.1, rest.2.2] using hs
  refine ⟨?_, ?_, ?_, ?_, ?_, ?_⟩
  · exact fun s l hl => h.sound s l (hlist s ▸ hl)
  · intro s l k x hl hk
    have hx := h.inward s l k x (hlist s ▸ hl) hk
    rw [ties, if_neg fun e => off _ _ (e ▸ hx)]
    exact hx
  · intro x c s k l hx hl
    rw [ties] at hx
    split at hx
    · cases hx
    · exact h.outward x c s k l hx (hlist s ▸ hl)
  · intro x c m hx
    rw [ties] at hx
    split at hx
    · cases hx
    · exact hissued _ ▸ h.named x c m hx
  · exact fun s l hl => hissued s ▸ h.made s l (hlist s ▸ hl)
  · intro s hs
    obtain ⟨l, hl⟩ := h.alive s (howned s hs)
    exact ⟨l, (hlist s).trans hl⟩

/-- A set that nobody owns may be struck off. -/
theorem Coherent.erase (h : σ.Coherent) {s : SetId} (alone : ¬ σ.Owned s) :
    Coherent { σ with sets := σ.sets.erase s } := by
  have hlist : ∀ {x l}, World.list? { σ with sets := σ.sets.erase s } x = some l →
      s ≠ x ∧ σ.list? x = some l := by
    intro x l hl
    rw [list?, Store.get?_erase] at hl
    split at hl
    · cases hl
    · next hne => exact ⟨hne, hl⟩
  refine ⟨?_, ?_, ?_, h.named, ?_, ?_⟩
  · exact fun x l hl => h.sound x l (hlist hl).2
  · exact fun x l k w hl hk => h.inward x l k w (hlist hl).2 hk
  · exact fun w b x k l hw hl => h.outward w b x k l hw (hlist hl).2
  · exact fun x l hl => h.made x l (hlist hl).2
  · intro x hx
    obtain ⟨l, hl⟩ := h.alive x hx
    refine ⟨l, ?_⟩
    have hne : s ≠ x := fun e => alone (e ▸ hx)
    rw [list?, Store.get?_erase, if_neg hne]
    exact hl

/-! ### Every edit keeps a world coherent -/

theorem tie?_locate (σ : World) (w x : WatchpointId) (s d : Address) :
    (σ.modifyWatchpoint w fun v => { v with source := .address s, destination := .address d }).tie? x =
      σ.tie? x := by
  rw [tie?_modifyWatchpoint]
  split <;> rfl

theorem tie?_letGo {w : WatchpointId} (off : (σ.watchpoint w).membership = none)
    (x : WatchpointId) :
    (σ.modifyWatchpoint w fun v => { v with held := false }).tie? x =
      if w = x then (σ.tie? x).map fun _ => (false, none) else σ.tie? x := by
  rw [tie?_modifyWatchpoint]
  split
  · next e =>
    subst e
    rw [membership_eq] at off
    unfold tie? at off ⊢
    rcases hw : σ.watchpoints.get? w with _ | v
    · rfl
    · rw [hw] at off
      simp only [Option.map_some]
      rw [show v.membership = none from off]
  · rfl

@[simp] theorem list?_modifyFlags (σ : World) (s x : SetId) (f : Flags → Flags) :
    (σ.modifyFlags s f).list? x = σ.list? x := by
  rw [modifyFlags, list?_modifySet]
  split <;> rfl

theorem Coherent.edit {c : Option Change} (h : σ.Coherent) (e : Edit σ c τ) : τ.Coherent := by
  cases e with
  | openContext | count => exact h.congr (fun _ => rfl) (fun _ => rfl) (fun _ => id) fun _ => id
  | @appear w v new off =>
    refine h.retie (w := w) (b := v.held) ?_ (fun x => ?_) ⟨rfl, rfl, rfl⟩
    · simp [tie?, new]
    · rw [tie?, Store.get?_put]
      split
      · rw [Option.map_some, off]
      · rfl
  | locate w s d =>
    exact h.congr (tie?_locate σ w · s d) (fun _ => rfl) (fun _ => id) fun _ => id
  | unlink w => exact h.unlink w
  | @letGo w off =>
    cases hw : σ.tie? w with
    | none =>
      refine h.congr (fun x => ?_) (fun _ => rfl) (fun _ => id) fun _ => id
      rw [tie?_letGo off]
      split
      · next e => rw [← e, hw]; rfl
      · rfl
    | some p =>
      refine h.retie (w := w) (b := false) (fun c m hc => ?_) (fun x => ?_) ⟨rfl, rfl, rfl⟩
      · rw [membership_eq, hc] at off
        cases off
      · rw [tie?_letGo off]
        split
        · next e => rw [← e, hw]; rfl
        · rfl
  | link owned known held off =>
    refine h.link owned ?_
    rw [tie?, known, Option.map_some, held, off]
  | watch | «break» =>
    exact h.congr (fun _ => rfl) (list?_modifyFlags σ _ · _) (fun _ => id) fun _ => id
  | @newSet h' mode new =>
    refine h.extend (s := .ofHandle h') (not_issued_of_new_handle new) (fun _ => rfl) (fun x => ?_)
      (fun _ hx => issued_of_put_handle hx) ⟨_, Store.get?_put_self ..⟩ fun _ => owned_of_put_handle
    rw [list?, newSet, Store.get?_put]
    split <;> rfl
  | newHandle new owned =>
    exact h.congr (fun _ => rfl) (fun _ => rfl) (fun _ => issued_of_put_handle)
      fun _ hx => (owned_of_put_handle hx).elim (fun e => e ▸ owned) id
  | newSlot mode new =>
    refine h.congr (fun _ => rfl) (fun _ => rfl) (fun _ => (Edit.newSlot mode new).issued)
      fun _ hx => (owned_of_put_slot hx).resolve_left Storage.noConfusion
  | @promote i t f held thin =>
    refine h.extend (s := .ofSlot i t.promotions)
      (not_issued_of_promotions (slot?_eq_some_iff.mp held).1) (fun _ => rfl) (fun x => ?_)
      (fun _ => (Edit.promote held thin).issued)
      ⟨_, Store.get?_put_self .., Nat.lt_succ_self _⟩
      fun _ hx => (owned_of_put_slot hx).imp_left Storage.fat.inj
    rw [list?, promoteFrom, Store.get?_put]
    split <;> rfl
  | store held next =>
    exact h.congr (fun _ => rfl) (fun _ => rfl) (fun _ => (Edit.store held next).issued)
      fun _ => owned_of_store
  | dropHandle h' =>
    exact h.congr (fun _ => rfl) (fun _ => rfl) (fun _ => issued_of_modify_handle)
      fun _ => owned_of_dropHandle
  | dropSlot i =>
    exact h.congr (fun _ => rfl) (fun _ => rfl) (fun _ => (Edit.dropSlot i).issued)
      fun _ => owned_of_dropSlot
  | erase alone | discard alone => exact h.erase alone

theorem Coherent.edits {cs : List Change} (h : σ.Coherent) (e : Edits σ cs τ) : τ.Coherent := by
  induction e with
  | refl => exact h
  | tail _ last ih => exact ih.edit last

end World

end Invalidation
