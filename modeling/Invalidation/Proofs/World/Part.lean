import Invalidation.Proofs.World.Held
import Invalidation.Proofs.World.Owners

/-! Groups of objects. If every object belongs to a group, the *part* of a world that belongs to one
    of them is a world, too: every table without the keys of the other groups. What is done to an
    object shows in the part of its own group just as if there were no others, and in no other part:

        world ──to an object of group d──▶ world
          │                                  │
        part g                             part g
          │                                  │
        part ──the same if d = g, else nothing──▶ part

    This holds as long as nothing reaches from one group into another. A watchpoint is in the group
    of its context and of the set that it is registered on, and a handle is in that of its set. -/

namespace Invalidation

/-- The object that a set was made for. -/
def SetId.home : SetId → Identity
  | .ofHandle h => .handle h
  | .ofSlot i _ => .slot i

variable {Group : Type}

/-- What a watchpoint refers to belongs to a group. -/
structure Watchpoint.KeepsTo (group : Identity → Group) (d : Group) (v : Watchpoint) : Prop where
  context : group (.context v.context) = d
  membership : ∀ m, v.membership = some m → group m.set.home = d

/-- What a waiting call works on belongs to a group. -/
def Pending.KeepsTo (group : Identity → Group) (d : Group) : Pending → Prop
  | .patch p => group (.watchpoint p.watchpoint) = d ∧ ∀ s, p.sweep = some s → group s.set.home = d
  | .locate l => group (.watchpoint l.watchpoint) = d

/-- Nothing reaches from one group into another. -/
structure World.Apart (group : Identity → Group) (σ : World) : Prop where
  watchpoints : ∀ w v, σ.watchpoints.get? w = some v → v.KeepsTo group (group (.watchpoint w))
  handles : ∀ h t, σ.handles.get? h = some t → group t.set.home = group (.handle h)

variable {group : Identity → Group} {g d : Group}

/-! ### Who is in a group -/

namespace World

variable {σ τ : World} {w : WatchpointId} {s : SetId} {h : HandleId} {i : SlotId}

theorem apart_empty : Apart group {} := ⟨fun _ _ h => (by cases h), fun _ _ h => (by cases h)⟩

namespace Apart

theorem congr (apart : σ.Apart group) (watchpoints : τ.watchpoints = σ.watchpoints)
    (handles : τ.handles = σ.handles) : τ.Apart group :=
  ⟨watchpoints ▸ apart.watchpoints, handles ▸ apart.handles⟩

theorem context (apart : σ.Apart group) (known : σ.watchpoints.contains w = true) :
    group (.context (σ.watchpoint w).context) = group (.watchpoint w) := by
  obtain ⟨v, hv⟩ := Option.isSome_iff_exists.mp known
  rw [watchpoint, hv]
  exact (apart.watchpoints w v hv).context

theorem membership (apart : σ.Apart group) {m : Membership}
    (hm : (σ.watchpoint w).membership = some m) : group m.set.home = group (.watchpoint w) := by
  rw [watchpoint] at hm
  cases hv : σ.watchpoints.get? w with
  | none =>
    rw [hv] at hm
    cases hm
  | some v =>
    rw [hv] at hm
    exact (apart.watchpoints w v hv).membership m hm

/-- Whoever is registered on a set is there, and in its group. -/
theorem queue (apart : σ.Apart group) (coherent : σ.Coherent) (hw : w ∈ σ.queue s) :
    σ.watchpoints.contains w = true ∧ group (.watchpoint w) = group s.home := by
  obtain ⟨k, ht⟩ := coherent.tie?_of_mem hw
  obtain ⟨v, hv, he⟩ := Option.map_eq_some_iff.mp ht
  have hmember := (apart.watchpoints w v hv).membership ⟨s, k⟩ (Prod.mk.inj he).2
  exact ⟨Option.isSome_of_eq_some hv, hmember.symm⟩

theorem handleSet (apart : σ.Apart group) (hh : σ.handleSet? h = some s) :
    group s.home = group (.handle h) := by
  obtain ⟨t, ht, -, rfl⟩ := handleSet?_eq_some_iff.mp hh
  exact apart.handles h t ht

end Apart

theorem Tidy.home_of_fatSet? (tidy : σ.Tidy) (hs : σ.fatSet? i = some s) : s.home = .slot i := by
  obtain ⟨t, ht, -, hfat⟩ := fatSet?_eq_some_iff.mp hs
  obtain ⟨n, rfl⟩ := tidy.home i t s ht hfat
  rfl

end World

/-! ### Parts of tables -/

variable [DecidableEq Group]

namespace Store

variable {κ α : Type}

/-- The part of a table whose keys stand for objects of a group. -/
def part (group : Identity → Group) (g : Group) (x : κ → Identity) (s : Store κ α) : Store κ α :=
  s.keep fun k => group (x k) = g

variable {x : κ → Identity} {s : Store κ α} {k : κ}

/-- No value of a kind is overlooked in the part that has all keys of such values. -/
theorem countP_values_part [DecidableEq κ] (distinct : s.Distinct) {f : α → Bool}
    (all : ∀ k a, s.get? k = some a → f a = true → group (x k) = g) :
    (s.part group g x).values.countP f = s.values.countP f := by
  rw [part, keep, values, values, List.countP_map, List.countP_map, List.countP_filter]
  refine List.countP_congr fun q hq => ?_
  have hget : s.get? q.1 = some q.2 := (lookup_eq_some_iff distinct).mpr hq
  rw [Bool.and_eq_true, decide_eq_true_iff]
  exact ⟨And.left, fun hf => ⟨hf, all q.1 q.2 hget hf⟩⟩

variable [DecidableEq κ]

theorem get?_part (hk : group (x k) = g) : (s.part group g x).get? k = s.get? k :=
  get?_keep_of (p := fun k => decide (group (x k) = g)) (decide_eq_true hk)

theorem contains_part (hk : group (x k) = g) : (s.part group g x).contains k = s.contains k := by
  rw [contains, get?_part hk, contains]

end Store

/-! ### Parts of worlds -/

/-- The part of a world that belongs to a group. -/
def World.part (group : Identity → Group) (g : Group) (σ : World) : World where
  contexts := σ.contexts.part group g .context
  watchpoints := σ.watchpoints.part group g .watchpoint
  sets := σ.sets.part group g SetId.home
  handles := σ.handles.part group g .handle
  slots := σ.slots.part group g .slot

/-- The turn as it is for the part of the world that belongs to a group. -/
def Turn.part (group : Identity → Group) (g : Group) (t : Turn) : Turn :=
  { t with world := t.world.part group g }

namespace World

variable {σ τ υ υ' : World} {w : WatchpointId} {s : SetId} {h : HandleId} {i : SlotId} {c : ContextId}

theorem watchpoint_part (hw : group (.watchpoint w) = g) :
    (σ.part group g).watchpoint w = σ.watchpoint w :=
  congrArg (fun o : Option Watchpoint => o.getD default) (Store.get?_part hw)

theorem context_part (hc : group (.context c) = g) : (σ.part group g).context c = σ.context c :=
  congrArg (fun o : Option Context => o.getD default) (Store.get?_part hc)

theorem contextOf_part (hw : group (.watchpoint w) = g)
    (hc : group (.context (σ.watchpoint w).context) = g) :
    (σ.part group g).contextOf w = σ.contextOf w := by
  rw [contextOf, watchpoint_part hw, context_part hc, contextOf]

theorem flagsOf_part (hs : group s.home = g) : (σ.part group g).flagsOf s = σ.flagsOf s :=
  congrArg (fun o : Option WatchpointSet => (o.map WatchpointSet.flags).getD {}) (Store.get?_part hs)

theorem watchersOf_part (hs : group s.home = g) : (σ.part group g).watchersOf s = σ.watchersOf s :=
  congrArg (fun o : Option WatchpointSet => (o.map WatchpointSet.watchers).getD {}) (Store.get?_part hs)

theorem handleSet?_part (hh : group (.handle h) = g) : (σ.part group g).handleSet? h = σ.handleSet? h :=
  congrArg (fun o : Option Handle => o.bind fun t => if t.held then some t.set else none)
    (Store.get?_part hh)

theorem slot?_part (hi : group (.slot i) = g) : (σ.part group g).slot? i = σ.slot? i :=
  congrArg (fun o : Option Slot => o.bind fun t => if t.held then some t else none) (Store.get?_part hi)

theorem fatSet?_part (hi : group (.slot i) = g) : (σ.part group g).fatSet? i = σ.fatSet? i := by
  rw [fatSet?, slot?_part hi, fatSet?]

theorem flagsAfterFree_part (hs : group s.home = g) (shared : Bool) :
    (σ.part group g).flagsAfterFree s shared = σ.flagsAfterFree s shared := by
  rw [flagsAfterFree, flagsOf_part hs, watchersOf_part hs, flagsAfterFree]

/-- Whoever has a share in a set is in its group, so no share is overlooked. -/
theorem owners_part (tidy : σ.Tidy) (apart : σ.Apart group) (hs : group s.home = g) :
    (σ.part group g).owners s = σ.owners s := by
  have hhandles : (σ.part group g).handles.values.countP (fun h => h.held && h.set = s) =
      σ.handles.values.countP fun h => h.held && h.set = s := by
    refine Store.countP_values_part tidy.handles fun h t ht hown => ?_
    rw [Bool.and_eq_true, decide_eq_true_iff] at hown
    exact (apart.handles h t ht).symm.trans (hown.2 ▸ hs)
  have hslots : (σ.part group g).slots.values.countP (fun i => i.held && i.storage = .fat s) =
      σ.slots.values.countP fun i => i.held && i.storage = .fat s := by
    refine Store.countP_values_part tidy.slots fun i t ht hown => ?_
    rw [Bool.and_eq_true, decide_eq_true_iff] at hown
    obtain ⟨n, rfl⟩ := tidy.home i t s ht hown.2
    exact hs
  rw [owners, owners, hhandles, hslots]

end World

/-! ### What is done to the objects of a group -/

/-- One table has become another by something that was done to objects of the group `d`: for the
    group `g` it has become what is given if that is its own group, and else nothing has happened. -/
structure Store.Confined {κ α : Type} (group : Identity → Group) (g d : Group) (x : κ → Identity)
    (s t own : Store κ α) : Prop where
  own : d = g → t.part group g x = own
  other : d ≠ g → t.part group g x = s.part group g x

/-- One world has become another by something that was done to objects of the group `d`. -/
structure World.Confined (group : Identity → Group) (g d : Group) (σ τ own : World) : Prop where
  own : d = g → τ.part group g = own
  other : d ≠ g → τ.part group g = σ.part group g
  apart : τ.Apart group

/-- A world has come to a turn by something that was done to objects of the group `d`. -/
structure Turn.Confined (group : Identity → Group) (g d : Group) (σ : World) (t own : Turn) : Prop where
  own : d = g → t.part group g = own
  other : d ≠ g → t.world.part group g = σ.part group g
  apart : t.world.Apart group
  waits : ∀ r p, t.next = .waiting r p → p.KeepsTo group d

namespace Store

variable {κ α : Type} [DecidableEq κ] {x : κ → Identity} {s : Store κ α} {k : κ}

theorem confined_put (hk : group (x k) = d) (a : α) :
    Confined group g d x s (s.put k a) ((s.part group g x).put k a) where
  own e := keep_put_of (p := fun k => decide (group (x k) = g)) (decide_eq_true (hk.trans e)) a
  other e :=
    keep_put_of_not (p := fun k => decide (group (x k) = g)) (decide_eq_false (hk.trans_ne e)) a

theorem confined_modify (hk : group (x k) = d) (f : α → α) :
    Confined group g d x s (s.modify k f) ((s.part group g x).modify k f) where
  own e := keep_modify_of (p := fun k => decide (group (x k) = g)) (decide_eq_true (hk.trans e)) f
  other e :=
    keep_modify_of_not (p := fun k => decide (group (x k) = g)) (decide_eq_false (hk.trans_ne e)) f

theorem confined_erase (hk : group (x k) = d) :
    Confined group g d x s (s.erase k) ((s.part group g x).erase k) where
  own _ := keep_erase _ s k
  other e :=
    keep_erase_of_not (p := fun k => decide (group (x k) = g)) (decide_eq_false (hk.trans_ne e))

end Store

namespace World

variable {σ τ υ υ' : World} {w : WatchpointId} {s : SetId} {h : HandleId} {i : SlotId} {c : ContextId}
  {t u u' : Turn}

namespace Confined

theorem refl (apart : σ.Apart group) : Confined group g d σ σ (σ.part group g) :=
  ⟨fun _ => rfl, fun _ => rfl, apart⟩

theorem congr (h : Confined group g d σ τ υ) (same : d = g → υ' = υ) : Confined group g d σ τ υ' :=
  ⟨fun e => (h.own e).trans (same e).symm, h.other, h.apart⟩

theorem trans {f : World → World} (h : Confined group g d σ τ υ)
    (h' : Confined group g d τ (f τ) (f (τ.part group g))) : Confined group g d σ (f τ) (f υ) :=
  ⟨fun e => (h'.own e).trans (congrArg f (h.own e)), fun e => (h'.other e).trans (h.other e), h'.apart⟩

/-- What an operation reads, it reads in its own group, and so it goes on there in the same way. -/
theorem reads {ρ : Type} {read : World → ρ} {f f' : World → World}
    (goes : ∀ τ, read τ = read σ → f τ = f' τ) (same : d = g → read (σ.part group g) = read σ)
    (h : Confined group g d σ (f' σ) (f' (σ.part group g))) :
    Confined group g d σ (f σ) (f (σ.part group g)) := by
  rw [goes σ rfl]
  exact h.congr fun e => goes _ (same e)

/-- A turn after something has been done. -/
theorem turn {f : World → Turn} (h : Confined group g d σ τ υ)
    (h' : Turn.Confined group g d τ (f τ) (f (τ.part group g))) :
    Turn.Confined group g d σ (f τ) (f υ) :=
  ⟨fun e => (h'.own e).trans (congrArg f (h.own e)), fun e => (h'.other e).trans (h.other e), h'.apart,
    h'.waits⟩

/-- The turn ends once something has been done. -/
theorem ends (h : Confined group g d σ τ υ) (events : List LogEvent) (next : Next)
    (waits : ∀ r p, next = .waiting r p → p.KeepsTo group d) :
    Turn.Confined group g d σ ⟨τ, events, next⟩ ⟨υ, events, next⟩ :=
  ⟨fun e => congrArg (fun τ => Turn.mk τ events next) (h.own e), h.other, h.apart, waits⟩

theorem done (h : Confined group g d σ τ υ) : Turn.Confined group g d σ τ.done υ.done :=
  h.ends [] _ fun _ _ => Next.noConfusion

theorem panic (h : Confined group g d σ τ υ) (fault : Fault) :
    Turn.Confined group g d σ (τ.panic fault) (υ.panic fault) := h.ends [] _ fun _ _ => Next.noConfusion

end Confined

end World

namespace Turn.Confined

variable {σ : World} {t u u' : Turn}

theorem congr (h : Confined group g d σ t u) (same : d = g → u' = u) : Confined group g d σ t u' :=
  ⟨fun e => (h.own e).trans (same e).symm, h.other, h.apart, h.waits⟩

/-- What a call reads, it reads in its own group, and so it goes on there in the same way. -/
theorem reads {ρ : Type} {read : World → ρ} {f f' : World → Turn}
    (goes : ∀ τ, read τ = read σ → f τ = f' τ) (same : d = g → read (σ.part group g) = read σ)
    (h : Confined group g d σ (f' σ) (f' (σ.part group g))) :
    Confined group g d σ (f σ) (f (σ.part group g)) := by
  rw [goes σ rfl]
  exact h.congr fun e => goes _ (same e)

theorem after (h : Confined group g d σ t u) (events : List LogEvent) :
    Confined group g d σ (t.after events) (u.after events) :=
  ⟨fun e => congrArg (Turn.after events) (h.own e), h.other, h.apart, h.waits⟩

end Turn.Confined

namespace World

variable {σ τ : World} {w : WatchpointId} {s : SetId} {h : HandleId} {i : SlotId} {c : ContextId}

section

variable (apart : σ.Apart group)
include apart

theorem confined_contexts {t own : Store ContextId Context}
    (table : σ.contexts.Confined group g d .context t own) :
    Confined group g d σ { σ with contexts := t } { σ.part group g with contexts := own } where
  own e := congrArg (fun t => ({ σ.part group g with contexts := t } : World)) (table.own e)
  other e := congrArg (fun t => ({ σ.part group g with contexts := t } : World)) (table.other e)
  apart := apart.congr rfl rfl

theorem confined_watchpoints {t own : Store WatchpointId Watchpoint}
    (table : σ.watchpoints.Confined group g d .watchpoint t own)
    (within : ∀ w v, t.get? w = some v → v.KeepsTo group (group (.watchpoint w))) :
    Confined group g d σ { σ with watchpoints := t } { σ.part group g with watchpoints := own } where
  own e := congrArg (fun t => ({ σ.part group g with watchpoints := t } : World)) (table.own e)
  other e := congrArg (fun t => ({ σ.part group g with watchpoints := t } : World)) (table.other e)
  apart := ⟨within, apart.handles⟩

theorem confined_sets {t own : Store SetId WatchpointSet}
    (table : σ.sets.Confined group g d SetId.home t own) :
    Confined group g d σ { σ with sets := t } { σ.part group g with sets := own } where
  own e := congrArg (fun t => ({ σ.part group g with sets := t } : World)) (table.own e)
  other e := congrArg (fun t => ({ σ.part group g with sets := t } : World)) (table.other e)
  apart := apart.congr rfl rfl

theorem confined_handles {t own : Store HandleId Handle}
    (table : σ.handles.Confined group g d .handle t own)
    (within : ∀ h u, t.get? h = some u → group u.set.home = group (.handle h)) :
    Confined group g d σ { σ with handles := t } { σ.part group g with handles := own } where
  own e := congrArg (fun t => ({ σ.part group g with handles := t } : World)) (table.own e)
  other e := congrArg (fun t => ({ σ.part group g with handles := t } : World)) (table.other e)
  apart := ⟨apart.watchpoints, within⟩

theorem confined_slots {t own : Store SlotId Slot} (table : σ.slots.Confined group g d .slot t own) :
    Confined group g d σ { σ with slots := t } { σ.part group g with slots := own } where
  own e := congrArg (fun t => ({ σ.part group g with slots := t } : World)) (table.own e)
  other e := congrArg (fun t => ({ σ.part group g with slots := t } : World)) (table.other e)
  apart := apart.congr rfl rfl

theorem confined_openContext (hc : group (.context c) = d) (x : Context) :
    Confined group g d σ { σ with contexts := σ.contexts.put c x }
      { σ.part group g with contexts := (σ.part group g).contexts.put c x } :=
  confined_contexts apart (Store.confined_put hc x)

theorem confined_count (hw : group (.watchpoint w) = d)
    (hc : group (.context (σ.watchpoint w).context) = d) (f : Counters → Counters) :
    Confined group g d σ (σ.count w f) ((σ.part group g).count w f) := by
  refine (confined_contexts apart (Store.confined_modify hc _)).congr fun e => ?_
  rw [count, watchpoint_part (hw.trans e)]
  rfl

theorem confined_modifyWatchpoint (hw : group (.watchpoint w) = d) {f : Watchpoint → Watchpoint}
    (keeps : ∀ v, v.KeepsTo group d → (f v).KeepsTo group d) :
    Confined group g d σ (σ.modifyWatchpoint w f) ((σ.part group g).modifyWatchpoint w f) := by
  refine confined_watchpoints apart (Store.confined_modify hw f) fun v x hx => ?_
  rw [Store.get?_modify] at hx
  split at hx
  · next he =>
    obtain ⟨y, hy, rfl⟩ := Option.map_eq_some_iff.mp hx
    subst he
    exact hw ▸ keeps y (hw ▸ apart.watchpoints w y hy)
  · exact apart.watchpoints v x hx

theorem confined_appear (hw : group (.watchpoint w) = d) {v : Watchpoint} (within : v.KeepsTo group d) :
    Confined group g d σ { σ with watchpoints := σ.watchpoints.put w v }
      { σ.part group g with watchpoints := (σ.part group g).watchpoints.put w v } := by
  refine confined_watchpoints apart (Store.confined_put hw v) fun u x hx => ?_
  rw [Store.get?_put] at hx
  split at hx
  · next he =>
    obtain rfl := Option.some.inj hx
    exact he ▸ hw ▸ within
  · exact apart.watchpoints u x hx

theorem confined_modifySet (hs : group s.home = d) (f : WatchpointSet → WatchpointSet) :
    Confined group g d σ (σ.modifySet s f) ((σ.part group g).modifySet s f) :=
  confined_sets apart (Store.confined_modify hs f)

theorem confined_putSet (hs : group s.home = d) (t : WatchpointSet) :
    Confined group g d σ { σ with sets := σ.sets.put s t }
      { σ.part group g with sets := (σ.part group g).sets.put s t } :=
  confined_sets apart (Store.confined_put hs t)

theorem confined_eraseSet (hs : group s.home = d) :
    Confined group g d σ { σ with sets := σ.sets.erase s }
      { σ.part group g with sets := (σ.part group g).sets.erase s } :=
  confined_sets apart (Store.confined_erase hs)

theorem confined_putHandle (hh : group (.handle h) = d) {t : Handle} (ht : group t.set.home = d) :
    Confined group g d σ { σ with handles := σ.handles.put h t }
      { σ.part group g with handles := (σ.part group g).handles.put h t } := by
  refine confined_handles apart (Store.confined_put hh t) fun k u hu => ?_
  rw [Store.get?_put] at hu
  split at hu
  · next he =>
    obtain rfl := Option.some.inj hu
    exact he ▸ ht.trans hh.symm
  · exact apart.handles k u hu

theorem confined_modifyHandle (hh : group (.handle h) = d) {f : Handle → Handle}
    (same : ∀ t, (f t).set = t.set) :
    Confined group g d σ { σ with handles := σ.handles.modify h f }
      { σ.part group g with handles := (σ.part group g).handles.modify h f } := by
  refine confined_handles apart (Store.confined_modify hh f) fun k u hu => ?_
  rw [Store.get?_modify] at hu
  split at hu
  · obtain ⟨t, ht, rfl⟩ := Option.map_eq_some_iff.mp hu
    exact same t ▸ apart.handles k t ht
  · exact apart.handles k u hu

theorem confined_putSlot (hi : group (.slot i) = d) (t : Slot) :
    Confined group g d σ { σ with slots := σ.slots.put i t }
      { σ.part group g with slots := (σ.part group g).slots.put i t } :=
  confined_slots apart (Store.confined_put hi t)

theorem confined_modifySlot (hi : group (.slot i) = d) (f : Slot → Slot) :
    Confined group g d σ { σ with slots := σ.slots.modify i f }
      { σ.part group g with slots := (σ.part group g).slots.modify i f } :=
  confined_slots apart (Store.confined_modify hi f)

end

end World

end Invalidation
