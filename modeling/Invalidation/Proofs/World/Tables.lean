import Invalidation.Store
import Mathlib.Data.List.Basic

/-! Two ways of looking at a table: with every value seen through a map, and with some of its keys left
    out. Whatever is written to a table can be written to what is seen of it instead, since a table
    keeps the order in which its keys came.

        table ──put k a──▶ table
          │                  │
        map f / keep p     map f / keep p
          │                  │
        view ──put k (f a) / put k a if p k, else nothing──▶ view -/

namespace Invalidation

namespace Store

variable {κ α β : Type} [DecidableEq κ]

/-- The table with every value seen through a map. -/
def map (f : α → β) (s : Store κ α) : Store κ β := ⟨s.pairs.map fun p => (p.1, f p.2)⟩

/-- What a table has at the keys of a kind. -/
def keep (p : κ → Bool) (s : Store κ α) : Store κ α := ⟨s.pairs.filter fun q => p q.1⟩

/-- What is found in a table stands in it. -/
theorem mem_pairs_of_get? {s : Store κ α} {k : κ} {a : α} (h : s.get? k = some a) :
    (k, a) ∈ s.pairs := by
  obtain ⟨ps⟩ := s
  rw [get?] at h
  induction ps with
  | nil => cases h
  | cons p ps ih =>
    rw [lookup] at h
    split at h
    · next he =>
      obtain rfl := Option.some.inj h
      exact he ▸ List.mem_cons_self
    · exact List.mem_cons_of_mem _ (ih h)

theorem contains_modify (s : Store κ α) (k j : κ) (f : α → α) :
    (s.modify k f).contains j = s.contains j := by
  rw [contains, contains, get?_modify]
  split
  · exact Option.isSome_map
  · rfl

/-! ### Where the values are -/

theorem mem_of_lookup {k : κ} {a : α} {ps : List (κ × α)} (h : lookup k ps = some a) : (k, a) ∈ ps := by
  induction ps with
  | nil => cases h
  | cons p ps ih =>
    obtain ⟨j, b⟩ := p
    rw [lookup] at h
    split at h
    · next hj =>
      cases h
      exact List.mem_cons.mpr (Or.inl (by rw [hj]))
    · exact List.mem_cons_of_mem _ (ih h)

theorem mem_of_mem_insert {k : κ} {a : α} {ps : List (κ × α)} {p : κ × α} (h : p ∈ insert k a ps) :
    p = (k, a) ∨ p ∈ ps := by
  induction ps with
  | nil => exact Or.inl (List.mem_singleton.mp h)
  | cons q ps ih =>
    obtain ⟨j, b⟩ := q
    rw [insert] at h
    split at h
    · exact (List.mem_cons.mp h).imp_right (List.mem_cons_of_mem _)
    · rcases List.mem_cons.mp h with rfl | h
      · exact Or.inr (List.mem_cons_self ..)
      · exact (ih h).imp_right (List.mem_cons_of_mem _)

/-! ### Values seen through a map -/

theorem lookup_map (f : α → β) (k : κ) (ps : List (κ × α)) :
    lookup k (ps.map fun p => (p.1, f p.2)) = (lookup k ps).map f := by
  induction ps with
  | nil => rfl
  | cons p ps ih =>
    obtain ⟨j, a⟩ := p
    rw [List.map_cons, lookup, lookup, ih]
    split <;> rfl

@[simp] theorem get?_map (f : α → β) (s : Store κ α) (k : κ) : (s.map f).get? k = (s.get? k).map f :=
  lookup_map f k s.pairs

@[simp] theorem contains_map (f : α → β) (s : Store κ α) (k : κ) :
    (s.map f).contains k = s.contains k := by
  rw [contains, get?_map, Option.isSome_map, contains]

theorem map_insert (f : α → β) (k : κ) (a : α) (ps : List (κ × α)) :
    (insert k a ps).map (fun p => (p.1, f p.2)) = insert k (f a) (ps.map fun p => (p.1, f p.2)) := by
  induction ps with
  | nil => rfl
  | cons p ps ih =>
    obtain ⟨j, b⟩ := p
    rw [insert, List.map_cons, insert]
    split
    · rfl
    · rw [List.map_cons, ih]

theorem map_put (f : α → β) (s : Store κ α) (k : κ) (a : α) :
    (s.put k a).map f = (s.map f).put k (f a) := congrArg Store.mk (map_insert f k a s.pairs)

theorem map_modify {f : α → β} {g : α → α} {h : β → β} (comm : ∀ a, f (g a) = h (f a))
    (s : Store κ α) (k : κ) : (s.modify k g).map f = (s.map f).modify k h := by
  rw [modify, modify, get?_map]
  cases s.get? k with
  | none => rfl
  | some a =>
    change (s.put k (g a)).map f = (s.map f).put k (h (f a))
    rw [map_put, comm]

/-! ### Keys of a kind -/

variable {p : κ → Bool} {s : Store κ α} {k : κ}

theorem get?_keep (p : κ → Bool) (s : Store κ α) (k : κ) :
    (s.keep p).get? k = if p k then s.get? k else none := by
  have hlookup : ∀ ps : List (κ × α),
      lookup k (ps.filter fun q => p q.1) = if p k then lookup k ps else none := by
    intro ps
    induction ps with
    | nil => simp [lookup]
    | cons q ps ih =>
      obtain ⟨j, a⟩ := q
      rw [List.filter_cons, lookup]
      by_cases hj : j = k
      · subst hj
        cases hp : p j <;> simp_all [lookup]
      · cases hp : p j <;> simp_all [lookup]
  exact hlookup s.pairs

theorem get?_keep_of (hk : p k = true) : (s.keep p).get? k = s.get? k := by rw [get?_keep, if_pos hk]

theorem keep_put (p : κ → Bool) (s : Store κ α) (k : κ) (a : α) :
    (s.put k a).keep p = if p k then (s.keep p).put k a else s.keep p := by
  have hinsert : ∀ ps : List (κ × α), (insert k a ps).filter (fun q => p q.1) =
      if p k then insert k a (ps.filter fun q => p q.1) else ps.filter fun q => p q.1 := by
    intro ps
    induction ps with
    | nil => cases hp : p k <;> simp [insert, hp]
    | cons q ps ih =>
      obtain ⟨j, b⟩ := q
      rw [insert]
      by_cases hj : j = k
      · subst hj
        cases hp : p j <;> simp [hp, insert]
      · rw [if_neg hj, List.filter_cons, ih, List.filter_cons]
        cases hp : p k <;> cases p j <;> simp [insert, hj]
  rw [keep, put, hinsert]
  split <;> rfl

theorem keep_put_of (hk : p k = true) (a : α) : (s.put k a).keep p = (s.keep p).put k a := by
  rw [keep_put, if_pos hk]

theorem keep_put_of_not (hk : p k = false) (a : α) : (s.put k a).keep p = s.keep p := by
  rw [keep_put, hk, if_neg Bool.false_ne_true]

theorem keep_modify_of (hk : p k = true) (f : α → α) :
    (s.modify k f).keep p = (s.keep p).modify k f := by
  rw [modify, modify, get?_keep_of hk]
  split
  · exact keep_put_of hk _
  · rfl

theorem keep_modify_of_not (hk : p k = false) (f : α → α) : (s.modify k f).keep p = s.keep p := by
  rw [modify]
  split
  · exact keep_put_of_not hk _
  · rfl

theorem keep_erase (p : κ → Bool) (s : Store κ α) (k : κ) :
    (s.erase k).keep p = (s.keep p).erase k := by
  have hremove : ∀ ps : List (κ × α), (remove k ps).filter (fun q => p q.1) =
      remove k (ps.filter fun q => p q.1) := by
    intro ps
    induction ps with
    | nil => rfl
    | cons q ps ih =>
      obtain ⟨j, b⟩ := q
      rw [remove, List.filter_cons]
      by_cases hj : j = k
      · subst hj
        cases hp : p j <;> simp [remove, ih]
      · cases hp : p j <;> simp [remove, hj, ih, hp]
  exact congrArg Store.mk (hremove s.pairs)

theorem keep_erase_of_not (hk : p k = false) : (s.erase k).keep p = s.keep p := by
  have hremove : ∀ ps : List (κ × α), (remove k ps).filter (fun q => p q.1) =
      ps.filter fun q => p q.1 := by
    intro ps
    induction ps with
    | nil => rfl
    | cons q ps ih =>
      obtain ⟨j, b⟩ := q
      rw [remove, List.filter_cons]
      split
      · next hj => rw [ih, hj, hk, if_neg Bool.false_ne_true]
      · rw [List.filter_cons, ih]
  exact congrArg Store.mk (hremove s.pairs)

end Store

end Invalidation
