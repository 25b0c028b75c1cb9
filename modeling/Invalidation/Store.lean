/-! A finite table from keys to values, kept in the order in which its keys first came. Writing to a
    key that is present changes its value in place, so two tables that went through the same writes
    to the same keys list them in the same order.

    All that is said of a table elsewhere goes through one view, `get?`; each operation has one
    equation on it. -/

namespace Invalidation

/-- A finite table from keys to values. -/
structure Store (κ : Type) (α : Type) where
  /-- The pairs of the table, oldest key first. -/
  pairs : List (κ × α) := []

namespace Store

variable {κ α : Type} [DecidableEq κ]

instance : Inhabited (Store κ α) := ⟨{}⟩

/-- The value at a key in a list of pairs. -/
def lookup (k : κ) : List (κ × α) → Option α
  | [] => none
  | (j, a) :: ps => if j = k then some a else lookup k ps

/-- The list of pairs with `a` at `k`: in place if the key is there, at the end if not. -/
def insert (k : κ) (a : α) : List (κ × α) → List (κ × α)
  | [] => [(k, a)]
  | (j, b) :: ps => if j = k then (k, a) :: ps else (j, b) :: insert k a ps

/-- The list of pairs without the key `k`. -/
def remove (k : κ) : List (κ × α) → List (κ × α)
  | [] => []
  | (j, b) :: ps => if j = k then remove k ps else (j, b) :: remove k ps

/-- The value at a key, if there is one. -/
def get? (s : Store κ α) (k : κ) : Option α := lookup k s.pairs

/-- The table with value `a` at key `k`. -/
def put (s : Store κ α) (k : κ) (a : α) : Store κ α := ⟨insert k a s.pairs⟩

/-- The table without key `k`. -/
def erase (s : Store κ α) (k : κ) : Store κ α := ⟨remove k s.pairs⟩

/-- The table with the value at `k` changed by `f`; nothing changes if there is none. -/
def modify (s : Store κ α) (k : κ) (f : α → α) : Store κ α :=
  match s.get? k with
  | some a => s.put k (f a)
  | none => s

/-- Whether the key has a value. -/
def contains (s : Store κ α) (k : κ) : Bool := (s.get? k).isSome

/-- The values, oldest key first. -/
def values (s : Store κ α) : List α := s.pairs.map Prod.snd

/-! ### What each operation does to the view -/

theorem lookup_insert (k j : κ) (a : α) (ps : List (κ × α)) :
    lookup j (insert k a ps) = if k = j then some a else lookup j ps := by
  induction ps with
  | nil => simp [insert, lookup]
  | cons p ps ih =>
    obtain ⟨i, b⟩ := p
    by_cases hik : i = k
    · subst hik
      by_cases hij : i = j <;> simp [insert, lookup, hij]
    · by_cases hij : i = j
      · subst hij
        simp [insert, lookup, hik, Ne.symm hik]
      · simp [insert, lookup, hik, hij, ih]

theorem lookup_remove (k j : κ) (ps : List (κ × α)) :
    lookup j (remove k ps) = if k = j then none else lookup j ps := by
  induction ps with
  | nil => simp [remove, lookup]
  | cons p ps ih =>
    obtain ⟨i, b⟩ := p
    by_cases hik : i = k
    · subst hik
      by_cases hij : i = j
      · subst hij
        simpa [remove, lookup] using ih
      · simp [remove, lookup, ih, hij]
    · by_cases hij : i = j
      · subst hij
        simp [remove, lookup, hik, Ne.symm hik]
      · simp [remove, lookup, hik, hij, ih]

@[simp] theorem get?_empty (k : κ) : ({} : Store κ α).get? k = none := rfl

theorem get?_put (s : Store κ α) (k j : κ) (a : α) :
    (s.put k a).get? j = if k = j then some a else s.get? j := lookup_insert k j a s.pairs

theorem get?_erase (s : Store κ α) (k j : κ) :
    (s.erase k).get? j = if k = j then none else s.get? j := lookup_remove k j s.pairs

theorem get?_modify (s : Store κ α) (k j : κ) (f : α → α) :
    (s.modify k f).get? j = if k = j then (s.get? j).map f else s.get? j := by
  unfold modify
  split
  · next a h =>
    rw [get?_put]
    split
    · next e => subst e; simp [h]
    · rfl
  · next h =>
    split
    · next e => subst e; simp [h]
    · rfl

@[simp] theorem get?_put_self (s : Store κ α) (k : κ) (a : α) : (s.put k a).get? k = some a := by
  simp [get?_put]

@[simp] theorem get?_erase_self (s : Store κ α) (k : κ) : (s.erase k).get? k = none := by
  simp [get?_erase]

end Store

end Invalidation
