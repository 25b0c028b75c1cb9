import Invalidation.Proofs.Settings.Alike
import Invalidation.Proofs.Settings.Walking

/-! A layer as what it sets, one after the other. A value that is laid comes to its leaves: the
    values in it that take their places whole, each with the steps that lead there, and the tables
    in it that are empty, which only see to it that there is something.

        "a.b" = 1               a . b := 1
        [c] d = [1, 2]          c . d := [1, 2]
        [c.e]                   c . e there

    To lay a layer over a tree is to set its leaves, in their order. -/

namespace Invalidation

namespace Tree

/-- Something that is done to what stands at a place, or to a place where there is nothing. -/
abbrev Act := Option Tree → Except NoPlace Tree

/-- First the one, then the other. -/
def Act.andThen (f g : Act) : Act := fun old => f old >>= fun t => g (some t)

/-- Something done one step inside a tree, which makes the place, if there is none. -/
def under (step : PathStep) (f : Act) : Act := fun old =>
  let t := old.getD nil
  match step with
  | .child k => (f (findKey k t.members)).map (t.withKey k)
  | .index i => do
    let p ← position t.elements.length i
    (f (some (t.element p))).map (t.withElement p)

/-- Something done at the end of some steps. -/
def along (steps : List PathStep) (f : Act) : Act := steps.foldr under f

/-- What is set at a place. -/
inductive Leaf where
  /-- A value that takes the place of what was there. -/
  | value (t : Tree)
  /-- A table, if nothing was there. -/
  | there

/-- Sets a leaf. -/
def Leaf.set : Leaf → Act
  | .value t => fun _ => .ok t
  | .there => fun old => .ok (old.getD (.table none []))

/-- A leaf one step further inside. -/
def push (step : PathStep) (l : List PathStep × Leaf) : List PathStep × Leaf := (step :: l.1, l.2)

mutual

/-- The leaves of a value that is laid. -/
def leaves : Tree → List (List PathStep × Leaf)
  | .scalar o v => [([], .value (.scalar o v))]
  | .array o ts => [([], .value (.array o ts))]
  | .table _ ms => if ms.isEmpty then [([], .there)] else leavesOfMembers ms

/-- The leaves of members that are laid. -/
def leavesOfMembers : List (String × Tree) → List (List PathStep × Leaf)
  | [] => []
  | m :: ms => leavesOfMember m ++ leavesOfMembers ms

/-- The leaves of a member that is laid. -/
def leavesOfMember : String × Tree → List (List PathStep × Leaf)
  | (k, t) => (leaves t).map (push (.child (Text.lowercase k)))

end

/-- The steps that a path takes. -/
def taken : List PathStep → List PathStep
  | [] => []
  | .child k :: steps => .child (keyAt k steps) :: taken steps
  | .index i :: steps => .index i :: taken steps

/-- The leaves of a top-level member: what its key leads to is laid into a table, or is one value. -/
def leavesOfEntry (m : String × Tree) : List (List PathStep × Leaf) :=
  let path := KeyPath.ofKey m.1
  let inside := if path.intoTable then leaves m.2 else [([], .value m.2)]
  inside.map fun l => (taken (.child path.key :: path.steps) ++ l.1, l.2)

/-- The leaves of a layer. -/
def leavesOfLayer (layer : List (String × Tree)) : List (List PathStep × Leaf) :=
  layer.flatMap leavesOfEntry

/-- Sets leaves, one after the other. -/
def setLeaves : List (List PathStep × Leaf) → Act
  | [], old => .ok (old.getD nil)
  | l :: ls, old => (along l.1 l.2.set).andThen (setLeaves ls) old

variable {steps : List PathStep} {step : PathStep} {f g : Act} {l : List PathStep × Leaf}
  {ls ls' : List (List PathStep × Leaf)} {k : String} {t v : Tree} {old : Option Tree}

/-! ### One step inside -/

/-- To a step into a table, an empty table is as good as nothing. -/
theorem under_child_getD (k : String) (f : Act) (old : Option Tree) :
    under (.child k) f (some (old.getD (.table none []))) = under (.child k) f old := by
  cases old <;> rfl

theorem withKey_withKey (t : Tree) (k : String) (v w : Tree) :
    (t.withKey k v).withKey k w = t.withKey k w := by
  have twice : ∀ ms, putKey k w (putKey k v ms) = putKey k w ms := fun ms => by
    induction ms with
    | nil => simp [putKey]
    | cons m ms ih =>
      obtain ⟨j, u⟩ := m
      by_cases hj : j = k
      · simp [putKey, hj]
      · simp [putKey, hj, ih]
  exact congrArg (Tree.table t.tableOrigin) (twice t.members)

/-- A position is still there once the array has been filled up to it. -/
theorem position_of_filled {n p : Nat} {i : Int} (h : position n i = .ok p) :
    position (max n (p + 1)) i = .ok p := by
  rw [position] at h ⊢
  by_cases negative : i < 0
  · rw [if_pos negative] at h ⊢
    by_cases far : i.natAbs ≤ n
    · rw [if_pos far] at h
      obtain rfl : n - i.natAbs = p := Except.ok.inj h
      have length : max n (n - i.natAbs + 1) = n := by omega
      rw [length, if_pos far]
    · rw [if_neg far] at h
      cases h
  · rwa [if_neg negative] at h ⊢

/-- Two things done in the same place, one after the other, are done there together. -/
theorem under_andThen (step : PathStep) (f g : Act) :
    (under step f).andThen (under step g) = under step (f.andThen g) := by
  funext old
  cases step with
  | child k =>
    simp only [Act.andThen, under]
    cases f (findKey k (old.getD nil).members) with
    | error e => rfl
    | ok v =>
      change ((g (findKey k ((old.getD nil).withKey k v).members)).map _) = (g (some v)).map _
      rw [findKey_withKey_self]
      cases g (some v) with
      | error e => rfl
      | ok w => exact congrArg Except.ok (withKey_withKey (old.getD nil) k v w)
  | index i =>
    simp only [Act.andThen, under]
    cases hp : position (old.getD nil).elements.length i with
    | error e => rfl
    | ok p =>
      simp only [Except.bind, bind]
      cases f (some ((old.getD nil).element p)) with
      | error e => rfl
      | ok v =>
        simp only [Except.map, Option.getD_some, length_withElement, position_of_filled hp,
          element_withElement, if_true]
        cases g (some v) with
        | error e => rfl
        | ok w => exact congrArg Except.ok (withElement_withElement (old.getD nil) p v w)

theorem along_cons (step : PathStep) (steps : List PathStep) (f : Act) :
    along (step :: steps) f = under step (along steps f) := rfl

/-! ### Leaves, one after the other -/

theorem setLeaves_append (ls ls' : List (List PathStep × Leaf)) (t : Tree) :
    setLeaves (ls ++ ls') (some t) = setLeaves ls (some t) >>= fun u => setLeaves ls' (some u) := by
  induction ls generalizing t with
  | nil => rfl
  | cons l ls ih =>
    simp only [List.cons_append, setLeaves, Act.andThen]
    cases along l.1 l.2.set (some t) with
    | error e => rfl
    | ok u => exact ih u

theorem setLeaves_singleton (l : List PathStep × Leaf) : setLeaves [l] = along l.1 l.2.set := by
  funext old
  rw [setLeaves, Act.andThen]
  cases along l.1 l.2.set old <;> rfl

/-- Leaves that all are in one place are set there. -/
theorem setLeaves_push (step : PathStep) (hls : ls ≠ []) :
    setLeaves (ls.map (push step)) = under step (setLeaves ls) := by
  induction ls with
  | nil => exact absurd rfl hls
  | cons l ls ih =>
    by_cases last : ls = []
    · rw [last, List.map_singleton, setLeaves_singleton, setLeaves_singleton]
      rfl
    · calc setLeaves ((l :: ls).map (push step))
          = (under step (along l.1 l.2.set)).andThen (setLeaves (ls.map (push step))) := rfl
        _ = (under step (along l.1 l.2.set)).andThen (under step (setLeaves ls)) := by rw [ih last]
        _ = under step (setLeaves (l :: ls)) := under_andThen step _ _

/-! ### A value as its leaves -/

theorem leavesOfMembers_eq_flatMap (ms : List (String × Tree)) :
    leavesOfMembers ms = ms.flatMap leavesOfMember := by
  induction ms with
  | nil => rfl
  | cons m ms ih => rw [leavesOfMembers, ih, List.flatMap_cons]

theorem leaves_table_cons (o : Option String) (m : String × Tree) (ms : List (String × Tree)) :
    leaves (.table o (m :: ms)) = leavesOfMember m ++ leavesOfMembers ms := rfl

mutual

theorem leaves_ne_nil : ∀ t : Tree, leaves t ≠ []
  | .scalar _ _ => List.cons_ne_nil _ _
  | .array _ _ => List.cons_ne_nil _ _
  | .table _ [] => List.cons_ne_nil _ _
  | .table o (m :: ms) => by
    rw [leaves_table_cons]
    exact List.append_ne_nil_of_left_ne_nil (leavesOfMember_ne_nil m) _

theorem leavesOfMember_ne_nil : ∀ m : String × Tree, leavesOfMember m ≠ []
  | (_, t) => fun h => leaves_ne_nil t (List.map_eq_nil_iff.mp h)

end

/-- The first step of a table's leaves is into the table, so that an empty table is as good as
    nothing. -/
theorem setLeaves_leavesOfMember_append (m : String × Tree) (ls : List (List PathStep × Leaf))
    (old : Option Tree) : setLeaves (leavesOfMember m ++ ls) old =
      setLeaves (leavesOfMember m ++ ls) (some (old.getD (.table none []))) := by
  obtain ⟨k, t⟩ := m
  obtain ⟨l, ls', hls⟩ := List.exists_cons_of_ne_nil (leaves_ne_nil t)
  rw [leavesOfMember, hls, List.map_cons, List.cons_append, setLeaves, setLeaves, Act.andThen,
    Act.andThen, push, along_cons, under_child_getD]

mutual

/-- To lay a value is to set its leaves. The value, its members and each of them go hand in hand. -/
theorem setLeaves_leaves : ∀ (v : Tree) (old : Option Tree), setLeaves (leaves v) old = .ok (v.laid old)
  | .scalar _ _, _ => rfl
  | .array _ _, _ => rfl
  | .table _ [], _ => rfl
  | .table o (m :: ms), old => by
    rw [leaves_table_cons, setLeaves_leavesOfMember_append]
    exact setLeaves_leavesOfMembers (m :: ms) _

theorem setLeaves_leavesOfMembers : ∀ (ms : List (String × Tree)) (t : Tree),
    setLeaves (leavesOfMembers ms) (some t) = .ok (mergeMembers ms t)
  | [], _ => rfl
  | m :: ms, t => by
    rw [leavesOfMembers, setLeaves_append, setLeaves_leavesOfMember m t, mergeMembers_cons]
    exact setLeaves_leavesOfMembers ms _

theorem setLeaves_leavesOfMember : ∀ (m : String × Tree) (t : Tree),
    setLeaves (leavesOfMember m) (some t) = .ok (merge m.2 m.1 t)
  | (k, v), t => by
    rw [leavesOfMember, setLeaves_push _ (leaves_ne_nil v), under, setLeaves_leaves, merge_eq]
    rfl

end

/-! ### A layer as its leaves -/

/-- What a value comes to at the end of its path. -/
def settled (v : Tree) (intoTable : Bool) : Act := fun old => .ok (if intoTable then v.laid old else v)

theorem intoTable_child (k j : String) (steps : List PathStep) :
    KeyPath.intoTable ⟨k, .child j :: steps⟩ = KeyPath.intoTable ⟨k, steps⟩ := by
  cases steps <;> rfl

theorem setBelow_index (v : Tree) (i : Int) (steps : List PathStep) (t : Tree) :
    setBelow v (.index i :: steps) t = position t.elements.length i >>= fun p =>
      (setBelow v steps (t.element p)).map (t.withElement p) := by
  rw [setBelow]
  cases position t.elements.length i with
  | error e => rfl
  | ok p =>
    have old : (filled t.elements (p + 1))[p]?.getD nil = t.element p := by
      rw [getElem?_filled, if_pos (by omega), Option.getD_some, element]
    simp only [bind, Except.bind, old]
    cases setBelow v steps (t.element p) <;> rfl

/-- What is set further inside does not tell nothing from the empty value. -/
theorem along_taken_getD (step : PathStep) (steps : List PathStep) (f : Act) (old : Option Tree) :
    along (taken (step :: steps)) f (some (old.getD nil)) = along (taken (step :: steps)) f old := by
  cases step <;> rfl

/-- To set a value at the end of some steps is to settle it there. -/
theorem setBelow_eq_along (v : Tree) (k : String) (step : PathStep) (steps : List PathStep) (t : Tree) :
    setBelow v (step :: steps) t =
      along (taken (step :: steps)) (settled v (KeyPath.intoTable ⟨k, step :: steps⟩)) (some t) := by
  induction steps generalizing step t with
  | nil =>
    cases step with
    | child j => exact setBelow_child v j [] t
    | index i => exact setBelow_index v i [] t
  | cons step' steps ih =>
    have last :
      KeyPath.intoTable ⟨k, step :: step' :: steps⟩ = KeyPath.intoTable ⟨k, step' :: steps⟩ := by
      rw [KeyPath.intoTable, KeyPath.intoTable, List.getLast?_cons_cons]
    rw [last]
    cases step with
    | child j =>
      rw [setBelow_child, laidBelow, if_neg (List.cons_ne_nil _ _), ih, along_taken_getD]
      rfl
    | index i =>
      rw [setBelow_index]
      simp only [ih]
      rfl

theorem setLeaves_prefix (steps : List PathStep) (hls : ls ≠ []) :
    setLeaves (ls.map fun l => (steps ++ l.1, l.2)) = along steps (setLeaves ls) := by
  induction steps with
  | nil => exact congrArg setLeaves (List.map_id ls)
  | cons step steps ih =>
    rw [along_cons, ← ih, ← setLeaves_push step (by simpa using hls), List.map_map]
    rfl

theorem setLeaves_leavesOfEntry (m : String × Tree) (t : Tree) :
    setLeaves (leavesOfEntry m) (some t) = setAt m.2 (KeyPath.ofKey m.1) t := by
  have inside : setLeaves (if (KeyPath.ofKey m.1).intoTable then leaves m.2 else [([], .value m.2)]) =
      settled m.2 (KeyPath.ofKey m.1).intoTable := by
    funext old
    rw [settled]
    split
    · exact setLeaves_leaves m.2 old
    · rfl
  have some_leaf : (if (KeyPath.ofKey m.1).intoTable then leaves m.2 else [([], .value m.2)]) ≠ [] := by
    split
    · exact leaves_ne_nil m.2
    · exact List.cons_ne_nil _ _
  rw [leavesOfEntry, setLeaves_prefix _ some_leaf, inside, setAt, setBelow_eq_along m.2 "",
    intoTable_child]
  rfl

/-- To lay a layer over a tree is to set its leaves. -/
theorem addLayer_eq_setLeaves (layer : List (String × Tree)) (t : Tree) :
    addLayer layer t = setLeaves (leavesOfLayer layer) (some t) := by
  induction layer generalizing t with
  | nil => rfl
  | cons m layer ih =>
    rw [leavesOfLayer, List.flatMap_cons, setLeaves_append, setLeaves_leavesOfEntry, addLayer]
    exact congrArg _ (funext ih)

end Tree

end Invalidation
