import Invalidation.Proofs.Settings.Fields

/-! Trees that nothing can tell apart. What stands at a key is all that can be asked of a table, so two
    tables that list their members in different orders are alike, if what stands at each key is:

        a = 1, b = 2      alike      b = 2, a = 1

    What is made of trees that are alike is alike, and what is read of them is the same. -/

namespace Invalidation

namespace Tree

/-- What a tree shows of itself, without what is inside it. -/
inductive Face where
  | scalar (origin : Option String) (value : Scalar)
  | array (origin : Option String) (length : Nat)
  | table (origin : Option String)

/-- What the tree shows. -/
def face : Tree → Face
  | .scalar o v => .scalar o v
  | .array o ts => .array o ts.length
  | .table o _ => .table o

/-- What is one step inside a tree. -/
def inside : PathStep → Tree → Option Tree
  | .child k, t => findKey k t.members
  | .index (.ofNat i), t => t.elements[i]?
  | .index (.negSucc _), _ => none

/-- What the tree shows at the end of some steps, if they lead anywhere. -/
def look : List PathStep → Tree → Option Face
  | [], t => some t.face
  | step :: steps, t => (inside step t).bind (look steps)

/-- The two look alike at the end of all steps, or there is nothing in either place. -/
def Alike (a b : Option Tree) : Prop := ∀ steps, a.bind (look steps) = b.bind (look steps)

variable {a b c : Option Tree} {t u v w : Tree} {k : String}

namespace Alike

theorem refl (a : Option Tree) : Alike a a := fun _ => rfl

theorem symm (h : Alike a b) : Alike b a := fun steps => (h steps).symm

theorem trans (hab : Alike a b) (hbc : Alike b c) : Alike a c :=
  fun steps => (hab steps).trans (hbc steps)

/-- There is something in both places, or in neither. -/
theorem none_or_some (h : Alike a b) : (a = none ∧ b = none) ∨ ∃ t u, a = some t ∧ b = some u := by
  have shown := h []
  cases a <;> cases b <;> simp_all [look]

theorem face (h : Alike (some t) (some u)) : t.face = u.face := Option.some.inj (h [])

theorem inside (h : Alike (some t) (some u)) (step : PathStep) :
    Alike (t.inside step) (u.inside step) :=
  fun steps => h (step :: steps)

theorem findKey (h : Alike (some t) (some u)) (k : String) :
    Alike (Tree.findKey k t.members) (Tree.findKey k u.members) := h.inside (.child k)

theorem getElem? (h : Alike (some t) (some u)) (i : Nat) : Alike t.elements[i]? u.elements[i]? :=
  h.inside (.index (.ofNat i))

/-- Trees are alike if they show the same, and what is one step inside them is alike. -/
theorem of_inside (face : t.face = u.face) (inside : ∀ step, Alike (t.inside step) (u.inside step)) :
    Alike (some t) (some u)
  | [] => congrArg some face
  | step :: steps => inside step steps

theorem getD (h : Alike a b) (d : Tree) : Alike (some (a.getD d)) (some (b.getD d)) := by
  rcases h.none_or_some with ⟨rfl, rfl⟩ | ⟨t, u, rfl, rfl⟩
  · exact refl _
  · exact h

end Alike

/-! ### What a face tells -/

theorem tableOrigin_of_face (h : t.face = u.face) : t.tableOrigin = u.tableOrigin := by
  cases t <;> cases u <;> simp_all [face, tableOrigin]

theorem arrayOrigin_of_face (h : t.face = u.face) : t.arrayOrigin = u.arrayOrigin := by
  cases t <;> cases u <;> simp_all [face, arrayOrigin]

theorem length_elements_of_face (h : t.face = u.face) : t.elements.length = u.elements.length := by
  cases t <;> cases u <;> simp_all [face, elements]

/-! ### What is made of trees that are alike -/

theorem inside_withKey (t : Tree) (k : String) (v : Tree) (step : PathStep) :
    (t.withKey k v).inside step = match step with
      | .child j => if k = j then some v else findKey j t.members
      | .index _ => none := by
  cases step with
  | child j => exact findKey_withKey t k j v
  | index i => cases i <;> rfl

theorem Alike.withKey (h : Alike (some t) (some u)) (hv : Alike (some v) (some w)) (k : String) :
    Alike (some (t.withKey k v)) (some (u.withKey k w)) := by
  refine of_inside (congrArg Face.table (tableOrigin_of_face h.face)) fun step => ?_
  rw [inside_withKey, inside_withKey]
  cases step with
  | child j =>
    by_cases hj : k = j
    · simpa only [if_pos hj] using hv
    · simpa only [if_neg hj] using h.findKey j
  | index i => exact refl none

/-- Two keys may be set in either order. -/
theorem withKey_comm {j : String} (h : j ≠ k) (t v w : Tree) :
    Alike (some ((t.withKey j v).withKey k w)) (some ((t.withKey k w).withKey j v)) := by
  refine Alike.of_inside rfl fun step => ?_
  rw [inside_withKey, inside_withKey]
  cases step with
  | child i =>
    simp only [findKey_withKey]
    by_cases hj : j = i
    · rw [if_pos hj, if_pos hj, if_neg (hj ▸ h.symm)]
      exact Alike.refl _
    · rw [if_neg hj, if_neg hj]
      exact Alike.refl _
  | index i => exact Alike.refl none

theorem Alike.array {o : Option String} {ts us : List Tree} (length : ts.length = us.length)
    (each : ∀ i : Nat, Alike ts[i]? us[i]?) : Alike (some (.array o ts)) (some (.array o us)) := by
  refine of_inside (congrArg (Face.array o) length) fun step => ?_
  cases step with
  | child k => exact refl none
  | index i =>
    cases i with
    | ofNat i => exact each i
    | negSucc i => exact refl none

/-! ### Elements -/

/-- The element at a position, as far as there is one. -/
def element (t : Tree) (p : Nat) : Tree := t.elements[p]?.getD nil

/-- The tree with an element set; what is no array gives way to one, and one that is too short is filled
    up. -/
def withElement (t : Tree) (p : Nat) (v : Tree) : Tree :=
  .array t.arrayOrigin ((filled t.elements (p + 1)).set p v)

theorem length_withElement (t : Tree) (p : Nat) (v : Tree) :
    (t.withElement p v).elements.length = max t.elements.length (p + 1) := by
  change ((filled t.elements (p + 1)).set p v).length = _
  rw [List.length_set, filled, List.length_append, List.length_replicate]
  omega

theorem getElem?_filled (ts : List Tree) (n q : Nat) :
    (filled ts n)[q]? = if q < max ts.length n then some (ts[q]?.getD nil) else none := by
  rw [filled, List.getElem?_append]
  by_cases short : q < ts.length
  · rw [if_pos short, if_pos (by omega), List.getElem?_eq_getElem short, Option.getD_some]
  · rw [if_neg short, List.getElem?_replicate, List.getElem?_eq_none (Nat.le_of_not_lt short),
      Option.getD_none]
    exact if_congr (by omega) rfl rfl

theorem getElem?_withElement (t : Tree) (p : Nat) (v : Tree) (q : Nat) :
    (t.withElement p v).elements[q]? = if p = q then some v
      else if q < max t.elements.length (p + 1) then some (t.element q) else none := by
  change ((filled t.elements (p + 1)).set p v)[q]? = _
  rw [List.getElem?_set]
  by_cases hq : p = q
  · rw [if_pos hq, if_pos hq, filled, List.length_append, List.length_replicate, if_pos (by omega)]
  · rw [if_neg hq, if_neg hq, getElem?_filled, element]

theorem element_withElement (t : Tree) (p : Nat) (v : Tree) (q : Nat) :
    (t.withElement p v).element q = if p = q then v else t.element q := by
  rw [element, getElem?_withElement]
  by_cases hq : p = q
  · rw [if_pos hq, if_pos hq, Option.getD_some]
  · rw [if_neg hq, if_neg hq]
    by_cases short : q < max t.elements.length (p + 1)
    · rw [if_pos short, Option.getD_some]
    · rw [if_neg short, element, List.getElem?_eq_none (by omega)]

/-- Trees that are written as arrays are told by their origin and their elements. -/
theorem withElement_eq {p q : Nat} (t u v w : Tree) (origin : t.arrayOrigin = u.arrayOrigin)
    (each : ∀ i : Nat, (t.withElement p v).elements[i]? = (u.withElement q w).elements[i]?) :
    t.withElement p v = u.withElement q w := by
  rw [withElement, origin]
  exact congrArg (Tree.array u.arrayOrigin) (List.ext_getElem? each)

theorem withElement_withElement (t : Tree) (p : Nat) (v w : Tree) :
    (t.withElement p v).withElement p w = t.withElement p w := by
  refine withElement_eq _ _ _ _ rfl fun i => ?_
  simp only [getElem?_withElement, length_withElement, element_withElement]
  by_cases hi : p = i
  · rw [if_pos hi, if_pos hi]
  · rw [if_neg hi, if_neg hi, if_neg hi, Nat.max_assoc, Nat.max_self]

/-- Two elements may be set in either order. -/
theorem withElement_comm {p q : Nat} (h : p ≠ q) (t v w : Tree) :
    (t.withElement p v).withElement q w = (t.withElement q w).withElement p v := by
  refine withElement_eq _ _ _ _ rfl fun i => ?_
  simp only [getElem?_withElement, length_withElement, element_withElement]
  split_ifs <;> first | rfl | omega

theorem Alike.element (h : Alike (some t) (some u)) (p : Nat) :
    Alike (some (t.element p)) (some (u.element p)) := (h.getElem? p).getD nil

theorem Alike.withElement (h : Alike (some t) (some u)) (hv : Alike (some v) (some w)) (p : Nat) :
    Alike (some (t.withElement p v)) (some (u.withElement p w)) := by
  have length := length_elements_of_face h.face
  have same : (t.withElement p v).elements.length = (u.withElement p w).elements.length := by
    rw [length_withElement, length_withElement, length]
  have each : ∀ i : Nat, Alike (t.withElement p v).elements[i]? (u.withElement p w).elements[i]? := by
    intro i
    rw [getElem?_withElement, getElem?_withElement, length]
    split_ifs
    · exact hv
    · exact h.element i
    · exact refl none
  rw [Tree.withElement, Tree.withElement, arrayOrigin_of_face h.face]
  exact Alike.array same each

/-! ### What is read of trees that are alike -/

theorem readBool_of_face (key : String) (h : t.face = u.face) : readBool key t = readBool key u := by
  cases t <;> cases u <;> simp_all [face, readBool]

theorem readUInt64_of_face (key : String) (h : t.face = u.face) :
    readUInt64 key t = readUInt64 key u := by
  cases t <;> cases u <;> simp_all [face, readUInt64]

theorem checkRecord_of_face (record : String) (h : t.face = u.face) :
    t.checkRecord record = u.checkRecord record := by
  cases t <;> cases u <;> simp_all [face, checkRecord]

theorem Alike.readField {α : Type} {read : String → Tree → Except LoadError α}
    (h : Alike (some t) (some u)) (part field : String) (place : Nat) (missing : α)
    (same : ∀ {t u : Tree} (key : String), t.face = u.face → read key t = read key u) :
    t.readField part field place read missing = u.readField part field place read missing := by
  cases t with
  | scalar o v =>
    cases u with
    | scalar => rfl
    | array => cases h.face
    | table => cases h.face
  | array o ts =>
    cases u with
    | array o' us =>
      have alike : Alike ts[place]? us[place]? := h.getElem? place
      rcases alike.none_or_some with ⟨ht, hu⟩ | ⟨v, w, ht, hu⟩
      · rw [readField_array_of_none ht, readField_array_of_none hu]
      · rw [ht, hu] at alike
        rw [readField_array ht, readField_array hu, same _ alike.face]
    | scalar => cases h.face
    | table => cases h.face
  | table o ms =>
    cases u with
    | table o' ns =>
      have alike : Alike (Tree.findKey field ms) (Tree.findKey field ns) := h.findKey field
      rcases alike.none_or_some with ⟨ht, hu⟩ | ⟨v, w, ht, hu⟩
      · rw [readField_table_of_none ht, readField_table_of_none hu]
      · rw [ht, hu] at alike
        rw [readField_table ht, readField_table hu, same _ alike.face]
    | scalar => cases h.face
    | array => cases h.face

theorem Alike.readPart {α : Type} {read : Tree → Except LoadError α} (h : Alike (some t) (some u))
    (part : String) (missing : α)
    (same : ∀ {t u : Tree}, Alike (some t) (some u) → read t = read u) :
    t.readPart part read missing = u.readPart part read missing := by
  have alike := h.findKey part
  rcases alike.none_or_some with ⟨ht, hu⟩ | ⟨v, w, ht, hu⟩
  · rw [readPart_of_none ht, readPart_of_none hu]
  · rw [ht, hu] at alike
    rw [readPart_of_some ht, readPart_of_some hu, same alike]

theorem Alike.firing (h : Alike (some t) (some u)) : Firing.ofTree t = Firing.ofTree u := by
  rw [Firing.ofTree, Firing.ofTree, checkRecord_of_face _ h.face,
    h.readField "firing" "trace_redirects" 0 false readBool_of_face]

theorem Alike.linking (h : Alike (some t) (some u)) : Linking.ofTree t = Linking.ofTree u := by
  rw [Linking.ofTree, Linking.ofTree, checkRecord_of_face _ h.face,
    h.readField "linking" "reject_self_loops" 0 true readBool_of_face,
    h.readField "linking" "max_jump_distance" 1 2147483647 readUInt64_of_face]

/-- Settings are the same in trees that are alike. -/
theorem Alike.settings (h : Alike (some t) (some u)) : Settings.ofTree t = Settings.ofTree u := by
  rw [Settings.ofTree_eq, Settings.ofTree_eq, h.readPart "firing" {} Alike.firing,
    h.readPart "linking" {} Alike.linking]

end Tree

end Invalidation
