import Invalidation.Proofs.Settings.Leaves
import Mathlib.Data.List.Perm.Basic

/-! Keys that do not meet. Two paths are apart if they part ways before either comes to its end: at
    two keys of a table, or at two elements of an array, both counted from the front.

        a . b    and    a . c          apart
        a [0]    and    a [1] . b      apart
        a        and    a . b          not: the one is on the way of the other
        a [0]    and    a [-1]         not: how long the array is decides whether they meet

    What is set at paths that are apart may be set in either order. So a layer whose leaves are
    apart comes to the same in every order in which it can be walked, but for the order in which
    tables list their members; or it has no place for some key, whichever comes first. -/

namespace Invalidation

namespace Tree

/-- The paths part ways. -/
inductive Apart : List PathStep → List PathStep → Prop
  | keys {j k : String} (ne : j ≠ k) (p q : List PathStep) : Apart (.child j :: p) (.child k :: q)
  | elements {i j : Nat} (ne : i ≠ j) (p q : List PathStep) :
      Apart (.index (.ofNat i) :: p) (.index (.ofNat j) :: q)
  | behind (step : PathStep) {p q : List PathStep} (h : Apart p q) : Apart (step :: p) (step :: q)

/-- The leaves of a layer are all apart, so that no two of its keys meet. -/
def LeavesApart (layer : List (String × Tree)) : Prop :=
  (leavesOfLayer layer).Pairwise fun l l' => Apart l.1 l'.1

/-- Two attempts come to trees that are alike, or both to nothing. -/
inductive Agree : Except NoPlace Tree → Except NoPlace Tree → Prop
  | fails (e e' : NoPlace) : Agree (.error e) (.error e')
  | ends {t u : Tree} (h : Alike (some t) (some u)) : Agree (.ok t) (.ok u)

/-- The two do the same to places that are alike. -/
def Same (f g : Act) : Prop := ∀ a b, Alike a b → Agree (f a) (g b)

variable {p q : List PathStep} {f f' g g' : Act} {r r' r'' : Except NoPlace Tree}
  {ls ls' : List (List PathStep × Leaf)} {old : Option Tree}

theorem Apart.symm (h : Apart p q) : Apart q p := by
  induction h with
  | keys ne p q => exact .keys ne.symm q p
  | elements ne p q => exact .elements ne.symm q p
  | behind step _ ih => exact .behind step ih

/-- Behind a step in common, paths part ways as they do from there. -/
theorem apart_cons {step : PathStep} : Apart (step :: p) (step :: q) ↔ Apart p q := by
  constructor
  · intro h
    cases h with
    | keys ne => exact absurd rfl ne
    | elements ne => exact absurd rfl ne
    | behind _ h => exact h
  · exact .behind step

instance decidableApart : DecidableRel Apart
  | [], _ => isFalse nofun
  | _ :: _, [] => isFalse nofun
  | step :: p, step' :: q =>
    if same : step = step' then
      have := decidableApart p q
      decidable_of_iff (Apart p q) (same ▸ apart_cons.symm)
    else
      match step, step' with
      | .child j, .child k => isTrue (.keys (fun h => same (congrArg _ h)) p q)
      | .index (.ofNat i), .index (.ofNat j) => isTrue (.elements (fun h => same (by rw [h])) p q)
      | .index (.negSucc _), .index _ => isFalse fun h => by cases h; exact same rfl
      | .index (.ofNat _), .index (.negSucc _) => isFalse nofun
      | .child _, .index _ => isFalse nofun
      | .index _, .child _ => isFalse nofun

instance : DecidablePred LeavesApart := fun _ => inferInstanceAs (Decidable (List.Pairwise _ _))

namespace Agree

theorem trans (h : Agree r r') (h' : Agree r' r'') : Agree r r'' := by
  cases h with
  | fails e e' => cases h' with | fails _ e'' => exact .fails e e''
  | ends h => cases h' with | ends h' => exact .ends (h.trans h')

theorem symm (h : Agree r r') : Agree r' r := by
  cases h with
  | fails e e' => exact .fails e' e
  | ends h => exact .ends h.symm

theorem exists_ok {t : Tree} (h : Agree r r') (ok : r = .ok t) :
    ∃ u, r' = .ok u ∧ Alike (some t) (some u) := by
  cases h with
  | fails => cases ok
  | ends alike =>
    cases ok
    exact ⟨_, rfl, alike⟩

theorem bind (h : Agree r r') (same : Same f g) :
    Agree (r >>= fun t => f (some t)) (r' >>= fun t => g (some t)) := by
  cases h with
  | fails e e' => exact .fails e e'
  | ends h => exact same _ _ h

theorem map {φ ψ : Tree → Tree} (h : Agree r r')
    (same : ∀ t u, Alike (some t) (some u) → Alike (some (φ t)) (some (ψ u))) :
    Agree (r.map φ) (r'.map ψ) := by
  cases h with
  | fails e e' => exact .fails e e'
  | ends h => exact .ends (same _ _ h)

end Agree

namespace Same

theorem symm (h : Same f g) : Same g f := fun a b alike => (h b a alike.symm).symm

theorem trans {k : Act} (hfg : Same f g) (hgk : Same g k) : Same f k := fun a b alike =>
  (hfg a b alike).trans (hgk b b (Alike.refl b))

theorem andThen (hf : Same f f') (hg : Same g g') : Same (f.andThen g) (f'.andThen g') :=
  fun a b alike => (hf a b alike).bind hg

theorem set (l : Leaf) : Same l.set l.set := by
  intro a b alike
  cases l with
  | value t => exact .ends (Alike.refl _)
  | there => exact .ends (alike.getD _)

theorem under (h : Same f g) (step : PathStep) : Same (Tree.under step f) (Tree.under step g) := by
  intro a b alike
  have trees := alike.getD nil
  cases step with
  | child k => exact (h _ _ (trees.findKey k)).map fun v w values => trees.withKey values k
  | index i =>
    rw [Tree.under, Tree.under, length_elements_of_face trees.face]
    cases position (b.getD nil).elements.length i with
    | error e => exact .fails e e
    | ok p => exact (h _ _ (trees.element p)).map fun v w values => trees.withElement values p

theorem along (h : Same f g) (steps : List PathStep) :
    Same (Tree.along steps f) (Tree.along steps g) := by
  induction steps with
  | nil => exact h
  | cons step steps ih => exact ih.under step

end Same

/-! ### In either order -/

theorem Act.andThen_assoc (f g k : Act) : (f.andThen g).andThen k = f.andThen (g.andThen k) := by
  funext old
  rw [Act.andThen, Act.andThen, Act.andThen]
  cases f old <;> rfl

/-- Two things that take what they start from, and put what they come to, where the other does not
    look. -/
theorem agree_of_swap {x y : Except NoPlace Tree} {φ ψ : Tree → Tree} {φ' ψ' : Tree → Tree → Tree}
    (first : f old = x.map φ) (second : g old = y.map ψ)
    (second' : ∀ v, g (some (φ v)) = y.map (ψ' v)) (first' : ∀ w, f (some (ψ w)) = x.map (φ' w))
    (alike : ∀ v w, Alike (some (ψ' v w)) (some (φ' w v))) :
    Agree (f.andThen g old) (g.andThen f old) := by
  rw [Act.andThen, Act.andThen, first, second]
  cases x with
  | error e =>
    cases y with
    | error e' => exact .fails e e'
    | ok w =>
      change Agree (.error e) (f (some (ψ w)))
      rw [first']
      exact .fails e e
  | ok v =>
    change Agree (g (some (φ v))) _
    rw [second']
    cases y with
    | error e' => exact .fails e' e'
    | ok w =>
      change Agree _ (f (some (ψ w)))
      rw [first']
      exact .ends (alike v w)

theorem under_child_comm {j k : String} (ne : j ≠ k) (f g : Act) (old : Option Tree) :
    Agree ((under (.child j) f).andThen (under (.child k) g) old)
      ((under (.child k) g).andThen (under (.child j) f) old) := by
  refine agree_of_swap (f := under (.child j) f) (g := under (.child k) g) rfl rfl (fun v => ?_)
    (fun w => ?_) (withKey_comm ne (old.getD nil))
  · rw [under, Option.getD_some, findKey_withKey_of_ne ne]
  · rw [under, Option.getD_some, findKey_withKey_of_ne ne.symm]

theorem under_index_ofNat (i : Nat) (f : Act) (old : Option Tree) : under (.index (.ofNat i)) f old =
    (if i < longest then f (some ((old.getD nil).element i)) else .error .tooLong).map
      ((old.getD nil).withElement i) := by
  have place : position (old.getD nil).elements.length (.ofNat i) =
      if i < longest then .ok i else .error .tooLong := rfl
  rw [under, place]
  split <;> rfl

theorem under_index_comm {i j : Nat} (ne : i ≠ j) (f g : Act) (old : Option Tree) :
    Agree ((under (.index (.ofNat i)) f).andThen (under (.index (.ofNat j)) g) old)
      ((under (.index (.ofNat j)) g).andThen (under (.index (.ofNat i)) f) old) := by
  have swap : ∀ v w, Alike (some (((old.getD nil).withElement i v).withElement j w))
      (some (((old.getD nil).withElement j w).withElement i v)) := fun v w => by
    rw [withElement_comm ne]
    exact Alike.refl _
  refine agree_of_swap (under_index_ofNat i f old) (under_index_ofNat j g old) (fun v => ?_)
    (fun w => ?_) swap
  · rw [under_index_ofNat, Option.getD_some, element_withElement, if_neg ne]
  · rw [under_index_ofNat, Option.getD_some, element_withElement, if_neg ne.symm]

/-- What is done at paths that are apart may be done in either order. -/
theorem Apart.along_comm (h : Apart p q) (hf : Same f f) (hg : Same g g) :
    Same ((along p f).andThen (along q g)) ((along q g).andThen (along p f)) := by
  induction h with
  | keys ne p q =>
    intro a b alike
    exact ((hf.along _).andThen (hg.along _) a b alike).trans (under_child_comm ne _ _ b)
  | elements ne p q =>
    intro a b alike
    exact ((hf.along _).andThen (hg.along _) a b alike).trans (under_index_comm ne _ _ b)
  | behind step h ih =>
    simp only [along_cons, under_andThen]
    exact ih.under step

theorem Same.setLeaves (ls : List (List PathStep × Leaf)) :
    Same (Tree.setLeaves ls) (Tree.setLeaves ls) := by
  induction ls with
  | nil => exact fun a b alike => .ends (alike.getD nil)
  | cons l ls ih => exact ((Same.set l.2).along l.1).andThen ih

/-- Leaves that are apart may be set in any order. -/
theorem Same.setLeaves_perm (perm : ls.Perm ls') (apart : ls.Pairwise fun l l' => Apart l.1 l'.1) :
    Same (Tree.setLeaves ls) (Tree.setLeaves ls') := by
  induction perm with
  | nil => exact Same.setLeaves []
  | cons l _ ih => exact ((Same.set l.2).along l.1).andThen (ih (List.pairwise_cons.mp apart).2)
  | swap l l' ls =>
    have heads : Apart l'.1 l.1 := (List.pairwise_cons.mp apart).1 l List.mem_cons_self
    have swapped := (heads.along_comm (Same.set l'.2) (Same.set l.2)).andThen (Same.setLeaves ls)
    simpa only [Tree.setLeaves, Act.andThen_assoc] using swapped
  | trans perm _ ih ih' =>
    exact (ih apart).trans (ih' (perm.pairwise apart fun h => h.symm))

/-! ### A layer in every order -/

mutual

/-- Whatever the order of its members, a value has the same leaves. -/
theorem leaves_tree_perm (o : Order) (place : List String) : ∀ t : Tree,
    (leaves (o.tree place t)).Perm (leaves t)
  | .scalar _ _ => .refl _
  | .array _ _ => .refl _
  | .table origin ms => by
    have empty : (o.walk place (o.members place ms)).isEmpty = ms.isEmpty := by
      rw [(o.perm place _).isEmpty_eq, o.members_eq_map]
      cases ms <;> rfl
    rw [Order.tree, leaves, leaves, empty]
    split
    · exact .refl _
    · have walked : (leavesOfMembers (o.walk place (o.members place ms))).Perm
          (leavesOfMembers (o.members place ms)) := by
        rw [leavesOfMembers_eq_flatMap, leavesOfMembers_eq_flatMap]
        exact (o.perm place _).flatMap_right _
      exact walked.trans (leavesOfMembers_perm o place ms)

theorem leavesOfMembers_perm (o : Order) (place : List String) : ∀ ms : List (String × Tree),
    (leavesOfMembers (o.members place ms)).Perm (leavesOfMembers ms)
  | [] => .refl _
  | m :: ms => (leavesOfMember_perm o place m).append (leavesOfMembers_perm o place ms)

theorem leavesOfMember_perm (o : Order) (place : List String) : ∀ m : String × Tree,
    (leavesOfMember (o.member place m)).Perm (leavesOfMember m)
  | (k, t) => (leaves_tree_perm o (k :: place) t).map _

end

theorem leavesOfEntry_perm (o : Order) (m : String × Tree) :
    (leavesOfEntry (o.entry m)).Perm (leavesOfEntry m) := by
  rw [leavesOfEntry, leavesOfEntry, o.entry_fst, Order.entry]
  cases (KeyPath.ofKey m.1).intoTable with
  | false => exact .refl _
  | true =>
    obtain ⟨k, t⟩ := m
    exact (leaves_tree_perm o [k] t).map _

theorem leavesOfLayer_perm (o : Order) (layer : List (String × Tree)) :
    (leavesOfLayer (o.layer layer)).Perm (leavesOfLayer layer) :=
  calc (leavesOfLayer (o.layer layer)).Perm ((layer.map o.entry).flatMap leavesOfEntry) :=
        (o.perm [] _).flatMap_right _
    _ = layer.flatMap fun m => leavesOfEntry (o.entry m) := List.flatMap_map ..
    List.Perm _ (leavesOfLayer layer) := List.Perm.flatMap_left _ fun m _ => leavesOfEntry_perm o m

/-- A layer whose leaves are apart comes to the same in every order. -/
theorem LeavesApart.addLayer {layer : List (String × Tree)} (apart : LeavesApart layer) (o o' : Order)
    {t u : Tree} (alike : Alike (some t) (some u)) :
    Agree (Tree.addLayer (o.layer layer) t) (Tree.addLayer (o'.layer layer) u) := by
  have inOrder := Same.setLeaves_perm (leavesOfLayer_perm o layer).symm apart
  have inOrder' := Same.setLeaves_perm (leavesOfLayer_perm o' layer).symm apart
  rw [addLayer_eq_setLeaves, addLayer_eq_setLeaves]
  exact (inOrder.symm.trans inOrder') _ _ alike

end Tree

end Invalidation
