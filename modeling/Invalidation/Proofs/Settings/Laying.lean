import Invalidation.Proofs.Settings.Fields

/-! What a layer does to a field. A member of a layer either keeps clear of the field, and then the
    field reads as before, or sets it to a value of its own:

        extra = 1                      keeps clear of every field
        [linking] extra = 1            keeps clear of every field; the part stays a table
        [firing] trace_redirects       sets that field, and keeps clear of the others
        firing.trace_redirects         the same, by its path

    A layer all of whose members do the one or the other has the field at a value that it gives, and
    otherwise at the value that was there. -/

namespace Invalidation

open Settings (Field)

namespace Settings.Field

/-- The member of a layer keeps clear of the field: its key leads elsewhere, be it in the part of
    the field, or it is this part, as a table without the field. -/
def SparedBy (f : Field) (m : String × Tree) : Prop :=
  (KeyPath.ofKey m.1).key ≠ f.part ∨
    match (KeyPath.ofKey m.1).steps, m.2 with
    | [], .table _ ms => ∀ n ∈ ms, Text.lowercase n.1 ≠ f.name
    | .child k :: _, _ => Text.lowercase k ≠ f.name
    | _, _ => False

/-- What keeps clear of a field at its part, is a table without the field or leads to another key. -/
theorem SparedBy.inside {f : Field} {m : String × Tree} (h : f.SparedBy m)
    (here : (KeyPath.ofKey m.1).key = f.part) :
    ((KeyPath.ofKey m.1).steps = [] ∧
      ∃ o ms, m.2 = .table o ms ∧ ∀ n ∈ ms, Text.lowercase n.1 ≠ f.name) ∨
    ∃ k steps, (KeyPath.ofKey m.1).steps = .child k :: steps ∧ Text.lowercase k ≠ f.name := by
  have inside := h.resolve_left (not_not.mpr here)
  split at inside
  · next hsteps htable => exact Or.inl ⟨hsteps, _, _, htable, inside⟩
  · next hsteps => exact Or.inr ⟨_, _, hsteps, inside⟩
  · exact inside.elim

/-- The member of a layer sets the field to the value: it is the part of the field, as a table that
    gives the field this value and no other, or it is the value, and its key leads to the field. -/
def SetBy (f : Field) (y : Scalar) (m : String × Tree) : Prop :=
  (∃ o ms, m = (f.part, .table o ms) ∧ (∃ n ∈ ms, Text.lowercase n.1 = f.name) ∧
      ∀ n ∈ ms, Text.lowercase n.1 = f.name → ∃ o', n.2 = .scalar o' y) ∨
    ∃ o, m.2 = .scalar o y ∧ KeyPath.ofKey m.1 = ⟨f.part, [.child f.name]⟩

/-- A layer sets the field to a value, or there is none and the layer keeps clear of the field. -/
structure GivenBy (f : Field) (layer : List (String × Tree)) (y? : Option Scalar) : Prop where
  each : ∀ m ∈ layer, f.SparedBy m ∨ ∃ y, y? = some y ∧ f.SetBy y m
  set : ∀ y, y? = some y → ∃ m ∈ layer, f.SetBy y m

end Settings.Field

namespace Tree

variable {f : Field} {x y : Scalar} {t t' : Tree} {m : String × Tree} {layer : List (String × Tree)}

/-- A key that leads elsewhere does so too when it is put into small letters once more. -/
theorem keyAt_ne_part {k : String} (h : (KeyPath.ofKey k).key ≠ f.part) :
    keyAt (KeyPath.ofKey k).key (KeyPath.ofKey k).steps ≠ f.part := by
  rw [keyAt]
  split
  · next plain =>
    rw [KeyPath.key_of_plain plain] at h ⊢
    exact fun twice => h (Text.lowercase_eq_of_twice f.ascii_part twice)
  · exact h

theorem keyAt_part (f : Field) (steps : List PathStep) : keyAt f.part steps = f.part := by
  rw [keyAt, f.lowercase_part, ite_self]

theorem keyAt_name (f : Field) (steps : List PathStep) : keyAt f.name steps = f.name := by
  rw [keyAt, f.lowercase_name, ite_self]

theorem keyAt_ne_name {k : String} (h : Text.lowercase k ≠ f.name) (steps : List PathStep) :
    keyAt k steps ≠ f.name := by
  rw [keyAt]
  split
  · exact h
  · exact fun hk => h (by rw [hk, f.lowercase_name])

/-- What keeps clear of a field leaves it as it is. -/
theorem Holds.setAt (h : t.Holds f x) (spared : f.SparedBy m)
    (set : Tree.setAt m.2 (KeyPath.ofKey m.1) t = .ok t') : t'.Holds f x := by
  obtain ⟨o, ms, hpart, o', hname⟩ := h
  obtain ⟨w, hw, rfl⟩ := setBelow_child_eq_ok.mp set
  by_cases here : (KeyPath.ofKey m.1).key = f.part
  · rw [here, keyAt_part] at hw ⊢
    rw [hpart] at hw
    -- the part is a table as before, with the same value in the field
    obtain ⟨us, rfl, hus⟩ : ∃ us, w = .table o us ∧ findKey f.name us = some (.scalar o' x) := by
      rcases spared.inside here with ⟨hsteps, o'', ns, htable, other⟩ | ⟨k, steps, hsteps, other⟩
      · rw [hsteps, htable] at hw
        obtain ⟨us, hus⟩ := mergeMembers_table ns o ms
        have hname' := findKey_mergeMembers_of_ne (t := .table o ms) other
        rw [hus] at hname'
        exact ⟨us, (Except.ok.inj hw).symm.trans hus, hname'.trans hname⟩
      · rw [hsteps] at hw
        obtain ⟨u, -, rfl⟩ := setBelow_child_eq_ok.mp hw
        exact ⟨_, rfl,
          (findKey_withKey_of_ne (t := .table o ms) (keyAt_ne_name other steps)).trans hname⟩
    exact ⟨o, us, findKey_withKey_self t f.part _, o', hus⟩
  · exact ⟨o, ms, by rw [findKey_withKey_of_ne (keyAt_ne_part here)]; exact hpart, o', hname⟩

/-- What sets a field to a value sets it to that value, whatever it was. -/
theorem Holds.setAt_of_setBy (h : t.Holds f x) (sets : f.SetBy y m)
    (set : Tree.setAt m.2 (KeyPath.ofKey m.1) t = .ok t') : t'.Holds f y := by
  obtain ⟨o, ms, hpart, -, -⟩ := h
  obtain ⟨w, hw, rfl⟩ := setBelow_child_eq_ok.mp set
  rcases sets with ⟨o', ns, rfl, given, only⟩ | ⟨o', hv, hplace⟩
  · rw [f.ofKey_part, keyAt_part] at hw ⊢
    rw [hpart] at hw
    obtain ⟨us, hus⟩ := mergeMembers_table ns o ms
    obtain ⟨_, hname, o'', rfl⟩ := findKey_mergeMembers_of_same (t := .table o ms)
      (P := fun v => ∃ o', v = .scalar o' y) (by rintro _ ⟨o', rfl⟩ old; rfl) only (Or.inr given)
    rw [hus] at hname
    obtain rfl : w = .table o us := (Except.ok.inj hw).symm.trans hus
    exact ⟨o, us, findKey_withKey_self t f.part _, o'', hname⟩
  · rw [hplace, keyAt_part] at hw ⊢
    rw [hpart, hv] at hw
    obtain ⟨u, hu, rfl⟩ := setBelow_child_eq_ok.mp hw
    obtain rfl : .scalar o' y = u := Except.ok.inj hu
    rw [keyAt_name]
    exact ⟨o, _, findKey_withKey_self t f.part _, o', findKey_withKey_self (.table o ms) f.name _⟩

theorem Holds.addLayer (h : t.Holds f x) (all : ∀ m ∈ layer, f.SparedBy m ∨ f.SetBy x m)
    (done : Tree.addLayer layer t = .ok t') : t'.Holds f x := by
  induction layer generalizing t with
  | nil =>
    obtain rfl : t = t' := Except.ok.inj done
    exact h
  | cons m layer ih =>
    obtain ⟨hm, hlayer⟩ := List.forall_mem_cons.mp all
    obtain ⟨t₁, ht₁, hrest⟩ := addLayer_cons_eq_ok.mp done
    refine ih ?_ hlayer hrest
    rcases hm with spared | sets
    · exact h.setAt spared ht₁
    · exact h.setAt_of_setBy sets ht₁

theorem Holds.addLayer_of_setBy (h : t.Holds f x) (all : ∀ m ∈ layer, f.SparedBy m ∨ f.SetBy y m)
    (sets : ∃ m ∈ layer, f.SetBy y m) (done : Tree.addLayer layer t = .ok t') : t'.Holds f y := by
  induction layer generalizing t with
  | nil => simp at sets
  | cons m layer ih =>
    obtain ⟨hm, hlayer⟩ := List.forall_mem_cons.mp all
    obtain ⟨t₁, ht₁, hrest⟩ := addLayer_cons_eq_ok.mp done
    by_cases now : f.SetBy y m
    · exact (h.setAt_of_setBy now ht₁).addLayer hlayer hrest
    · refine ih (h.setAt (hm.resolve_right now) ht₁) hlayer ?_ hrest
      simpa [now] using sets

/-- After a layer that gives a field some value or none, the field has that value, or the one that
    it had. -/
theorem Holds.addLayer_of_givenBy {y? : Option Scalar} (h : t.Holds f x) (given : f.GivenBy layer y?)
    (done : Tree.addLayer layer t = .ok t') : t'.Holds f (y?.getD x) := by
  cases y? with
  | none =>
    refine h.addLayer (fun m hm => Or.inl ((given.each m hm).resolve_right ?_)) done
    rintro ⟨y, hy, -⟩
    cases hy
  | some y =>
    refine h.addLayer_of_setBy (fun m hm => (given.each m hm).imp_right ?_) (given.set y rfl) done
    rintro ⟨y', hy, sets⟩
    cases hy
    exact sets

end Tree

namespace Settings

/-! ### From layer to layer -/

variable {s : Settings} {sources : Sources} {path : String} {orders : Orders}
  {layer : List (String × Tree)} {base t t' : Tree}

theorem fileLayer_of_found {files : Files} {name : String} {f : Files.Found}
    {ms : List (String × Toml)} (search : files.search name = .found f)
    (parsed : Toml.parse? f.text = some ms) :
    fileLayer files name = .ok (Tree.ofMembers f.path ms) := by
  rw [fileLayer, search]
  simp only [parsed]

theorem override_of_not_fits (h : ¬ s.Fits) :
    s.override sources path orders = .error (.tooGreat s.linking.maxJumpDistance.toNat) := by
  simp [override, loadOver, toTree?_of_not_fits h, bind, Except.bind]

theorem override_of_layers (hbase : s.toTree? = .ok base)
    (hlayer : fileLayer sources.files path = .ok layer)
    (hfile : Tree.addLayer (orders.file.layer layer) base = .ok t)
    (henv : Tree.addLayer (orders.environment.layer (Environment.layer sources.env.pairs)) t = .ok t') :
    s.override sources path orders = ofTree t' := by
  simp [override, loadOver, hbase, hlayer, layOver, hfile, henv, Except.mapError, bind, Except.bind]

theorem override_of_unreadable {e : LoadError} (hbase : s.toTree? = .ok base)
    (hlayer : fileLayer sources.files path = .error e) : s.override sources path orders = .error e := by
  simp [override, loadOver, hbase, hlayer, bind, Except.bind]

theorem override_of_misplaced {e : NoPlace} (hbase : s.toTree? = .ok base)
    (hlayer : fileLayer sources.files path = .ok layer)
    (hfile : Tree.addLayer (orders.file.layer layer) base = .error e) :
    s.override sources path orders = .error (.noPlace e) := by
  simp [override, loadOver, hbase, hlayer, layOver, hfile, Except.mapError, bind, Except.bind]

theorem override_of_misplaced_variable {e : NoPlace} (hbase : s.toTree? = .ok base)
    (hlayer : fileLayer sources.files path = .ok layer)
    (hfile : Tree.addLayer (orders.file.layer layer) base = .ok t)
    (henv : Tree.addLayer (orders.environment.layer (Environment.layer sources.env.pairs)) t =
        .error e) :
    s.override sources path orders = .error (.noPlace e) := by
  simp [override, loadOver, hbase, hlayer, layOver, hfile, henv, Except.mapError, bind, Except.bind]

end Settings

end Invalidation
