import Invalidation.Proofs.Text.SmallLetters
import Invalidation.Proofs.World.Tables
import Invalidation.Settings.KeyPath
import Mathlib.Data.List.TakeWhile

/-! What laying a layer over a tree does, seen through its keys. A value that is set at a key looks at
    what stands there, and nowhere else; and what it comes to stands there afterwards:

        t ── v at k ──▶ t with k : v laid over what stood at k

    The same holds of every further step of a path, as long as the steps go from table to table. -/

namespace Invalidation

namespace KeyPath

/-- A path without steps is at its end. -/
theorem eq_nil_of_steps?_nil {fuel : Nat} {cs : List Char} (h : steps? fuel cs = some []) :
    cs = [] := by
  unfold steps? at h
  split at h
  · rfl
  · cases h
  · simp [Option.bind_eq_some_iff] at h
  · simp [Option.bind_eq_some_iff] at h
  · cases h

/-- A key that names no place inside another is the name that it is in small letters. -/
theorem key_of_plain {k : String} (plain : (ofKey k).steps = []) :
    (ofKey k).key = Text.lowercase k := by
  rw [ofKey] at plain ⊢
  cases h : parse? (Text.lowercase k) with
  | none => rfl
  | some path =>
    rw [h, Option.getD_some] at plain
    rw [Option.getD_some]
    simp only [parse?, word?, Option.bind_eq_bind, Option.bind_eq_some_iff] at h
    obtain ⟨⟨w, rest⟩, hword, steps, hsteps, hpath⟩ := h
    obtain rfl : ⟨w, steps⟩ = path := by simpa using hpath
    obtain rfl : steps = [] := plain
    split at hword
    · cases hword
    · obtain ⟨rfl, hrest⟩ : String.ofList _ = w ∧ _ = rest := by simpa using hword
      -- no steps are left, so the word goes on to the end
      obtain rfl : rest = [] := eq_nil_of_steps?_nil hsteps
      rw [List.dropWhile_eq_nil_iff] at hrest
      rw [List.takeWhile_eq_self_iff.mpr hrest, String.ofList_toList]

end KeyPath

namespace Tree

variable {k j : String} {t u v : Tree} {ms : List (String × Tree)} {steps : List PathStep}

/-! ### Keys -/

theorem findKey_eq_lookup (k : String) (ms : List (String × Tree)) :
    findKey k ms = Store.lookup k ms := by
  induction ms with
  | nil => rfl
  | cons m ms ih =>
    obtain ⟨j, t⟩ := m
    rw [findKey, Store.lookup, ih]

theorem putKey_eq_insert (k : String) (t : Tree) (ms : List (String × Tree)) :
    putKey k t ms = Store.insert k t ms := by
  induction ms with
  | nil => rfl
  | cons m ms ih =>
    obtain ⟨j, u⟩ := m
    rw [putKey, Store.insert, ih]

theorem findKey_putKey (k j : String) (t : Tree) (ms : List (String × Tree)) :
    findKey j (putKey k t ms) = if k = j then some t else findKey j ms := by
  rw [putKey_eq_insert, findKey_eq_lookup, Store.lookup_insert, findKey_eq_lookup]

theorem findKey_withKey (t : Tree) (k j : String) (v : Tree) :
    findKey j (t.withKey k v).members = if k = j then some v else findKey j t.members :=
  findKey_putKey k j v t.members

theorem findKey_withKey_self (t : Tree) (k : String) (v : Tree) :
    findKey k (t.withKey k v).members = some v := by rw [findKey_withKey, if_pos rfl]

theorem findKey_withKey_of_ne (h : k ≠ j) :
    findKey j (t.withKey k v).members = findKey j t.members := by
  rw [findKey_withKey, if_neg h]

theorem mem_of_findKey (h : findKey k ms = some v) : (k, v) ∈ ms :=
  Store.mem_of_lookup (findKey_eq_lookup k ms ▸ h)

theorem mem_of_mem_putKey {m : String × Tree} (h : m ∈ putKey k v ms) : m = (k, v) ∨ m ∈ ms :=
  Store.mem_of_mem_insert (putKey_eq_insert k v ms ▸ h)

/-! ### One value over another -/

/-- What a value comes to where something stands already: a table goes into what is there, member by
    member; anything else takes its place. -/
def laid (v : Tree) (old : Option Tree) : Tree :=
  match v with
  | .table _ ms => mergeMembers ms (old.getD (.table none []))
  | v => v

theorem merge_eq (v : Tree) (k : String) (t : Tree) : merge v k t =
    t.withKey (Text.lowercase k) (v.laid (findKey (Text.lowercase k) t.members)) := by
  cases v <;> rfl

theorem mergeMembers_cons (m : String × Tree) (ms : List (String × Tree)) (t : Tree) :
    mergeMembers (m :: ms) t = mergeMembers ms (merge m.2 m.1 t) := by
  rw [mergeMembers, mergeMember]

/-- Members that go into a table leave it a table. -/
theorem mergeMembers_table (ms : List (String × Tree)) (o : Option String) (us : List (String × Tree)) :
    ∃ us', mergeMembers ms (.table o us) = .table o us' := by
  induction ms generalizing us with
  | nil => exact ⟨us, rfl⟩
  | cons m ms ih =>
    rw [mergeMembers_cons, merge_eq]
    exact ih _

theorem findKey_mergeMembers_of_ne (h : ∀ m ∈ ms, Text.lowercase m.1 ≠ j) :
    findKey j (mergeMembers ms t).members = findKey j t.members := by
  induction ms generalizing t with
  | nil => rfl
  | cons m ms ih =>
    obtain ⟨hm, hms⟩ := List.forall_mem_cons.mp h
    rw [mergeMembers_cons, ih hms, merge_eq, findKey_withKey_of_ne hm]

/-- A key that some members give a single value, and all of them one of the same kind, has such a value
    afterwards. -/
theorem findKey_mergeMembers_of_same {P : Tree → Prop} (single : ∀ v, P v → ∀ old, v.laid old = v)
    (same : ∀ m ∈ ms, Text.lowercase m.1 = j → P m.2)
    (given : (∃ v, findKey j t.members = some v ∧ P v) ∨ ∃ m ∈ ms, Text.lowercase m.1 = j) :
    ∃ v, findKey j (mergeMembers ms t).members = some v ∧ P v := by
  induction ms generalizing t with
  | nil => simpa [mergeMembers] using given
  | cons m ms ih =>
    obtain ⟨hm, hms⟩ := List.forall_mem_cons.mp same
    rw [mergeMembers_cons]
    refine ih hms ?_
    rw [merge_eq, findKey_withKey]
    split
    · next hj =>
      rw [single _ (hm hj)]
      exact Or.inl ⟨m.2, rfl, hm hj⟩
    · next hj => simpa [hj] using given

/-! ### A value at the end of a path -/

/-- The key that a step writes to. Behind the last one it is put into small letters once more. -/
def keyAt (k : String) (steps : List PathStep) : String := if steps = [] then Text.lowercase k else k

/-- What stands at a key once a value has been set at the end of some steps from there. -/
def laidBelow (v : Tree) (steps : List PathStep) (old : Option Tree) : Except NoPlace Tree :=
  if steps = [] then .ok (v.laid old) else setBelow v steps (old.getD nil)

/-- A step into a table reads and writes what stands at its key, and nothing else. -/
theorem setBelow_child (v : Tree) (k : String) (steps : List PathStep) (t : Tree) :
    setBelow v (.child k :: steps) t =
      (laidBelow v steps (findKey (keyAt k steps) t.members)).map (t.withKey (keyAt k steps)) := by
  cases steps with
  | nil => exact congrArg Except.ok (merge_eq v k t)
  | cons step steps =>
    rw [setBelow, laidBelow, keyAt, if_neg (List.cons_ne_nil step steps),
      if_neg (List.cons_ne_nil step steps)]
    · cases setBelow v (step :: steps) ((findKey k t.members).getD nil) <;> rfl
    · exact List.cons_ne_nil step steps

theorem setBelow_child_eq_ok : setBelow v (.child k :: steps) t = .ok u ↔
    ∃ w, laidBelow v steps (findKey (keyAt k steps) t.members) = .ok w ∧
    u = t.withKey (keyAt k steps) w := by
  rw [setBelow_child]
  cases laidBelow v steps (findKey (keyAt k steps) t.members) with
  | error e => simp [Except.map]
  | ok w => simp [Except.map, eq_comm]

/-- Only an index can fail to name a place. -/
theorem exists_setAt {path : KeyPath} (h : path.steps = [] ∨ ∃ k, path.steps = [.child k])
    (v t : Tree) : ∃ t', setAt v path t = .ok t' := by
  rw [setAt, setBelow_child]
  rcases h with h | ⟨k, h⟩ <;> rw [h] <;> exact ⟨_, rfl⟩

/-! ### A layer, one member after the other -/

variable {m : String × Tree} {layer : List (String × Tree)} {t' : Tree} {e : NoPlace}

theorem addLayer_cons_of_ok (h : setAt m.2 (KeyPath.ofKey m.1) t = .ok u) :
    addLayer (m :: layer) t = addLayer layer u := by
  rw [addLayer, h]
  rfl

theorem addLayer_cons_of_error (h : setAt m.2 (KeyPath.ofKey m.1) t = .error e) :
    addLayer (m :: layer) t = .error e := by
  rw [addLayer, h]
  rfl

theorem addLayer_cons_eq_ok : addLayer (m :: layer) t = .ok t' ↔
    ∃ u, setAt m.2 (KeyPath.ofKey m.1) t = .ok u ∧ addLayer layer u = .ok t' := by
  cases h : setAt m.2 (KeyPath.ofKey m.1) t with
  | error e => simp [addLayer_cons_of_error h]
  | ok u => simp [addLayer_cons_of_ok h]

theorem exists_addLayer
    (h : ∀ m ∈ layer, (KeyPath.ofKey m.1).steps = [] ∨ ∃ k, (KeyPath.ofKey m.1).steps = [.child k])
    (t : Tree) : ∃ t', addLayer layer t = .ok t' := by
  induction layer generalizing t with
  | nil => exact ⟨t, rfl⟩
  | cons m layer ih =>
    obtain ⟨hm, hlayer⟩ := List.forall_mem_cons.mp h
    obtain ⟨u, hu⟩ := exists_setAt hm m.2 t
    obtain ⟨t', ht'⟩ := ih hlayer u
    exact ⟨t', addLayer_cons_eq_ok.mpr ⟨u, hu, ht'⟩⟩

end Tree

end Invalidation
