import Invalidation.Proofs.Settings.Walking
import Mathlib

/-! Loading a file that gives none of the fields, in an environment that sets nothing. The settings
    stay as they were, with two exceptions:

        a distance of 2 ^ 63 or more      no layer can hold it, so nothing can be laid over it
        a key with an index               the index may name no place, and then none for any settings

    Such a file keeps away from the fields, so it cannot tell the tree of some settings from an
    empty one: whether all of its keys have a place can be seen by laying it over a tree without
    anything in it. -/

namespace Invalidation

open Settings (Field)

namespace Tree

variable {t u v : Tree} {k n : String} {m : String × Tree} {layer : List (String × Tree)} {f : Field}

/-- What stands at a key after a merge depends on what stood at this key. -/
theorem findKey_mergeMembers_congr {j : String} (ms : List (String × Tree))
    (h : findKey j t.members = findKey j u.members) :
    findKey j (mergeMembers ms t).members = findKey j (mergeMembers ms u).members := by
  induction ms generalizing t u with
  | nil => exact h
  | cons m ms ih =>
    rw [mergeMembers_cons, mergeMembers_cons]
    refine ih ?_
    rw [merge_eq, merge_eq, findKey_withKey, findKey_withKey]
    by_cases hj : Text.lowercase m.1 = j
    · rw [hj, h]
    · rw [if_neg hj, if_neg hj, h]

/-- The key is none of a part of the settings. -/
def IsNoPart (k : String) : Prop := ∀ f : Field, k ≠ f.part

/-- The key is none of a field of that part of the settings. -/
def IsNoFieldOf (p n : String) : Prop := ∀ f : Field, f.part = p → n ≠ f.name

/-- What stands for a part of the settings in a tree. -/
def partOf (t : Tree) (f : Field) : Tree := (findKey f.part t.members).getD nil

/-- The trees are the same beside the fields: at every other key, of the tree and of each part. -/
structure SameBesideFields (t u : Tree) : Prop where
  top : ∀ k, IsNoPart k → findKey k t.members = findKey k u.members
  part : ∀ f n, IsNoFieldOf f.part n → findKey n (t.partOf f).members = findKey n (u.partOf f).members

theorem partOf_withKey_of_ne (h : k ≠ f.part) : (t.withKey k v).partOf f = t.partOf f := by
  rw [partOf, findKey_withKey_of_ne h, partOf]

theorem partOf_withKey (h : k = f.part) : (t.withKey k v).partOf f = v := by
  rw [partOf, h, findKey_withKey_self, Option.getD_some]

/-- Setting the same at a key of no part. -/
theorem SameBesideFields.withKey (h : SameBesideFields t u) (other : IsNoPart k) (v : Tree) :
    SameBesideFields (t.withKey k v) (u.withKey k v) where
  top := fun j hj => by rw [findKey_withKey, findKey_withKey, h.top j hj]
  part := fun f n hn => by
    rw [partOf_withKey_of_ne (other f), partOf_withKey_of_ne (other f), h.part f n hn]

/-- Setting a part to what is the same beside its fields. -/
theorem SameBesideFields.withPart (h : SameBesideFields t u) {v w : Tree}
    (same : ∀ n, IsNoFieldOf f.part n → findKey n v.members = findKey n w.members) :
    SameBesideFields (t.withKey f.part v) (u.withKey f.part w) where
  top := fun j hj => by
    rw [findKey_withKey_of_ne (hj f).symm, findKey_withKey_of_ne (hj f).symm, h.top j hj]
  part := fun g n hn => by
    by_cases hg : f.part = g.part
    · rw [partOf_withKey hg, partOf_withKey hg]
      exact same n (hg ▸ hn)
    · rw [partOf_withKey_of_ne hg, partOf_withKey_of_ne hg, h.part g n hn]

theorem members_partOf (t : Tree) (f : Field) :
    ((findKey f.part t.members).getD (.table none [])).members = (t.partOf f).members := by
  rw [partOf]
  cases findKey f.part t.members <;> rfl

/-- Two attempts that end in the same failure, or in trees that are the same beside the fields. -/
def EndAlike (r r' : Except NoPlace Tree) : Prop :=
  (∃ e, r = .error e ∧ r' = .error e) ∨ ∃ t u, r = .ok t ∧ r' = .ok u ∧ SameBesideFields t u

/-- What keeps clear of all fields comes to the same in trees that are the same beside the fields. -/
theorem SameBesideFields.setAt (h : SameBesideFields t u) (spared : ∀ f : Field, f.SparedBy m) :
    EndAlike (setAt m.2 (KeyPath.ofKey m.1) t) (setAt m.2 (KeyPath.ofKey m.1) u) := by
  rw [Tree.setAt, Tree.setAt, setBelow_child, setBelow_child]
  by_cases other : IsNoPart (KeyPath.ofKey m.1).key
  · have hkey : IsNoPart (keyAt (KeyPath.ofKey m.1).key (KeyPath.ofKey m.1).steps) :=
      fun f => keyAt_ne_part (other f)
    rw [h.top _ hkey]
    cases laidBelow m.2 (KeyPath.ofKey m.1).steps
      (Tree.findKey (keyAt (KeyPath.ofKey m.1).key (KeyPath.ofKey m.1).steps) u.members) with
    | error e => exact Or.inl ⟨e, rfl, rfl⟩
    | ok w => exact Or.inr ⟨_, _, rfl, rfl, h.withKey hkey w⟩
  · obtain ⟨f, hf⟩ : ∃ f : Field, (KeyPath.ofKey m.1).key = f.part := by simpa [IsNoPart] using other
    have inside := fun (g : Field) (hg : g.part = f.part) => (spared g).inside (hf.trans hg.symm)
    rw [hf, keyAt_part]
    rcases inside f rfl with ⟨hsteps, o, ns, htable, -⟩ | ⟨k, steps, hsteps, -⟩
    · rw [hsteps, htable]
      refine Or.inr ⟨_, _, rfl, rfl, h.withPart fun n hn => findKey_mergeMembers_congr ns ?_⟩
      rw [members_partOf, members_partOf, h.part f n hn]
    · have hkey : IsNoFieldOf f.part (keyAt k steps) := fun g hg => by
        rcases inside g hg with ⟨hnone, -⟩ | ⟨k', steps', hsome, other⟩
        · cases hnone.symm.trans hsteps
        · cases hsome.symm.trans hsteps
          exact keyAt_ne_name other steps
      have step : ∀ t : Tree, laidBelow m.2 (.child k :: steps) (Tree.findKey f.part t.members) =
          (laidBelow m.2 steps (Tree.findKey (keyAt k steps) (t.partOf f).members)).map
            ((t.partOf f).withKey (keyAt k steps)) := fun t =>
        (if_neg (List.cons_ne_nil _ _)).trans (setBelow_child m.2 k steps (t.partOf f))
      rw [hsteps, step, step, h.part f _ hkey]
      cases laidBelow m.2 steps (Tree.findKey (keyAt k steps) (u.partOf f).members) with
      | error e => exact Or.inl ⟨e, rfl, rfl⟩
      | ok w =>
        refine Or.inr ⟨_, _, rfl, rfl, h.withPart fun n hn => ?_⟩
        rw [findKey_withKey, findKey_withKey, h.part f n hn]

theorem SameBesideFields.addLayer (h : SameBesideFields t u)
    (spared : ∀ m ∈ layer, ∀ f : Field, f.SparedBy m) :
    EndAlike (Tree.addLayer layer t) (Tree.addLayer layer u) := by
  induction layer generalizing t u with
  | nil => exact Or.inr ⟨t, u, rfl, rfl, h⟩
  | cons m layer ih =>
    obtain ⟨hm, hlayer⟩ := List.forall_mem_cons.mp spared
    rcases h.setAt hm with ⟨e, ht, hu⟩ | ⟨t₁, u₁, ht, hu, same⟩
    · exact Or.inl ⟨e, addLayer_cons_of_error ht, addLayer_cons_of_error hu⟩
    · rw [addLayer_cons_of_ok ht, addLayer_cons_of_ok hu]
      exact ih same hlayer

end Tree

/-- An environment without a variable that counts gives an empty layer. -/
theorem Environment.layer_of_silent {env : List (String × String)}
    (silent : ∀ e ∈ env, key? e.1 = none) : layer env = [] := by
  have hnone : env.filterMap member? = [] := List.filterMap_eq_nil_iff.mpr fun e he => by
    rw [member?, silent e he, Option.map_none, ite_self]
  rw [layer, hnone, List.foldl_nil]

namespace Settings

/-- Beside their fields there is nothing in the tree of some settings. -/
theorem sameBesideFields_empty {s : Settings} {t : Tree} (h : s.toTree? = .ok t) :
    t.SameBesideFields (.table none []) := by
  by_cases fits : s.Fits
  · obtain rfl := Except.ok.inj ((if_pos fits).symm.trans h)
    constructor
    · intro k hk
      have hfiring : "firing" ≠ k := (hk .traceRedirects).symm
      have hlinking : "linking" ≠ k := (hk .maxJumpDistance).symm
      simp [Tree.members, Tree.findKey, hfiring, hlinking]
    · intro f n hn
      cases f with
      | traceRedirects =>
        have htrace : "trace_redirects" ≠ n := (hn .traceRedirects rfl).symm
        simp [Tree.partOf, Tree.members, Tree.findKey, Field.part, Tree.nil, htrace]
      | rejectSelfLoops | maxJumpDistance =>
        have hreject : "reject_self_loops" ≠ n := (hn .rejectSelfLoops rfl).symm
        have hmax : "max_jump_distance" ≠ n := (hn .maxJumpDistance rfl).symm
        simp [Tree.partOf, Tree.members, Tree.findKey, Field.part, Tree.nil, hreject, hmax]
  · cases (toTree?_of_not_fits fits).symm.trans h

/-- Settings over which a file is loaded that gives none of the fields, in an environment that sets
    nothing. They stay as they were, if they fit below a layer and the keys of the file have their
    places, in the order in which they are walked. -/
theorem neutral_override {s : Settings} {sources : Sources} {path : String}
    {layer : List (String × Tree)}
    (file : fileLayer sources.files path = .ok layer) (neutral : ∀ m ∈ layer, ∀ f : Field, f.SparedBy m)
    (silent : ∀ e ∈ sources.env.pairs, Environment.key? e.1 = none) (orders : Orders) :
    (¬ s.Fits →
      s.override sources path orders = .error (.tooGreat s.linking.maxJumpDistance.toNat)) ∧
    (s.Fits → (∃ t, Tree.addLayer (orders.file.layer layer) (.table none []) = .ok t) →
      s.override sources path orders = .ok s) ∧
    ∀ e, s.Fits → Tree.addLayer (orders.file.layer layer) (.table none []) = .error e →
      s.override sources path orders = .error (.noPlace e) := by
  have spared : ∀ m ∈ orders.file.layer layer, ∀ f : Field, f.SparedBy m :=
    Order.forall_mem_layer fun m hm f => (neutral m hm f).entry
  have alike : ∀ {t}, s.toTree? = .ok t → Tree.EndAlike (Tree.addLayer (orders.file.layer layer) t)
      (Tree.addLayer (orders.file.layer layer) (.table none [])) :=
    fun hbase => (sameBesideFields_empty hbase).addLayer spared
  refine ⟨override_of_not_fits, fun fits placed => ?_, fun e fits misplaced => ?_⟩
  · obtain ⟨base, hbase, holds⟩ := exists_toTree? fits
    obtain ⟨t, hfile⟩ : ∃ t, Tree.addLayer (orders.file.layer layer) base = .ok t := by
      obtain ⟨u, hu⟩ := placed
      rcases alike hbase with ⟨e, -, he⟩ | ⟨t, -, ht, -, -⟩
      · cases he.symm.trans hu
      · exact ⟨t, ht⟩
    have henv : Tree.addLayer (orders.environment.layer (Environment.layer sources.env.pairs)) t =
        .ok t := by
      rw [Environment.layer_of_silent silent, Order.layer_nil, Tree.addLayer]
    rw [override_of_layers hbase file hfile henv]
    exact ofTree_of_holds fun f => (holds f).addLayer (fun m hm => Or.inl (spared m hm f)) hfile
  · obtain ⟨base, hbase, -⟩ := exists_toTree? fits
    rcases alike hbase with ⟨e', hfile, he⟩ | ⟨-, u, -, hu, -⟩
    · cases he.symm.trans misplaced
      exact override_of_misplaced hbase file hfile
    · cases hu.symm.trans misplaced

end Settings

/-- A file that gives a part of the settings a key that is none of its fields. -/
def extraKey : Settings.Sources where
  files := [("c.toml", "linking.extra=1")]

theorem neutral_override_extraKey :
    (⟨⟨true⟩, ⟨false, 5⟩⟩ : Settings).override extraKey "c.toml" {} = .ok ⟨⟨true⟩, ⟨false, 5⟩⟩ ∧
    (⟨⟨true⟩, ⟨false, 9223372036854775808⟩⟩ : Settings).override extraKey "c.toml" {} =
      .error (.tooGreat 9223372036854775808) := by
  have parsed : Toml.parse? "linking.extra=1" = some [("linking", .table [("extra", .int 1)])] := by cbv
  have file : Settings.fileLayer extraKey.files "c.toml" =
      .ok [("linking", .table (some "c.toml") [("extra", .scalar (some "c.toml") (.int 1))])] :=
    Settings.fileLayer_of_found (f := ⟨"c.toml", "linking.extra=1"⟩) rfl parsed
  have small : Text.lowercase "extra" = "extra" := by decide
  have neutral : ∀ f : Field, f.SparedBy
      ("linking", .table (some "c.toml") [("extra", .scalar (some "c.toml") (.int 1))]) := by
    intro f
    rw [Field.SparedBy, show KeyPath.ofKey "linking" =
      ⟨"linking", []⟩ from Field.maxJumpDistance.ofKey_part]
    cases f <;> simp [Field.part, Field.name, small]
  have holds := fun s : Settings => Settings.neutral_override (s := s) file
    (List.forall_mem_singleton.mpr neutral) (List.forall_mem_nil _) {}
  exact ⟨(holds _).2.1 (by decide) ⟨_, rfl⟩, (holds _).1 (by decide)⟩

/-- Settings that are valid cannot be loaded over if their distance is too great for a layer, not
    even by an empty file. -/
theorem valid_settings_refused :
    (⟨⟨false⟩, ⟨true, 9223372036854775808⟩⟩ : Settings).validate =
      .ok ⟨⟨false⟩, ⟨true, 9223372036854775808⟩⟩ ∧
    Settings.fileLayer [("c.toml", "")] "c.toml" = .ok [] ∧
    ∀ orders, (⟨⟨false⟩, ⟨true, 9223372036854775808⟩⟩ : Settings).override { files := [("c.toml", "")] }
      "c.toml" orders = .error (.tooGreat 9223372036854775808) :=
  ⟨rfl, rfl, fun _ => Settings.override_of_not_fits (by decide)⟩

end Invalidation
