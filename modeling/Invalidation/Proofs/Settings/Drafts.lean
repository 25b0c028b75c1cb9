import Invalidation.Proofs.Settings.Laying
import Mathlib

/-! Loading over different settings from the same sources, in the same order. What is laid over the
    settings so far never looks at their values, so the tree that comes of it is a draft: fixed by
    the sources, but for blanks where fields are still as they were, and a blank stays where its
    field belongs.

        settings so far        _    in every field
        a layer over them      a blank stays as it is, or goes
        read                   a field is a blank, or fixed; or all fail alike

    So a call that walks its sources in some order fixes the same fields for all settings, to the same
    values. -/

namespace Invalidation

open Settings (Field Overlay)

namespace Tree

/-- A tree that depends on the settings so far, as it may come at a place (its keys, the last one in
    front): fixed, or the blank for a field where the field belongs, or a table of such trees. -/
inductive Draft : List String → (Settings → Tree) → Prop
  | fixed {place : List String} (t : Tree) : Draft place fun _ => t
  | blank (f : Field) : Draft [f.name, f.part] fun s => .scalar none (f.scalar s)
  | table {place : List String} (o : Option String) (ms : List (String × (Settings → Tree)))
      (inside : ∀ m ∈ ms, Draft (m.1 :: place) m.2) :
      Draft place fun s => .table o (ms.map fun m => (m.1, m.2 s))

/-- A draft of what may stand at a place, or nothing for all settings. -/
def DraftIfAny (place : List String) (t? : Settings → Option Tree) : Prop :=
  (∀ s, t? s = none) ∨ ∃ t, Draft place t ∧ ∀ s, t? s = some (t s)

/-- A draft, or the same failure for all settings. -/
def DraftOrFails (place : List String) (r : Settings → Except NoPlace Tree) : Prop :=
  (∃ e, ∀ s, r s = .error e) ∨ ∃ t, Draft place t ∧ ∀ s, r s = .ok (t s)

variable {place : List String} {t v : Settings → Tree} {t? : Settings → Option Tree}
  {r : Settings → Except NoPlace Tree}

/-! ### Drafts from drafts -/

theorem Draft.of_eq (h : Draft place t) (eq : ∀ s, v s = t s) : Draft place v := by
  rwa [funext eq]

/-- The members of a draft are drafts; it has its origin, and its elements, in common for all
    settings. -/
theorem Draft.inside (h : Draft place t) :
    (∃ ms : List (String × (Settings → Tree)), (∀ m ∈ ms, Draft (m.1 :: place) m.2) ∧
      ∀ s, (t s).members = ms.map fun m => (m.1, m.2 s)) ∧
    (∃ o, ∀ s, (t s).tableOrigin = o) ∧ (∃ ts o, ∀ s, (t s).elements = ts ∧ (t s).arrayOrigin = o) := by
  cases h with
  | fixed t =>
    refine ⟨⟨t.members.map fun m => (m.1, fun _ => m.2), fun m hm => ?_, fun s => ?_⟩,
      ⟨_, fun _ => rfl⟩, _, _, fun _ => ⟨rfl, rfl⟩⟩
    · obtain ⟨n, -, rfl⟩ := List.mem_map.mp hm
      exact .fixed n.2
    · simp [Function.comp_def]
  | blank f => exact ⟨⟨[], by simp, fun _ => rfl⟩, ⟨_, fun _ => rfl⟩, _, _, fun _ => ⟨rfl, rfl⟩⟩
  | table o ms inside =>
    exact ⟨⟨ms, inside, fun _ => rfl⟩, ⟨o, fun _ => rfl⟩, _, _, fun _ => ⟨rfl, rfl⟩⟩

theorem Draft.findKey (h : Draft place t) (k : String) :
    DraftIfAny (k :: place) fun s => Tree.findKey k (t s).members := by
  obtain ⟨⟨ms, inside, members⟩, -⟩ := h.inside
  have found : ∀ s, Tree.findKey k (t s).members = (Store.lookup k ms).map fun u => u s := fun s => by
    rw [members, findKey_eq_lookup, Store.lookup_map fun u : Settings → Tree => u s]
  cases hu : Store.lookup k ms with
  | none => exact Or.inl fun s => (found s).trans (by rw [hu]; rfl)
  | some u =>
    exact Or.inr ⟨u, inside (k, u) (Store.mem_of_lookup hu), fun s => (found s).trans (by rw [hu]; rfl)⟩

theorem Draft.withKey (h : Draft place t) {k : String} (hv : Draft (k :: place) v) :
    Draft place fun s => (t s).withKey k (v s) := by
  obtain ⟨⟨ms, inside, members⟩, ⟨o, origin⟩, -⟩ := h.inside
  refine Draft.of_eq (.table o (Store.insert k v ms) fun m hm => ?_) fun s => ?_
  · rcases Store.mem_of_mem_insert hm with rfl | hm
    · exact hv
    · exact inside m hm
  · rw [Tree.withKey, origin, members, putKey_eq_insert,
      Store.map_insert fun u : Settings → Tree => u s]

theorem DraftIfAny.getD (h : DraftIfAny place t?) (u : Tree) : Draft place fun s => (t? s).getD u := by
  rcases h with absent | ⟨t, ht, there⟩
  · exact Draft.of_eq (.fixed u) fun s => by rw [absent s]; rfl
  · exact Draft.of_eq ht fun s => by rw [there s]; rfl

mutual

/-- What is laid over a draft is laid over it in the same way for all settings. The two go hand in
    hand: a table is laid member by member, and each member is laid over what its key has. -/
theorem DraftIfAny.laid {place : List String} {t? : Settings → Option Tree} (h : DraftIfAny place t?) :
    ∀ v : Tree, Draft place fun s => v.laid (t? s)
  | .scalar o x => .fixed (.scalar o x)
  | .array o ts => .fixed (.array o ts)
  | .table _ ms => (h.getD _).mergeMembers ms

theorem Draft.mergeMembers {place : List String} {t : Settings → Tree} (h : Draft place t) :
    ∀ ms : List (String × Tree), Draft place fun s => Tree.mergeMembers ms (t s)
  | [] => h
  | (k, v) :: ms => by
    have old := h.findKey (Text.lowercase k)
    have step : Draft place fun s => merge v k (t s) :=
      (h.withKey (old.laid v)).of_eq fun s => merge_eq v k (t s)
    exact step.mergeMembers ms

end

theorem DraftOrFails.map {r : Settings → Except NoPlace Tree} {place' : List String}
    {g : Settings → Tree → Tree} (h : DraftOrFails place r)
    (draft : ∀ t, Draft place t → Draft place' fun s => g s (t s)) :
    DraftOrFails place' fun s => (r s).map (g s) := by
  rcases h with ⟨e, fails⟩ | ⟨t, ht, ok⟩
  · exact Or.inl ⟨e, fun s => congrArg (Except.map (g s)) (fails s)⟩
  · exact Or.inr ⟨_, draft t ht, fun s => congrArg (Except.map (g s)) (ok s)⟩

/-- What is set below a draft, is set in the same way for all settings, or fails for all of them. -/
theorem Draft.setBelow (h : Draft place t) (v : Tree) (steps : List PathStep) :
    DraftOrFails place fun s => Tree.setBelow v steps (t s) := by
  induction steps generalizing place t with
  | nil => exact Or.inr ⟨_, .fixed v, fun _ => rfl⟩
  | cons step steps ih =>
    cases step with
    | child k =>
      have old := h.findKey (keyAt k steps)
      have below : DraftOrFails (keyAt k steps :: place) fun s =>
          laidBelow v steps (Tree.findKey (keyAt k steps) (t s).members) := by
        by_cases last : steps = []
        · exact Or.inr ⟨_, old.laid v, fun s => if_pos last⟩
        · rcases ih (old.getD nil) with ⟨e, fails⟩ | ⟨u, hu, ok⟩
          · exact Or.inl ⟨e, fun s => (if_neg last).trans (fails s)⟩
          · exact Or.inr ⟨u, hu, fun s => (if_neg last).trans (ok s)⟩
      have set := below.map fun u hu => h.withKey hu
      simpa only [setBelow_child] using set
    | index i =>
      -- arrays are fixed, and a blank is none
      obtain ⟨-, -, ts, o, inside⟩ := h.inside
      have same : ∀ s, Tree.setBelow v (.index i :: steps) (t s) =
          Tree.setBelow v (.index i :: steps) (.array o ts) := fun s => by
        rw [Tree.setBelow, Tree.setBelow, (inside s).1, (inside s).2]
        rfl
      cases hr : Tree.setBelow v (.index i :: steps) (.array o ts) with
      | error e => exact Or.inl ⟨e, fun s => (same s).trans hr⟩
      | ok u => exact Or.inr ⟨_, .fixed u, fun s => (same s).trans hr⟩

theorem Draft.addLayer (h : Draft place t) (layer : List (String × Tree)) :
    DraftOrFails place fun s => Tree.addLayer layer (t s) := by
  induction layer generalizing t with
  | nil => exact Or.inr ⟨t, h, fun _ => rfl⟩
  | cons m layer ih =>
    rcases h.setBelow m.2 (.child (KeyPath.ofKey m.1).key :: (KeyPath.ofKey m.1).steps) with
      ⟨e, fails⟩ | ⟨u, hu, ok⟩
    · exact Or.inl ⟨e, fun s => addLayer_cons_of_error (fails s)⟩
    · rcases ih hu with ⟨e, fails⟩ | ⟨u', hu', ok'⟩
      · exact Or.inl ⟨e, fun s => (addLayer_cons_of_ok (ok s)).trans (fails s)⟩
      · exact Or.inr ⟨u', hu', fun s => (addLayer_cons_of_ok (ok s)).trans (ok' s)⟩

/-! ### Reading a draft -/

/-- What is read of a field: for all settings the same failure or value, or for all of them their
    own. -/
def OwnOrFixed {α : Type} (own : Settings → α) (r : Settings → Except LoadError α) : Prop :=
  ∃ x : Except LoadError (Option α), ∀ s, r s = x.map fun a? => a?.getD (own s)

theorem OwnOrFixed.fixed {α : Type} {own : Settings → α} (x : Except LoadError α) :
    OwnOrFixed own fun _ => x := ⟨x.map some, fun _ => by cases x <;> rfl⟩

theorem OwnOrFixed.of_eq {α : Type} {own : Settings → α} {r r' : Settings → Except LoadError α}
    (h : OwnOrFixed own r) (eq : ∀ s, r' s = r s) : OwnOrFixed own r' := by
  rwa [funext eq]

theorem OwnOrFixed.own {α : Type} (own : Settings → α) : OwnOrFixed own fun s => .ok (own s) :=
  ⟨.ok none, fun _ => rfl⟩

/-- Where a field belongs, reading gives the settings' own value, or the same for all. -/
theorem Draft.read {α : Type} {own : Settings → α} {read : String → Tree → Except LoadError α}
    {f : Field} (key : String) (blank : ∀ s, read key (.scalar none (f.scalar s)) = .ok (own s))
    (table : ∀ o ms ms', read key (.table o ms) = read key (.table o ms'))
    (h : Draft [f.name, f.part] t) : OwnOrFixed own fun s => read key (t s) := by
  generalize hplace : [f.name, f.part] = place at h
  cases h with
  | fixed t => exact .fixed _
  | blank g =>
    simp only [List.cons.injEq, and_true] at hplace
    obtain rfl := Field.eq_of_part_of_name hplace.2 hplace.1
    simpa only [blank] using OwnOrFixed.own own
  | table o ms _ => simpa only [table o _ []] using OwnOrFixed.fixed (read key (.table o []))

/-- A part of the settings is fixed, or a table; no field stands in its place. -/
theorem Draft.part {k : String} (h : Draft [k] t) : (∃ u, ∀ s, t s = u) ∨
    ∃ o, ∃ ms : List (String × (Settings → Tree)), ∀ s,
    t s = .table o (ms.map fun m => (m.1, m.2 s)) := by
  generalize hplace : [k] = place at h
  cases h with
  | fixed u => exact Or.inl ⟨u, fun _ => rfl⟩
  | blank f => cases hplace
  | table o ms _ => exact Or.inr ⟨o, ms, fun _ => rfl⟩

theorem Draft.checkRecord {k : String} (h : Draft [k] t) (record : String) :
    ∃ x, ∀ s, (t s).checkRecord record = x := by
  rcases h.part with ⟨u, eq⟩ | ⟨o, ms, eq⟩
  · exact ⟨_, fun s => by rw [eq]⟩
  · exact ⟨.ok (), fun s => by rw [eq]; rfl⟩

theorem Draft.readField {α : Type} {own : Settings → α} {read : String → Tree → Except LoadError α}
    {f : Field} (h : Draft [f.part] t) (index : Nat) (missing : α)
    (blank : ∀ key s, read key (.scalar none (f.scalar s)) = .ok (own s))
    (table : ∀ key o ms ms', read key (.table o ms) = read key (.table o ms')) :
    OwnOrFixed own fun s => (t s).readField f.part f.name index read missing := by
  rcases h.part with ⟨u, eq⟩ | ⟨o, ms, eq⟩
  · exact (OwnOrFixed.fixed _).of_eq fun s => by rw [eq]
  · rcases h.findKey f.name with absent | ⟨u, hu, there⟩
    · refine (OwnOrFixed.fixed (.ok missing)).of_eq fun s => ?_
      have absent : Tree.findKey f.name (t s).members = none := absent s
      rw [eq] at absent ⊢
      exact readField_table_of_none absent
    · refine (hu.read (f.part ++ "." ++ f.name) (blank _) (table _)).of_eq fun s => ?_
      have there : Tree.findKey f.name (t s).members = some (u s) := there s
      rw [eq] at there ⊢
      exact readField_table there

end Tree

/-- What is read of some part of the settings: for all settings the same failure, or what some
    overlay makes of the part. -/
def Settings.Overlaid {α : Type} (part : Settings → α) (r : Settings → Except LoadError α) : Prop :=
  ∃ x : Except LoadError Overlay, ∀ s, r s = x.map fun g => part (g.on s)

namespace Tree

variable {t : Settings → Tree}

theorem Draft.firing (h : Draft ["firing"] t) :
    Settings.Overlaid Settings.firing fun s => Firing.ofTree (t s) := by
  obtain ⟨check, hcheck⟩ := h.checkRecord "FiringConfig"
  obtain ⟨x, hx⟩ : OwnOrFixed (fun s => s.firing.traceRedirects) fun s =>
      (t s).readField "firing" "trace_redirects" 0 readBool false :=
    h.readField (f := .traceRedirects) 0 false (fun _ _ => rfl) fun _ _ _ _ => rfl
  refine ⟨do check; return { traceRedirects := ← x }, fun s => ?_⟩
  simp only [Firing.ofTree, hcheck, hx]
  cases check <;> cases x <;> rfl

theorem Draft.linking (h : Draft ["linking"] t) :
    Settings.Overlaid Settings.linking fun s => Linking.ofTree (t s) := by
  obtain ⟨check, hcheck⟩ := h.checkRecord "LinkingConfig"
  obtain ⟨x, hx⟩ : OwnOrFixed (fun s => s.linking.rejectSelfLoops) fun s =>
      (t s).readField "linking" "reject_self_loops" 0 readBool true :=
    h.readField (f := .rejectSelfLoops) 0 true (fun _ _ => rfl) fun _ _ _ _ => rfl
  obtain ⟨y, hy⟩ : OwnOrFixed (fun s => s.linking.maxJumpDistance) fun s =>
      (t s).readField "linking" "max_jump_distance" 1 readUInt64 2147483647 :=
    h.readField (f := .maxJumpDistance) 1 2147483647 (fun key s => readUInt64_toNat key none _)
      fun _ _ _ _ => rfl
  refine ⟨do check; return { rejectSelfLoops := ← x, maxJumpDistance := ← y }, fun s => ?_⟩
  simp only [Linking.ofTree, hcheck, hx, hy]
  cases check <;> cases x <;> cases y <;> rfl

theorem Draft.readPart {α : Type} {part : Settings → α} {k : String} {read : Tree → Except LoadError α}
    {missing : α} (h : Draft [] t) (absent : Settings.Overlaid part fun _ => .ok missing)
    (draft : ∀ u, Draft [k] u → Settings.Overlaid part fun s => read (u s)) :
    Settings.Overlaid part fun s => (t s).readPart k read missing := by
  rcases h.findKey k with gone | ⟨u, hu, there⟩
  · obtain ⟨x, hx⟩ := absent
    exact ⟨x, fun s => (readPart_of_none (gone s)).trans (hx s)⟩
  · obtain ⟨x, hx⟩ := draft u hu
    exact ⟨x, fun s => (readPart_of_some (there s)).trans (hx s)⟩

/-- Settings read from a draft are the settings so far under one overlay. -/
theorem Draft.settings (h : Draft [] t) : Settings.Overlaid id fun s => Settings.ofTree (t s) := by
  obtain ⟨x, hx⟩ :
    Settings.Overlaid Settings.firing fun s => (t s).readPart "firing" Firing.ofTree {} :=
    h.readPart ⟨.ok { traceRedirects := some false }, fun _ => rfl⟩ fun u hu => hu.firing
  obtain ⟨y, hy⟩ : Settings.Overlaid Settings.linking fun s =>
      (t s).readPart "linking" Linking.ofTree {} :=
    h.readPart ⟨.ok { rejectSelfLoops := some true, maxJumpDistance := some 2147483647 }, fun _ => rfl⟩
      fun u hu => hu.linking
  refine ⟨do
    let g ← x
    let h ← y
    return { h with traceRedirects := g.traceRedirects }, fun s => ?_⟩
  simp only [Settings.ofTree_eq, hx, hy]
  cases x <;> cases y <;> rfl

end Tree

/-! ### One overlay for all settings -/

namespace Settings

/-- Settings that fit are laid under the layers as a draft that is all blanks. -/
theorem exists_draft : ∃ t, Tree.Draft [] t ∧ ∀ s : Settings, s.Fits → s.toTree? = .ok (t s) := by
  refine ⟨_, .table none
    [("firing",
      fun s => .table none [("trace_redirects", .scalar none (Field.traceRedirects.scalar s))]),
      ("linking", fun s => .table none [
        ("reject_self_loops", .scalar none (Field.rejectSelfLoops.scalar s)),
        ("max_jump_distance", .scalar none (Field.maxJumpDistance.scalar s))])] ?_,
          fun s fits => if_pos fits⟩
  refine List.forall_mem_cons.mpr ⟨.table none [("trace_redirects", _)] ?_,
    List.forall_mem_singleton.mpr
    (.table none [("reject_self_loops", _), ("max_jump_distance", _)] ?_)⟩
  · exact List.forall_mem_singleton.mpr (.blank .traceRedirects)
  · exact List.forall_mem_cons.mpr
      ⟨.blank .rejectSelfLoops, List.forall_mem_singleton.mpr (.blank .maxJumpDistance)⟩

/-- From the same sources in the same order, loading over any settings that fit fails in the same
    way, or lays the same overlay over them. -/
theorem exists_overlay (sources : Sources) (path : String) (orders : Orders) :
    ∃ x : Except LoadError Overlay,
      ∀ s : Settings, s.Fits → s.override sources path orders = x.map (·.on s) := by
  obtain ⟨base, draft, hbase⟩ := exists_draft
  cases hlayer : fileLayer sources.files path with
  | error e => exact ⟨.error e, fun s fits => override_of_unreadable (hbase s fits) hlayer⟩
  | ok layer =>
    rcases draft.addLayer (orders.file.layer layer) with ⟨e, fails⟩ | ⟨t, ht, hfile⟩
    · exact ⟨.error (.noPlace e), fun s fits => override_of_misplaced (hbase s fits) hlayer (fails s)⟩
    · rcases ht.addLayer (orders.environment.layer (Environment.layer sources.env.pairs)) with
        ⟨e, fails⟩ | ⟨t', ht', henv⟩
      · exact ⟨.error (.noPlace e), fun s fits =>
          override_of_misplaced_variable (hbase s fits) hlayer (hfile s) (fails s)⟩
      · obtain ⟨x, hx⟩ := ht'.settings
        exact ⟨x,
          fun s fits => (override_of_layers (hbase s fits) hlayer (hfile s) (henv s)).trans (hx s)⟩

end Settings

end Invalidation
