import Invalidation.Proofs.Settings.Apart
import Invalidation.Proofs.Settings.Drafts
import Mathlib

/-! Loading from the same sources once more. Each call walks the keys of a source in an order of its
    own. If no two keys of a source meet, this makes no difference, and every call lays the same
    values over the settings that it is given:

        s ── call ──▶ g.on s ── another call ──▶ g.on (g.on s) = g.on s

    Where keys meet, calls that walk the sources in the same order still do the same, but calls in
    different orders need not. -/

namespace Invalidation

namespace Settings

/-- No two keys of the file meet, and no two variables of the environment. -/
structure Sources.KeysApart (sources : Sources) (path : String) : Prop where
  file : ∀ layer, fileLayer sources.files path = .ok layer → Tree.LeavesApart layer
  environment : Tree.LeavesApart (Environment.layer sources.env.pairs)

/-- What calls from the same sources have in common, each over settings of its own that fit, and
    each in an order of its own among some orders. -/
structure Repeatable (sources : Sources) (path : String) (among : Orders → Prop) : Prop where
  /-- Whether a call succeeds depends neither on the settings nor on the order. -/
  succeeds : ∀ (s₁ s₂ : Settings) (o₁ o₂ : Orders), s₁.Fits → s₂.Fits → among o₁ → among o₂ →
    ((∃ s', s₁.override sources path o₁ = .ok s') ↔ ∃ s', s₂.override sources path o₂ = .ok s')
  /-- All calls that succeed set the same fields, to the same values. -/
  fixed : ∃ g : Overlay, ∀ (s s' : Settings) (o : Orders), s.Fits → among o →
    s.override sources path o = .ok s' → s' = g.on s
  /-- A call over what came of a call changes nothing. -/
  again : ∀ (s s' : Settings) (o o' : Orders), s.Fits → among o → among o' →
    s.override sources path o = .ok s' → s'.Fits → s'.override sources path o' = .ok s'

variable {s s' : Settings} {sources : Sources} {path : String} {o o' : Orders}

/-- A call that succeeds has laid every layer. -/
theorem exists_layers_of_override (done : s.override sources path o = .ok s') :
    ∃ base layer t t', s.toTree? = .ok base ∧ fileLayer sources.files path = .ok layer ∧
      Tree.addLayer (o.file.layer layer) base = .ok t ∧
      Tree.addLayer (o.environment.layer (Environment.layer sources.env.pairs)) t = .ok t' ∧
      ofTree t' = .ok s' := by
  by_cases fits : s.Fits
  · obtain ⟨base, hbase, -⟩ := exists_toTree? fits
    cases hlayer : fileLayer sources.files path with
    | error e => cases (override_of_unreadable hbase hlayer).symm.trans done
    | ok layer =>
      cases hfile : Tree.addLayer (o.file.layer layer) base with
      | error e => cases (override_of_misplaced hbase hlayer hfile).symm.trans done
      | ok t =>
        cases henv : Tree.addLayer (o.environment.layer (Environment.layer sources.env.pairs)) t with
        | error e => cases (override_of_misplaced_variable hbase hlayer hfile henv).symm.trans done
        | ok t' =>
          exact ⟨base, layer, t, t', hbase, rfl, hfile, henv,
            (override_of_layers hbase hlayer hfile henv).symm.trans done⟩
  · cases (override_of_not_fits fits).symm.trans done

/-- Where no keys meet, the order makes no difference. -/
theorem override_inOrder (apart : sources.KeysApart path) (done : s.override sources path o = .ok s')
    (o' : Orders) : s.override sources path o' = .ok s' := by
  obtain ⟨base, layer, t, t', hbase, hlayer, hfile, henv, read⟩ := exists_layers_of_override done
  obtain ⟨u, hfile', alike⟩ := ((apart.file layer hlayer).addLayer o.file o'.file
    (Tree.Alike.refl (some base))).exists_ok hfile
  obtain ⟨u', henv', alike'⟩ :=
    (apart.environment.addLayer o.environment o'.environment alike).exists_ok henv
  rw [override_of_layers hbase hlayer hfile' henv', ← alike'.settings, read]

/-- If the order makes no difference among some orders, then calls in these orders have everything in
    common. -/
theorem Repeatable.of_inOrder {among : Orders → Prop}
    (inOrder : ∀ (s s' : Settings) (o o' : Orders), among o → among o' →
      s.override sources path o = .ok s' → s.override sources path o' = .ok s') :
    Repeatable sources path among := by
  by_cases any : ∃ (s s' : Settings) (o : Orders), s.Fits ∧ among o ∧ s.override sources path o = .ok s'
  · obtain ⟨s₀, s₀', o₀, fits₀, ho₀, done₀⟩ := any
    obtain ⟨g, hg⟩ : ∃ g : Overlay, ∀ s : Settings, s.Fits →
        s.override sources path o₀ = .ok (g.on s) := by
      obtain ⟨x, hx⟩ := exists_overlay sources path o₀
      cases x with
      | error e => cases (hx s₀ fits₀).symm.trans done₀
      | ok g => exact ⟨g, hx⟩
    have every : ∀ {s : Settings} {o : Orders}, s.Fits → among o →
        s.override sources path o = .ok (g.on s) :=
      fun fits ho => inOrder _ _ o₀ _ ho₀ ho (hg _ fits)
    have result : ∀ {s s' : Settings} {o : Orders}, s.Fits → among o →
        s.override sources path o = .ok s' → s' = g.on s :=
      fun fits ho done => (Except.ok.inj ((every fits ho).symm.trans done)).symm
    refine ⟨fun s₁ s₂ o₁ o₂ fits₁ fits₂ h₁ h₂ => ?_, ⟨g, fun _ _ _ => result⟩, ?_⟩
    · exact ⟨fun _ => ⟨_, every fits₂ h₂⟩, fun _ => ⟨_, every fits₁ h₁⟩⟩
    · intro s s' o o' fits ho ho' done fits'
      obtain rfl := result fits ho done
      rw [every fits' ho', g.on_on]
  · have never : ∀ {s s' : Settings} {o : Orders}, s.Fits → among o →
      s.override sources path o ≠ .ok s' :=
      fun fits ho done => any ⟨_, _, _, fits, ho, done⟩
    exact ⟨fun _ _ _ _ fits₁ fits₂ h₁ h₂ => ⟨fun ⟨_, done⟩ => absurd done (never fits₁ h₁),
        fun ⟨_, done⟩ => absurd done (never fits₂ h₂)⟩,
      ⟨{}, fun _ _ _ fits ho done => absurd done (never fits ho)⟩,
      fun _ _ _ _ fits ho _ done _ => absurd done (never fits ho)⟩

/-- To load over settings from the same sources once more changes nothing. Whether it succeeds does not
    depend on the settings, and neither do the fields that it sets, and to what. All this holds
    whatever the order in which each call walks its sources, if no two keys of a source meet; and if
    they meet, of calls that walk the sources in the same order. -/
theorem override_twice (sources : Sources) (path : String) :
    (sources.KeysApart path → Repeatable sources path fun _ => True) ∧
      ∀ o, Repeatable sources path (· = o) := by
  refine ⟨fun apart => ?_, fun o => ?_⟩
  · exact .of_inOrder fun s s' o o' _ _ done => override_inOrder apart done o'
  · exact .of_inOrder fun s s' o₁ o₂ h₁ h₂ done => by rwa [h₂, ← h₁]

end Settings

/-- The keys of each table, from the last one that is written to the first. -/
def Order.backwards : Order where
  walk := fun _ ms => ms.reverse
  perm := fun _ ms => ms.reverse_perm

/-- A file with an array where a table is expected, and beside it a table with two keys. -/
def arrayForTable : Settings.Sources where
  files := [("c.toml", "linking=[false]\nfiring={x=1,trace_redirects=true}")]

theorem override_twice_arrayForTable :
    (⟨⟨false⟩, ⟨true, 5⟩⟩ : Settings).override arrayForTable "c.toml" {} =
      .ok ⟨⟨true⟩, ⟨false, 2147483647⟩⟩ ∧
    (⟨⟨true⟩, ⟨false, 2147483647⟩⟩ : Settings).override arrayForTable "c.toml" ⟨.backwards,
        .backwards⟩ =
      .ok ⟨⟨true⟩, ⟨false, 2147483647⟩⟩ := by
  have parsed : Toml.parse? "linking=[false]\nfiring={x=1,trace_redirects=true}" =
      some [("linking", .array [.bool false]),
        ("firing", .table [("x", .int 1), ("trace_redirects", .bool true)])] := by cbv
  have file : Settings.fileLayer arrayForTable.files "c.toml" =
      .ok [("linking", .array (some "c.toml") [.scalar (some "c.toml") (.bool false)]),
        ("firing", .table (some "c.toml") [("x", .scalar (some "c.toml") (.int 1)),
          ("trace_redirects", .scalar (some "c.toml") (.bool true))])] :=
    Settings.fileLayer_of_found
      (f := ⟨"c.toml", "linking=[false]\nfiring={x=1,trace_redirects=true}"⟩) rfl parsed
  have once : (⟨⟨false⟩, ⟨true, 5⟩⟩ : Settings).override arrayForTable "c.toml" {} =
      .ok ⟨⟨true⟩, ⟨false, 2147483647⟩⟩ :=
    (Settings.override_of_layers (if_pos (by decide)) file rfl rfl).trans rfl
  have apart : arrayForTable.KeysApart "c.toml" := by
    refine ⟨fun layer found => ?_, List.Pairwise.nil⟩
    obtain rfl := Except.ok.inj (file.symm.trans found)
    decide
  exact ⟨once,
    ((Settings.override_twice arrayForTable "c.toml").1 apart).again _ _ _ _ (by decide) trivial
    trivial once (by decide)⟩

/-- Where keys meet, the order decides: the single value gives way to the path, or takes the place
    of what the path has set. -/
example :
    let single := ("linking", Tree.scalar none (.int 5))
    let path := ("linking.max_jump_distance", Tree.scalar none (.int 128))
    (Settings.layOver (.table none []) [single, path] >>= Settings.ofTree) =
      .ok ⟨⟨false⟩, ⟨true, 128⟩⟩ ∧
    (Settings.layOver (.table none []) [path, single] >>= Settings.ofTree) =
      .error (.notRecord "integer `5`" "LinkingConfig") := by
  decide +kernel

end Invalidation
