import Invalidation.Proofs.Settings.Walking
import Mathlib

/-! Which source decides. Of the settings so far, a file and the environment, each field has its
    value from the last one that says something of it:

        environment   WATCHPOINT__LINKING__MAX_JUMP_DISTANCE=256     ──▶ 256
        file          [linking] max_jump_distance = 128              ──▶ 128, if that is silent
        so far                                                       ──▶ as it was, if both are

    This takes a file that says what it says in the tables of the two parts. Any other plain key may
    stand beside them. -/

namespace Invalidation

namespace Settings

/-- What a source says of something, and what that means: it says nothing, or something, and then
    nothing of another meaning. -/
def Given {α β : Type} (said : α → Prop) (means : α → β → Prop) : Option β → Prop
  | none => ∀ v, ¬ said v
  | some b => (∃ v, said v) ∧ ∀ v, said v → means v b

/-- A meaning may be put in other words. -/
theorem Given.map {α β γ : Type} {said : α → Prop} {means : α → β → Prop} {means' : α → γ → Prop}
    {b? : Option β} (h : Given said means b?) (g : β → γ)
    (imp : ∀ v b, means v b → means' v (g b)) : Given said means' (b?.map g) := by
  cases b? with
  | none => exact h
  | some b => exact ⟨h.1, fun v hv => imp v b (h.2 v hv)⟩

theorem Given.of_said {α β : Type} {said : α → Prop} {means : α → β → Prop} {b? : Option β}
    (h : Given said means b?) {v : α} (hv : said v) : ∃ b, b? = some b ∧ means v b := by
  cases b? with
  | none => exact absurd hv (h v)
  | some b => exact ⟨b, rfl, h.2 v hv⟩

theorem Given.exists_said {α β : Type} {said : α → Prop} {means : α → β → Prop} {b? : Option β} {b : β}
    (h : Given said means b?) (hb : b? = some b) : ∃ v, said v := by
  subst hb
  exact h.1

/-! ### What a file says -/

/-- A file's layer has the value for the field in the table of its part. -/
def Field.SaidBy (f : Field) (layer : List (String × Tree)) (v : Tree) : Prop :=
  ∃ o ms, (f.part, .table o ms) ∈ layer ∧ (f.name, v) ∈ ms

/-- The layer of a file that says of the fields what `g` does. -/
structure FileGives (layer : List (String × Tree)) (g : Overlay) : Prop where
  /-- The parts are tables; beside them there are plain keys with other names. -/
  keys : ∀ m ∈ layer, (∃ f : Field, m.1 = f.part) ∧ (∃ o ms, m.2 = .table o ms) ∨
    (KeyPath.ofKey m.1).steps = [] ∧ ∀ f : Field, Text.lowercase m.1 ≠ f.part
  /-- In the table of a part, no key differs from the name of a field in capitals only. -/
  names : ∀ f : Field, ∀ o ms, (f.part, .table o ms) ∈ layer →
    ∀ n ∈ ms, Text.lowercase n.1 = f.name → n.1 = f.name
  traceRedirects : Given (Field.traceRedirects.SaidBy layer) (fun v b => ∃ o, v = .scalar o (.bool b))
    g.traceRedirects
  rejectSelfLoops : Given (Field.rejectSelfLoops.SaidBy layer) (fun v b => ∃ o, v = .scalar o (.bool b))
    g.rejectSelfLoops
  maxJumpDistance : Given (Field.maxJumpDistance.SaidBy layer)
    (fun v n => ∃ o, v = .scalar o (.int n.toNat)) g.maxJumpDistance

namespace FileGives

variable {layer : List (String × Tree)} {g : Overlay}

theorem said (h : FileGives layer g) (f : Field) :
    Given (f.SaidBy layer) (fun v y => ∃ o, v = .scalar o y) (g.scalar? f) := by
  cases f with
  | traceRedirects => exact h.traceRedirects.map Scalar.bool fun _ _ means => means
  | rejectSelfLoops => exact h.rejectSelfLoops.map Scalar.bool fun _ _ means => means
  | maxJumpDistance => exact h.maxJumpDistance.map (fun n => Scalar.int n.toNat) fun _ _ means => means

/-- A part that names the field, sets it to what the file says. -/
theorem setBy (h : FileGives layer g) {f : Field} {o : Option String} {ms : List (String × Tree)}
    (mem : (f.part, .table o ms) ∈ layer) {n : String × Tree} (hn : n ∈ ms) (name : n.1 = f.name) :
    ∃ y, g.scalar? f = some y ∧ f.SetBy y (f.part, .table o ms) := by
  have each : ∀ n ∈ ms, n.1 = f.name → f.SaidBy layer n.2 := fun n hn name =>
    ⟨o, ms, mem, by rwa [← name]⟩
  obtain ⟨y, hy, -⟩ := (h.said f).of_said (each n hn name)
  refine ⟨y, hy, Or.inl ⟨o, ms, rfl, ⟨n, hn, by rw [name, f.lowercase_name]⟩, fun n' hn' small => ?_⟩⟩
  obtain ⟨y', hy', means⟩ := (h.said f).of_said (each n' hn' (h.names f o ms mem n' hn' small))
  cases hy.symm.trans hy'
  exact means

theorem givenBy (h : FileGives layer g) (f : Field) : f.GivenBy layer (g.scalar? f) where
  each := fun m hm => by
    rcases h.keys m hm with ⟨⟨f', hpart⟩, o, ms, htable⟩ | ⟨plain, other⟩
    · obtain rfl : m = (f'.part, .table o ms) := Prod.ext hpart htable
      by_cases same : f'.part = f.part
      · rw [same] at hm ⊢
        by_cases names : ∃ n ∈ ms, Text.lowercase n.1 = f.name
        · obtain ⟨n, hn, small⟩ := names
          exact Or.inr (h.setBy hm hn (h.names f o ms hm n hn small))
        · refine Or.inl (Or.inr ?_)
          rw [f.ofKey_part]
          simpa using names
      · exact Or.inl (Or.inl (by rwa [f'.ofKey_part]))
    · exact Or.inl (Or.inl (by rw [KeyPath.key_of_plain plain]; exact other f))
  set := fun y hy => by
    obtain ⟨v, o, ms, mem, hv⟩ := (h.said f).exists_said hy
    obtain ⟨y', hy', sets⟩ := h.setBy mem hv rfl
    cases hy.symm.trans hy'
    exact ⟨_, mem, sets⟩

/-- Such a file can be laid over any tree, in any order. -/
theorem exists_addLayer (h : FileGives layer g) (o : Order) (t : Tree) :
    ∃ t', Tree.addLayer (o.layer layer) t = .ok t' := by
  refine Tree.exists_addLayer_inOrder (fun m hm => Or.inl ?_) o t
  rcases h.keys m hm with ⟨⟨f, hpart⟩, -⟩ | ⟨plain, -⟩
  · rw [hpart, f.ofKey_part]
  · exact plain

end FileGives

/-! ### What the environment says -/

/-- The variable for the field. -/
def Field.variableName : Field → String
  | .traceRedirects => "WATCHPOINT__FIRING__TRACE_REDIRECTS"
  | .rejectSelfLoops => "WATCHPOINT__LINKING__REJECT_SELF_LOOPS"
  | .maxJumpDistance => "WATCHPOINT__LINKING__MAX_JUMP_DISTANCE"

/-- The variable for the field has the value, which is not empty. -/
def Field.IsSetIn (f : Field) (env : Store String String) (v : String) : Prop :=
  (f.variableName, v) ∈ env.pairs ∧ v ≠ ""

/-- An environment that says of the fields what `g` does. -/
structure EnvironmentGives (env : Store String String) (g : Overlay) : Prop where
  /-- No other variable counts. -/
  names : ∀ e ∈ env.pairs, (Environment.key? e.1).isSome → ∃ f : Field, e.1 = f.variableName
  traceRedirects : Given (Field.traceRedirects.IsSetIn env)
    (fun v b => Text.lowercase v = if b then "true" else "false") g.traceRedirects
  rejectSelfLoops : Given (Field.rejectSelfLoops.IsSetIn env)
    (fun v b => Text.lowercase v = if b then "true" else "false") g.rejectSelfLoops
  maxJumpDistance : Given (Field.maxJumpDistance.IsSetIn env)
    (fun v n => Numeral.integer? v.toList = some (n.toNat : Int) ∧
      n.toNat < Nat.pow 2 63) g.maxJumpDistance

end Settings

namespace Environment

open Settings (Field)

/-- A truth value may be written in capitals. -/
theorem valueOf_truth {v : String} {b : Bool} (h : Text.lowercase v = if b then "true" else "false") :
    valueOf v = .bool b := by
  cases b <;> simp [valueOf, h]

/-- What stands in front of a numeral is a sign or a digit, and so no letter. -/
theorem exists_cons_of_integer? {cs : List Char} {i : Int} (h : Numeral.integer? cs = some i) :
    ∃ c cs', cs = c :: cs' ∧ c.toNat < 0x3A := by
  cases cs with
  | nil => simp [Numeral.integer?, Numeral.sign, Numeral.natural?] at h
  | cons c cs' =>
    refine ⟨c, cs', rfl, ?_⟩
    by_cases hsign : c = '-' ∨ c = '+'
    · rcases hsign with rfl | rfl <;> decide
    · rw [not_or] at hsign
      have hrest : Numeral.sign (c :: cs') = (false, c :: cs') := by
        unfold Numeral.sign
        split
        · next heq => exact absurd (List.cons.inj heq).1 hsign.1
        · next heq => exact absurd (List.cons.inj heq).1 hsign.2
        · rfl
      simp only [Numeral.integer?, hrest, Numeral.natural?, Option.bind_eq_bind,
        Option.bind_eq_some_iff] at h
      obtain ⟨n, hn, -⟩ := h
      have digit : Numeral.isDigit c = true := by
        by_contra other
        simp [other] at hn
      simp only [Numeral.isDigit, Bool.and_eq_true, decide_eq_true_eq] at digit
      exact Nat.lt_succ_of_le (UInt32.le_iff_toNat_le.mp digit.2)

/-- A numeral does not read as a word that begins with a letter. -/
theorem lowercase_ne_of_integer? {v word : String} {i : Int} (h : Numeral.integer? v.toList = some i)
    {l : Char} {ls : List Char} (begins : word.toList = l :: ls) (letter : 0x3A ≤ l.toNat) :
    Text.lowercase v ≠ word := by
  rintro rfl
  obtain ⟨c, cs, hcs, small⟩ := exists_cons_of_integer? h
  rw [Text.lowercase, hcs, String.toList_ofList, Text.lowerAfter, if_neg (by omega),
    Text.lowerChar_of_ascii (by omega), List.singleton_append] at begins
  have same : c.toLower = c := (Text.ascii_toLower (by omega)).2 ⟨by omega, by omega⟩
  have hl : c = l := same.symm.trans (List.cons.inj begins).1
  rw [hl] at small
  omega

theorem valueOf_integer {v : String} {n : UInt64}
    (h : Numeral.integer? v.toList = some (n.toNat : Int)) (small : n.toNat < Nat.pow 2 63) :
    valueOf v = .int n.toNat := by
  have htrue : Text.lowercase v ≠ "true" := lowercase_ne_of_integer? h rfl (by decide)
  have hfalse : Text.lowercase v ≠ "false" := lowercase_ne_of_integer? h rfl (by decide)
  have hint : Numeral.int64? v.toList = some (n.toNat : Int) := by
    have bounds : -Int.pow 2 63 ≤ n.toNat ∧ (n.toNat : Int) < Int.pow 2 63 := by
      have hint : Int.pow 2 63 = 9223372036854775808 := by decide
      have hnat : Nat.pow 2 63 = 9223372036854775808 := by decide
      omega
    rw [Numeral.int64?, h, Option.bind_eq_bind, Option.bind_some, if_pos bounds]
  rw [valueOf]
  split
  · next word => exact absurd word htrue
  · next word => exact absurd word hfalse
  · rw [hint]

theorem key?_variableName (f : Field) : key? f.variableName = some (f.part ++ "." ++ f.name) := by
  cases f <;> decide

theorem ofKey_dotted (f : Field) :
    KeyPath.ofKey (f.part ++ "." ++ f.name) = ⟨f.part, [.child f.name]⟩ := by
  cases f <;> decide

theorem dotted_injective {f g : Field} (h : f.part ++ "." ++ f.name = g.part ++ "." ++ g.name) :
    f = g := by
  have path := congrArg KeyPath.ofKey h
  rw [ofKey_dotted, ofKey_dotted] at path
  simp only [KeyPath.mk.injEq, List.cons.injEq, PathStep.child.injEq, and_true] at path
  exact Field.eq_of_part_of_name path.1 path.2

/-- A variable is a member of the layer if it counts and is not empty. -/
theorem member?_eq_some {e : String × String} {m : String × Tree} : member? e = some m ↔
    e.2 ≠ "" ∧ key? e.1 = some m.1 ∧ m.2 = .scalar (some origin) (valueOf e.2) := by
  obtain ⟨k, v⟩ := m
  rw [member?]
  split
  · next empty => simp [String.isEmpty_iff.mp empty]
  · next full =>
    rw [String.isEmpty_iff] at full
    rw [Option.map_eq_some_iff]
    constructor
    · rintro ⟨_, hkey, hm⟩
      cases hm
      exact ⟨full, hkey, rfl⟩
    · rintro ⟨-, hkey, rfl⟩
      exact ⟨k, hkey, rfl⟩

theorem mem_of_mem_layer {env : List (String × String)} {m : String × Tree} (h : m ∈ layer env) :
    ∃ e ∈ env, member? e = some m := by
  have hmem : ∀ (ms acc : List (String × Tree)),
      m ∈ ms.foldl (fun ms m => Tree.putKey m.1 m.2 ms) acc → m ∈ ms ∨ m ∈ acc := by
    intro ms
    induction ms with
    | nil => exact fun _ => Or.inr
    | cons n ms ih =>
      intro acc hm
      rcases ih _ hm with hm | hm
      · exact Or.inl (List.mem_cons_of_mem _ hm)
      · exact (Tree.mem_of_mem_putKey hm).imp_left fun hn => List.mem_cons.mpr (Or.inl hn)
  simpa using hmem _ [] h

/-- Of the variables with one key, one is in the layer. -/
theorem exists_mem_layer {env : List (String × String)} {e : String × String} {k : String}
    (he : e ∈ env) (full : e.2 ≠ "") (hk : key? e.1 = some k) : ∃ u, (k, u) ∈ layer env := by
  have hfind : ∀ (ms acc : List (String × Tree)),
      (∃ v, (k, v) ∈ ms) ∨ (Tree.findKey k acc).isSome →
      (Tree.findKey k (ms.foldl (fun ms m => Tree.putKey m.1 m.2 ms) acc)).isSome := by
    intro ms
    induction ms with
    | nil => simp
    | cons n ms ih =>
      intro acc given
      refine ih _ ?_
      rw [Tree.findKey_putKey]
      split
      · exact Or.inr rfl
      · next hn =>
        refine given.imp_left ?_
        rintro ⟨v, hv⟩
        exact ⟨v, (List.mem_cons.mp hv).resolve_left fun heq => hn (by rw [← heq])⟩
  obtain ⟨v, hv⟩ := Option.isSome_iff_exists.mp
    (hfind _ [] (Or.inl ⟨_, List.mem_filterMap.mpr ⟨e, he, member?_eq_some.mpr ⟨full, hk, rfl⟩⟩⟩))
  exact ⟨v, Tree.mem_of_findKey hv⟩

end Environment

namespace Settings.EnvironmentGives

variable {env : Store String String} {g : Overlay}

theorem said (h : EnvironmentGives env g) (f : Field) :
    Given (f.IsSetIn env) (fun v y => Environment.valueOf v = y) (g.scalar? f) := by
  cases f with
  | traceRedirects => exact h.traceRedirects.map Scalar.bool fun _ _ => Environment.valueOf_truth
  | rejectSelfLoops => exact h.rejectSelfLoops.map Scalar.bool fun _ _ => Environment.valueOf_truth
  | maxJumpDistance =>
    exact h.maxJumpDistance.map (fun n => Scalar.int n.toNat) fun _ _ means =>
      Environment.valueOf_integer means.1 means.2

/-- Every member of the layer is the value of a field, by its path. -/
theorem exists_field (h : EnvironmentGives env g) {m : String × Tree}
    (hm : m ∈ Environment.layer env.pairs) : ∃ (f : Field) (y : Scalar), m.1 = f.part ++ "." ++ f.name ∧
      m.2 = .scalar (some Environment.origin) y ∧ g.scalar? f = some y := by
  obtain ⟨e, he, hmember⟩ := Environment.mem_of_mem_layer hm
  obtain ⟨full, hkey, hvalue⟩ := Environment.member?_eq_some.mp hmember
  obtain ⟨f, hname⟩ := h.names e he (by rw [hkey]; rfl)
  rw [hname, Environment.key?_variableName] at hkey
  have hset : f.IsSetIn env e.2 := ⟨hname ▸ he, full⟩
  obtain ⟨y, hy, means⟩ := (h.said f).of_said hset
  exact ⟨f, y, (Option.some.inj hkey).symm, by rw [hvalue, means], hy⟩

theorem givenBy (h : EnvironmentGives env g) (f : Field) :
    f.GivenBy (Environment.layer env.pairs) (g.scalar? f) where
  each := fun m hm => by
    obtain ⟨f', y, hkey, hvalue, hy⟩ := h.exists_field hm
    by_cases same : f' = f
    · rw [same] at hkey hy
      exact Or.inr ⟨y, hy, Or.inr ⟨_, hvalue, by rw [hkey, Environment.ofKey_dotted]⟩⟩
    · refine Or.inl ?_
      rw [Field.SparedBy, hkey, Environment.ofKey_dotted]
      by_cases part : f'.part = f.part
      · refine Or.inr fun name => same (Field.eq_of_part_of_name part ?_)
        rwa [f'.lowercase_name] at name
      · exact Or.inl part
  set := fun y hy => by
    obtain ⟨v, mem, full⟩ := (h.said f).exists_said hy
    obtain ⟨u, hu⟩ := Environment.exists_mem_layer mem full (Environment.key?_variableName f)
    obtain ⟨f', y', hkey, hvalue, hy'⟩ := h.exists_field hu
    obtain rfl := Environment.dotted_injective hkey
    cases hy.symm.trans hy'
    exact ⟨_, hu, Or.inr ⟨_, hvalue, Environment.ofKey_dotted f⟩⟩

theorem exists_addLayer (h : EnvironmentGives env g) (o : Order) (t : Tree) :
    ∃ t', Tree.addLayer (o.layer (Environment.layer env.pairs)) t = .ok t' := by
  refine Tree.exists_addLayer_inOrder (fun m hm => Or.inr ?_) o t
  obtain ⟨f, -, hkey, -⟩ := h.exists_field hm
  exact ⟨f.name, by rw [hkey, Environment.ofKey_dotted]⟩

end Settings.EnvironmentGives

/-- Each field has the value of the last source that says something of it: of the environment, else
    of the file, else the one so far. Loading afresh is the same over the default settings. No call
    depends on the order in which it walks its sources. -/
theorem Settings.last_source_decides {s : Settings} (fits : s.Fits) {sources : Sources} {path : String}
    {layer : List (String × Tree)} (file : fileLayer sources.files path = .ok layer)
    {fromFile fromEnv : Overlay} (inFile : FileGives layer fromFile)
    (inEnv : EnvironmentGives sources.env fromEnv) (orders : Orders) :
    s.override sources path orders = .ok ((fromEnv.or fromFile).on s) ∧
      (sources.env.get? "CONFIG_PATH" = some path → ∀ afresh : Orders,
        load sources afresh = ({} : Settings).override sources path orders) := by
  have decided : ∀ (s : Settings) (orders : Orders), s.Fits →
      s.override sources path orders = .ok ((fromEnv.or fromFile).on s) := by
    intro s orders fits
    obtain ⟨base, hbase, holds⟩ := exists_toTree? fits
    obtain ⟨t, ht⟩ := inFile.exists_addLayer orders.file base
    obtain ⟨t', ht'⟩ := inEnv.exists_addLayer orders.environment t
    rw [override_of_layers hbase file ht ht']
    refine ofTree_of_holds fun f => ?_
    have field := ((holds f).addLayer_of_givenBy ((inFile.givenBy f).inOrder _) ht).addLayer_of_givenBy
      ((inEnv.givenBy f).inOrder _) ht'
    rwa [Overlay.scalar_on, Overlay.scalar?_or, Option.getD_or]
  refine ⟨decided s orders fits, fun named afresh => ?_⟩
  have same : load sources afresh = ({} : Settings).override sources path afresh := by
    rw [load, named]; rfl
  rw [same, decided {} afresh (by decide), decided {} orders (by decide)]

/-- A file that gives the distance, and an environment that gives the rule about self-loops. -/
def distanceInFile : Settings.Sources where
  files := [("c.toml", "[linking]\nmax_jump_distance=8\n")]
  env := ⟨[("CONFIG_PATH", "c.toml"), ("WATCHPOINT__LINKING__REJECT_SELF_LOOPS", "FALSE"),
    ("WATCHPOINT__LINKING__MAX_JUMP_DISTANCE", "")]⟩

theorem last_source_decides_distanceInFile :
    ({ firing := { traceRedirects := true } } : Settings).override distanceInFile "c.toml" {} =
      .ok ⟨⟨true⟩, ⟨false, 8⟩⟩ ∧
    Settings.load distanceInFile {} = ({} : Settings).override distanceInFile "c.toml" {} := by
  have parsed : Toml.parse? "[linking]\nmax_jump_distance=8\n" =
      some [("linking", .table [("max_jump_distance", .int 8)])] := by cbv
  have file : Settings.fileLayer distanceInFile.files "c.toml" = .ok [("linking",
      .table (some "c.toml") [("max_jump_distance", .scalar (some "c.toml") (.int 8))])] :=
    Settings.fileLayer_of_found
      (f := ⟨"c.toml", "[linking]\nmax_jump_distance=8\n"⟩) rfl parsed
  have inFile : Settings.FileGives [("linking",
      .table (some "c.toml") [("max_jump_distance", .scalar (some "c.toml") (.int 8))])]
      { maxJumpDistance := some 8 } := by
    have small : Text.lowercase "max_jump_distance" = "max_jump_distance" := by decide
    constructor
    · simp only [List.mem_singleton, forall_eq]
      exact Or.inl ⟨⟨.maxJumpDistance, rfl⟩, _, _, rfl⟩
    · simp +contextual [small]
    · simp [Settings.Given, Settings.Field.SaidBy, Settings.Field.part]
    · simp [Settings.Given, Settings.Field.SaidBy, Settings.Field.part, Settings.Field.name]
    · refine ⟨⟨_, _, _, List.mem_singleton_self _, List.mem_singleton_self _⟩, ?_⟩
      rintro v ⟨o, ms, mem, hv⟩
      simp only [List.mem_singleton, Prod.mk.injEq, Tree.table.injEq] at mem
      rw [mem.2.2, List.mem_singleton] at hv
      exact ⟨_, congrArg Prod.snd hv⟩
  have inEnv : Settings.EnvironmentGives distanceInFile.env { rejectSelfLoops := some false } := by
    have other : Environment.key? "CONFIG_PATH" = none := by decide
    have small : Text.lowercase "FALSE" = "false" := by decide
    constructor
    · simp only [distanceInFile, List.forall_mem_cons, other]
      exact ⟨by simp, fun _ => ⟨.rejectSelfLoops, rfl⟩, fun _ => ⟨.maxJumpDistance, rfl⟩, by simp⟩
    · simp [Settings.Given, Settings.Field.IsSetIn, distanceInFile, Settings.Field.variableName]
    · simp [Settings.Given, Settings.Field.IsSetIn, distanceInFile, Settings.Field.variableName, small]
    · simp [Settings.Given, Settings.Field.IsSetIn, distanceInFile, Settings.Field.variableName]
  obtain ⟨result, same⟩ := Settings.last_source_decides (s := { firing := { traceRedirects := true } })
    (by decide) file inFile inEnv {}
  exact ⟨result, same rfl {}⟩

end Invalidation
