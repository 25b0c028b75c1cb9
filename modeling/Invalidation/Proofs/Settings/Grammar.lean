import Invalidation.Proofs.Json.Proper
import Invalidation.Settings.Json
import Mathlib.Data.List.Nodup

/-! The grammar of the JSON form of the settings. Every part is a record, and a record may be written in
    two ways, with any of its fields left out in the first and the last ones left out in the second.

        settings   { firing: …, linking: … }                          [ firing, linking ]
        firing     { trace_redirects: bool }                          [ bool ]
        linking    { reject_self_loops: bool, max_jump_distance: n }  [ bool, n ]

    The reader goes through the members as they come, and the grammar through the fields as they are
    declared. The two meet because the fields of a record can be set in any order (`Field.Independent`):
    members in whatever order, and elements, come down to one list that says for each field what it is
    given, if anything. -/

namespace Invalidation

namespace Json

/-- What is given for a field writes `a`, or nothing is given and `a` is the default. -/
def Gives {α : Type} (writes : Json → α → Prop) (missing : α) : Option Json → α → Prop
  | none, a => a = missing
  | some v, a => writes v a

/-- A truth value is written as such. -/
def WritesBool (v : Json) (b : Bool) : Prop := v = .bool b

/-- A number of 64 bits is written as a whole number. -/
def WritesUInt64 (v : Json) (n : UInt64) : Prop := v = .int n.toNat

/-- The second value is the first with one more member, of which the name is none of these. -/
inductive Adds (names : List String) : Json → Json → Prop
  | member {before behind : List (String × Json)} {name : String} (v : Json) (unknown : name ∉ names) :
      Adds names (.object (before ++ behind)) (.object (before ++ (name, v) :: behind))

/-- The members are a member of that name and value, or nothing, if the value is the default. -/
inductive Kept (name : String) (v : Json) (isDefault : Prop) : List (String × Json) → Prop
  | kept : Kept name v isDefault [(name, v)]
  | removed (same : isDefault) : Kept name v isDefault []

end Json

open Json

/-- A value writes firing settings. -/
inductive Firing.Writes : Json → Firing → Prop
  | object {ms : List (String × Json)} {f : Firing}
      (trace : Gives WritesBool false ((Json.object ms).member? "trace_redirects") f.traceRedirects) :
      Writes (.object ms) f
  | array {vs : List Json} {f : Firing} (short : vs.length ≤ 1)
      (trace : Gives WritesBool false vs[0]? f.traceRedirects) : Writes (.array vs) f

/-- A value writes linking settings. -/
inductive Linking.Writes : Json → Linking → Prop
  | object {ms : List (String × Json)} {l : Linking}
      (reject : Gives WritesBool true ((Json.object ms).member? "reject_self_loops") l.rejectSelfLoops)
      (distance : Gives WritesUInt64 2147483647 ((Json.object ms).member? "max_jump_distance")
        l.maxJumpDistance) : Writes (.object ms) l
  | array {vs : List Json} {l : Linking} (short : vs.length ≤ 2)
      (reject : Gives WritesBool true vs[0]? l.rejectSelfLoops)
      (distance : Gives WritesUInt64 2147483647 vs[1]? l.maxJumpDistance) : Writes (.array vs) l

namespace Settings

/-- A value writes settings. -/
inductive Writes : Json → Settings → Prop
  | object {ms : List (String × Json)} {s : Settings}
      (firing : Gives Firing.Writes ⟨false⟩ ((Json.object ms).member? "firing") s.firing)
      (linking : Gives Linking.Writes ⟨true, 2147483647⟩
        ((Json.object ms).member? "linking") s.linking) :
      Writes (.object ms) s
  | array {vs : List Json} {s : Settings} (short : vs.length ≤ 2)
      (firing : Gives Firing.Writes ⟨false⟩ vs[0]? s.firing)
      (linking : Gives Linking.Writes ⟨true, 2147483647⟩ vs[1]? s.linking) : Writes (.array vs) s

/-- The second value is the first with one more member that is no field of the record it is put in. -/
inductive AddsUnknown : Json → Json → Prop
  | here {v v' : Json} (h : Adds ["firing", "linking"] v v') : AddsUnknown v v'
  | firingMember {before behind : List (String × Json)} {v v' : Json}
    (h : Adds ["trace_redirects"] v v') :
      AddsUnknown (.object (before ++ ("firing", v) :: behind))
        (.object (before ++ ("firing", v') :: behind))
  | linkingMember {before behind : List (String × Json)} {v v' : Json}
      (h : Adds ["reject_self_loops", "max_jump_distance"] v v') :
      AddsUnknown (.object (before ++ ("linking", v) :: behind))
        (.object (before ++ ("linking", v') :: behind))
  | firingElement {v v' : Json} {behind : List Json} (h : Adds ["trace_redirects"] v v') :
      AddsUnknown (.array (v :: behind)) (.array (v' :: behind))
  | linkingElement {u v v' : Json} {behind : List Json}
      (h : Adds ["reject_self_loops", "max_jump_distance"] v v') :
      AddsUnknown (.array (u :: v :: behind)) (.array (u :: v' :: behind))

end Settings

/-! ### Forms of given settings -/

/-- An object that writes firing settings, in which a default may be left out. -/
inductive Firing.ObjectForm (f : Firing) : Json → Prop
  | members {ms : List (String × Json)}
      (trace : Kept "trace_redirects" (.bool f.traceRedirects) (f.traceRedirects = false) ms) :
      ObjectForm f (.object ms)

/-- An object that writes linking settings, in which defaults may be left out. -/
inductive Linking.ObjectForm (l : Linking) : Json → Prop
  | members {ms ns : List (String × Json)}
      (distance : Kept "max_jump_distance" (.int l.maxJumpDistance.toNat)
        (l.maxJumpDistance = 2147483647) ms)
      (reject : Kept "reject_self_loops" (.bool l.rejectSelfLoops) (l.rejectSelfLoops = true) ns) :
      ObjectForm l (.object (ms ++ ns))

namespace Settings

/-- An object that writes settings, in which defaults may be left out. -/
inductive ObjectForm (s : Settings) : Json → Prop
  | members {ms ns : List (String × Json)} {v w : Json} (firingForm : s.firing.ObjectForm v)
      (linkingForm : s.linking.ObjectForm w) (firing : Kept "firing" v (s.firing = ⟨false⟩) ms)
      (linking : Kept "linking" w (s.linking = ⟨true, 2147483647⟩) ns) :
        ObjectForm s (.object (ms ++ ns))

/-- The settings as an array of arrays. -/
def toElements (s : Settings) : Json :=
  .array [.array [.bool s.firing.traceRedirects],
    .array [.bool s.linking.rejectSelfLoops, .int s.linking.maxJumpDistance.toNat]]

/-- The reader of settings and their grammar agree on a value. -/
structure ReadsByGrammar (v : Json) : Prop where
  /-- Just the values of the grammar are accepted. -/
  accepted : (∃ s, ofJson v = .ok s) ↔ ∃ s, Writes v s
  /-- They are read as the settings that they write. -/
  read : ∀ s, ofJson v = .ok s ↔ Writes v s
  /-- An unknown member changes nothing about the outcome, not even about a complaint. -/
  unknown : ∀ w, AddsUnknown v w → ofJson w = ofJson v

/-- Settings are read back from each of their forms. -/
structure ReadsBack (s : Settings) : Prop where
  whole : ofJson s.toJson = .ok s
  elements : ofJson s.toElements = .ok s
  abridged : ∀ v, s.ObjectForm v → ofJson v = .ok s

end Settings

/-! ### Fields in any order -/

namespace Json

variable {α : Type} {f g : Field α} {fields : List (Field α)} {ms : List (String × Json)}
  {ps : List (Field α × Option Json)} {v : Json} {a b : α} {name : String}

/-- Reads each field from what is given for it, in the order of the fields. -/
def fill : List (Field α × Option Json) → α → Except String α
  | [], a => .ok a
  | (_, none) :: ps, a => fill ps a
  | (f, some v) :: ps, a => do fill ps (← f.2 v a)

/-- Two fields can be set in either order. -/
def Field.Independent (f g : Field α) : Prop :=
  ∀ v w a b, (f.2 v a >>= g.2 w) = .ok b ↔ (g.2 w a >>= f.2 v) = .ok b

/-- What the members of an object give for the fields of a record. -/
def fromMembers (fields : List (Field α)) (ms : List (String × Json)) : List (Field α × Option Json) :=
  fields.map fun f => (f, (object ms).member? f.1)

/-- What the elements of an array give for the fields of a record. -/
def fromElements (fields : List (Field α)) (vs : List Json) : List (Field α × Option Json) :=
  fields.mapIdx fun i f => (f, vs[i]?)

theorem bind_eq_ok_iff {ε β γ : Type} {x : Except ε β} {k : β → Except ε γ} {c : γ} :
    (x >>= k) = .ok c ↔ ∃ y, x = .ok y ∧ k y = .ok c := by
  cases x with
  | error e => exact iff_of_false (fun h => by cases h) fun ⟨_, h, _⟩ => by cases h
  | ok y => exact ⟨fun h => ⟨y, rfl, h⟩, fun ⟨_, h, hk⟩ => Except.ok.inj h ▸ hk⟩

theorem fill_append (ps qs : List (Field α × Option Json)) (a : α) :
    fill (ps ++ qs) a = fill ps a >>= fill qs := by
  induction ps generalizing a with
  | nil => rfl
  | cons p ps ih =>
    obtain ⟨f, _ | v⟩ := p
    · exact ih a
    · simp only [List.cons_append, fill, ih, bind_assoc]

/-- Where nothing is given, nothing changes. -/
theorem fill_of_none (h : ∀ p ∈ ps, p.2 = none) (a : α) : fill ps a = .ok a := by
  induction ps with
  | nil => rfl
  | cons p ps ih =>
    obtain ⟨hp, hps⟩ := List.forall_mem_cons.mp h
    obtain ⟨f, given⟩ := p
    obtain rfl : given = none := hp
    exact ih hps

/-- A field that is independent of others can be set before them or behind them. -/
theorem fill_comm (h : ∀ p ∈ ps, Field.Independent f p.1) (v : Json) (a b : α) :
    (f.2 v a >>= fill ps) = .ok b ↔ (fill ps a >>= f.2 v) = .ok b := by
  induction ps generalizing a with
  | nil =>
    show (f.2 v a >>= pure) = .ok b ↔ f.2 v a = .ok b
    rw [bind_pure]
  | cons p ps ih =>
    obtain ⟨hp, hps⟩ := List.forall_mem_cons.mp h
    obtain ⟨g, _ | w⟩ := p
    · exact ih hps a
    · have hswap : (f.2 v a >>= fill ((g, some w) :: ps)) = .ok b ↔
          (g.2 w a >>= f.2 v >>= fill ps) = .ok b := by
        simp only [fill, ← bind_assoc]
        rw [bind_eq_ok_iff, bind_eq_ok_iff]
        exact exists_congr fun c => and_congr_left' (hp v w a c)
      rw [hswap, fill, bind_assoc, bind_assoc, bind_eq_ok_iff, bind_eq_ok_iff]
      exact exists_congr fun c => and_congr_right' (ih hps c)

/-- The first field gets what is given for it, or keeps its default; then it is the turn of the
    others. -/
theorem fill_cons_eq_ok_iff {β : Type} (read : Json → Except String β) (set : β → α → α) (old : β)
    (same : set old a = a) (given : Option Json) {writes : Json → β → Prop}
    (reads : ∀ v ∈ given, ∀ x, read v = .ok x ↔ writes v x) :
    fill (((name, fun v a => do return set (← read v) a), given) :: ps) a = .ok b ↔
      ∃ x, Gives writes old given x ∧ fill ps (set x a) = .ok b := by
  cases given with
  | none =>
    simp only [fill, Gives, exists_eq_left]
    rw [same]
  | some v =>
    simp only [fill, Gives, bind_assoc, pure_bind, bind_eq_ok_iff]
    exact exists_congr fun x => and_congr_left' (reads v rfl x)

/-! ### Members and elements -/

theorem member?_cons_of_ne {m : String × Json} (h : m.1 ≠ name) :
    (object (m :: ms)).member? name = (object ms).member? name := by
  rw [member?, member?, List.find?_cons_of_neg (by simpa using h)]

theorem member?_cons_self (name : String) (v : Json) (ms : List (String × Json)) :
    (object ((name, v) :: ms)).member? name = some v := by
  rw [member?, List.find?_cons_of_pos (by simp)]
  rfl

theorem member?_eq_none (h : name ∉ ms.map Prod.fst) : (object ms).member? name = none := by
  rw [member?, Option.map_eq_none_iff, List.find?_eq_none]
  intro m hm he
  exact h (List.mem_map.mpr ⟨m, hm, by simpa using he⟩)

theorem fromMembers_cons_of_ne {m : String × Json} (h : ∀ f ∈ fields, m.1 ≠ f.1) :
    fromMembers fields (m :: ms) = fromMembers fields ms :=
  List.map_congr_left fun f hf => by rw [member?_cons_of_ne (h f hf)]

/-- Fields that are read apart and set apart can be set in either order. -/
theorem Field.independent {β γ : Type} (read : Json → Except String β) (set : β → α → α)
    (read' : Json → Except String γ) (set' : γ → α → α)
    (apart : ∀ x y a, set' y (set x a) = set x (set' y a))
    {name' : String} : Field.Independent (name, fun v a => do return set (← read v) a)
      (name', fun v a => do return set' (← read' v) a) := by
  intro v w a b
  simp only [bind_assoc, pure_bind, bind_eq_ok_iff]
  constructor
  · rintro ⟨x, hx, y, hy, he⟩
    exact ⟨y, hy, x, hx, apart x y a ▸ he⟩
  · rintro ⟨y, hy, x, hx, he⟩
    exact ⟨x, hx, y, hy, (apart x y a).symm ▸ he⟩

theorem Field.Independent.symm (h : f.Independent g) : g.Independent f :=
  fun v w a b => (h w v a b).symm

theorem bind_congr_ok {β γ : Type} {x y : Except String β} {k : β → Except String γ} {c : γ}
    (h : ∀ b, x = .ok b ↔ y = .ok b) : (x >>= k) = .ok c ↔ (y >>= k) = .ok c := by
  rw [bind_eq_ok_iff, bind_eq_ok_iff]
  exact exists_congr fun b => and_congr_left' (h b)

/-- A member is read as if it came when its field's turn is. -/
theorem bind_fill_eq_ok_iff {before behind : List (Field α)}
    (names : ((before ++ f :: behind).map Prod.fst).Nodup)
    (free : ∀ g ∈ before, Field.Independent g f) (new : f.1 ∉ ms.map Prod.fst) (a b : α) :
    (f.2 v a >>= fill (fromMembers (before ++ f :: behind) ms)) = .ok b ↔
      fill (fromMembers (before ++ f :: behind) ((f.1, v) :: ms)) a = .ok b := by
  rw [List.map_append, List.map_cons, List.nodup_append, List.nodup_cons] at names
  obtain ⟨-, ⟨hbehind, -⟩, hbefore⟩ := names
  have hwithout : fromMembers (before ++ f :: behind) ms =
      fromMembers before ms ++ (f, none) :: fromMembers behind ms := by
    rw [fromMembers, List.map_append, List.map_cons, member?_eq_none new]
    rfl
  have hwith : fromMembers (before ++ f :: behind) ((f.1, v) :: ms) =
      fromMembers before ms ++ (f, some v) :: fromMembers behind ms := by
    have hb : fromMembers before ((f.1, v) :: ms) = fromMembers before ms := fromMembers_cons_of_ne
      fun g hg he => hbefore _ (List.mem_map_of_mem hg) _ List.mem_cons_self he.symm
    have hb' : fromMembers behind ((f.1, v) :: ms) = fromMembers behind ms := fromMembers_cons_of_ne
      fun g hg he => hbehind (List.mem_map.mpr ⟨g, hg, he.symm⟩)
    rw [← hb, ← hb', fromMembers, List.map_append, List.map_cons, member?_cons_self]
    rfl
  have hfree : ∀ p ∈ fromMembers before ms, Field.Independent f p.1 := by
    intro p hp
    obtain ⟨g, hg, rfl⟩ := List.mem_map.mp hp
    exact (free g hg).symm
  have hfill : ∀ c, fill (fromMembers before ms ++ (f, none) :: fromMembers behind ms) c =
      fill (fromMembers before ms) c >>= fill (fromMembers behind ms) := fun c => fill_append _ _ c
  rw [hwithout, hwith, fill_append, funext hfill, ← bind_assoc, bind_congr_ok (fill_comm hfree v a),
    bind_assoc]
  rfl

/-- Members are read as if they came in the order of the fields. -/
theorem readMembers_eq_ok_iff (names : (fields.map Prod.fst).Nodup)
    (free : fields.Pairwise Field.Independent) (distinct : (ms.map Prod.fst).Nodup) (a b : α) :
    readMembers fields ms a = .ok b ↔ fill (fromMembers fields ms) a = .ok b := by
  induction ms generalizing a with
  | nil =>
    rw [fill_of_none (fun p hp => ?_)]
    · rfl
    · obtain ⟨f, -, rfl⟩ := List.mem_map.mp hp
      rfl
  | cons m ms ih =>
    obtain ⟨n, v⟩ := m
    rw [List.map_cons, List.nodup_cons] at distinct
    obtain ⟨hnew, hms⟩ := distinct
    rw [readMembers]
    split
    · next f hfind =>
      obtain ⟨hn, before, behind, rfl, hbefore⟩ := List.find?_eq_some_iff_append.mp hfind
      obtain rfl : f.1 = n := by simpa using hn
      rw [← bind_fill_eq_ok_iff names (fun g hg => ?_) hnew, bind_eq_ok_iff, bind_eq_ok_iff]
      · exact exists_congr fun c => and_congr_right' (ih hms c)
      · exact (List.pairwise_append.mp free).2.2 g hg f List.mem_cons_self
    · next hnone =>
      rw [ih hms, fromMembers_cons_of_ne]
      intro f hf he
      exact (List.find?_eq_none.mp hnone f hf) (by simpa using he.symm)

/-- Elements are read in the order of the fields, if there are enough of these. -/
theorem readElements_eq_ok_iff (n : Nat) (fields : List (Field α)) (vs : List Json) (a b : α) :
    readElements n fields vs a = .ok b ↔
      vs.length ≤ fields.length ∧ fill (fromElements fields vs) a = .ok b := by
  induction fields generalizing vs a with
  | nil =>
    cases vs with
    | nil => exact (and_iff_right (Nat.le_refl 0)).symm
    | cons v vs => exact iff_of_false (fun h => by cases h) fun h => Nat.not_succ_le_zero _ h.1
  | cons f fields ih =>
    cases vs with
    | nil =>
      rw [fill_of_none (fun p hp => ?_)]
      · exact (and_iff_right (Nat.zero_le _)).symm
      · obtain ⟨i, hi, rfl⟩ := List.mem_mapIdx.mp hp
        rfl
    | cons v vs =>
      have hfrom : fromElements (f :: fields) (v :: vs) = (f, some v) :: fromElements fields vs := by
        rw [fromElements, List.mapIdx_cons]
        rfl
      rw [hfrom, readElements, fill, bind_eq_ok_iff, bind_eq_ok_iff, List.length_cons, List.length_cons,
        Nat.add_le_add_iff_right, ← exists_and_left]
      refine exists_congr fun c => ?_
      rw [ih, and_left_comm]

/-- A record is read from an object or from an array, and from nothing else. -/
theorem readRecord_eq_ok_iff {record : String} {fields : List (Field α)} (proper : v.Proper)
    (names : (fields.map Prod.fst).Nodup) (free : fields.Pairwise Field.Independent) (a b : α) :
    v.readRecord record fields a = .ok b ↔
      (∃ ms, v = .object ms ∧ fill (fromMembers fields ms) a = .ok b) ∨
        ∃ vs, v = .array vs ∧ vs.length ≤ fields.length ∧ fill (fromElements fields vs) a = .ok b := by
  cases proper with
  | object distinct all =>
    rw [readRecord, readMembers_eq_ok_iff names free distinct]
    simp
  | array all =>
    rw [readRecord, readElements_eq_ok_iff]
    simp
  | null | bool | int | real | text => simp [readRecord]

/-! ### Records of two fields -/

/-- How a record is made of two fields, and how each of them is set in it. -/
structure Pair {β γ : Type} (mk : β → γ → α) (set : β → α → α) (set' : γ → α → α) : Prop where
  set_mk : ∀ x y z, set x (mk y z) = mk x z
  set_mk' : ∀ x y z, set' z (mk x y) = mk x z
  apart : ∀ x y a, set' y (set x a) = set x (set' y a)
  mk_inj : ∀ {x y x' y'}, mk x y = mk x' y' → x = x' ∧ y = y'

section Pair

variable {β γ : Type} {mk : β → γ → α} {set : β → α → α} {set' : γ → α → α}
  {read : Json → Except String β}
  {read' : Json → Except String γ} {writes : Json → β → Prop} {writes' : Json → γ → Prop}
  {name' : String}

/-- Each of two fields gets what is given for it, or keeps its default. -/
theorem Pair.fill_eq_ok_iff (pair : Pair mk set set') {given given' : Option Json}
    (reads : ∀ v ∈ given, ∀ x, read v = .ok x ↔ writes v x)
    (reads' : ∀ v ∈ given', ∀ y, read' v = .ok y ↔ writes' v y) (old x : β) (old' y : γ) :
    fill [((name, fun v a => do return set (← read v) a), given),
        ((name', fun v a => do return set' (← read' v) a), given')] (mk old old') = .ok (mk x y) ↔
      Gives writes old given x ∧ Gives writes' old' given' y := by
  have hsecond :
    ∀ z, fill [((name', fun v a => do return set' (← read' v) a), given')] (set z (mk old old')) =
      .ok (mk x y) ↔ ∃ w, Gives writes' old' given' w ∧ mk z w = mk x y := by
    intro z
    rw [pair.set_mk, fill_cons_eq_ok_iff read' set' old' (pair.set_mk' _ _ _) given' reads']
    simp only [fill, pair.set_mk', Except.ok.injEq]
  rw [fill_cons_eq_ok_iff read set old (pair.set_mk _ _ _) given reads]
  constructor
  · rintro ⟨z, hz, h⟩
    obtain ⟨w, hw, he⟩ := (hsecond z).mp h
    obtain ⟨rfl, rfl⟩ := pair.mk_inj he
    exact ⟨hz, hw⟩
  · rintro ⟨hx, hy⟩
    exact ⟨x, hx, (hsecond x).mpr ⟨y, hy, rfl⟩⟩

/-- A record of two fields is read from what the members of an object or the elements of an array give
    for them. -/
theorem Pair.readRecord_eq_ok_iff (pair : Pair mk set set') (record : String) (proper : v.Proper)
    (differ : name ≠ name') (reads : ∀ v : Json, v.Proper → ∀ x, read v = .ok x ↔ writes v x)
    (reads' : ∀ v : Json, v.Proper → ∀ y, read' v = .ok y ↔ writes' v y) (old x : β) (old' y : γ) :
    v.readRecord record [(name, fun v a => do return set (← read v) a),
        (name', fun v a => do return set' (← read' v) a)] (mk old old') = .ok (mk x y) ↔
      (∃ ms, v = .object ms ∧ Gives writes old ((object ms).member? name) x ∧
          Gives writes' old' ((object ms).member? name') y) ∨
        ∃ vs, v = .array vs ∧ vs.length ≤ 2 ∧ Gives writes old vs[0]? x ∧
        Gives writes' old' vs[1]? y := by
  rw [Json.readRecord_eq_ok_iff proper (by simpa using differ)
    (List.pairwise_pair.mpr (Field.independent read set read' set' pair.apart))]
  refine or_congr (exists_congr fun ms => and_congr_right ?_)
    (exists_congr fun vs => and_congr_right ?_)
  · rintro rfl
    exact pair.fill_eq_ok_iff (fun v hv => reads v (proper.of_member? hv))
      (fun v hv => reads' v (proper.of_member? hv)) old x old' y
  · rintro rfl
    exact and_congr_right' (pair.fill_eq_ok_iff (fun v hv => reads v (proper.of_getElem? hv))
      (fun v hv => reads' v (proper.of_getElem? hv)) old x old' y)

end Pair

/-! ### Scalars -/

theorem asBool_eq_ok_iff {x : Bool} : v.asBool = .ok x ↔ WritesBool v x := by
  cases v <;> simp [asBool, WritesBool]

theorem asUInt64_eq_ok_iff (proper : v.Proper) {n : UInt64} :
    v.asUInt64 = .ok n ↔ WritesUInt64 v n := by
  cases proper with
  | @int i below =>
    rw [asUInt64, WritesUInt64, Json.int.injEq]
    split
    · next hi =>
      exact iff_of_false (fun h => by cases h) fun h => by omega
    · next hi =>
      have hlt : i.toNat < UInt64.size := by omega
      rw [Except.ok.injEq, ← UInt64.toNat_inj, UInt64.toNat_ofNat_of_lt' hlt]
      omega
  | null | bool | real | text | array | object => simp [asUInt64, WritesUInt64]

end Json

/-! ### Records -/

namespace Firing

theorem fill_eq_ok_iff (given : Option Json) (f : Firing) :
    fill (jsonFields.zip [given]) {} = .ok f ↔ Gives WritesBool false given f.traceRedirects := by
  have htrace : fill (jsonFields.zip [given]) {} = .ok f ↔
      ∃ x, Gives WritesBool false given x ∧ fill [] (Firing.mk x) = .ok f :=
    fill_cons_eq_ok_iff asBool (fun x (_ : Firing) => ⟨x⟩) false rfl given fun _ _ _ => asBool_eq_ok_iff
  refine htrace.trans ⟨?_, fun h => ⟨f.traceRedirects, h, rfl⟩⟩
  rintro ⟨x, hx, ⟨⟩⟩
  exact hx

/-- Firing settings are read by their grammar. -/
theorem ofJson_eq_ok_iff {v : Json} (proper : v.Proper) (f : Firing) :
    ofJson v = .ok f ↔ Writes v f := by
  have free : jsonFields.Pairwise Field.Independent := List.pairwise_singleton _ _
  rw [ofJson, readRecord_eq_ok_iff proper (by decide) free]
  constructor
  · rintro (⟨ms, rfl, h⟩ | ⟨vs, rfl, short, h⟩)
    · exact .object ((fill_eq_ok_iff _ f).mp h)
    · exact .array short ((fill_eq_ok_iff _ f).mp h)
  · rintro (⟨trace⟩ | ⟨short, trace⟩)
    · exact Or.inl ⟨_, rfl, (fill_eq_ok_iff _ f).mpr trace⟩
    · exact Or.inr ⟨_, rfl, short, (fill_eq_ok_iff _ f).mpr trace⟩

end Firing

namespace Linking

theorem pair : Pair Linking.mk (fun x l => { l with rejectSelfLoops := x })
    (fun n l => { l with maxJumpDistance := n }) where
  set_mk _ _ _ := rfl
  set_mk' _ _ _ := rfl
  apart _ _ _ := rfl
  mk_inj := Linking.mk.inj

/-- Linking settings are read by their grammar. -/
theorem ofJson_eq_ok_iff {v : Json} (proper : v.Proper) (l : Linking) :
    ofJson v = .ok l ↔ Writes v l := by
  refine (pair.readRecord_eq_ok_iff "LinkingConfig" proper (by decide) (fun _ _ _ => asBool_eq_ok_iff)
    (fun _ hv _ => asUInt64_eq_ok_iff hv) true l.rejectSelfLoops 2147483647 l.maxJumpDistance).trans ?_
  constructor
  · rintro (⟨ms, rfl, reject, distance⟩ | ⟨vs, rfl, short, reject, distance⟩)
    · exact .object reject distance
    · exact .array short reject distance
  · rintro (⟨reject, distance⟩ | ⟨short, reject, distance⟩)
    · exact Or.inl ⟨_, rfl, reject, distance⟩
    · exact Or.inr ⟨_, rfl, short, reject, distance⟩

end Linking

namespace Settings

theorem pair :
    Pair Settings.mk (fun f s => { s with firing := f }) (fun l s => { s with linking := l }) where
  set_mk _ _ _ := rfl
  set_mk' _ _ _ := rfl
  apart _ _ _ := rfl
  mk_inj := Settings.mk.inj

/-- Settings are read by their grammar. -/
theorem ofJson_eq_ok_iff {v : Json} (proper : v.Proper) (s : Settings) :
    ofJson v = .ok s ↔ Writes v s := by
  refine (pair.readRecord_eq_ok_iff "WatchpointConfig" proper (by decide)
    (fun _ hv => Firing.ofJson_eq_ok_iff hv) (fun _ hv => Linking.ofJson_eq_ok_iff hv)
    ⟨false⟩ s.firing ⟨true, 2147483647⟩ s.linking).trans ?_
  constructor
  · rintro (⟨ms, rfl, firing, linking⟩ | ⟨vs, rfl, short, firing, linking⟩)
    · exact .object firing linking
    · exact .array short firing linking
  · rintro (⟨firing, linking⟩ | ⟨short, firing, linking⟩)
    · exact Or.inl ⟨_, rfl, firing, linking⟩
    · exact Or.inr ⟨_, rfl, short, firing, linking⟩

end Settings

/-! ### Unknown members -/

namespace Json

variable {α : Type} {fields : List (Field α)} {ms : List (String × Json)} {v w : Json} {name : String}

/-- A member that belongs to no field is passed over, wherever it stands. -/
theorem readMembers_of_unknown (unknown : name ∉ fields.map Prod.fst)
    (before behind : List (String × Json))
    (a : α) : readMembers fields (before ++ (name, v) :: behind) a =
    readMembers fields (before ++ behind) a := by
  induction before generalizing a with
  | nil =>
    have hnone : fields.find? (fun f => f.1 == name) = none := by
      rw [List.find?_eq_none]
      intro f hf he
      exact unknown (List.mem_map.mpr ⟨f, hf, by simpa using he⟩)
    rw [List.nil_append, readMembers, hnone, List.nil_append]
  | cons m before ih =>
    simp only [List.cons_append, readMembers, ih]

/-- A member may be replaced by another that is read just so. -/
theorem readMembers_congr (same : ∀ f ∈ fields, f.1 = name → f.2 v = f.2 w)
    (before behind : List (String × Json)) (a : α) :
    readMembers fields (before ++ (name, v) :: behind) a =
    readMembers fields (before ++ (name, w) :: behind) a := by
  induction before generalizing a with
  | nil =>
    simp only [List.nil_append, readMembers]
    split
    · next f hf =>
      rw [same f (List.mem_of_find?_eq_some hf) (by simpa using List.find?_some hf)]
    · rfl
  | cons m before ih =>
    simp only [List.cons_append, readMembers, ih]

/-- A record is read the same with one more member that it does not know. -/
theorem readRecord_of_adds (record : String) (fields : List (Field α))
    (h : Adds (fields.map Prod.fst) v w)
    (a : α) : w.readRecord record fields a = v.readRecord record fields a := by
  cases h with
  | member x unknown => exact readMembers_of_unknown unknown _ _ a

end Json

namespace Firing

theorem ofJson_of_adds {v w : Json} (h : Adds ["trace_redirects"] v w) : ofJson w = ofJson v :=
  readRecord_of_adds _ jsonFields h _

end Firing

namespace Linking

theorem ofJson_of_adds {v w : Json} (h : Adds ["reject_self_loops", "max_jump_distance"] v w) :
    ofJson w = ofJson v := readRecord_of_adds _ jsonFields h _

end Linking

namespace Settings

/-- Settings are read the same, and refused the same, with one more member that is unknown. -/
theorem ofJson_of_addsUnknown {v w : Json} (h : AddsUnknown v w) : ofJson w = ofJson v := by
  cases h with
  | here h => exact readRecord_of_adds _ jsonFields h _
  | @firingMember before behind v w h =>
    have hsame : ∀ f ∈ jsonFields, f.1 = "firing" → f.2 w = f.2 v := by
      simp [jsonFields, Firing.ofJson_of_adds h]
    exact readMembers_congr hsame before behind _
  | @linkingMember before behind v w h =>
    have hsame : ∀ f ∈ jsonFields, f.1 = "linking" → f.2 w = f.2 v := by
      simp [jsonFields, Linking.ofJson_of_adds h]
    exact readMembers_congr hsame before behind _
  | firingElement h => simp [ofJson, readRecord, readElements, jsonFields, Firing.ofJson_of_adds h]
  | linkingElement h => simp [ofJson, readRecord, readElements, jsonFields, Linking.ofJson_of_adds h]

end Settings

/-! ### Reading back -/

namespace Json

/-- A member that may have been removed leaves its value in the record. -/
theorem readMembers_of_kept {α : Type} {fields : List (Field α)} {f : Field α} {name : String}
    {v : Json}
    {isDefault : Prop} {ms : List (String × Json)} {a b : α} (h : Kept name v isDefault ms)
    (found : fields.find? (fun f => f.1 == name) = some f) (reads : f.2 v a = .ok b)
    (same : isDefault → b = a)
    (ns : List (String × Json)) : readMembers fields (ms ++ ns) a = readMembers fields ns b := by
  cases h with
  | kept =>
    rw [List.singleton_append, readMembers, found]
    simp only [reads]
    rfl
  | removed isd =>
    rw [List.nil_append, same isd]

theorem asUInt64_toNat (n : UInt64) : (int n.toNat).asUInt64 = .ok n := by
  simp [asUInt64]

end Json

namespace Firing

theorem objectForm_toJson (f : Firing) : f.ObjectForm f.toJson := .members .kept

theorem ofJson_of_objectForm {f : Firing} {v : Json} (h : f.ObjectForm v) : ofJson v = .ok f := by
  obtain @⟨ms, trace⟩ := h
  calc readMembers jsonFields ms {}
      = readMembers jsonFields (ms ++ []) {} := by rw [List.append_nil]
    _ = readMembers jsonFields [] f :=
      readMembers_of_kept trace rfl rfl (fun h => congrArg Firing.mk h) []
    _ = .ok f := rfl

end Firing

namespace Linking

theorem objectForm_toJson (l : Linking) : l.ObjectForm l.toJson := .members .kept .kept

theorem ofJson_of_objectForm {l : Linking} {v : Json} (h : l.ObjectForm v) : ofJson v = .ok l := by
  obtain @⟨ms, ns, distance, reject⟩ := h
  have hread : (jsonFields[1].2 (.int l.maxJumpDistance.toNat) {} : Except String Linking) =
      .ok ⟨true, l.maxJumpDistance⟩ := by
    simp only [jsonFields, List.getElem_cons_succ, List.getElem_cons_zero, asUInt64_toNat]
    rfl
  calc readMembers jsonFields (ms ++ ns) {}
      = readMembers jsonFields ns ⟨true, l.maxJumpDistance⟩ :=
        readMembers_of_kept distance rfl hread (fun h => congrArg (Linking.mk true) h) ns
    _ = readMembers jsonFields (ns ++ []) ⟨true, l.maxJumpDistance⟩ := by rw [List.append_nil]
    _ = readMembers jsonFields [] l :=
        readMembers_of_kept reject rfl rfl (fun h => congrArg (Linking.mk · l.maxJumpDistance) h) []
    _ = .ok l := rfl

end Linking

namespace Settings

theorem objectForm_toJson (s : Settings) : s.ObjectForm s.toJson :=
  .members s.firing.objectForm_toJson s.linking.objectForm_toJson .kept .kept

theorem ofJson_of_objectForm {s : Settings} {v : Json} (h : s.ObjectForm v) : ofJson v = .ok s := by
  obtain @⟨ms, ns, v, w, firingForm, linkingForm, firing, linking⟩ := h
  have hfiring : (jsonFields[0].2 v {} : Except String Settings) = .ok ⟨s.firing, {}⟩ := by
    simp only [jsonFields, List.getElem_cons_zero, Firing.ofJson_of_objectForm firingForm]
    rfl
  have hlinking : jsonFields[1].2 w ⟨s.firing, {}⟩ = .ok s := by
    simp only [jsonFields, List.getElem_cons_succ, List.getElem_cons_zero,
      Linking.ofJson_of_objectForm linkingForm]
    rfl
  calc readMembers jsonFields (ms ++ ns) {}
      = readMembers jsonFields ns ⟨s.firing, {}⟩ :=
        readMembers_of_kept firing rfl hfiring (fun h => congrArg (Settings.mk · {}) h) ns
    _ = readMembers jsonFields (ns ++ []) ⟨s.firing, {}⟩ := by rw [List.append_nil]
    _ = readMembers jsonFields [] s :=
        readMembers_of_kept linking rfl hlinking (fun h => congrArg (Settings.mk s.firing) h) []
    _ = .ok s := rfl

theorem ofJson_toElements (s : Settings) : ofJson s.toElements = .ok s := by
  have hlinking : Linking.ofJson
      (.array [.bool s.linking.rejectSelfLoops, .int s.linking.maxJumpDistance.toNat]) =
        .ok s.linking := by
    simp only [Linking.ofJson, readRecord, readElements, Linking.jsonFields, asUInt64_toNat]
    rfl
  simp only [toElements, ofJson, readRecord, readElements, jsonFields, hlinking]
  rfl

theorem readsBack (s : Settings) : s.ReadsBack where
  whole := ofJson_of_objectForm s.objectForm_toJson
  elements := s.ofJson_toElements
  abridged _ := ofJson_of_objectForm

theorem readsByGrammar {v : Json} (proper : v.Proper) : ReadsByGrammar v where
  accepted := exists_congr (ofJson_eq_ok_iff proper)
  read := ofJson_eq_ok_iff proper
  unknown _ := ofJson_of_addsUnknown

/-- No JSON text holds a value on which the reader and the grammar differ. -/
theorem readsByGrammar_of_parse? {text : String} {v : Json} (h : parse? text = some v) :
    ReadsByGrammar v :=
  readsByGrammar (proper_of_parse? h)

/-- Settings in JSON are just what the grammar says, and none get lost in any of their forms. -/
theorem json_form_is_its_grammar {v : Json} (proper : v.Proper) (s : Settings) :
    ReadsByGrammar v ∧ s.ReadsBack := ⟨readsByGrammar proper, s.readsBack⟩

theorem json_form_is_its_grammar_mixedForms :
    let v : Json := .object [("extra", .array [.null]), ("firing", .array [.bool true]),
      ("linking", .object [("max_jump_distance", .int 18446744073709551615), ("note", .text "x")])]
    v.Proper ∧ ofJson v = .ok ⟨⟨true⟩, ⟨true, 18446744073709551615⟩⟩ ∧ ReadsByGrammar v ∧
      ReadsBack ⟨⟨true⟩, ⟨true, 18446744073709551615⟩⟩ := by
  have hlinking :
    Proper (.object [("max_jump_distance", .int 18446744073709551615), ("note", .text "x")]) :=
    .object (by decide) (by simp [Proper.text, Proper.int])
  have hfiring : Proper (.array [.bool true]) := .array (by simp [Proper.bool])
  have hextra : Proper (.array [.null]) := .array (by simp [Proper.null])
  have hproper : Proper (.object [("extra", .array [.null]), ("firing", .array [.bool true]),
      ("linking", .object [("max_jump_distance", .int 18446744073709551615), ("note", .text "x")])]) :=
    .object (by decide) (by simp [hextra, hfiring, hlinking])
  exact ⟨hproper, rfl, json_form_is_its_grammar hproper _⟩

end Settings

end Invalidation
