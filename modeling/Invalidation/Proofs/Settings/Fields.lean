import Invalidation.Proofs.Settings.Merging
import Invalidation.Settings.Load

/-! The fields of the settings, and where a tree has them. Each field is a single value in the table of
    its part; settings that are written as a tree are read back from it as they were.

        firing.trace_redirects      linking.reject_self_loops      linking.max_jump_distance

    Values for some of the fields are laid over settings field by field. -/

namespace Invalidation

namespace Settings

/-! ### The fields -/

/-- The fields of the settings. -/
inductive Field where
  | traceRedirects
  | rejectSelfLoops
  | maxJumpDistance
  deriving DecidableEq

namespace Field

/-- The part of the settings that has the field. -/
def part : Field → String
  | .traceRedirects => "firing"
  | .rejectSelfLoops | .maxJumpDistance => "linking"

/-- The name of the field in its part. -/
def name : Field → String
  | .traceRedirects => "trace_redirects"
  | .rejectSelfLoops => "reject_self_loops"
  | .maxJumpDistance => "max_jump_distance"

/-- The value that settings have in the field. -/
def scalar : Field → Settings → Scalar
  | .traceRedirects, s => .bool s.firing.traceRedirects
  | .rejectSelfLoops, s => .bool s.linking.rejectSelfLoops
  | .maxJumpDistance, s => .int s.linking.maxJumpDistance.toNat

theorem lowercase_part (f : Field) : Text.lowercase f.part = f.part := by cases f <;> decide

theorem lowercase_name (f : Field) : Text.lowercase f.name = f.name := by cases f <;> decide

theorem ofKey_part (f : Field) : KeyPath.ofKey f.part = ⟨f.part, []⟩ := by cases f <;> decide

theorem ascii_part (f : Field) : ∀ c ∈ f.part.toList, c.toNat < 128 := by
  have hall : f.part.toList.all (fun c => c.toNat < 128) = true := by cases f <;> rfl
  simpa using hall

/-- A part has no two fields of one name. -/
theorem eq_of_part_of_name {f g : Field} (part : f.part = g.part) (name : f.name = g.name) : f = g := by
  cases f <;> cases g <;> simp_all [Field.part, Field.name]

end Field

/-- The settings can be laid under others: the distance is one that a layer can hold. -/
def Fits (s : Settings) : Prop := s.linking.maxJumpDistance.toNat < Nat.pow 2 63

instance : DecidablePred Fits := fun _ => inferInstanceAs (Decidable (_ < _))

/-! ### Some of the fields -/

/-- Values for some of the fields. -/
structure Overlay where
  traceRedirects : Option Bool := none
  rejectSelfLoops : Option Bool := none
  maxJumpDistance : Option UInt64 := none
  deriving DecidableEq

namespace Overlay

/-- The settings with the values that there are, and otherwise as they were. -/
def on (g : Overlay) (s : Settings) : Settings where
  firing := { traceRedirects := g.traceRedirects.getD s.firing.traceRedirects }
  linking := {
    rejectSelfLoops := g.rejectSelfLoops.getD s.linking.rejectSelfLoops
    maxJumpDistance := g.maxJumpDistance.getD s.linking.maxJumpDistance }

/-- The values of the first, and where it has none, those of the second. -/
def or (g h : Overlay) : Overlay where
  traceRedirects := g.traceRedirects.or h.traceRedirects
  rejectSelfLoops := g.rejectSelfLoops.or h.rejectSelfLoops
  maxJumpDistance := g.maxJumpDistance.or h.maxJumpDistance

/-- The value for a field, if there is one. -/
def scalar? (g : Overlay) : Field → Option Scalar
  | .traceRedirects => g.traceRedirects.map .bool
  | .rejectSelfLoops => g.rejectSelfLoops.map .bool
  | .maxJumpDistance => g.maxJumpDistance.map fun n => .int n.toNat

/-- To lay the same values over settings twice is to do so once. -/
theorem on_on (g : Overlay) (s : Settings) : g.on (g.on s) = g.on s := by
  simp only [on, Settings.mk.injEq, Firing.mk.injEq, Linking.mk.injEq]
  refine ⟨?_, ?_, ?_⟩
  · cases g.traceRedirects <;> rfl
  · cases g.rejectSelfLoops <;> rfl
  · cases g.maxJumpDistance <;> rfl

theorem scalar_on (g : Overlay) (s : Settings) (f : Field) :
    f.scalar (g.on s) = (g.scalar? f).getD (f.scalar s) := by
  cases f with
  | traceRedirects => cases h : g.traceRedirects <;> simp [Field.scalar, on, scalar?, h]
  | rejectSelfLoops => cases h : g.rejectSelfLoops <;> simp [Field.scalar, on, scalar?, h]
  | maxJumpDistance => cases h : g.maxJumpDistance <;> simp [Field.scalar, on, scalar?, h]

theorem scalar?_or (g h : Overlay) (f : Field) :
    (g.or h).scalar? f = (g.scalar? f).or (h.scalar? f) := by
  cases f with
  | traceRedirects => cases hg : g.traceRedirects <;> simp [scalar?, or, hg]
  | rejectSelfLoops => cases hg : g.rejectSelfLoops <;> simp [scalar?, or, hg]
  | maxJumpDistance => cases hg : g.maxJumpDistance <;> simp [scalar?, or, hg]

end Overlay

end Settings

open Settings (Field Overlay)

namespace Tree

variable {f : Field} {x y : Scalar} {t t' : Tree} {m : String × Tree} {layer : List (String × Tree)}

/-- The tree has the value in the field: the part is a table, and the field a single value in it. -/
def Holds (t : Tree) (f : Field) (x : Scalar) : Prop :=
  ∃ o ms, findKey f.part t.members = some (.table o ms) ∧ ∃ o', findKey f.name ms = some (.scalar o' x)

theorem readField_table {α : Type} {part field : String} {place : Nat}
    {read : String → Tree → Except LoadError α} {missing : α} {o : Option String}
    {ms : List (String × Tree)} (h : findKey field ms = some t) :
    readField part field place read missing (.table o ms) = read (part ++ "." ++ field) t := by
  rw [readField, h]

theorem readField_table_of_none {α : Type} {part field : String} {place : Nat}
    {read : String → Tree → Except LoadError α} {missing : α} {o : Option String}
    {ms : List (String × Tree)} (h : findKey field ms = none) :
    readField part field place read missing (.table o ms) = .ok missing := by
  rw [readField, h]

theorem readField_array {α : Type} {part field : String} {place : Nat}
    {read : String → Tree → Except LoadError α} {missing : α} {o : Option String} {ts : List Tree}
    (h : ts[place]? = some t) :
    readField part field place read missing (.array o ts) =
    read (part ++ "[" ++ toString place ++ "]") t := by
  rw [readField, h]

theorem readField_array_of_none {α : Type} {part field : String} {place : Nat}
    {read : String → Tree → Except LoadError α} {missing : α} {o : Option String} {ts : List Tree}
    (h : ts[place]? = none) : readField part field place read missing (.array o ts) = .ok missing := by
  rw [readField, h]

/-- A part of the settings in a tree, or what stands for it if it is missing. -/
def readPart {α : Type} (part : String) (read : Tree → Except LoadError α) (missing : α) (t : Tree) :
    Except LoadError α :=
  match findKey part t.members with
  | some u => read u
  | none => .ok missing

theorem readPart_of_some {α : Type} {part : String} {read : Tree → Except LoadError α} {missing : α}
    {u : Tree} (h : findKey part t.members = some u) : readPart part read missing t = read u := by
  rw [readPart, h]

theorem readPart_of_none {α : Type} {part : String} {read : Tree → Except LoadError α} {missing : α}
    (h : findKey part t.members = none) : readPart part read missing t = .ok missing := by
  rw [readPart, h]

theorem readBool_bool (key : String) (o : Option String) (b : Bool) :
    readBool key (.scalar o (.bool b)) = .ok b := rfl

theorem readUInt64_toNat (key : String) (o : Option String) (n : UInt64) :
    readUInt64 key (.scalar o (.int n.toNat)) = .ok n := by
  have hread : (Scalar.int n.toNat).asUInt64 = .ok n := by
    rw [Scalar.asUInt64, if_neg (Int.not_lt.mpr (Int.natCast_nonneg _)), Int.toNat_natCast,
      UInt64.ofNat_toNat]
  rw [readUInt64, hread]

end Tree

/-! ### Settings as a tree -/

namespace Settings

variable {s : Settings} {t : Tree}

theorem toTree?_of_not_fits (h : ¬ s.Fits) :
    s.toTree? = .error (.tooGreat s.linking.maxJumpDistance.toNat) := if_neg h

/-- Settings that fit are written as a tree that holds each of their fields. -/
theorem exists_toTree? (h : s.Fits) : ∃ t, s.toTree? = .ok t ∧ ∀ f, t.Holds f (f.scalar s) := by
  refine ⟨_, if_pos h, fun f => ?_⟩
  cases f <;> exact ⟨_, _, rfl, none, rfl⟩

/-- Settings are read part by part. -/
theorem ofTree_eq (t : Tree) : ofTree t = do
    return ⟨← t.readPart "firing" Firing.ofTree {}, ← t.readPart "linking" Linking.ofTree {}⟩ := by
  rw [ofTree, Tree.readPart, Tree.readPart]
  cases Tree.findKey "firing" t.members <;> cases Tree.findKey "linking" t.members <;> rfl

/-- A tree that holds the fields of some settings is read as these settings. -/
theorem ofTree_of_holds (h : ∀ f, t.Holds f (f.scalar s)) : ofTree t = .ok s := by
  obtain ⟨o, ms, hfiring, o₁, htrace⟩ := h .traceRedirects
  obtain ⟨o', ms', hlinking, o₂, hreject⟩ := h .rejectSelfLoops
  obtain ⟨o'', ms'', hlinking', o₃, hmax⟩ := h .maxJumpDistance
  obtain ⟨rfl, rfl⟩ : o' = o'' ∧ ms' = ms'' := by
    simpa [Field.part] using hlinking.symm.trans hlinking'
  simp only [Field.part, Field.name, Field.scalar] at hfiring htrace hlinking hreject hmax
  have hfire : Firing.ofTree (.table o ms) = .ok s.firing := by
    rw [Firing.ofTree, Tree.readField_table htrace, Tree.readBool_bool]
    rfl
  have hlink : Linking.ofTree (.table o' ms') = .ok s.linking := by
    rw [Linking.ofTree, Tree.readField_table hreject, Tree.readField_table hmax, Tree.readBool_bool,
      Tree.readUInt64_toNat]
    rfl
  rw [ofTree_eq, Tree.readPart_of_some hfiring, Tree.readPart_of_some hlinking, hfire, hlink]
  rfl

end Settings

end Invalidation
