import Invalidation.Text.Shown

/-! The two flags of an assumption, whether they are kept in a slot or in a set.

        clear ──watch──▶ watched ──break──▶ broken

    The flags change in one direction only: what has been broken stays so, and nobody stops watching an
    assumption but by breaking it. -/

namespace Invalidation

/-- The two flags of an assumption: somebody watches it, and it has been broken. -/
structure Flags where
  watched : Bool := false
  invalidated : Bool := false
  deriving DecidableEq, Inhabited

namespace Flags

/-- The names of the flags that are set, `WATCHED | INVALIDATED`, or `0x0` if none is. -/
def text (f : Flags) : String :=
  match f.watched, f.invalidated with
  | false, false => "0x0"
  | true, false => "WATCHED"
  | false, true => "INVALIDATED"
  | true, true => "WATCHED | INVALIDATED"

/-- The flags with their type named. -/
def shown (f : Flags) : Shown := .tuple "ThinFlags" [.atom f.text]

/-- The flags of an assumption that has been broken and that nobody watches any more. -/
def broken : Flags := ⟨false, true⟩

/-! ### What becomes of flags -/

/-- What the flags of an assumption may become: one that has been broken stays broken, and one that was
    watched is watched still or has been broken. -/
def MayBecome (f g : Flags) : Prop :=
  (f.invalidated = true → g.invalidated = true) ∧
    (f.watched = true → g.watched = true ∨ g.invalidated = true)

theorem MayBecome.refl (f : Flags) : f.MayBecome f := ⟨id, Or.inl⟩

theorem MayBecome.trans {f g h : Flags} (hfg : f.MayBecome g) (hgh : g.MayBecome h) : f.MayBecome h :=
  ⟨fun hf => hgh.1 (hfg.1 hf), fun hf => (hfg.2 hf).elim hgh.2 fun hg => Or.inr (hgh.1 hg)⟩

theorem mayBecome_watched (f : Flags) : f.MayBecome { f with watched := true } :=
  ⟨id, fun _ => Or.inl rfl⟩

theorem mayBecome_broken (f : Flags) : f.MayBecome .broken := ⟨fun _ => rfl, fun _ => Or.inr rfl⟩

end Flags

end Invalidation
