import Invalidation.Code.Link
import Invalidation.Store

/-! Link buffers: what the labels of finished code stand for. A buffer answers every label with an
    address, with a refusal, or by failing outright.

        label ──▶ base + label              while label < size
        label ──▶ what a table holds        nothing else is known -/

namespace Invalidation

/-- What the labels of finished code stand for. -/
inductive LinkBuffer where
  /-- Code of `size` bytes from `base` on, whose addresses start over at `2 ^ 64`. -/
  | wrapping (base : Address) (size : Nat)
  /-- Code of `size` bytes from `base` on; an address of `2 ^ 64` or more cannot be formed. -/
  | offset (base : Address) (size : Nat)
  /-- A table from labels to addresses, or to a reason why there is none. -/
  | table (entries : Store Label (Except String Address))

instance : Inhabited LinkBuffer := ⟨.table {}⟩

/-- The answer of a link buffer to a label. -/
inductive LabelAnswer where
  | found (address : Address)
  | refused (failure : LinkFailure)
  | failed (message : String)
  deriving DecidableEq

namespace LinkBuffer

/-- The buffer that stands for the finished code of a test: 4096 bytes from `0x1000` on. -/
def standard : LinkBuffer := .offset (.ofNat 0x1000) 4096

/-- The address of a label in the finished code of a test, whether or not the label is part of it. -/
def standardAddress (l : Label) : Address := .ofNat (0x1000 + l.offset.toNat)

/-- The answer to a label that the buffer does not know. -/
def unknown (l : Label) : LabelAnswer := .refused (.link (.unknownLabel l))

/-- A buffer with a table of addresses; of two entries for one label the later counts. -/
def ofEntries (entries : List (Label × Except String Address)) : LinkBuffer :=
  .table (entries.foldl (fun t e => t.put e.1 e.2) {})

/-- What the buffer answers to a label. -/
def locate : LinkBuffer → Label → LabelAnswer
  | .wrapping base size, l =>
    if l.offset.toNat < size then .found (.ofNat (base.toNat + l.offset.toNat)) else unknown l
  | .offset base size, l =>
    if l.offset.toNat ≥ size then unknown l
    else if base.toNat + l.offset.toNat ≥ UInt64.size then .failed "attempt to add with overflow"
    else .found (.ofNat (base.toNat + l.offset.toNat))
  | .table entries, l =>
    match entries.get? l with
    | some (.ok a) => .found a
    | some (.error reason) => .refused (.invalidSettings reason)
    | none => unknown l

end LinkBuffer

end Invalidation
