/-! Where code is: a *label* while the code is still being emitted, an *address* once it has been
    laid out. A location starts as a label and becomes an address when its code is linked.

        label+7  ──link──▶  0x1f40 -/

namespace Invalidation

/-- Offset of a label in code that is still being emitted. -/
structure Label where
  offset : UInt32
  deriving DecidableEq, Inhabited

/-- Concrete address of an instruction in executable memory. -/
structure Address where
  value : UInt64
  deriving DecidableEq, Inhabited

/-- Where a watchpoint jumps from or to. -/
inductive Location where
  | label (label : Label)
  | address (address : Address)
  deriving DecidableEq, Inhabited

namespace Label

/-- A label reads `label+7`. -/
def text (l : Label) : String := "label+" ++ toString l.offset.toNat

/-- Labels compare by their offset. -/
def order (a b : Label) : Ordering := compare a.offset.toNat b.offset.toNat

end Label

namespace Address

/-- The address as a natural number, below `2 ^ 64`. -/
def toNat (a : Address) : Nat := a.value.toNat

/-- The address `n`, taken modulo `2 ^ 64`. -/
def ofNat (n : Nat) : Address := ⟨UInt64.ofNat n⟩

/-- An address reads as its lower-case hexadecimal digits, `0x1f40`. -/
def text (a : Address) : String := "0x" ++ String.ofList (Nat.toDigits 16 a.toNat)

/-- Addresses compare by their unsigned value. -/
def order (a b : Address) : Ordering := compare a.toNat b.toNat

/-- The exact number of bytes between two addresses, whichever comes first. -/
def distance (a b : Address) : Nat := (a.toNat - b.toNat) + (b.toNat - a.toNat)

end Address

namespace Location

/-- The address, once there is one. -/
def address? : Location → Option Address
  | .address a => some a
  | .label _ => none

/-- The label, as long as there is no address. -/
def label? : Location → Option Label
  | .label l => some l
  | .address _ => none

/-- Whether the location has become an address. -/
def isResolved (l : Location) : Bool := l.address?.isSome

/-- A location reads as the label or address that it is. -/
def text : Location → String
  | .label l => l.text
  | .address a => a.text

/-- Two locations of one form compare by value; a label and an address do not compare. -/
def order? : Location → Location → Option Ordering
  | .label a, .label b => some (a.order b)
  | .address a, .address b => some (a.order b)
  | _, _ => none

end Location

end Invalidation
