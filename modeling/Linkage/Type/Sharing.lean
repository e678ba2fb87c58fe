import Linkage.Type.Basic

/-!
# Types that share their parts

A type whose parts are shared can have many more parts than were ever stated: twice as many at every
level. Whether two types are equal is decided without looking into parts that are one and the same
object, and `shared` makes equal parts of large types one object. It changes no type. A search that
remembers which parts it has settled then looks into each of them once.
-/

set_option autoImplicit false

namespace Linkage

mutual

/-- What remains of an allowance from which each part of a type takes one, if it suffices. -/
def ItemType.allowance? : ItemType → Nat → Option Nat
  | _, 0 => none
  | .core _, rest + 1 => some rest
  | .inst exports, rest + 1 => ItemType.entriesAllowance? exports rest
  | .module imports exports, rest + 1 =>
      (ItemType.entriesAllowance? imports rest).bind (ItemType.entriesAllowance? exports)

def ItemType.entriesAllowance? : List (Name × ItemType) → Nat → Option Nat
  | [], rest => some rest
  | (_, type) :: others, rest => (type.allowance? rest).bind (ItemType.entriesAllowance? others)

end

namespace ItemType

/-- Whether a type has so many parts that it is worth finding the equal ones. -/
def isLarge (type : ItemType) : Bool := (type.allowance? 1000).isNone

/-- A type in which equal parts are one object. -/
def shared (type : ItemType) : ItemType :=
  if type.isLarge then ShareCommon.shareCommon' type else type

def sharedWith (type other : ItemType) : ItemType × ItemType :=
  if type.isLarge || other.isLarge then ShareCommon.shareCommon' (type, other) else (type, other)

@[simp]
theorem shared_eq (type : ItemType) : type.shared = type := by
  unfold shared
  split <;> rfl

@[simp]
theorem sharedWith_eq (type other : ItemType) : type.sharedWith other = (type, other) := by
  unfold sharedWith
  split <;> rfl

end ItemType

end Linkage
