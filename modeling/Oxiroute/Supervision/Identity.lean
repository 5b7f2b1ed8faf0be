import Mathlib.Order.Basic

/-!
# Identities

Model of `oxiroute-supervision/src/identity.rs`. A string identity carries the checks of
`validate_identifier` and the byte bound of `BoundedString` as a field, so an invalid one cannot
be built. The numeric identities (`GenerationId`, `RequestId`, `Epoch`) are newtypes around `u64`.
-/

namespace Oxiroute.Supervision

def maxIdentifierBytes : Nat := 128

/-- ASCII letters and digits, `-`, `_` and `.`. -/
def isIdentifierChar (c : Char) : Bool :=
  c.isAlphanum || c == '-' || c == '_' || c == '.'

/-- `validate_identifier` followed by the bound of `BoundedString::<MAX_IDENTIFIER_BYTES>`. -/
def validIdentifier (value : String) : Bool :=
  !value.isEmpty && value.toList.all isIdentifierChar &&
    decide (value.utf8ByteSize ≤ maxIdentifierBytes)

/-- `InstanceId`: a unique runtime service instance identifier. -/
structure InstanceId where
  value : String
  valid : validIdentifier value = true
  deriving DecidableEq

/-- `GenerationId(u64)`. -/
abbrev GenerationId := UInt64

/-- `RequestId(u64)`. -/
abbrev RequestId := UInt64

/-- `Epoch(u64)`: a caller-defined monotonic time epoch. -/
abbrev Epoch := UInt64

end Oxiroute.Supervision
