/-!
# Options of a cursor

The options fix how the integer reads treat values that do not fit a narrow type and what may
stand before a hexadecimal number.
-/

namespace ByteCursor

/-- How the signed 16-bit and 8-bit reads decide whether a 32-bit value fits. -/
inductive Narrowing where
  /-- The value must lie in the range of the narrow type. -/
  | strict
  /-- Every 32-bit value fits: its high bits are dropped. -/
  | permissive
  deriving DecidableEq, Repr

/-- The switches of a cursor. -/
structure Options where
  /-- What the signed narrow reads accept. -/
  narrowing : Narrowing := .strict
  /-- Skip the spaces before a hexadecimal number. -/
  hexTrimSpaces : Bool := true
  /-- Skip one `0x` before a hexadecimal number. -/
  hexPrefix : Bool := true
  deriving DecidableEq, Repr

instance : Inhabited Options := ⟨{}⟩

end ByteCursor
