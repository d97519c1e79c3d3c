import WhatStore.Text.Strings

/-!
# Strings as code units

The language's own strings: their lengths and slices count 16-bit code units, and
a slice may end inside of a pair of them.
-/

namespace WhatStore.Text

abbrev Units := List UInt16

/-- The code unit of a character of the basic plane. -/
def unit (c : Char) : UInt16 := c.toNat.toUInt16

/-- A literal whose characters are of the basic plane. -/
def unitsOf (s : String) : Units := s.toList.map unit

/-- Units of a text are tried one by one, not among all that there are. -/
instance (priority := high) decidableUnits (p : UInt16 → Prop) [DecidablePred p] (text : Units) :
    Decidable (∀ u ∈ text, p u) :=
  List.decidableBAll p text

/-- `\s`. What is no character alone is no white space. -/
def isSpaceUnit (u : UInt16) : Bool := isWhiteSpace (Char.ofNat u.toNat)

/-- `value.replace(/\s+/g, ' ')`. -/
def collapse : Units → Units
  | [] => []
  | u :: rest =>
      if isSpaceUnit u then
        if rest.head?.any isSpaceUnit then collapse rest else unit ' ' :: collapse rest
      else u :: collapse rest

/-- `value.trim()`. -/
def trimUnits (value : Units) : Units :=
  ((value.dropWhile isSpaceUnit).reverse.dropWhile isSpaceUnit).reverse

/-! ## Percent escapes -/

def hexUnitValue (u : UInt16) : Option UInt8 :=
  if unit '0' ≤ u ∧ u ≤ unit '9' then some (u - unit '0').toUInt8
  else if unit 'a' ≤ u ∧ u ≤ unit 'f' then some ((u - unit 'a').toUInt8 + 10)
  else if unit 'A' ≤ u ∧ u ≤ unit 'F' then some ((u - unit 'A').toUInt8 + 10)
  else none

def escapedByte : Units → Option (UInt8 × Units)
  | percent :: high :: low :: rest => do
      if percent ≠ unit '%' then none
      let high ← hexUnitValue high
      let low ← hexUnitValue low
      some (16 * high + low, rest)
  | _ => none

/-- The bytes that have to follow a first byte, with the bits it brings and the least
code point that needs so many. -/
def leadingByte (byte : UInt8) : Option (ℕ × ℕ × ℕ) :=
  if byte < 0x80 then some (0, byte.toNat, 0)
  else if 0xC0 ≤ byte ∧ byte < 0xE0 then some (1, byte.toNat % 0x20, 0x80)
  else if 0xE0 ≤ byte ∧ byte < 0xF0 then some (2, byte.toNat % 0x10, 0x800)
  else if 0xF0 ≤ byte ∧ byte < 0xF8 then some (3, byte.toNat % 0x08, 0x10000)
  else none

def continuation : ℕ → ℕ → Units → Option (ℕ × Units)
  | 0, point, rest => some (point, rest)
  | n + 1, point, text => do
      let (byte, rest) ← escapedByte text
      if 0x80 ≤ byte ∧ byte < 0xC0 then continuation n (64 * point + byte.toNat % 64) rest else none

/-- One unit, or two for a code point beyond the basic plane. -/
def utf16 (point : ℕ) : Units :=
  if point < 0x10000 then [point.toUInt16]
  else [(0xD800 + (point - 0x10000) / 0x400).toUInt16, (0xDC00 + point % 0x400).toUInt16]

/-- An escaped code point in as few bytes as it needs, and how many units it takes. -/
def escapedPoint (text : Units) : Option (Units × ℕ) := do
  let (byte, rest) ← escapedByte text
  let (count, bits, least) ← leadingByte byte
  let (point, _) ← continuation count bits rest
  if least ≤ point ∧ point < 0x110000 ∧ ¬ (0xD800 ≤ point ∧ point < 0xE000) then
    some (utf16 point, 3 * count + 3)
  else none

/-- The text behind the units that an escape has taken. -/
def decodeUriFrom : ℕ → Units → Option Units
  | _, [] => some []
  | taken + 1, _ :: rest => decodeUriFrom taken rest
  | 0, u :: rest =>
      if u = unit '%' then do
        let (point, length) ← escapedPoint (u :: rest)
        let decoded ← decodeUriFrom (length - 1) rest
        some (point ++ decoded)
      else (decodeUriFrom 0 rest).map fun decoded => u :: decoded

/-- `decodeURIComponent(text)`, which throws where an escape is malformed. -/
def decodeURIComponent (text : Units) : Option Units := decodeUriFrom 0 text

example : decodeURIComponent (unitsOf "ma%C3%B1ana") = some (unitsOf "mañana") ∧
    decodeURIComponent (unitsOf "100%") = none := by decide +kernel

end WhatStore.Text
