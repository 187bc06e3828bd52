import KeyRegistry.Json.Reader

/-!
# Numbers in JSON

A whole number of at most 64 bits is kept as it is; every other number becomes a double. The
digits that still fit into 64 bits make up a significand, and the further digits count for its
power of ten only.

Main definitions:

* `Reader.number` — a number behind its sign
* `Reader.skipNumber` — the same without its value
-/

namespace KeyRegistry.Json

/-- A number as it was read. -/
inductive Number where
  | natural (value : UInt64)
  | negative (value : Int)
  | floating (value : Float)

/-- How a message names a number. -/
def Number.found : Number → Found
  | .natural value => .integer value.toNat
  | .negative value => .integer value
  | .floating value => .floating value

/-- The digits that a significand takes up before it passes 64 bits: its value, how many digits
it took, and how many are left over. -/
def gather : Nat → Nat → List Char → Nat × Nat × Nat
  | value, taken, [] => (value, taken, 0)
  | value, taken, c :: rest =>
    let grown := value * 10 + (c.toNat - 48)
    if grown < UInt64.size then gather grown (taken + 1) rest else (value, taken, rest.length + 1)

/-- The value of the digits of an exponent as far as it fits into 31 bits, and the digit that
went beyond with those after it. -/
def gatherExponent : Nat → List Char → Nat × List Char
  | value, [] => (value, [])
  | value, c :: rest =>
    let grown := value * 10 + (c.toNat - 48)
    if grown < 2 ^ 31 then gatherExponent grown rest else (value, c :: rest)

/-- A power of ten as a double. -/
def powerOfTen (exponent : Nat) : Float :=
  Float.ofScientific 1 false exponent

/-- A significand times a power of ten, in steps of at most 308 powers; nothing if it is too
large. -/
def scale? : Nat → Float → Int → Option Float
  | 0, x, _ => some x
  | steps + 1, x, exponent =>
    if exponent.natAbs ≤ 308 then
      if 0 ≤ exponent then
        let y := x * powerOfTen exponent.natAbs
        if y.isInf then none else some y
      else some (x / powerOfTen exponent.natAbs)
    else if x == 0 then some x
    else if 0 ≤ exponent then none
    else scale? steps (x / powerOfTen 308) (exponent + 308)

namespace Reader

/-- A double from its parts. -/
def scaled (positive : Bool) (significand : Nat) (exponent : Int) : Reader Number := do
  match scale? (exponent.natAbs + 1) (Float.ofNat significand) exponent with
  | some x => return .floating (if positive then x else -x)
  | none => failHere .numberTooLarge

/-- Steps over digits and gives them. -/
def digits : Reader (List Char) :=
  takeWhile Char.isDigit

/-- Steps over a sign, if there is one; whether it was not a minus. -/
def exponentSign : Reader Bool := do
  match ← peek with
  | some '+' => do advance; return true
  | some '-' => do advance; return false
  | _ => return true

/-- The exponent part, from its letter on, and with it the number. -/
def exponentPart (positive : Bool) (significand : Nat) (exponent : Int) : Reader Number := do
  advance
  let up ← exponentSign
  match ← peek with
  | none => failHere .endInValue
  | some c =>
    if c.isDigit then do
      let start ← get
      -- digits beyond 31 bits decide between nothing and too much; no double lies there
      let (value, beyond) := gatherExponent 0 (← digits)
      if beyond.isEmpty then
        scaled positive significand (if up then exponent + value else exponent - value)
      else if significand ≠ 0 ∧ up then do
        let read := (start.rest.takeWhile Char.isDigit).length - beyond.length + 1
        failAt { start.position with column := start.position.column + read } .numberTooLarge
      else return .floating (if positive then 0 else -0)
    else failPast .badNumber

/-- What may follow a significand: an exponent part, or nothing. -/
def exponentOrEnd (positive : Bool) (significand : Nat) (exponent : Int) : Reader Number := do
  match ← peek with
  | some 'e' | some 'E' => exponentPart positive significand exponent
  | _ => scaled positive significand exponent

/-- The places behind the point, from the point on, and with them the number. -/
def placesPart (positive : Bool) (significand : Nat) (exponent : Int) : Reader Number := do
  advance
  let places ← digits
  if places.isEmpty then
    match ← peek with
    | none => failHere .endInValue
    | some _ => failPast .badNumber
  else
    let (value, taken, _) := gather significand 0 places
    exponentOrEnd positive value (exponent - taken)

/-- A whole number, from its sign and its value. -/
def whole (positive : Bool) (value : Nat) : Number :=
  if positive then .natural (UInt64.ofNat value)
  -- neither minus zero nor what leaves the range of signed integers is read as one
  else if value = 0 ∨ UInt64.size / 2 < value then .floating (-(Float.ofNat value))
  else .negative (-(value : Int))

/-- What follows the digits before the point. -/
def afterDigits (positive : Bool) (significand left : Nat) : Reader Number := do
  match ← peek with
  | some '.' => placesPart positive significand left
  | some 'e' | some 'E' => exponentPart positive significand left
  | _ => if left = 0 then return whole positive significand else scaled positive significand left

/-- A number, its sign apart. A zero ends the digits before the point. -/
def number (positive : Bool) : Reader Number := do
  match ← peek with
  | none => failHere .endInValue
  | some '0' => do
    advance
    match ← peek with
    | some c => if c.isDigit then failPast .badNumber else afterDigits positive 0 0
    | none => afterDigits positive 0 0
  | some c =>
    if c.isDigit then do
      let (value, _, left) := gather 0 0 (← digits)
      afterDigits positive value left
    else failPast .badNumber

/-- Steps over an exponent part, from its letter on. -/
def skipExponent : Reader Unit := do
  advance
  discard exponentSign
  match ← peek with
  | some c => if c.isDigit then discard digits else failPast .badNumber
  | none => failHere .badNumber

/-- Steps over an exponent part, if there is one. -/
def skipExponentOrEnd : Reader Unit := do
  match ← peek with
  | some 'e' | some 'E' => skipExponent
  | _ => return

/-- Steps over what follows the digits before the point. -/
def skipAfterDigits : Reader Unit := do
  match ← peek with
  | some '.' => do
    advance
    if (← digits).isEmpty then failPast .badNumber else skipExponentOrEnd
  | _ => skipExponentOrEnd

/-- Steps over a number, its sign apart. -/
def skipNumber : Reader Unit := do
  match ← peek with
  | none => failHere .badNumber
  | some '0' => do
    advance
    match ← peek with
    | some c => if c.isDigit then failPast .badNumber else skipAfterDigits
    | none => skipAfterDigits
  | some c =>
    if c.isDigit then do
      discard digits
      skipAfterDigits
    else failPast .badNumber

end Reader

end KeyRegistry.Json
