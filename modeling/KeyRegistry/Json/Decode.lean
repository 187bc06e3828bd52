import KeyRegistry.Json.Skip

/-!
# Reading typed values from JSON

A value is read for a purpose, and the first thing that does not fit it ends the reading. A
record is written as an object, its fields in any order, or as the list of its fields in their
own order. Fields that are left out keep the value they have, fields that nobody knows are stepped
over, and no known field may come twice.

Main definitions:

* `Reader.text`, `Reader.boolean`, `Reader.natural`, `Reader.optional`, `Reader.list`
* `Reader.record` — a record from the readers of its fields
* `decode` — reads a whole text
-/

namespace KeyRegistry.Json

namespace Reader

/-- The next character behind white space; a value has to come there. -/
def peekValue : Reader Char := do
  match ← peekToken with
  | some c => return c
  | none => failHere .endInValue

/-- Names the value that comes next, which is not what was expected. A list or an object is not
read any further. -/
def foundNext : Reader Found := do
  match ← peek with
  | some 'n' => do advance; word ['u', 'l', 'l']; return .null
  | some 't' => do advance; word ['r', 'u', 'e']; return .boolean true
  | some 'f' => do advance; word ['a', 'l', 's', 'e']; return .boolean false
  | some '-' => do advance; return (← number false).found
  | some '\x22' => do advance; return .text (← textBody)
  | some '[' => return .list
  | some '{' => return .object
  | some c => if c.isDigit then return (← number true).found else failPast .valueExpected
  | none => failPast .valueExpected

/-- Stops at a value of another kind than expected. -/
def wrongKind {α : Type} (expected : String) : Reader α := do
  let found ← foundNext
  failHere (.wrongKind found expected)

/-- A text. -/
def text (expected : String) : Reader String := do
  if (← peekValue) = '\x22' then do
    advance
    textBody
  else wrongKind expected

/-- A truth value. -/
def boolean : Reader Bool := do
  match ← peekValue with
  | 't' => do advance; word ['r', 'u', 'e']; return true
  | 'f' => do advance; word ['a', 'l', 's', 'e']; return false
  | _ => wrongKind "a boolean"

/-- Takes a number for a whole number of 64 bits without a sign. -/
def asNatural : Number → Reader UInt64
  | .natural value => return value
  | .negative value => failHere (.wrongValue (.integer value) "u64")
  | .floating value => failHere (.wrongKind (.floating value) "u64")

/-- A whole number of 64 bits without a sign. -/
def natural : Reader UInt64 := do
  let c ← peekValue
  if c = '-' then do
    advance
    asNatural (← number false)
  else if c.isDigit then do asNatural (← number true)
  else wrongKind "u64"

/-- A value, or nothing. -/
def optional {α : Type} (value : Reader α) : Reader (Option α) := do
  match ← peekToken with
  | some 'n' => do advance; word ['u', 'l', 'l']; return none
  | _ => return some (← value)

/-- Whether a list goes on: steps over the comma before a member that is not the first. -/
def hasMember (first : Bool) : Reader Bool := do
  match ← peekToken with
  | none => failHere .endInList
  | some ']' => return false
  | some c =>
    if first then return true
    else if c = ',' then do
      advance
      match ← peekToken with
      | none => failHere .endInValue
      | some ']' => failPast .trailingComma
      | some _ => return true
    else failPast .listCommaExpected

/-- The members of a list, for a bound on their number. -/
def membersWithin {α : Type} (member : Reader α) : Nat → Bool → Reader (List α)
  | 0, _ => failHere .endInList
  | bound + 1, first => do
    if ← hasMember first then do
      let value ← member
      return value :: (← membersWithin member bound false)
    else return []

/-- Closes a list. -/
def closeList : Reader Unit := do
  match ← peekToken with
  | some ']' => advance
  | some ',' => do
    advance
    match ← peekToken with
    | some ']' => failPast .trailingComma
    | _ => failPast .trailingText
  | some _ => failPast .trailingText
  | none => failHere .endInList

/-- A list. -/
def list {α : Type} (member : Reader α) : Reader (List α) := do
  if (← peekValue) = '[' then do
    advance
    let values ← membersWithin member ((← remaining) + 1) true
    closeList
    return values
  else wrongKind "a sequence"

end Reader

/-! ## Records -/

/-- A field of a record: its name, and how its value is read into the record. -/
structure Field (α : Type) where
  name : String
  read : α → Reader α

namespace Reader

variable {α : Type}

/-- Whether an object goes on with a key: steps over the comma before one that is not the
first. -/
def hasKey (first : Bool) : Reader Bool := do
  match ← peekToken with
  | none => failHere .endInObject
  | some '}' => return false
  | some c =>
    if first then
      if c = '\x22' then return true else failPast .keyNotText
    else if c = ',' then do
      advance
      match ← peekToken with
      | some '\x22' => return true
      | some '}' => failPast .trailingComma
      | some _ => failPast .keyNotText
      | none => failHere .endInValue
    else failPast .objectCommaExpected

/-- Steps over the colon behind a key. -/
def colon : Reader Unit := do
  match ← peekToken with
  | some ':' => advance
  | some _ => failPast .colonExpected
  | none => failHere .endInObject

/-- Stops at a field that comes twice, behind white space and a closing brace. -/
def repeatedField (name : String) : Reader α := do
  if (← peekToken) = some '}' then advance
  failHere (.repeatedField name)

/-- Reads the member of an object that starts with a given key; `seen` are the fields that came
before. -/
def member (fields : List (Field α)) (seen : List String) (key : String) (record : α) :
    Reader (α × List String) := do
  match fields.find? fun field => field.name == key with
  | none => do
    colon
    skipValue
    return (record, seen)
  | some field =>
    if seen.contains key then repeatedField key
    else do
      colon
      return (← field.read record, key :: seen)

/-- The members of an object, for a bound on their number. -/
def fieldsWithin (fields : List (Field α)) :
    Nat → Bool → List String → α → Reader α
  | 0, _, _, _ => failHere .endInObject
  | bound + 1, first, seen, record => do
    if ← hasKey first then do
      advance
      let key ← textBody
      let (record, seen) ← member fields seen key record
      fieldsWithin fields bound false seen record
    else return record

/-- The fields of a record in their own order, as far as a list has them. -/
def fieldsInOrder : List (Field α) → Bool → α → Reader α
  | [], _, record => return record
  | field :: fields, first, record => do
    if ← hasMember first then do
      let record ← field.read record
      fieldsInOrder fields false record
    else return record

/-- A record, starting from the values that its fields have when they are left out. -/
def record (expected : String) (fields : List (Field α)) (initial : α) : Reader α := do
  match ← peekValue with
  | '[' => do
    advance
    let record ← fieldsInOrder fields true initial
    closeList
    return record
  | '{' => do
    advance
    let record ← fieldsWithin fields ((← remaining) + 1) true [] initial
    advance
    return record
  | _ => wrongKind expected

/-- A value with nothing behind it but white space. -/
def complete (value : Reader α) : Reader α := do
  let result ← value
  match ← peekToken with
  | none => return result
  | some _ => failPast .trailingText

end Reader

/-- Reads a whole text. -/
def decode {α : Type} (value : Reader α) (text : String) : Except Failure α := do
  let (result, _) ← (Reader.complete value).run (Cursor.start text)
  return result

end KeyRegistry.Json
