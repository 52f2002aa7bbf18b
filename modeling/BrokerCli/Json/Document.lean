import BrokerCli.Json.Basic

/-!
# What a JSON text says

A text that keeps to the grammar says more than a value holds, and not all that it says can be
kept: a key may occur twice, an escape may name half a character, a number may be too large.

* `Document` -- what a text SAYS, in its order and with every member; a string that is no Unicode
  text and a number out of range are `none` in their place. A reader that does not need a part of
  a document need not mind what that part holds;
* `Document.toJson?` -- what can be KEPT of a document, if all of it can be: every string, every
  number, and no more containers inside one another than allowed;
* `Document.ofJson` -- a value, said.
-/

namespace BrokerCli

/-- What a JSON text says. -/
inductive Document where
  | null
  | bool (b : Bool)
  | number (n : Option Json.Number)
  | string (s : Option String)
  | array (items : List Document)
  | object (members : List (Option String × Document))
deriving Repr, Inhabited

namespace Document

/-! ## 1. Strings with escapes -/

/-- A part of a string: a character that stands for itself, or a UTF-16 unit given by its number. -/
inductive Piece where
  | char (c : Char)
  | unit (n : Nat)
deriving DecidableEq, Repr

/-- Whether a unit is the first half of a character. -/
def isLeading (n : Nat) : Bool := 0xD800 ≤ n && n < 0xDC00

/-- Whether a unit is the second half of a character. -/
def isTrailing (n : Nat) : Bool := 0xDC00 ≤ n && n < 0xE000

/-- The character of two halves. -/
def joinUnits (leading trailing : Nat) : Char :=
  Char.ofNat (0x10000 + (leading - 0xD800) * 0x400 + (trailing - 0xDC00))

/-- The characters that pieces spell, if no half of a character stands alone. -/
def spell? : List Piece → Option (List Char)
  | [] => some []
  | .char c :: ps => (spell? ps).map (c :: ·)
  | .unit n :: .unit m :: ps =>
    if isLeading n && isTrailing m then (spell? ps).map (joinUnits n m :: ·)
    else if isLeading n || isTrailing n then none
    else (spell? (.unit m :: ps)).map (Char.ofNat n :: ·)
  | .unit n :: ps =>
    if isLeading n || isTrailing n then none else (spell? ps).map (Char.ofNat n :: ·)

/-- Characters that stand for themselves spell themselves. -/
@[simp] theorem spell?_map_char (cs : List Char) : spell? (cs.map .char) = some cs := by
  induction cs with
  | nil => rfl
  | cons c cs ih => simp [spell?, ih]

/-! ## 2. What can be kept -/

mutual

/-- The value that a document says, if all of it can be kept; `depth` containers may still be opened. -/
def toJson? (depth : Nat) : Document → Option Json
  | .null => some .null
  | .bool b => some (.bool b)
  | .number n => n.map .number
  | .string s => s.map .string
  | .array items => match depth with
    | 0 => none
    | depth + 1 => (toJsonItems? depth items).map .array
  | .object members => match depth with
    | 0 => none
    | depth + 1 => (toJsonMembers? depth members).map Json.ofMembers

/-- The items of an array. -/
def toJsonItems? (depth : Nat) : List Document → Option (List Json)
  | [] => some []
  | d :: ds => match toJson? depth d, toJsonItems? depth ds with
    | some j, some js => some (j :: js)
    | _, _ => none

/-- The members of an object, as they stand. -/
def toJsonMembers? (depth : Nat) : List (Option String × Document) → Option (List (String × Json))
  | [] => some []
  | m :: ms => match toJsonMember? depth m, toJsonMembers? depth ms with
    | some j, some js => some (j :: js)
    | _, _ => none

/-- One member of an object. -/
def toJsonMember? (depth : Nat) : Option String × Document → Option (String × Json)
  | (some key, d) => (toJson? depth d).map (key, ·)
  | (none, _) => none

end

/-! ## 3. Values, said -/

mutual

/-- The document that says a value. -/
def ofJson : Json → Document
  | .null => .null
  | .bool b => .bool b
  | .number n => .number (some n)
  | .string s => .string (some s)
  | .array items => .array (ofJsonItems items)
  | .object members => .object (ofJsonMembers members)

/-- The items of an array. -/
def ofJsonItems : List Json → List Document
  | [] => []
  | j :: js => ofJson j :: ofJsonItems js

/-- The members of an object. -/
def ofJsonMembers : List (String × Json) → List (Option String × Document)
  | [] => []
  | m :: ms => ofJsonMember m :: ofJsonMembers ms

/-- One member of an object. -/
def ofJsonMember : String × Json → Option String × Document
  | (key, j) => (some key, ofJson j)

end

theorem ofJsonMember_eq (m : String × Json) : ofJsonMember m = (some m.1, ofJson m.2) := by
  rw [ofJsonMember]

end Document

end BrokerCli
