import BrokerCli.Json.Basic

/-!
# Writing JSON

A value is written in a `Layout`, which says what white space stands between its parts. There are
two of them:

* `Json.compact` -- without any white space;
* `Json.pretty` -- one item or member a line, indented by two spaces a level, a space after the
  colon; an empty array or object stays on its line.

Strings are the same in both (`quoted`): a quote, a backslash and the control characters below the
space are escaped, every other character stands for itself.
-/

namespace BrokerCli.Json

/-! ## 1. Strings -/

/-- A character inside a string. -/
def escaped (c : Char) : List Char :=
  match c with
  | '"' => ['\\', '"']
  | '\\' => ['\\', '\\']
  | '\x08' => ['\\', 'b']
  | '\x0c' => ['\\', 'f']
  | '\n' => ['\\', 'n']
  | '\r' => ['\\', 'r']
  | '\t' => ['\\', 't']
  | c => if c.toNat < 32 then
      ['\\', 'u', '0', '0', Nat.digitChar (c.toNat / 16), Nat.digitChar (c.toNat % 16)]
    else [c]

/-- A string in quotes. -/
def quoted (s : String) : List Char :=
  '"' :: s.toList.flatMap escaped ++ ['"']

/-! ## 2. Layouts -/

/-- The white space between the parts of a value. -/
structure Layout where
  /-- What comes before a part that belongs to a level. -/
  line : Nat → List Char
  /-- What comes behind a colon. -/
  gap : List Char
  line_blank : ∀ level, (line level).all isSpace = true
  gap_blank : gap.all isSpace = true

namespace Layout

/-- The start of a line at a level. -/
def newLine (level : Nat) : List Char := '\n' :: List.replicate (2 * level) ' '

theorem newLine_blank (level : Nat) : (newLine level).all isSpace = true := by
  simp [newLine, isSpace]

/-- No white space. -/
def compact : Layout := ⟨fun _ => [], [], fun _ => rfl, rfl⟩

/-- A line for each part. -/
def pretty : Layout := ⟨newLine, [' '], newLine_blank, rfl⟩

end Layout

/-! ## 3. Values -/

/-- A truth value as it is written. -/
def boolText (b : Bool) : List Char := if b then "true".toList else "false".toList

mutual

/-- A value whose parts belong to the level below `level`. -/
def chars (l : Layout) (level : Nat) : Json → List Char
  | .null => "null".toList
  | .bool b => boolText b
  | .number n => n.text
  | .string s => quoted s
  | .array items => '[' :: itemChars l level items
  | .object members => '\x7b' :: memberChars l level members

/-- The items of an array, with the closing bracket. -/
def itemChars (l : Layout) (level : Nat) : List Json → List Char
  | [] => [']']
  | x :: xs => l.line (level + 1) ++ chars l (level + 1) x ++ moreItemChars l level xs

/-- The items of an array after one of them. -/
def moreItemChars (l : Layout) (level : Nat) : List Json → List Char
  | [] => l.line level ++ [']']
  | x :: xs => ',' :: l.line (level + 1) ++ chars l (level + 1) x ++ moreItemChars l level xs

/-- The members of an object, with the closing brace. -/
def memberChars (l : Layout) (level : Nat) : List (String × Json) → List Char
  | [] => ['\x7d']
  | m :: ms => l.line (level + 1) ++ oneMemberChars l (level + 1) m ++ moreMemberChars l level ms

/-- The members of an object after one of them. -/
def moreMemberChars (l : Layout) (level : Nat) : List (String × Json) → List Char
  | [] => l.line level ++ ['\x7d']
  | m :: ms =>
    ',' :: l.line (level + 1) ++ oneMemberChars l (level + 1) m ++ moreMemberChars l level ms

/-- One member of an object. -/
def oneMemberChars (l : Layout) (level : Nat) : String × Json → List Char
  | (key, value) => quoted key ++ ':' :: l.gap ++ chars l level value

end

/-- A value as a text in a layout. -/
def text (l : Layout) (j : Json) : String := String.ofList (j.chars l 0)

/-- A value as a text without white space. -/
def compact (j : Json) : String := j.text .compact

/-- A value as a text with a line for each part. -/
def pretty (j : Json) : String := j.text .pretty

end BrokerCli.Json
