import BrokerCli.Json.Document

/-!
# Reading JSON

A text is read one character at a time, in one pass and without looking ahead. Two machines work
one on top of the other:

* the LEXER (`Lexeme`) puts characters together into tokens. A word, that is a literal or a
  number, ends where a character comes that cannot belong to one;
* the BUILDER (`Build`) puts tokens together into a document. It keeps the containers that are
  open, the innermost first.

`Document.parse` runs both over a text. Where it fails it says at which line and column. So the
language is the strict one: no comma before a closing bracket, no comment, no text after the value.
-/

namespace BrokerCli.Document

/-! ## 1. Tokens -/

/-- What the characters of a text form. -/
inductive Token where
  | openArray
  | closeArray
  | openObject
  | closeObject
  | comma
  | colon
  | text (s : Option String)
  | atom (d : Document)
deriving Repr

/-- The token that a character is on its own. -/
def Token.ofChar? : Char → Option Token
  | '[' => some openArray
  | ']' => some closeArray
  | '\x7b' => some openObject
  | '\x7d' => some closeObject
  | ',' => some comma
  | ':' => some colon
  | _ => none

/-- The literal or number that a word is, if it is one. -/
def ofWord? (word : List Char) : Option Document :=
  if word = "null".toList then some .null
  else if word = "true".toList then some (.bool true)
  else if word = "false".toList then some (.bool false)
  else (Numeral.parse? word).map fun n => .number n.value?

/-! ## 2. The builder -/

/-- A container that is open: what it holds so far, the last part first; in an object also the key
    whose value is being read. -/
inductive Frame where
  | items (done : List Document)
  | member (done : List (Option String × Document)) (key : Option String)
deriving Repr

/-- What the builder is waiting for, inside the open containers. -/
inductive Build where
  /-- A value. -/
  | value (stack : List Frame)
  /-- The first item of an array, or its end. -/
  | item (stack : List Frame)
  /-- A key; the first one of an object may be its end instead. -/
  | key (isFirst : Bool) (done : List (Option String × Document)) (stack : List Frame)
  /-- The colon after a key. -/
  | colon (done : List (Option String × Document)) (key : Option String) (stack : List Frame)
  /-- What comes after a value. -/
  | after (d : Document) (stack : List Frame)
deriving Repr

namespace Build

/-- A token where a value is to begin. -/
def begin? (stack : List Frame) : Token → Option Build
  | .atom d => some (.after d stack)
  | .text s => some (.after (.string s) stack)
  | .openArray => some (.item stack)
  | .openObject => some (.key true [] stack)
  | _ => none

/-- The builder after one more token, if the token may stand there. -/
def feed? : Build → Token → Option Build
  | .value stack, t => begin? stack t
  | .item stack, .closeArray => some (.after (.array []) stack)
  | .item stack, t => begin? (.items [] :: stack) t
  | .key true _ stack, .closeObject => some (.after (.object []) stack)
  | .key _ done stack, .text s => some (.colon done s stack)
  | .colon done k stack, .colon => some (.value (.member done k :: stack))
  | .after d (.items done :: stack), .comma => some (.value (.items (d :: done) :: stack))
  | .after d (.items done :: stack), .closeArray => some (.after (.array (d :: done).reverse) stack)
  | .after d (.member done k :: stack), .comma => some (.key false ((k, d) :: done) stack)
  | .after d (.member done k :: stack), .closeObject =>
    some (.after (.object ((k, d) :: done).reverse) stack)
  | _, _ => none

/-- The document, once it is complete. -/
def done? : Build → Option Document
  | .after d [] => some d
  | _ => none

end Build

/-! ## 3. The lexer -/

/-- What the lexer is in the middle of; characters and pieces are kept last first. -/
inductive Lexeme where
  /-- Between tokens. -/
  | between
  /-- In a literal or number. -/
  | word (read : List Char)
  /-- In a string. -/
  | text (read : List Piece)
  /-- After a backslash. -/
  | escape (read : List Piece)
  /-- In a unit given by its number: how many digits are missing, and the number so far. -/
  | digits (read : List Piece) (missing value : Nat)
deriving DecidableEq, Repr

/-- Whether a character ends a word. -/
def endsWord (c : Char) : Bool := Json.isSpace c || c = '"' || (Token.ofChar? c).isSome

/-- The value of a hexadecimal digit. -/
def hexValue? (c : Char) : Option Nat :=
  if '0' ≤ c ∧ c ≤ '9' then some (c.toNat - '0'.toNat)
  else if 'a' ≤ c ∧ c ≤ 'f' then some (c.toNat - 'a'.toNat + 10)
  else if 'A' ≤ c ∧ c ≤ 'F' then some (c.toNat - 'A'.toNat + 10)
  else none

/-- The character that a letter after a backslash stands for. -/
def escape? : Char → Option Char
  | '"' => some '"'
  | '\\' => some '\\'
  | '/' => some '/'
  | 'b' => some '\x08'
  | 'f' => some '\x0c'
  | 'n' => some '\n'
  | 'r' => some '\r'
  | 't' => some '\t'
  | _ => none

/-! ## 4. The two together -/

/-- A reader in the middle of a text. -/
structure Reader where
  lexeme : Lexeme
  build : Build
deriving Repr

namespace Reader

/-- A reader at the start of a text. -/
def start : Reader := ⟨.between, .value []⟩

/-- A character between tokens. -/
def between? (b : Build) (c : Char) : Option Reader :=
  if Json.isSpace c then some ⟨.between, b⟩
  else if c = '"' then some ⟨.text [], b⟩
  else match Token.ofChar? c with
    | some t => (b.feed? t).map (⟨.between, ·⟩)
    | none => some ⟨.word [c], b⟩

/-- The builder after a word that ends here. -/
def endWord? (read : List Char) (b : Build) : Option Build :=
  (ofWord? read.reverse).bind fun d => b.feed? (.atom d)

/-- The builder after a string that ends here. -/
def endText? (read : List Piece) (b : Build) : Option Build :=
  b.feed? (.text ((spell? read.reverse).map String.ofList))

/-- The reader after one more character, if the character may stand there. -/
def step? (r : Reader) (c : Char) : Option Reader :=
  match r.lexeme with
  | .between => between? r.build c
  | .word read =>
    if endsWord c then (endWord? read r.build).bind (between? · c)
    else some ⟨.word (c :: read), r.build⟩
  | .text read =>
    if c = '"' then (endText? read r.build).map (⟨.between, ·⟩)
    else if c = '\\' then some ⟨.escape read, r.build⟩
    else if c.toNat < 32 then none
    else some ⟨.text (.char c :: read), r.build⟩
  | .escape read =>
    if c = 'u' then some ⟨.digits read 4 0, r.build⟩
    else (escape? c).map fun c => ⟨.text (.char c :: read), r.build⟩
  | .digits read missing value =>
    (hexValue? c).map fun n =>
      let value := value * 16 + n
      if missing ≤ 1 then ⟨.text (.unit value :: read), r.build⟩
      else ⟨.digits read (missing - 1) value, r.build⟩

/-- The document of a text that ends here. -/
def finish? (r : Reader) : Option Document :=
  match r.lexeme with
  | .between => r.build.done?
  | .word read => (endWord? read r.build).bind Build.done?
  | _ => none

/-- The reader after a text, or what is left of the text where it could not go on. -/
def run (r : Reader) : List Char → Except (List Char) Reader
  | [] => .ok r
  | c :: cs => match r.step? c with
    | some r => r.run cs
    | none => .error (c :: cs)

end Reader

/-! ## 5. Texts -/

/-- A place in a text. -/
structure Position where
  line : Nat
  column : Nat
deriving DecidableEq, Repr

/-- The place after a text: the lines are counted from one, the columns by characters. -/
def Position.after (cs : List Char) : Position :=
  ⟨cs.count '\n' + 1, (cs.reverse.takeWhile (· ≠ '\n')).length⟩

/-- The document that a text says, or the place where it stops being one. -/
def parse (text : String) : Except Position Document :=
  let cs := text.toList
  match Reader.start.run cs with
  | .ok r => match r.finish? with
    | some d => .ok d
    | none => .error (.after cs)
  | .error rest => .error (.after (cs.take (cs.length - rest.length + 1)))

end BrokerCli.Document
