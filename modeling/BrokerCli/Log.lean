import BrokerCli.Fault
import BrokerCli.Text.Case

/-!
# The diagnostic log

* `LogLevel` -- how much is shown, from nothing to everything, and how a level is read from a
  text: in any case, with or without `log` in front;
* `Severity` -- how grave one record is; a level ADMITS a severity (`LogLevel.admits`);
* `Record` -- one record, and the line it is shown as. Control characters that a terminal would
  act on are written as escapes.
-/

namespace BrokerCli

/-! ## 1. Levels -/

/-- How much of the log is shown. -/
inductive LogLevel where
  | off
  | err
  | info
  | debug
deriving DecidableEq, Repr, Inhabited

namespace LogLevel

/-- The name of a level. -/
def name : LogLevel → String
  | off => "off"
  | err => "err"
  | info => "info"
  | debug => "debug"

/-- The levels in ascending order: each shows more than the one before. -/
def rank : LogLevel → Nat
  | off => 0
  | err => 1
  | info => 2
  | debug => 3

/-- The order of levels. -/
def compare (a b : LogLevel) : Ordering := Ord.compare a.rank b.rank

/-- A level that is not known, by the name it was asked for. -/
structure Unknown where
  name : String
deriving DecidableEq, Repr

/-- The fault of an unknown level. -/
def Unknown.fault (u : Unknown) : Fault :=
  .raise "LogLevel" 1 ("unknown LogLevel: " ++ u.name)

/-- The name that a text asks for: its lower case, without `log` in front unless nothing follows. -/
def askedName (text : String) : List Char :=
  match (Text.lower text).toList with
  | 'l' :: 'o' :: 'g' :: c :: rest => c :: rest
  | cs => cs

/-- The level that a text names. -/
def parse (text : String) : Except Unknown LogLevel :=
  match String.ofList (askedName text) with
  | "off" => .ok off
  | "err" => .ok err
  | "info" => .ok info
  | "debug" => .ok debug
  | other => .error ⟨other⟩

/-- Every level is read back from its name. -/
theorem parse_name (l : LogLevel) : parse l.name = .ok l := by
  cases l <;> rfl

end LogLevel

/-! ## 2. Records -/

/-- How grave a record is. -/
inductive Severity where
  | error
  | warn
  | info
  | debug
deriving DecidableEq, Repr

namespace Severity

/-- The label in front of a record, right-aligned in five columns. -/
def label : Severity → String
  | error => "ERROR"
  | warn => " WARN"
  | info => " INFO"
  | debug => "DEBUG"

/-- The least level that shows records of this severity. -/
def leastLevel : Severity → LogLevel
  | error => .err
  | warn => .info
  | info => .info
  | debug => .debug

end Severity

/-- Whether records of a severity are shown at a level. -/
def LogLevel.admits (l : LogLevel) (s : Severity) : Bool := s.leastLevel.rank ≤ l.rank

/-- Nothing is shown when the log is off. -/
@[simp] theorem LogLevel.admits_off (s : Severity) : LogLevel.off.admits s = false := by
  cases s <;> rfl

/-- One record of the log. -/
structure Record where
  severity : Severity
  message : String
deriving DecidableEq, Repr

/-- The two lower-case hexadecimal digits of a number below 256. -/
def hexPair (n : Nat) : List Char := [Nat.digitChar (n / 16), Nat.digitChar (n % 16)]

/-- A character of a message as it is shown: what a terminal would take as a command is escaped. -/
def shownChar (c : Char) : List Char :=
  let n := c.toNat
  if n = 0x1B ∨ n = 0x07 ∨ n = 0x08 ∨ n = 0x0C ∨ n = 0x7F then '\\' :: 'x' :: hexPair n
  else if 0x80 ≤ n ∧ n ≤ 0x9F then '\\' :: 'u' :: '\x7b' :: hexPair n ++ ['\x7d']
  else [c]

/-- The line that a record is shown as. -/
def Record.line (r : Record) : String :=
  r.severity.label ++ " " ++ String.ofList (r.message.toList.flatMap shownChar) ++ "\n"

end BrokerCli
