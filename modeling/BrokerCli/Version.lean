import BrokerCli.Cursor
import BrokerCli.Text.Digits
import BrokerCli.Text.Basic

/-!
# The version

A version text is three numbers with dots between them; whatever follows the digits of the third is a
suffix. The SERIAL of a version is its three numbers side by side, each with at least two digits.

An argument right behind the program's name can ask for the version or the serial.
-/

namespace BrokerCli.Version

/-- The numbers of a version text: major, minor and patch. -/
def numbers? (version : String) : Option (UInt32 × UInt32 × UInt32) :=
  match Text.pieces '.' version.toList with
  | major :: minor :: patch :: _ => do
    let major ← Text.readWord32? major
    let minor ← Text.readWord32? minor
    let patch ← Text.readWord32? (patch.takeWhile Char.isDigit)
    return (major, minor, patch)
  | _ => none

/-- The serial of a version text that has one. -/
def serial? (version : String) : Option String :=
  (numbers? version).map fun (major, minor, patch) =>
    Text.zeroFilled 2 major.toNat ++ Text.zeroFilled 2 minor.toNat ++ Text.zeroFilled 2 patch.toNat

/-- The line that tells the version. -/
def line (version : String) : String := "ngsi version " ++ version ++ "\n"

/-- What is printed for an argument right behind the program's name, if it asks for the version. -/
def answer? (version : String) : Option String → Option String
  | some "--version" => some (line version)
  | some "-v" => some (line version)
  | some "--serial" => some ((serial? version).getD "")
  | _ => none

/-- The answer to the next argument, and the cursor behind it; an argument that asks for something
    else is put back. -/
def answerNext (version : String) (c : Cursor) : Option String × Cursor :=
  match answer? version c.next.1 with
  | some text => (some text, c.next.2)
  | none => (none, c.next.2.back.2)

end BrokerCli.Version
