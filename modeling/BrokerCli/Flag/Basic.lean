import BrokerCli.Fault
import BrokerCli.Text.Case
import BrokerCli.Text.Basic

/-!
# Flags

A flag is declared by a command and given on a command line. It holds a text, a truth value or a
number, and remembers whether it was GIVEN (`isSet`): a flag that was not given still has the value
of its declaration.

* `Flag.assign` -- a flag after a value was given. Each kind of flag takes some values and refuses
  others; a flag that refuses stays as it was;
* `Flag.valueText` -- the value as a text;
* `Flag.column` and `Flag.description` -- the two columns of a flag on a help page.
-/

namespace BrokerCli

/-- What is special about a flag that holds a text. -/
structure TextFeatures where
  /-- The command needs a client for the host that the flag names. -/
  initClient : Bool := false
  skipGetToken : Bool := false
  /-- The flag may be given an empty text. -/
  allowEmpty : Bool := false
  /-- The flag takes part in the memory from run to run. -/
  remembered : Bool := false
  /-- The alias that the flag gives is looked up without following references. -/
  verbatim : Bool := false
  /-- The texts that the flag may be given, if they are limited. -/
  choices : Option (List String) := none
deriving DecidableEq, Repr, Inhabited

/-- The value of a flag, and with it the kind of the flag. -/
inductive FlagContent where
  | text (value : String) (features : TextFeatures)
  | truth (value : Bool)
  | number (value : Int64)
deriving DecidableEq, Repr, Inhabited

/-- A flag of a command. -/
structure Flag where
  name : String
  aliases : List String := []
  usage : String := ""
  hidden : Bool := false
  required : Bool := false
  isSet : Bool := false
  content : FlagContent
deriving DecidableEq, Repr, Inhabited

/-- A value that is given to a flag. -/
inductive Given where
  | text (s : String)
  | truth (b : Bool)
  | number (n : Int64)
deriving DecidableEq, Repr

/-- Why a flag refuses a value. -/
inductive AssignError where
  /-- A flag for texts was given something else. -/
  | notText
  /-- A flag for truth values was given a number. -/
  | notTruth
  /-- A flag for truth values was given a text that names none. -/
  | noTruthWord (text : String)
  /-- A flag for numbers was given a truth value. -/
  | notNumber
  /-- A flag for numbers was given a text that is no number of 64 bits. -/
  | noNumeral (text : String)
deriving DecidableEq, Repr

/-- The fault of a refused value. -/
def AssignError.fault : AssignError → Fault
  | notText => .raise "StringFlagSetValue" 1 "type error"
  | notTruth => .raise "BoolFlagSetValue" 1 "type error"
  | noTruthWord s => .raise "BoolFlagSetValue" 2 (s ++ " is not boolean value")
  | notNumber => .raise "Int64FlagSetValue" 1 "type error"
  | noNumeral s => .raise "Int64FlagSetValue" 2 (s ++ " is not number")

namespace Flag

/-! ## 1. Giving a value -/

/-- The truth value that a text names, in any case. -/
def truthWord? (s : String) : Option Bool :=
  match Text.lower s with
  | "true" | "on" => some true
  | "false" | "off" => some false
  | _ => none

/-- A content after a value was given. -/
def taken : FlagContent → Given → Except AssignError FlagContent
  | .text _ features, .text s => .ok (.text s features)
  | .text .., _ => .error .notText
  | .truth _, .truth b => .ok (.truth b)
  | .truth _, .text s => match truthWord? s with
    | some b => .ok (.truth b)
    | none => .error (.noTruthWord s)
  | .truth _, .number _ => .error .notTruth
  | .number _, .number n => .ok (.number n)
  | .number _, .text s => match Text.readInt64? s with
    | some n => .ok (.number n)
    | none => .error (.noNumeral s)
  | .number _, .truth _ => .error .notNumber

/-- The flag, set to a content. -/
def setTo (f : Flag) (c : FlagContent) : Flag := { f with isSet := true, content := c }

/-- The flag after a value was given. -/
def assign (f : Flag) (g : Given) : Except AssignError Flag :=
  match taken f.content g with
  | .ok c => .ok (f.setTo c)
  | .error e => .error e

/-- The flag with a text, if it is one for texts; any other flag as it is. -/
def withText (f : Flag) (s : String) : Flag :=
  match f.content with
  | .text _ features => f.setTo (.text s features)
  | _ => f

/-- The flag as it is before a command line is read. -/
def reset (f : Flag) : Flag := { f with isSet := false }

@[simp] theorem name_setTo (f : Flag) (c : FlagContent) : (f.setTo c).name = f.name := rfl

@[simp] theorem isSet_setTo (f : Flag) (c : FlagContent) : (f.setTo c).isSet = true := rfl

@[simp] theorem name_reset (f : Flag) : f.reset.name = f.name := rfl

@[simp] theorem isSet_reset (f : Flag) : f.reset.isSet = false := rfl

@[simp] theorem content_reset (f : Flag) : f.reset.content = f.content := rfl

@[simp] theorem name_withText (f : Flag) (s : String) : (f.withText s).name = f.name := by
  unfold withText
  split <;> rfl

/-- A value changes no name. -/
theorem name_of_assign {f f' : Flag} {g : Given} (h : f.assign g = .ok f') : f'.name = f.name := by
  unfold assign at h
  split at h
  · rw [← Except.ok.inj h]
    rfl
  · cases h

/-- A flag that took a value is set. -/
theorem isSet_of_assign {f f' : Flag} {g : Given} (h : f.assign g = .ok f') : f'.isSet = true := by
  unfold assign at h
  split at h
  · rw [← Except.ok.inj h]
    rfl
  · cases h

/-- What a flag for numbers makes of a text. -/
theorem assign_text_of_number {f : Flag} {old : Int64} (hf : f.content = .number old) (s : String) :
    f.assign (.text s) = match Text.readInt64? s with
      | some n => .ok (f.setTo (.number n))
      | none => .error (.noNumeral s) := by
  cases h : Text.readInt64? s <;> simp only [assign, taken, hf, h]

/-- What a flag for truth values makes of a text. -/
theorem assign_text_of_truth {f : Flag} {old : Bool} (hf : f.content = .truth old) (s : String) :
    f.assign (.text s) = match truthWord? s with
      | some b => .ok (f.setTo (.truth b))
      | none => .error (.noTruthWord s) := by
  cases h : truthWord? s <;> simp only [assign, taken, hf, h]

/-! ## 2. Asking -/

/-- The text and the features of a flag for texts. -/
def text? (f : Flag) : Option (String × TextFeatures) :=
  match f.content with
  | .text s features => some (s, features)
  | _ => none

/-- The features of a flag; one that holds no text has none. -/
def features (f : Flag) : TextFeatures :=
  match f.content with
  | .text _ features => features
  | _ => {}

/-- Whether a flag holds a truth value. -/
def isTruth (f : Flag) : Bool :=
  match f.content with
  | .truth _ => true
  | _ => false

/-- The truth value of a flag; one that holds none counts as false. -/
def truthValue (f : Flag) : Bool :=
  match f.content with
  | .truth b => b
  | _ => false

/-- The number of a flag; one that holds none counts as zero. -/
def numberValue (f : Flag) : Int64 :=
  match f.content with
  | .number n => n
  | _ => 0

/-- The value of a flag as a text. -/
def valueText (f : Flag) : String :=
  match f.content with
  | .text s _ => s
  | .truth b => if b then "true" else "false"
  | .number n => Text.writeInt64 n

/-- Whether a flag has that name, or that alias; an empty name or alias is nobody's. -/
def answersTo (f : Flag) (name shortName : String) : Bool :=
  (!name.isEmpty && f.name == name) || (!shortName.isEmpty && f.aliases.contains shortName)

/-! ## 3. Help columns -/

/-- The mark around the part of a description that stands for the value. -/
def valueMark : Char := '\x60'

/-- What stands between the first and the last mark of a description, if there are two. -/
def markedPart? (usage : String) : Option String :=
  match Text.split valueMark usage with
  | _ :: part :: more :: rest =>
    some ((String.singleton valueMark).intercalate ((part :: more :: rest).dropLast))
  | _ => none

/-- What stands for the value behind the name of a flag. -/
def placeholder (f : Flag) : String :=
  match markedPart? f.usage with
  | some part => " " ++ part
  | none => if f.isTruth then "" else " VALUE"

/-- The left column of a flag: its names, each with what stands for the value. -/
def column (f : Flag) : String :=
  "--" ++ f.name ++ f.placeholder ++
    String.join (f.aliases.map fun a => ", -" ++ a ++ f.placeholder)

/-- The right column of a flag: its description, without marks. -/
def description (f : Flag) : String :=
  String.ofList (f.usage.toList.filter (· ≠ valueMark)) ++
    (if f.isTruth then " (default: " ++ f.valueText ++ ")" else "") ++
    (if f.required then " (required)" else "")

end Flag

end BrokerCli
