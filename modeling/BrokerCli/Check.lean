import BrokerCli.Flag.List

/-!
# Checks after reading

When a command line has been read, its flags are checked, kind of fault by kind of fault:

* what is REQUIRED must be given, by name or by position;
* a flag that is given must not be EMPTY, unless it may be;
* a flag with CHOICES must be one of them.

A check finds a list of complaints, each of which is a line for the user. No complaint means that
the check is passed.
-/

namespace BrokerCli

/-- One thing that is wrong with the flags of a command line. -/
inductive Complaint where
  /-- An argument stands for a flag that there is none of. -/
  | undeclared (name : String)
  /-- An argument cannot be the value of the flag it stands for. -/
  | refused (name : String) (e : AssignError)
  /-- A flag that the command requires is not given. -/
  | notGiven (name : String)
  /-- A flag that says itself that it is required is not given. -/
  | requiredUnset (name : String)
  /-- There are no data. -/
  | emptyData
  /-- A flag is given without a value. -/
  | emptyValue (name : String)
  /-- A flag is given a value that is none of its choices. -/
  | noChoice (name : String) (choices : List String)
deriving DecidableEq, Repr

namespace Complaint

/-- What a user is told to choose from. -/
def choicesText (name : String) : List String → String
  | [] => "no choices for --" ++ name
  | [a] => "specify " ++ a ++ " to --" ++ name
  | [a, b] => "specify either " ++ a ++ " or " ++ b ++ " to --" ++ name
  | choices =>
    "specify one of " ++ ", ".intercalate choices.dropLast ++ " and " ++ choices.getLastD "" ++
      " to --" ++ name

/-- The line for the user. -/
def line (c : Complaint) : String :=
  (match c with
    | undeclared name => Report.tagged ⟨⟨"required", 1⟩, "--" ++ name ++ ": not found"⟩
    | refused name e => "--" ++ name ++ ": " ++ e.fault.message
    | requiredUnset name => Report.tagged ⟨⟨"required", 2⟩, "--" ++ name ++ " not found"⟩
    | emptyData => Report.tagged ⟨⟨"required", 3⟩, "data is empty"⟩
    | notGiven name => Report.tagged ⟨⟨"required", 4⟩, "--" ++ name ++ " not found"⟩
    | emptyValue name => Report.tagged ⟨⟨"checkEmpty", 1⟩, "--" ++ name ++ ": value is empty"⟩
    | noChoice name choices => Report.tagged ⟨⟨"checkChoices", 1⟩, choicesText name choices⟩) ++ "\n"

/-- The lines, as a user sees them. -/
theorem line_eq (c : Complaint) : c.line = match c with
    | undeclared name => "required001 --" ++ name ++ ": not found\n"
    | refused name e => "--" ++ name ++ ": " ++ e.fault.message ++ "\n"
    | requiredUnset name => "required002 --" ++ name ++ " not found\n"
    | emptyData => "required003 data is empty\n"
    | notGiven name => "required004 --" ++ name ++ " not found\n"
    | emptyValue name => "checkEmpty001 --" ++ name ++ ": value is empty\n"
    | noChoice name choices => "checkChoices001 " ++ choicesText name choices ++ "\n" := by
  have hnumbers : Text.zeroFilled 3 1 = "001" ∧ Text.zeroFilled 3 2 = "002" ∧
      Text.zeroFilled 3 3 = "003" ∧ Text.zeroFilled 3 4 = "004" := by decide
  rw [← String.toList_inj]
  cases c <;> simp [line, Report.tagged, hnumbers]

end Complaint

namespace Check

/-! ## 1. Arguments by position -/

/-- Whether the arguments stand for the required flags: none of these is given by name, and there are
    just as many arguments. -/
def byPosition (fs : FlagList) (required args : List String) : Bool :=
  !required.isEmpty && !fs.anySet required && args.length == required.length

/-- The flags with one argument given to the flag it stands for. -/
def placeOne (fs : FlagList) (name arg : String) : FlagList × List Complaint :=
  match fs.get? name with
  | none => (fs, [.undeclared name])
  | some f => match f.assign (.text arg) with
    | .ok f => (FlagList.replace (·.name = name) f fs, [])
    | .error e => (fs, [.refused name e])

/-- The flags with every argument given to the flag it stands for, in order. -/
def place (fs : FlagList) : List (String × String) → FlagList × List Complaint
  | [] => (fs, [])
  | (name, arg) :: rest =>
    let (fs, first) := placeOne fs name arg
    let (fs, more) := place fs rest
    (fs, first ++ more)

@[simp] theorem names_placeOne (fs : FlagList) (name arg : String) :
    (placeOne fs name arg).1.names = fs.names := by
  unfold placeOne
  split
  · rfl
  · rename_i f hf
    split
    · rename_i f' hg
      exact FlagList.names_replace fun g hg' => by
        rw [Flag.name_of_assign hg, Option.some.inj (hf.symm.trans hg')]
    · rfl

@[simp] theorem names_place (fs : FlagList) (pairs : List (String × String)) :
    (place fs pairs).1.names = fs.names := by
  induction pairs generalizing fs with
  | nil => rfl
  | cons pair pairs ih => simp [place, ih]

/-! ## 2. What is required -/

/-- Whether a flag is given but holds no text, and may not. -/
def isBlank (f : Flag) : Bool :=
  match f.content with
  | .text value features => f.isSet && value.isEmpty && !features.allowEmpty
  | _ => false

/-- The complaints about names of required flags that are not given. -/
def notGiven (fs : FlagList) (required : List String) : List Complaint :=
  (required.filter fun name => !fs.isSet name).map .notGiven

/-- The complaints about flags that are required or must have data, each flag for itself. -/
def ownDemands (fs : FlagList) : List Complaint :=
  fs.flatMap fun f =>
    (if f.required && !f.isSet then [.requiredUnset f.name] else []) ++
      (if f.name = "data" && isBlank f then [.emptyData] else [])

/-! ## 3. Values -/

/-- The complaints about flags that are given without a value. -/
def emptyValues (fs : FlagList) : List Complaint :=
  (fs.filter isBlank).map fun f => .emptyValue f.name

/-- The choices that a flag is given without being one of them; the value is taken in lower case, the
    choices as they are declared. -/
def missedChoices? (f : Flag) : Option (List String) :=
  match f.content with
  | .text value features => match features.choices with
    | some choices => if f.isSet && !choices.contains (Text.lower value) then some choices else none
    | none => none
  | _ => none

/-- The complaints about values that are none of the choices. -/
def missedChoices (fs : FlagList) : List Complaint :=
  fs.filterMap fun f => (missedChoices? f).map (.noChoice f.name)

end Check

end BrokerCli
