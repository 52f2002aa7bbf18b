import BrokerCli.Flag.List

/-!
# Rules on two options

A command can demand something of two of its options together: not both, or exactly one of them. A
command that no longer supports a combination can also refuse every use.
-/

namespace BrokerCli

/-- A demand on two options. -/
inductive Rule where
  | notBoth (a b : String)
  | exactlyOne (a b : String)
  | unsupported
deriving DecidableEq, Repr

/-- How a demand is not met. -/
inductive RuleError where
  | both (a b : String)
  | notOne (a b : String)
  | unsupported
deriving DecidableEq, Repr

/-- What a user is told to do about two options. -/
def RuleError.eitherText (a b : String) : String := "specify either --" ++ a ++ " or --" ++ b

/-- The fault of a demand that is not met. -/
def RuleError.fault : RuleError → Fault
  | unsupported => .raise "validation" 1 "validation mode error"
  | both a b => .raise "validation" 2 (eitherText a b)
  | notOne a b => .raise "validation" 3 (eitherText a b)

namespace Rule

/-- How the options given fail a demand, if they do. -/
def violation? (fs : FlagList) : Rule → Option RuleError
  | notBoth a b => if fs.isSet a && fs.isSet b then some (.both a b) else none
  | exactlyOne a b => if fs.isSet a = fs.isSet b then some (.notOne a b) else none
  | unsupported => some .unsupported

end Rule

end BrokerCli
