import BrokerCli.Text.Digits

/-!
# Faults

What a failed operation reports. Every check has a SITE, a name and a number, so that a line such
as `Run001 missing required options` says which check gave up. A failure on its way up is taken
over by one site after another: each puts its own report in front, and the earlier ones stay
below it as causes.

* `Report` -- one site's report; `Report.tagged` is the line it is shown as;
* `Fault` -- a report with its causes, outermost first;
* `Fault.wrap` -- the next site takes a fault over and KEEPS its message, so a chain of wraps shows
  the innermost message at every level.
-/

namespace BrokerCli

/-- Where a check stands: the name of the activity and the number of the check within it. -/
structure Site where
  activity : String
  number : Nat
deriving DecidableEq, Repr

/-- What one site reports. -/
structure Report where
  site : Site
  message : String
deriving DecidableEq, Repr

/-- The report as a line: activity, number of at least three digits, message. -/
def Report.tagged (r : Report) : String :=
  r.site.activity ++ Text.zeroFilled 3 r.site.number ++ " " ++ r.message

/-- What lies below a report: another report, or a text from outside the program. -/
inductive Cause where
  | report (r : Report)
  | foreign (text : String)
deriving DecidableEq, Repr

/-- A cause as a line: a report is tagged, a foreign text stands as it is. -/
def Cause.text : Cause → String
  | report r => r.tagged
  | foreign t => t

/-- A report with everything that led to it, the nearest cause first. -/
structure Fault extends Report where
  causes : List Cause := []
deriving DecidableEq, Repr

namespace Fault

/-- A failure that begins here. -/
def raise (activity : String) (number : Nat) (message : String) : Fault :=
  { site := ⟨activity, number⟩, message }

/-- A failure that begins here because of a text from outside. -/
def raiseFrom (activity : String) (number : Nat) (message text : String) : Fault :=
  { site := ⟨activity, number⟩, message, causes := [.foreign text] }

/-- The fault taken over by a further site with a message of its own. -/
def restate (activity : String) (number : Nat) (message : String) (f : Fault) : Fault :=
  { site := ⟨activity, number⟩, message, causes := .report f.toReport :: f.causes }

/-- The fault taken over by a further site, with the message it has. -/
def wrap (activity : String) (number : Nat) (f : Fault) : Fault :=
  f.restate activity number f.message

/-- The outermost report as a line. -/
def tagged (f : Fault) : String := f.toReport.tagged

@[simp] theorem message_raise (a : String) (n : Nat) (m : String) : (raise a n m).message = m := rfl

@[simp] theorem message_wrap (a : String) (n : Nat) (f : Fault) : (f.wrap a n).message = f.message := rfl

@[simp] theorem message_restate (a : String) (n : Nat) (m : String) (f : Fault) :
    (f.restate a n m).message = m := rfl

@[simp] theorem causes_wrap (a : String) (n : Nat) (f : Fault) :
    (f.wrap a n).causes = .report f.toReport :: f.causes := rfl

end Fault

end BrokerCli
