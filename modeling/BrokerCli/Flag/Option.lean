import BrokerCli.Cursor
import BrokerCli.Flag.List

/-!
# Options

An option is an argument that begins with a dash and goes on: `--name` names a flag, `-x` one of its
aliases. Whether the NEXT argument is the option's value depends on the flag:

* a flag for texts or numbers takes it, whatever it looks like, and needs it;
* a flag for truth values takes it only if it names a truth value; otherwise the argument is put back
  and the flag is true.

`FlagList.apply` gives an option to the first flag that answers to it, and moves a cursor over the
arguments behind it.
-/

namespace BrokerCli

/-- An option: a name or an alias, the other one empty. -/
structure OptionToken where
  name : String
  shortName : String
deriving DecidableEq, Repr

namespace OptionToken

/-- The option that an argument is, if it is one. A dash or two alone are none. -/
def ofArgument? (arg : String) : Option OptionToken :=
  match arg.toList with
  | '-' :: '-' :: c :: cs => some ⟨String.ofList (c :: cs), ""⟩
  | ['-', '-'] => none
  | '-' :: c :: cs => some ⟨"", String.ofList (c :: cs)⟩
  | _ => none

/-- The option as it is written. -/
def text (o : OptionToken) : String :=
  (if o.name.isEmpty then "" else "--" ++ o.name) ++
    (if o.shortName.isEmpty then "" else "-" ++ o.shortName)

end OptionToken

/-- Why an option cannot be given. -/
inductive OptionError where
  | noTextValue
  | noNumberValue
  | badNumber (e : AssignError)
  | unknown (o : OptionToken)
deriving DecidableEq, Repr

/-- The fault of an option that cannot be given. -/
def OptionError.fault : OptionError → Fault
  | noTextValue => .raise "parseOpt" 1 "value missing"
  | noNumberValue => .raise "parseOpt" 2 "value missing"
  | badNumber e => e.fault.wrap "parseOpt" 3
  | unknown o => .raise "parseOpt" 4 ("unknown flag: " ++ o.text)

namespace Flag

/-- Whether the flag answers to an option. -/
def answers (o : OptionToken) (f : Flag) : Bool := f.answersTo o.name o.shortName

/-- The flag after it was named by an option, with the cursor behind the option; and the cursor
    behind the option's value. A flag for truth values tries the next argument and puts it back if
    it names no truth value. -/
def give (f : Flag) (c : Cursor) : Except OptionError (Flag × Cursor) :=
  match f.content with
  | .text _ features => match c.next with
    | (some s, c) => .ok (f.setTo (.text s features), c)
    | (none, _) => .error .noTextValue
  | .number _ => match c.next with
    | (some s, c) => match f.assign (.text s) with
      | .ok f => .ok (f, c)
      | .error e => .error (.badNumber e)
    | (none, _) => .error .noNumberValue
  | .truth _ => match c.peek? with
    | some s => match f.assign (.text s) with
      | .ok f => .ok (f, c.next.2)
      | .error _ => .ok (f.setTo (.truth true), c.next.2.back.2)
    | none => .ok (f.setTo (.truth true), c)

/-- What is given by an option is set, and changes no name. -/
theorem setTo_of_give {f f' : Flag} {c c' : Cursor} (h : f.give c = .ok (f', c')) :
    ∃ content, f' = f.setTo content := by
  have ha {g : Given} {f' : Flag} (h : f.assign g = .ok f') : ∃ content, f' = f.setTo content := by
    unfold assign at h
    split at h
    · exact ⟨_, (Except.ok.inj h).symm⟩
    · cases h
  unfold give at h
  repeat' split at h
  all_goals cases h
  all_goals first | exact ⟨_, rfl⟩ | exact ha ‹_›

/-- The cursor stays where it is, or goes over one argument. -/
theorem cursor_of_give {f f' : Flag} {c c' : Cursor} (h : f.give c = .ok (f', c')) :
    c' = c ∨ c' = c.next.2 := by
  unfold give at h
  split at h
  · split at h
    · rename_i hn
      cases h
      exact Or.inr (congrArg Prod.snd hn).symm
    · cases h
  · split at h
    · rename_i hn
      split at h
      · cases h
        exact Or.inr (congrArg Prod.snd hn).symm
      · cases h
    · cases h
  · split at h
    · rename_i hp
      split at h
      · cases h
        exact Or.inr rfl
      · cases h
        exact Or.inl (Cursor.back_next hp)
    · cases h
      exact Or.inl rfl

end Flag

namespace FlagList

/-- The flags after an option was given, with the cursor behind the option; and the cursor behind the
    option's value. -/
def apply (fs : FlagList) (o : OptionToken) (c : Cursor) : Except OptionError (FlagList × Cursor) :=
  match fs.find? (·.answers o) with
  | none => .error (.unknown o)
  | some f => match f.give c with
    | .ok (f, c) => .ok (replace (·.answers o) f fs, c)
    | .error e => .error e

/-- An option with its value leaves fewer arguments to come: what a loop over options ends by. -/
theorem unread_lt_of_apply {fs gs : FlagList} {o : OptionToken} {arg : String}
    {c behind c' : Cursor} (hn : c.next = (some arg, behind)) (h : fs.apply o behind = .ok (gs, c')) :
    c'.unread.length < c.unread.length := by
  have hc : c.unread = arg :: behind.unread := Cursor.unread_of_next hn
  unfold apply at h
  split at h
  · cases h
  · split at h
    · rename_i hg
      cases h
      rcases Flag.cursor_of_give hg with rfl | rfl
      · simp [hc]
      · rw [Cursor.unread_next, hc, List.length_tail, List.length_cons]
        omega
    · cases h

end FlagList

end BrokerCli
