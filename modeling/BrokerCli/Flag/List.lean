import BrokerCli.Flag.Basic

/-!
# Lists of flags

A command line is read against a list of flags. Names may occur more than once in it: under every
name the FIRST flag counts.

* `FlagList.get?` and what is built on it -- asking by name; a name that is not there reads as an
  unset flag with an empty value;
* `FlagList.replace` -- the list with the first flag of a kind exchanged;
* `FlagList.without` -- the list without all flags of a name.
-/

namespace BrokerCli

/-- Flags in the order of their declaration. -/
abbrev FlagList := List Flag

namespace FlagList

/-! ## 1. Asking by name -/

/-- The first flag of a name. -/
def get? (fs : FlagList) (name : String) : Option Flag := fs.find? (·.name = name)

/-- Whether there is a flag of a name. -/
def has (fs : FlagList) (name : String) : Bool := (fs.get? name).isSome

/-- Whether the flag of a name was given. -/
def isSet (fs : FlagList) (name : String) : Bool := (fs.get? name).any (·.isSet)

/-- Whether the flag of a name must be given. -/
def isRequired (fs : FlagList) (name : String) : Bool := (fs.get? name).any (·.required)

/-- The value of the flag of a name as a text. -/
def text (fs : FlagList) (name : String) : String := ((fs.get? name).map (·.valueText)).getD ""

/-- The value of the flag of a name, if it was given. -/
def textIfSet (fs : FlagList) (name : String) : Option String :=
  if fs.isSet name then some (fs.text name) else none

/-- The truth value of the flag of a name. -/
def truth (fs : FlagList) (name : String) : Bool := ((fs.get? name).map (·.truthValue)).getD false

/-- The number of the flag of a name. -/
def number (fs : FlagList) (name : String) : Int64 := ((fs.get? name).map (·.numberValue)).getD 0

/-- The flag of a name with its text and features, if it holds a text. -/
def textFlag? (fs : FlagList) (name : String) : Option (Flag × String × TextFeatures) :=
  (fs.get? name).bind fun f => f.text?.map (f, ·)

/-- Whether the flag of one of the names was given. -/
def anySet (fs : FlagList) (names : List String) : Bool := names.any fs.isSet

/-- Whether the flags of all the names were given. -/
def allSet (fs : FlagList) (names : List String) : Bool := names.all fs.isSet

/-- The names, in order. -/
def names (fs : FlagList) : List String := fs.map (·.name)

/-- What is found under a name has it. -/
theorem name_of_get? {fs : FlagList} {name : String} {f : Flag} (h : fs.get? name = some f) :
    f.name = name :=
  of_decide_eq_true (List.find?_some (p := fun f : Flag => decide (f.name = name)) h)

/-! ## 2. Changing -/

/-- The list with the first flag that `p` holds of exchanged for `f`. -/
def replace (p : Flag → Bool) (f : Flag) : FlagList → FlagList
  | [] => []
  | g :: gs => if p g then f :: gs else g :: replace p f gs

/-- The list with the first flag of a name changed. -/
def update (fs : FlagList) (name : String) (change : Flag → Flag) : FlagList :=
  match fs.get? name with
  | some f => replace (·.name = name) (change f) fs
  | none => fs

/-- The list without the flags of a name. -/
def without (fs : FlagList) (name : String) : FlagList := fs.filter (·.name ≠ name)

/-- The flags as they are before a command line is read. -/
def reset (fs : FlagList) : FlagList := fs.map Flag.reset

@[simp] theorem length_replace (p : Flag → Bool) (f : Flag) (fs : FlagList) :
    (replace p f fs).length = fs.length := by
  induction fs with
  | nil => rfl
  | cons g gs ih => by_cases h : p g <;> simp [replace, h, ih]

/-- An exchange for a flag of the same name changes no name. -/
theorem names_replace {p : Flag → Bool} {f : Flag} {fs : FlagList}
    (h : ∀ g, fs.find? p = some g → f.name = g.name) : names (replace p f fs) = names fs := by
  induction fs with
  | nil => rfl
  | cons g gs ih =>
    by_cases hg : p g = true
    · simp [replace, names, hg, h g (by simp [hg])]
    · have := ih (by simpa [hg] using h)
      simpa [replace, names, hg] using this

theorem names_update (fs : FlagList) (name : String) {change : Flag → Flag}
    (h : ∀ f, (change f).name = f.name) : names (fs.update name change) = names fs := by
  unfold update
  split
  · rename_i f hf
    exact names_replace fun g hg => by rw [h f, Option.some.inj (hf.symm.trans hg)]
  · rfl

/-- A flag exchanged for one of its own name is found in its place. -/
theorem get?_replace {fs : FlagList} {name : String} {f : Flag} (hf : f.name = name)
    (h : fs.has name = true) : get? (replace (·.name = name) f fs) name = some f := by
  induction fs with
  | nil => simp [has, get?] at h
  | cons g gs ih =>
    by_cases hg : g.name = name
    · simp [replace, get?, hg, hf]
    · have hgs : has gs name = true := by simpa [has, get?, hg] using h
      simpa [replace, get?, hg] using ih hgs

/-- The flags of other names stay where they are. -/
theorem get?_replace_of_ne {fs : FlagList} {name other : String} {f : Flag} (hf : f.name = name)
    (hn : other ≠ name) : get? (replace (·.name = name) f fs) other = get? fs other := by
  induction fs with
  | nil => rfl
  | cons g gs ih =>
    by_cases hg : g.name = name
    · have h1 : ¬ name = other := fun e => hn e.symm
      simp [replace, get?, hg, hf, h1]
    · by_cases ho : g.name = other
      · simp [replace, get?, ho, hn]
      · simpa [replace, get?, hg, ho] using ih

end FlagList

end BrokerCli
