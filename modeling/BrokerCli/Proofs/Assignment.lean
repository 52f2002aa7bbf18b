import BrokerCli.Flag.Option
import BrokerCli.Proofs.Numerals

/-!
# Giving a value to a flag

A flag takes a value or refuses it. Here both are said for all kinds of flags and all values at once:

* `Flag.Converts` -- what a flag of each kind makes of a value. A value that makes nothing of it is refused
  (`taken_eq_ok_iff`);
* `Flag.store` -- the value is written into the flag in place, one field after the other, which is the same
  as making another flag of it (`attempt_eq`): a refusal comes before the first write;
* `Flag.assign_valueText` -- a flag takes its own value as a text, and keeps it;
* `FlagList.apply_of_refused` -- an option of a truth value tries the argument behind it, and where that is
  refused it is as if it had not been looked at;
* `Flag.assign_spec` -- all of this.
-/

namespace BrokerCli

namespace Flag

variable {f : Flag} {content content' : FlagContent} {g : Given} {s : String}

/-! ## 1. What is taken -/

/-- The words for a truth value, in lower case. -/
def truthWords : Bool → List String
  | true => ["true", "on"]
  | false => ["false", "off"]

theorem truthWord?_eq_some_iff {b : Bool} : truthWord? s = some b ↔ Text.lower s ∈ truthWords b := by
  unfold truthWord?
  constructor
  · intro h
    split at h <;> cases h <;> simp [truthWords, *]
  · intro h
    cases b <;> simp only [truthWords, List.mem_cons, List.not_mem_nil, or_false] at h <;>
      rcases h with h | h <;> rw [h] <;> rfl

/-- What becomes of a content that is given a value. -/
inductive Converts : FlagContent → Given → FlagContent → Prop where
  | text (old : String) (features : TextFeatures) (s : String) :
      Converts (.text old features) (.text s) (.text s features)
  | truth (old b : Bool) : Converts (.truth old) (.truth b) (.truth b)
  | word (old : Bool) {b : Bool} {s : String} (h : Text.lower s ∈ truthWords b) :
      Converts (.truth old) (.text s) (.truth b)
  | number (old n : Int64) : Converts (.number old) (.number n) (.number n)
  | numeral (old : Int64) {n : Int64} {s : String} (h : Text.Signed s.toList n.toInt) :
      Converts (.number old) (.text s) (.number n)

/-- **A value is taken if it can be converted, and then it is what it is converted to.** -/
theorem taken_eq_ok_iff : taken content g = .ok content' ↔ Converts content g content' := by
  constructor
  · intro h
    unfold taken at h
    split at h
    · cases h
      exact .text ..
    · cases h
    · cases h
      exact .truth ..
    · split at h
      · rename_i hb
        cases h
        exact .word _ (truthWord?_eq_some_iff.1 hb)
      · cases h
    · cases h
    · cases h
      exact .number ..
    · split at h
      · rename_i hn
        cases h
        exact .numeral _ (Text.readInt64?_eq_some_iff.1 hn)
      · cases h
    · cases h
  · intro h
    cases h with
    | text => rfl
    | truth => rfl
    | word _ h => simp only [taken, truthWord?_eq_some_iff.2 h]
    | number => rfl
    | numeral _ h => simp only [taken, Text.readInt64?_eq_some_iff.2 h]

/-- A flag either takes a value, or makes nothing of it and refuses. -/
theorem assign_cases (f : Flag) (g : Given) :
    (∃ content, Converts f.content g content ∧ f.assign g = .ok (f.setTo content)) ∨
      ∃ e, (∀ content, ¬ Converts f.content g content) ∧ f.assign g = .error e := by
  unfold assign
  cases h : taken f.content g with
  | ok content => exact .inl ⟨content, taken_eq_ok_iff.1 h, rfl⟩
  | error e =>
    refine .inr ⟨e, fun content hcontent => ?_, rfl⟩
    rw [taken_eq_ok_iff.2 hcontent] at h
    cases h

/-- A flag for numbers takes the texts of the numbers of 64 bits. -/
theorem assign_text_of_number_iff {old : Int64} (hf : f.content = .number old) :
    (∃ f', f.assign (.text s) = .ok f') ↔ ∃ z, Text.Signed s.toList z ∧ -2 ^ 63 ≤ z ∧ z < 2 ^ 63 := by
  rw [← Text.exists_readInt64?_iff, assign_text_of_number hf]
  cases Text.readInt64? s with
  | none => simp
  | some n => simp

/-! ## 2. In place -/

/-- A step that may refuse, with a flag as its state. -/
abbrev InPlace := ExceptT AssignError (StateM Flag)

/-- How a step on a flag ends, and what the flag is then. -/
def InPlace.perform {α : Type} (x : InPlace α) (f : Flag) : Except AssignError α × Flag :=
  StateT.run (ExceptT.run x) f

/-- The truth value that is given. -/
def truthOf : Given → Except AssignError Bool
  | .truth b => .ok b
  | .text s => match truthWord? s with
    | some b => .ok b
    | none => .error (.noTruthWord s)
  | .number _ => .error .notTruth

/-- The number that is given. -/
def numberOf : Given → Except AssignError Int64
  | .number n => .ok n
  | .text s => match Text.readInt64? s with
    | some n => .ok n
    | none => .error (.noNumeral s)
  | .truth _ => .error .notNumber

theorem taken_truth (old : Bool) (g : Given) : taken (.truth old) g = (truthOf g).map .truth := by
  cases g with
  | text s => cases h : truthWord? s <;> simp only [taken, truthOf, h, Except.map]
  | truth | number => rfl

theorem taken_number (old : Int64) (g : Given) : taken (.number old) g = (numberOf g).map .number := by
  cases g with
  | text s => cases h : Text.readInt64? s <;> simp only [taken, numberOf, h, Except.map]
  | truth | number => rfl

/-- First the value is written, then the flag is marked as set. -/
def write (content : FlagContent) : InPlace Unit := do
  modify fun f => { f with content }
  modify fun f => { f with isSet := true }

/-- A value is given to a flag of the kind of this content. -/
def store (content : FlagContent) (g : Given) : InPlace Unit :=
  match content with
  | .text _ features => match g with
    | .text s => write (.text s features)
    | _ => throw .notText
  | .truth _ => do write (.truth (← truthOf g))
  | .number _ => do write (.number (← numberOf g))

/-- The flag after a value was given in place, and whether it was taken. -/
def attempt (f : Flag) (g : Given) : Except AssignError Unit × Flag := (store f.content g).perform f

/-- **In place the flag becomes what is made of it; a flag that refuses is as it was.** -/
theorem attempt_eq (f : Flag) (g : Given) : f.attempt g = match f.assign g with
    | .ok f' => (.ok (), f')
    | .error e => (.error e, f) := by
  unfold attempt assign
  cases f.content with
  | text old features => cases g <;> rfl
  | truth old =>
    rw [taken_truth]
    unfold store
    cases truthOf g <;> rfl
  | number old =>
    rw [taken_number]
    unfold store
    cases numberOf g <;> rfl

/-! ## 3. Back and forth -/

/-- The text of a value is converted to that value. -/
theorem converts_valueText (f : Flag) : Converts f.content (.text f.valueText) f.content := by
  unfold valueText
  cases f.content with
  | text s features => exact .text s features s
  | truth b => cases b <;> exact .word _ (by decide)
  | number n => exact .numeral n (Text.readInt64?_eq_some_iff.1 (Text.readInt64?_writeInt64 n))

/-- **A flag takes its own value as a text, and keeps it.** -/
theorem assign_valueText (f : Flag) : f.assign (.text f.valueText) = .ok { f with isSet := true } := by
  unfold assign
  rw [taken_eq_ok_iff.2 (converts_valueText f)]
  rfl

end Flag

/-! ## 4. Behind an option -/

variable {fs : FlagList} {o : OptionToken} {c : Cursor} {f : Flag} {s : String} {e : AssignError}

/-- A flag for truth values is true behind its option if it refuses the argument there, and the cursor is
    where it was. -/
theorem Flag.give_of_refused (hf : f.isTruth = true) (hs : c.peek? = some s)
    (hrefused : f.assign (.text s) = .error e) : f.give c = .ok (f.setTo (.truth true), c) := by
  unfold Flag.isTruth at hf
  split at hf
  · rename_i old hcontent
    unfold Flag.give
    simp only [hcontent, hs, hrefused, Cursor.back_next hs]
  · cases hf

/-- **Where an argument is refused by a flag for truth values, it is as if it had not been looked at**: the flag
    is true and set, the other flags are as they were, and so is the cursor. -/
theorem FlagList.apply_of_refused (hfind : fs.find? (·.answers o) = some f) (hf : f.isTruth = true)
    (hs : c.peek? = some s) (hrefused : f.assign (.text s) = .error e) :
    fs.apply o c = .ok (replace (·.answers o) (f.setTo (.truth true)) fs, c) := by
  unfold FlagList.apply
  simp only [hfind, Flag.give_of_refused hf hs hrefused]

/-- **A flag takes a value as a whole or not at all.**

    Either the value is converted, and the flag has it and is set; or it cannot be, and the flag is as it was.
    A flag for numbers takes digits with an optional sign, as long as the number has 64 bits. Every flag
    takes its own value as a text. And an option of a truth value reads the argument behind it as a whole
    or leaves it where it is. -/
theorem Flag.assign_spec (f : Flag) :
    (∀ g, (∃ content, Converts f.content g content ∧ f.assign g = .ok { f with isSet := true, content } ∧
        f.attempt g = (.ok (), { f with isSet := true, content })) ∨
      ∃ e, (∀ content, ¬ Converts f.content g content) ∧ f.assign g = .error e ∧ f.attempt g = (.error e, f)) ∧
    (∀ old s, f.content = .number old → ((∃ f', f.assign (.text s) = .ok f') ↔
      ∃ z, Text.Signed s.toList z ∧ -2 ^ 63 ≤ z ∧ z < 2 ^ 63)) ∧
    f.assign (.text f.valueText) = .ok { f with isSet := true } ∧
    (∀ (fs : FlagList) o (c : Cursor) s e, fs.find? (·.answers o) = some f → f.isTruth = true →
      c.peek? = some s → f.assign (.text s) = .error e →
      fs.apply o c =
        .ok (FlagList.replace (·.answers o) { f with isSet := true, content := .truth true } fs, c)) := by
  refine ⟨fun g => ?_, fun old s hf => assign_text_of_number_iff hf, assign_valueText f, ?_⟩
  · rcases assign_cases f g with ⟨content, hcontent, hassign⟩ | ⟨e, hcontent, hassign⟩
    · exact .inl ⟨content, hcontent, hassign, by rw [attempt_eq, hassign]; rfl⟩
    · exact .inr ⟨e, hcontent, hassign, by rw [attempt_eq, hassign]⟩
  · intro fs o c s e hfind hf hs hrefused
    exact FlagList.apply_of_refused hfind hf hs hrefused

/-- The command behind a truth value is left where it is, and a number with a sign is taken. -/
theorem Flag.assign_spec_examples :
    (FlagList.apply [{ name := "pretty", content := .truth false }] ⟨"pretty", ""⟩ { args := ["list"] } =
      .ok ([{ name := "pretty", isSet := true, content := .truth true }], { args := ["list"] })) ∧
    ∃ f', Flag.assign { name := "limit", content := .number 0 } (.text "-42") = .ok f' :=
  ⟨(assign_spec { name := "pretty", content := .truth false }).2.2.2 _ ⟨"pretty", ""⟩ { args := ["list"] } "list"
      (.noTruthWord "list") (by decide) rfl rfl rfl,
    ((assign_spec { name := "limit", content := .number 0 }).2.1 0 _ rfl).2
      ⟨-42, .minus ⟨by decide, List.all_eq_true.1 rfl, rfl⟩, by decide, by decide⟩⟩

end BrokerCli
