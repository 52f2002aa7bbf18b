import Mathlib.Algebra.Ring.Int.Defs
import BrokerCli.Text.Digits

/-!
# Which texts are numbers

The readers of numbers (`Text.readInt64?`, `Text.readWord32?`) look at a sign, at digits, and at the range of
a word. Here it is said without them what a text must look like, and which number it is then:

* `Denotes` -- digits, and their number; `Unsigned` -- with a plus sign before them, or without;
  `Signed` -- with any sign or without;
* `readNat?_eq_some_iff`, `readInt?_eq_some_iff`, `readInt64?_eq_some_iff`, `readWord32?_eq_some_iff` -- each
  reader reads these texts and no others, as far as its words reach.
-/

namespace BrokerCli.Text

/-! ## 1. Digits and signs -/

/-- One or more ASCII digits, and the number that they denote. -/
structure Denotes (digits : List Char) (n : Nat) : Prop where
  some : digits ≠ []
  all : ∀ d ∈ digits, d.isDigit = true
  value : Nat.ofDigitChars 10 digits 0 = n

/-- Digits, or a plus sign and digits. -/
inductive Unsigned : List Char → Nat → Prop where
  | bare {digits : List Char} {n : Nat} (h : Denotes digits n) : Unsigned digits n
  | plus {digits : List Char} {n : Nat} (h : Denotes digits n) : Unsigned ('+' :: digits) n

/-- Digits with an optional sign before them. -/
inductive Signed : List Char → Int → Prop where
  | unsigned {cs : List Char} {n : Nat} (h : Unsigned cs n) : Signed cs n
  | minus {digits : List Char} {n : Nat} (h : Denotes digits n) : Signed ('-' :: digits) (-n)

variable {cs digits : List Char} {c : Char} {n : Nat}

/-- A sign is no digit. -/
theorem not_denotes_cons (hc : c.isDigit = false) : ¬ Denotes (c :: cs) n := by
  intro h
  rw [h.all c List.mem_cons_self] at hc
  cases hc

/-- Behind a plus sign there are digits. -/
theorem unsigned_plus_iff : Unsigned ('+' :: digits) n ↔ Denotes digits n := by
  constructor
  · intro h
    cases h with
    | bare h => exact absurd h (not_denotes_cons rfl)
    | plus h => exact h
  · exact .plus

/-- Without a plus sign there is nothing but digits. -/
theorem unsigned_iff_of_no_plus (hc : ∀ digits, cs ≠ '+' :: digits) : Unsigned cs n ↔ Denotes cs n := by
  constructor
  · intro h
    cases h with
    | bare h => exact h
    | plus => exact absurd rfl (hc _)
  · exact .bare

/-- Behind a minus sign there are digits, and the number is a negative one, or zero. -/
theorem signed_minus_iff {z : Int} : Signed ('-' :: digits) z ↔ ∃ n : Nat, Denotes digits n ∧ -n = z := by
  constructor
  · intro h
    cases h with
    | unsigned h =>
      cases h with
      | bare h => exact absurd h (not_denotes_cons rfl)
    | minus h => exact ⟨_, h, rfl⟩
  · rintro ⟨n, h, rfl⟩
    exact .minus h

/-- Without a minus sign the number is none below zero. -/
theorem signed_iff_of_no_minus {z : Int} (hc : ∀ digits, cs ≠ '-' :: digits) :
    Signed cs z ↔ ∃ n : Nat, Unsigned cs n ∧ n = z := by
  constructor
  · intro h
    cases h with
    | unsigned h => exact ⟨_, h, rfl⟩
    | minus => exact absurd rfl (hc _)
  · rintro ⟨n, h, rfl⟩
    exact .unsigned h

/-! ## 2. What is read -/

theorem readNat?_eq_some_iff : readNat? cs = some n ↔ Denotes cs n := by
  unfold readNat?
  constructor
  · intro h
    split at h
    · rename_i hcs
      simp only [Bool.and_eq_true, Bool.not_eq_true', List.isEmpty_eq_false_iff, List.all_eq_true] at hcs
      exact ⟨hcs.1, hcs.2, Option.some.inj h⟩
    · cases h
  · rintro ⟨hsome, hall, rfl⟩
    have hcs : (!cs.isEmpty && cs.all Char.isDigit) = true := by
      simp only [Bool.and_eq_true, Bool.not_eq_true', List.isEmpty_eq_false_iff, List.all_eq_true]
      exact ⟨hsome, hall⟩
    rw [if_pos hcs]

/-- **A number may have a sign, and has digits**; nothing else is one. -/
theorem readInt?_eq_some_iff {z : Int} : readInt? cs = some z ↔ Signed cs z := by
  unfold readInt?
  split
  · rw [signed_iff_of_no_minus (by simp)]
    simp only [Option.map_eq_some_iff, readNat?_eq_some_iff, unsigned_plus_iff, Int.ofNat_eq_natCast]
  · simp only [Option.map_eq_some_iff, readNat?_eq_some_iff, signed_minus_iff, Int.ofNat_eq_natCast]
  · rename_i hplus hminus
    rw [signed_iff_of_no_minus hminus]
    simp only [Option.map_eq_some_iff, readNat?_eq_some_iff, unsigned_iff_of_no_plus hplus,
      Int.ofNat_eq_natCast]

/-- **A word of 64 bits is read from the texts of its number**, and from no others. -/
theorem readInt64?_eq_some_iff {s : String} {n : Int64} : readInt64? s = some n ↔ Signed s.toList n.toInt := by
  unfold readInt64?
  constructor
  · intro h
    split at h
    · rename_i z hz
      split at h
      · rename_i hrange
        have hn : n.toInt = z := by
          rw [← Option.some.inj h]
          exact Int64.toInt_ofInt_of_le hrange.1 (Int.lt_add_one_of_le hrange.2)
        rw [hn]
        exact readInt?_eq_some_iff.1 hz
      · cases h
    · cases h
  · intro h
    have hlow : Int64.minValue.toInt ≤ n.toInt := Int64.minValue_le_toInt n
    have hhigh : n.toInt ≤ Int64.maxValue.toInt := Int64.toInt_le n
    simp only [readInt?_eq_some_iff.2 h, hlow, hhigh, and_self, if_true, Int64.ofInt_toInt]

/-- A text is that of a word of 64 bits if its number is in their range. -/
theorem exists_readInt64?_iff {s : String} :
    (∃ n, readInt64? s = some n) ↔ ∃ z, Signed s.toList z ∧ -2 ^ 63 ≤ z ∧ z < 2 ^ 63 := by
  constructor
  · rintro ⟨n, h⟩
    exact ⟨n.toInt, readInt64?_eq_some_iff.1 h, Int64.le_toInt n, Int64.toInt_lt n⟩
  · rintro ⟨z, h, hlow, hhigh⟩
    have hn : (Int64.ofInt z).toInt = z := Int64.toInt_ofInt_of_le hlow hhigh
    exact ⟨Int64.ofInt z, readInt64?_eq_some_iff.2 (hn.symm ▸ h)⟩

/-- **A word of 32 bits is read from the unsigned texts of its number**, and from no others. -/
theorem readWord32?_eq_some_iff {w : UInt32} : readWord32? cs = some w ↔ Unsigned cs w.toNat := by
  unfold readWord32?
  extract_lets digits
  have hdigits : Unsigned cs w.toNat ↔ Denotes digits w.toNat := by
    unfold digits
    split
    · exact unsigned_plus_iff
    · rename_i hplus
      exact unsigned_iff_of_no_plus hplus
  rw [hdigits, ← readNat?_eq_some_iff]
  generalize readNat? digits = read
  cases read with
  | none => simp
  | some n =>
    dsimp only
    split
    · rename_i hn
      have hofNat : (UInt32.ofNat n).toNat = n := UInt32.toNat_ofNat_of_lt' hn
      rw [Option.some_inj, Option.some_inj, ← UInt32.toNat_inj, hofNat]
    · rename_i hn
      have hw : w.toNat < UInt32.size := w.toNat_lt_size
      simp only [reduceCtorEq, Option.some_inj, false_iff]
      omega

end BrokerCli.Text
