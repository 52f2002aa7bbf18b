import Mathlib.Algebra.Ring.Nat
import Mathlib.Data.List.Basic
import Mathlib.Data.List.TakeWhile
import BrokerCli.Version
import BrokerCli.Proofs.Numerals

/-!
# What a serial tells about a version

A serial is meant to be six digits, two for each number of the version. Two is only the LEAST number of digits
of each part, though, so a number from 100 on makes the serial longer, and then it may be that of another
version, too. So

* `Version.Names` -- which numbers a version text has, without the reader of them;
* `Text.zeroFilled` -- digits that denote the number; they keep to their width if the number does
  (`length_zeroFilled_eq_iff`);
* `Version.decoded?` -- the numbers that six digits stand for;
* `Version.serial_six_iff` -- the serial has six digits, and stands for the numbers of the version, exactly if
  all of them are below 100;
* `Version.serial_not_six` -- there are versions whose serial is longer, and is that of another one.
-/

namespace BrokerCli

/-! ## 1. Pieces and digits -/

namespace Text

variable {separator : Char} {cs p : List Char} {ps : List (List Char)}

/-- There is more than one piece if there is a separator; the others are the pieces of what is behind it. -/
theorem pieces_eq_cons_cons_iff {q : List Char} : pieces separator cs = p :: q :: ps ↔
    separator ∉ p ∧ ∃ rest, cs = p ++ separator :: rest ∧ pieces separator rest = q :: ps := by
  constructor
  · intro h
    induction cs generalizing p with
    | nil => simp [pieces] at h
    | cons c cs ih =>
      rw [pieces] at h
      split at h
      · rename_i hc
        obtain ⟨rfl, hcs⟩ := List.cons.inj h
        exact ⟨List.not_mem_nil, cs, by rw [hc, List.nil_append], hcs⟩
      · rename_i hc
        split at h
        · cases h
        · rename_i p' ps' hcs
          obtain ⟨rfl, rfl⟩ := List.cons.inj h
          obtain ⟨hp, rest, rfl, hrest⟩ := ih hcs
          exact ⟨List.not_mem_cons_of_ne_of_not_mem (Ne.symm hc) hp, rest, rfl, hrest⟩
  · rintro ⟨hp, rest, rfl, hrest⟩
    rw [pieces_append_cons hp, hrest]

/-- What a text begins with is in its first piece, if the separator is nothing of the kind. -/
theorem takeWhile_of_pieces {f : Char → Bool} (hf : f separator = false) (h : pieces separator cs = p :: ps) :
    p.takeWhile f = cs.takeWhile f := by
  induction cs generalizing p ps with
  | nil =>
    obtain ⟨rfl, -⟩ := List.cons.inj h
    rfl
  | cons c cs ih =>
    rw [pieces] at h
    split at h
    · rename_i hc
      obtain ⟨rfl, -⟩ := List.cons.inj h
      rw [hc, List.takeWhile_cons_of_neg (by rw [hf]; decide), List.takeWhile_nil]
    · split at h
      · rename_i hcs
        exact absurd hcs (pieces_ne_nil separator cs)
      · rename_i p' ps' hcs
        obtain ⟨rfl, -⟩ := List.cons.inj h
        rw [List.takeWhile_cons, List.takeWhile_cons, ih hcs]

/-- An unsigned number has no other characters than a plus sign and digits. -/
theorem Unsigned.notMem {c : Char} {n : Nat} (hc : c.isDigit = false) (hplus : c ≠ '+') (h : Unsigned cs n) :
    c ∉ cs := by
  have hdigits {digits : List Char} (hd : Denotes digits n) : c ∉ digits := by
    intro hmem
    rw [hd.all c hmem] at hc
    cases hc
  cases h with
  | bare hd => exact hdigits hd
  | plus hd => exact List.not_mem_cons_of_ne_of_not_mem hplus (hdigits hd)

/-- A text denotes one number. -/
theorem Unsigned.unique {m n : Nat} (hm : Unsigned cs m) (hn : Unsigned cs n) : m = n := by
  have h : some (m : Int) = some (n : Int) := by
    rw [← readInt?_eq_some_iff.2 (.unsigned hm), ← readInt?_eq_some_iff.2 (.unsigned hn)]
  exact Int.ofNat.inj (Option.some.inj h)

variable {width n : Nat}

/-- The zeros in front do not change the number. -/
theorem denotes_zeroFilled (width n : Nat) : Denotes (zeroFilled width n).toList n := by
  rw [zeroFilled, String.toList_ofList]
  refine ⟨fun h => digitsOf_ne_nil n (List.append_eq_nil_iff.1 h).2, ?_, ?_⟩
  · intro d hd
    rcases List.mem_append.1 hd with hd | hd
    · rw [List.eq_of_mem_replicate hd]
      rfl
    · exact isDigit_of_mem_digitsOf hd
  · rw [Nat.ofDigitChars_append, Nat.ofDigitChars_replicate_zero, Nat.mul_zero]
    exact Nat.ofDigitChars_ten_toDigits

theorem length_zeroFilled (width n : Nat) : (zeroFilled width n).length = max width (digitsOf n).length := by
  rw [zeroFilled, String.length_ofList, List.length_append, List.length_replicate]
  omega

theorem le_length_zeroFilled (width n : Nat) : width ≤ (zeroFilled width n).length :=
  length_zeroFilled width n ▸ Nat.le_max_left _ _

/-- Digits keep to the width that they are filled up to if the number is small enough. -/
theorem length_zeroFilled_eq_iff (hwidth : 0 < width) : (zeroFilled width n).length = width ↔ n < 10 ^ width := by
  rw [length_zeroFilled, ← Nat.length_toDigits_le_iff (by decide : 1 < 10) hwidth, digitsOf]
  omega

end Text

namespace Version

open Text

variable {version s : String} {major minor patch : Nat}

/-! ## 2. The numbers of a version -/

/-- The text has these three numbers, with dots between them, and whatever suffix. -/
def Names (version : String) (major minor patch : Nat) : Prop :=
  ∃ first second rest, version.toList = first ++ '.' :: (second ++ '.' :: rest) ∧ Unsigned first major ∧
    Unsigned second minor ∧ Denotes (rest.takeWhile Char.isDigit) patch

/-- These are the numbers of the first three pieces. -/
theorem names_iff_pieces : Names version major minor patch ↔ ∃ first second third more,
    pieces '.' version.toList = first :: second :: third :: more ∧ Unsigned first major ∧
      Unsigned second minor ∧ Denotes (third.takeWhile Char.isDigit) patch := by
  constructor
  · rintro ⟨first, second, rest, hversion, hfirst, hsecond, hrest⟩
    obtain ⟨third, more, hpieces⟩ := List.exists_cons_of_ne_nil (pieces_ne_nil '.' rest)
    refine ⟨first, second, third, more, ?_, hfirst, hsecond, ?_⟩
    · have hdot₁ : '.' ∉ first := hfirst.notMem rfl (by decide)
      have hdot₂ : '.' ∉ second := hsecond.notMem rfl (by decide)
      rw [hversion, pieces_append_cons hdot₁, pieces_append_cons hdot₂, hpieces]
    · rw [takeWhile_of_pieces rfl hpieces]
      exact hrest
  · rintro ⟨first, second, third, more, hpieces, hfirst, hsecond, hthird⟩
    obtain ⟨-, rest₁, hversion, hrest₁⟩ := pieces_eq_cons_cons_iff.1 hpieces
    obtain ⟨-, rest, rfl, hrest⟩ := pieces_eq_cons_cons_iff.1 hrest₁
    rw [takeWhile_of_pieces rfl hrest] at hthird
    exact ⟨first, second, rest, hversion, hfirst, hsecond, hthird⟩

/-- A version has its numbers only. -/
theorem Names.unique {major' minor' patch' : Nat} (h : Names version major minor patch)
    (h' : Names version major' minor' patch') : major = major' ∧ minor = minor' ∧ patch = patch' := by
  obtain ⟨first, second, third, more, hpieces, hfirst, hsecond, hthird⟩ := names_iff_pieces.1 h
  obtain ⟨first', second', third', more', hpieces', hfirst', hsecond', hthird'⟩ := names_iff_pieces.1 h'
  rw [hpieces] at hpieces'
  cases hpieces'
  exact ⟨hfirst.unique hfirst', hsecond.unique hsecond', hthird.value.symm.trans hthird'.value⟩

/-- **The numbers that are read are those that the version has**, and they fit a word each. -/
theorem numbers?_eq_some_iff {a b c : UInt32} :
    numbers? version = some (a, b, c) ↔ Names version a.toNat b.toNat c.toNat := by
  rw [names_iff_pieces]
  unfold numbers?
  constructor
  · intro h
    split at h
    · rename_i first second third more hpieces
      simp only [Option.bind_eq_bind, Option.bind_eq_some_iff, Option.pure_def, Option.some_inj] at h
      obtain ⟨a', ha, b', hb, c', hc, heq⟩ := h
      cases heq
      refine ⟨first, second, third, more, hpieces, readWord32?_eq_some_iff.1 ha,
        readWord32?_eq_some_iff.1 hb, (unsigned_iff_of_no_plus ?_).1 (readWord32?_eq_some_iff.1 hc)⟩
      intro digits hplus
      have hdigit := List.mem_takeWhile_imp (hplus ▸ List.mem_cons_self : '+' ∈ third.takeWhile Char.isDigit)
      cases hdigit
    · cases h
  · rintro ⟨first, second, third, more, hpieces, hfirst, hsecond, hthird⟩
    simp only [hpieces, readWord32?_eq_some_iff.2 hfirst, readWord32?_eq_some_iff.2 hsecond,
      readWord32?_eq_some_iff.2 (.bare hthird)]
    rfl

/-- **Which texts have a serial, and which one.** -/
theorem serial?_eq_some_iff : serial? version = some s ↔ ∃ major minor patch, Names version major minor patch ∧
    major < 2 ^ 32 ∧ minor < 2 ^ 32 ∧ patch < 2 ^ 32 ∧
    s = zeroFilled 2 major ++ zeroFilled 2 minor ++ zeroFilled 2 patch := by
  rw [serial?, Option.map_eq_some_iff]
  constructor
  · rintro ⟨⟨a, b, c⟩, h, rfl⟩
    exact ⟨a.toNat, b.toNat, c.toNat, numbers?_eq_some_iff.1 h, a.toNat_lt, b.toNat_lt, c.toNat_lt, rfl⟩
  · rintro ⟨major, minor, patch, hnames, hmajor, hminor, hpatch, rfl⟩
    refine ⟨(.ofNat major, .ofNat minor, .ofNat patch), numbers?_eq_some_iff.2 ?_, ?_⟩
    · rw [UInt32.toNat_ofNat_of_lt' hmajor, UInt32.toNat_ofNat_of_lt' hminor, UInt32.toNat_ofNat_of_lt' hpatch]
      exact hnames
    · simp only [UInt32.toNat_ofNat_of_lt' hmajor, UInt32.toNat_ofNat_of_lt' hminor,
        UInt32.toNat_ofNat_of_lt' hpatch]

/-! ## 3. Six digits -/

/-- The numbers that six digits stand for, two digits each. -/
def decoded? (serial : String) : Option (Nat × Nat × Nat) :=
  match serial.toList with
  | [a, b, c, d, e, f] => do
    let major ← readNat? [a, b]
    let minor ← readNat? [c, d]
    let patch ← readNat? [e, f]
    return (major, minor, patch)
  | _ => none

theorem length_of_decoded {numbers : Nat × Nat × Nat} (h : decoded? s = some numbers) : s.length = 6 := by
  unfold decoded? at h
  split at h
  · rename_i hs
    rw [← String.length_toList, hs]
    rfl
  · cases h

/-- Two digits, two digits, and two digits are decoded part by part. -/
theorem decoded?_append {x y z : String} (hx : x.length = 2) (hy : y.length = 2) (hz : z.length = 2)
    (hmajor : Denotes x.toList major) (hminor : Denotes y.toList minor) (hpatch : Denotes z.toList patch) :
    decoded? (x ++ y ++ z) = some (major, minor, patch) := by
  rw [← String.length_toList] at hx hy hz
  obtain ⟨a, b, hab⟩ := List.length_eq_two.1 hx
  obtain ⟨c, d, hcd⟩ := List.length_eq_two.1 hy
  obtain ⟨e, f, hef⟩ := List.length_eq_two.1 hz
  have hchars : (x ++ y ++ z).toList = [a, b, c, d, e, f] := by
    rw [String.toList_append, String.toList_append, hab, hcd, hef]
    rfl
  rw [hab] at hmajor
  rw [hcd] at hminor
  rw [hef] at hpatch
  simp only [decoded?, hchars, readNat?_eq_some_iff.2 hmajor, readNat?_eq_some_iff.2 hminor,
    readNat?_eq_some_iff.2 hpatch]
  rfl

/-- A serial has six digits if no number needs a third one. -/
theorem length_serial (major minor patch : Nat) :
    (zeroFilled 2 major ++ zeroFilled 2 minor ++ zeroFilled 2 patch).length = 6 ↔
      major < 100 ∧ minor < 100 ∧ patch < 100 := by
  have hparts (n : Nat) : (zeroFilled 2 n).length = 2 ↔ n < 100 := length_zeroFilled_eq_iff (by decide)
  have hmajor : 2 ≤ (zeroFilled 2 major).length := le_length_zeroFilled 2 major
  have hminor : 2 ≤ (zeroFilled 2 minor).length := le_length_zeroFilled 2 minor
  have hpatch : 2 ≤ (zeroFilled 2 patch).length := le_length_zeroFilled 2 patch
  rw [← hparts major, ← hparts minor, ← hparts patch, String.length_append, String.length_append]
  omega

/-- And then it is decoded. -/
theorem decoded?_serial (h : major < 100 ∧ minor < 100 ∧ patch < 100) :
    decoded? (zeroFilled 2 major ++ zeroFilled 2 minor ++ zeroFilled 2 patch) = some (major, minor, patch) :=
  have hlength {n : Nat} (hn : n < 100) : (zeroFilled 2 n).length = 2 :=
    (length_zeroFilled_eq_iff (by decide)).2 hn
  decoded?_append (hlength h.1) (hlength h.2.1) (hlength h.2.2) (denotes_zeroFilled 2 major)
    (denotes_zeroFilled 2 minor) (denotes_zeroFilled 2 patch)

/-- **A serial has six digits, and stands for the numbers of its version, exactly if these are below 100.** It
    never has fewer digits. If it has six, then every version with this serial has these numbers. -/
theorem serial_six_iff (h : serial? version = some s) : ∃ major minor patch, Names version major minor patch ∧
    (∀ c ∈ s.toList, c.isDigit = true) ∧ 6 ≤ s.length ∧
    (s.length = 6 ↔ major < 100 ∧ minor < 100 ∧ patch < 100) ∧
    (decoded? s = some (major, minor, patch) ↔ major < 100 ∧ minor < 100 ∧ patch < 100) ∧
    (s.length = 6 → ∀ other, serial? other = some s → Names other major minor patch) := by
  obtain ⟨major, minor, patch, hnames, -, -, -, rfl⟩ := serial?_eq_some_iff.1 h
  refine ⟨major, minor, patch, hnames, ?_, ?_, length_serial major minor patch, ?_, ?_⟩
  · intro c hc
    rw [String.toList_append, String.toList_append, List.mem_append, List.mem_append] at hc
    rcases hc with (hc | hc) | hc <;> exact (denotes_zeroFilled 2 _).all c hc
  · have hmajor : 2 ≤ (zeroFilled 2 major).length := le_length_zeroFilled 2 major
    have hminor : 2 ≤ (zeroFilled 2 minor).length := le_length_zeroFilled 2 minor
    have hpatch : 2 ≤ (zeroFilled 2 patch).length := le_length_zeroFilled 2 patch
    rw [String.length_append, String.length_append]
    omega
  · constructor
    · intro hdecoded
      exact (length_serial major minor patch).1 (length_of_decoded hdecoded)
    · exact decoded?_serial
  · intro hsix other hother
    obtain ⟨major', minor', patch', hnames', -, -, -, heq⟩ := serial?_eq_some_iff.1 hother
    -- Both are decoded from the one text of six digits.
    have hdecoded := decoded?_serial ((length_serial major minor patch).1 hsix)
    rw [heq] at hsix hdecoded
    rw [decoded?_serial ((length_serial major' minor' patch').1 hsix)] at hdecoded
    cases hdecoded
    exact hnames'

/-- A version with a suffix, and its serial. -/
theorem serial_six_suffix : serial? "1.12.3-rc1" = some "011203" ∧
    ∃ major minor patch, Names "1.12.3-rc1" major minor patch ∧
    (∀ c ∈ "011203".toList, c.isDigit = true) ∧ 6 ≤ "011203".length ∧
    ("011203".length = 6 ↔ major < 100 ∧ minor < 100 ∧ patch < 100) ∧
    (decoded? "011203" = some (major, minor, patch) ↔ major < 100 ∧ minor < 100 ∧ patch < 100) ∧
    ("011203".length = 6 → ∀ other, serial? other = some "011203" → Names other major minor patch) :=
  have h : serial? "1.12.3-rc1" = some "011203" := by decide
  ⟨h, serial_six_iff h⟩

/-- There are serials of seven digits, and such a serial can be that of two versions with different numbers. -/
theorem serial_not_six : (∃ version s, serial? version = some s ∧ s.length ≠ 6) ∧
    ∃ version other s, serial? version = some s ∧ serial? other = some s ∧ numbers? version ≠ numbers? other :=
  ⟨⟨"1.100.0", "0110000", by decide⟩, "10.0.100", "100.1.0", "1000100", by decide⟩

end Version

end BrokerCli
