/-!
# Numbers in decimal digits

How a whole number is read from a text and written as one:

* `readNat?` and `readInt?` -- one or more ASCII digits, with one optional sign for `readInt?`;
  nothing else is a number (no blank, no underscore, no digit of another script);
* `readInt64?` and `readWord32?` -- the same within the range of the word, and with a plus sign
  only for the unsigned one;
* `writeInt` -- the shortest digits with a minus sign where needed. Reading undoes it
  (`readInt?_writeInt`, `readInt64?_writeInt64`).
-/

namespace BrokerCli.Text

/-! ## 1. Reading -/

/-- The number that one or more ASCII digits denote. -/
def readNat? (cs : List Char) : Option Nat :=
  if !cs.isEmpty && cs.all Char.isDigit then some (Nat.ofDigitChars 10 cs 0) else none

/-- A number with an optional sign in front of its digits. -/
def readInt? : List Char → Option Int
  | '+' :: cs => (readNat? cs).map Int.ofNat
  | '-' :: cs => (readNat? cs).map fun n => -Int.ofNat n
  | cs => (readNat? cs).map Int.ofNat

/-- A signed number that fits 64 bits. -/
def readInt64? (s : String) : Option Int64 :=
  match readInt? s.toList with
  | some n => if Int64.minValue.toInt ≤ n ∧ n ≤ Int64.maxValue.toInt then some (Int64.ofInt n) else none
  | none => none

/-- An unsigned number that fits 32 bits; a plus sign may come before it. -/
def readWord32? (cs : List Char) : Option UInt32 :=
  let digits := match cs with
    | '+' :: rest => rest
    | _ => cs
  match readNat? digits with
  | some n => if n < UInt32.size then some (UInt32.ofNat n) else none
  | none => none

/-! ## 2. Writing -/

/-- The decimal digits of a number. -/
def digitsOf (n : Nat) : List Char := Nat.toDigits 10 n

/-- A number in decimal, with a minus sign if it is negative. -/
def writeInt : Int → String
  | .ofNat n => String.ofList (digitsOf n)
  | .negSucc n => String.ofList ('-' :: digitsOf (n + 1))

/-- A 64-bit number in decimal. -/
def writeInt64 (n : Int64) : String := writeInt n.toInt

/-- A number in decimal with at least `width` digits, filled up with zeros in front. -/
def zeroFilled (width n : Nat) : String :=
  String.ofList (List.replicate (width - (digitsOf n).length) '0' ++ digitsOf n)

/-! ## 3. Reading undoes writing -/

theorem isDigit_of_mem_digitsOf {n : Nat} {c : Char} (h : c ∈ digitsOf n) : c.isDigit = true :=
  Nat.isDigit_of_mem_toDigits (by decide) (by decide) h

theorem digitsOf_ne_nil (n : Nat) : digitsOf n ≠ [] := Nat.toDigits_ne_nil

@[simp] theorem readNat?_digitsOf (n : Nat) : readNat? (digitsOf n) = some n := by
  have hd : (digitsOf n).all Char.isDigit = true :=
    List.all_eq_true.2 fun c hc => isDigit_of_mem_digitsOf hc
  have hn : (digitsOf n).isEmpty = false := by simp [digitsOf_ne_nil]
  simp [readNat?, hd, hn]
  exact Nat.ofDigitChars_toDigits (by decide) (by decide)

/-- Digits carry no sign, so they read as a number without one. -/
theorem readInt?_digitsOf (n : Nat) : readInt? (digitsOf n) = some (n : Int) := by
  unfold readInt?
  split
  · rename_i cs h
    exact absurd (isDigit_of_mem_digitsOf (n := n) (c := '+') (by simp [h])) (by decide)
  · rename_i cs h
    exact absurd (isDigit_of_mem_digitsOf (n := n) (c := '-') (by simp [h])) (by decide)
  · simp

@[simp] theorem readInt?_writeInt (n : Int) : readInt? (writeInt n).toList = some n := by
  cases n with
  | ofNat n => simp [writeInt, readInt?_digitsOf]
  | negSucc n => simp [writeInt, readInt?, Int.negSucc_eq]

@[simp] theorem readInt64?_writeInt64 (n : Int64) : readInt64? (writeInt64 n) = some n := by
  have h1 : Int64.minValue.toInt ≤ n.toInt := Int64.minValue_le_toInt n
  have h2 : n.toInt ≤ Int64.maxValue.toInt := Int64.toInt_le n
  simpa [readInt64?, writeInt64, h2] using h1

end BrokerCli.Text
