import BrokerCli.Binary64

/-!
# Numbers of a JSON text

* `Numeral` -- a number as it is WRITTEN: sign, digits before and after the point, exponent;
  `Numeral.parse?` accepts exactly the words of the JSON grammar;
* `Json.Number` -- a number as it is KEPT: a whole number of the range of 64-bit words, signed or
  unsigned, or a binary number of double precision;
* `Numeral.value?` -- what is kept of a written number. A number with a point, an exponent or too
  many digits is kept as a binary number, and so is minus zero; one that is too large is none;
* `Json.Number.text` -- how a kept number is written.
-/

namespace BrokerCli

/-- A number as it is kept. -/
inductive Json.Number where
  | whole (n : Int)
  | real (x : Binary64)
deriving DecidableEq, Repr, Inhabited

/-- A number as it is written. Without a point there are no digits after it. -/
structure Numeral where
  negative : Bool
  whole : List Char
  fraction : List Char
  exponent : Option Int
deriving DecidableEq, Repr

namespace Numeral

/-! ## 1. The words that are numbers -/

/-- The digits at the front of a word, and what follows them. -/
def splitDigits (cs : List Char) : List Char × List Char :=
  (cs.takeWhile Char.isDigit, cs.dropWhile Char.isDigit)

/-- Whether digits may stand before the point: at least one, and no zero in front of another. -/
def isWholePart : List Char → Bool
  | [] => false
  | ['0'] => true
  | c :: _ => c ≠ '0'

/-- The exponent of a number, which takes up the whole rest of the word. -/
def parseExponent? : List Char → Option (Option Int)
  | [] => some none
  | c :: cs =>
    if c = 'e' ∨ c = 'E' then (Text.readInt? cs).map some else none

/-- The number that a word is, if it is one. -/
def parse? (word : List Char) : Option Numeral :=
  let negative := word.head? = some '-'
  let (whole, rest) := splitDigits (if negative then word.tail else word)
  if !isWholePart whole then none
  else match rest with
    | '.' :: cs =>
      let (fraction, rest) := splitDigits cs
      if fraction.isEmpty then none
      else (parseExponent? rest).map (⟨negative, whole, fraction, ·⟩)
    | rest => (parseExponent? rest).map (⟨negative, whole, [], ·⟩)

/-! ## 2. The value of a number -/

/-- As many digits as fit a 64-bit word, added to the number `n`; and the digits left over. -/
def fill (n : Nat) : List Char → Nat × List Char
  | [] => (n, [])
  | c :: cs =>
    let next := n * 10 + (c.toNat - '0'.toNat)
    if next < UInt64.size then fill next cs else (n, c :: cs)

/-- The magnitude as a binary number: digits that do not fit a 64-bit word are dropped, those before
    the point being made up for by the exponent. -/
def magnitude? (x : Numeral) : Option Binary64 :=
  let (n, dropped) := fill 0 x.whole
  let (n, unused) := fill n x.fraction
  let e : Int := dropped.length - ((x.fraction.length - unused.length : Nat) : Int) + x.exponent.getD 0
  Binary64.ofDecimal? n e

/-- The whole number that is kept of a numeral without point and exponent, if it fits. -/
def integer? (x : Numeral) : Option Int :=
  let n := Nat.ofDigitChars 10 x.whole 0
  if !x.fraction.isEmpty || x.exponent.isSome then none
  else if x.negative then (if 0 < n ∧ n ≤ UInt64.size / 2 then some (-(n : Int)) else none)
  else if n < UInt64.size then some n else none

/-- The number that is kept of a numeral, if it is not too large. -/
def value? (x : Numeral) : Option Json.Number :=
  match x.integer? with
  | some n => some (.whole n)
  | none => x.magnitude?.map fun m => .real { m with negative := x.negative }

end Numeral

/-! ## 3. Writing a number -/

/-- The digits of a positive binary number: positional from `1e-5` up to below `1e16`, always with a
    point; otherwise one digit before the point and an exponent, always with a sign. -/
def Binary64.digits (x : Binary64) : List Char :=
  let (d, k) := x.shortest
  let ds := Text.digitsOf d
  let point : Int := ds.length + k
  if 0 ≤ k ∧ point ≤ 16 then ds ++ List.replicate k.toNat '0' ++ ['.', '0']
  else if 0 < point ∧ point ≤ 16 then ds.take point.toNat ++ '.' :: ds.drop point.toNat
  else if -5 < point ∧ point ≤ 0 then '0' :: '.' :: List.replicate (-point).toNat '0' ++ ds
  else
    ds.take 1 ++ (if ds.length = 1 then [] else '.' :: ds.drop 1) ++
      'e' :: (if 0 < point then ['+'] else []) ++ (Text.writeInt (point - 1)).toList

/-- A binary number as it is written. -/
def Binary64.text (x : Binary64) : List Char :=
  (if x.negative then ['-'] else []) ++ if x.significand = 0 then ['0', '.', '0'] else x.digits

/-- A number as it is written. -/
def Json.Number.text : Json.Number → List Char
  | whole n => (Text.writeInt n).toList
  | real x => x.text

end BrokerCli
