import BrokerCli.Text.CaseTable

/-!
# Letter case of a text

Levels, switches, choices and command names are compared without regard to case, and help pages
sort their headings by capitals. Three readings of "without regard to case" occur, and each has
its own function:

* `lower` -- the full lower case of a text: character by character, except that a capital sigma
  that ENDS a word becomes the final sigma;
* `upper` -- the full upper case of a text, where one character may become several;
* `asciiLower` -- the lower case of the ASCII letters only, every other character kept.

On a text of ASCII characters `lower` and `asciiLower` agree (`lower_of_ascii`).
-/

namespace BrokerCli.Text

/-! ## 1. One character -/

/-- The image of character number `n` on the first run that holds it. -/
def runTarget? (runs : List CaseRun) (n : Nat) : Option Char :=
  (runs.findSome? (·.target? n)).map Char.ofNat

/-- Whether character number `n` lies in one of the ranges. -/
def inRanges (ranges : List (Nat × Nat)) (n : Nat) : Bool :=
  ranges.any fun r => r.1 ≤ n && n ≤ r.2

/-- The lower case of a character on its own. Only the dotted capital I has two characters. -/
def lowerChar (c : Char) : List Char :=
  if c.toNat < 128 then [c.toLower]
  else if c = 'İ' then ['i', '\u0307']
  else [(runTarget? lowerRuns c.toNat).getD c]

/-- The upper case of a character, one to three characters. -/
def upperChar (c : Char) : List Char :=
  if c.toNat < 128 then [c.toUpper]
  else match upperExpansions.find? (·.1 = c.toNat) with
    | some (_, cs) => cs.map Char.ofNat
    | none => [(runTarget? upperRuns c.toNat).getD c]

/-- Whether a character is a letter with a case. -/
def isCased (c : Char) : Bool := inRanges casedRanges c.toNat

/-- Whether the search for a cased letter passes over a character. -/
def isCaseIgnorable (c : Char) : Bool := inRanges ignorableRanges c.toNat

/-! ## 2. A text -/

/-- Whether the first character that is not passed over is a cased letter. -/
def meetsCased (cs : List Char) : Bool :=
  match cs.dropWhile isCaseIgnorable with
  | c :: _ => isCased c
  | [] => false

/-- The lower case of a capital sigma between `before` (nearest character first) and `after`: the
    final form if a letter comes before it and none after. -/
def lowerSigma (before after : List Char) : Char :=
  if meetsCased before && !meetsCased after then 'ς' else 'σ'

/-- The lower case of `cs`, which follows `before` (nearest character first). -/
def lowerAfter (before : List Char) : List Char → List Char
  | [] => []
  | c :: cs =>
    (if c = 'Σ' then [lowerSigma before cs] else lowerChar c) ++ lowerAfter (c :: before) cs

/-- The lower case of a text. -/
def lower (s : String) : String := String.ofList (lowerAfter [] s.toList)

/-- The upper case of a text. -/
def upper (s : String) : String := String.ofList (s.toList.flatMap upperChar)

/-- The text with its ASCII letters in lower case. -/
def asciiLower (s : String) : String := String.ofList (s.toList.map Char.toLower)

/-! ## 3. ASCII texts -/

/-- Below 128 the lower case is one character, and ASCII's own. -/
theorem lowerChar_of_ascii {c : Char} (h : c.toNat < 128) : lowerChar c = [c.toLower] := by
  simp [lowerChar, h]

theorem lowerAfter_of_ascii {cs : List Char} (before : List Char) (h : ∀ c ∈ cs, c.toNat < 128) :
    lowerAfter before cs = cs.map Char.toLower := by
  induction cs generalizing before with
  | nil => rfl
  | cons c cs ih =>
    have hc : c.toNat < 128 := h c List.mem_cons_self
    have hs : c ≠ 'Σ' := by
      intro e
      subst e
      exact absurd hc (by decide)
    simp [lowerAfter, hs, lowerChar_of_ascii hc, ih (c :: before) (fun d hd => h d (List.mem_cons_of_mem c hd))]

/-- On a text of ASCII characters the full lower case is ASCII's. -/
theorem lower_of_ascii {s : String} (h : ∀ c ∈ s.toList, c.toNat < 128) : lower s = asciiLower s := by
  simp [lower, asciiLower, lowerAfter_of_ascii [] h]

end BrokerCli.Text
