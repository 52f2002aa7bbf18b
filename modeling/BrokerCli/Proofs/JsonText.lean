import Mathlib.Data.List.Forall2
import BrokerCli.Json.Printer
import BrokerCli.Json.Reader

/-!
# Reading what was written

Whatever layout a value is written in, the reader reads the value back. The machines of the reader go
through the written text part by part:

* `ofWord?_text` -- an integer of 64 bits is a word that says itself;
* `Reader.run_quoted` -- a written string is a string token, whatever is escaped in it;
* `Reader.Stands` -- a word ends only where the next character comes. A reader STANDS at a builder if
  that is where it gets when the word ends;
* `Reader.run_chars` -- after a written value the reader stands behind the document that says it;
* `Document.parse_text` -- so a text that was written parses, with white space behind it or not.
-/

namespace BrokerCli

/-! ## 1. Whole numbers -/

/-- What is kept of minus zero, which no whole number is. -/
def Json.Number.minusZero : Json.Number := .real ⟨true, 0, Binary64.leastExponent⟩

/-- An integer of the range of 64-bit words, signed or unsigned. -/
def Json.Number.IsInteger (n : Json.Number) : Prop :=
  n = minusZero ∨
    ∃ k : Int, n = .whole k ∧ -((UInt64.size / 2 : Nat) : Int) ≤ k ∧ k < (UInt64.size : Int)

namespace Numeral

/-- The digits of a positive number do not begin with a zero. -/
theorem digitsOf_of_pos {n : Nat} (h : 0 < n) : ∃ c cs, Text.digitsOf n = c :: cs ∧ c ≠ '0' := by
  unfold Text.digitsOf
  induction n using Nat.strongRecOn with
  | ind n ih =>
    by_cases hn : n < 10
    · refine ⟨n.digitChar, [], Nat.toDigits_of_lt_base hn, fun hc => ?_⟩
      have hall : ∀ m, m < 10 → 0 < m → m.digitChar ≠ '0' := by decide
      exact hall n hn h hc
    · obtain ⟨c, cs, hq, hc⟩ := ih (n / 10) (by omega) (by omega)
      refine ⟨c, cs ++ [(n % 10).digitChar], ?_, hc⟩
      rw [Nat.toDigits_of_base_le (by decide) (by omega), hq]
      rfl

theorem isWholePart_digitsOf (n : Nat) : isWholePart (Text.digitsOf n) = true := by
  rcases Nat.eq_zero_or_pos n with rfl | h
  · rfl
  · obtain ⟨c, cs, hd, hc⟩ := digitsOf_of_pos h
    rw [hd]
    unfold isWholePart
    split
    · rename_i h
      cases h
    · rfl
    · rename_i h
      cases h
      simpa using hc

theorem splitDigits_digitsOf (n : Nat) : splitDigits (Text.digitsOf n) = (Text.digitsOf n, []) := by
  have hall : ∀ cs : List Char, (∀ c ∈ cs, c.isDigit = true) →
      splitDigits cs = (cs, []) := by
    intro cs
    induction cs with
    | nil => exact fun _ => rfl
    | cons c cs ih =>
      intro h
      have hc : c.isDigit = true := h c List.mem_cons_self
      have hcs := ih fun d hd => h d (List.mem_cons_of_mem _ hd)
      simp only [splitDigits, Prod.mk.injEq] at hcs ⊢
      rw [List.takeWhile_cons_of_pos hc, List.dropWhile_cons_of_pos hc, hcs.1, hcs.2]
      exact ⟨rfl, rfl⟩
  exact hall _ fun c hc => Text.isDigit_of_mem_digitsOf hc

/-- A written whole number is a numeral with just its sign and digits. -/
theorem parse?_writeInt (k : Int) :
    parse? (Text.writeInt k).toList = some ⟨decide (k < 0), Text.digitsOf k.natAbs, [], none⟩ := by
  cases k with
  | ofNat n =>
    have hsign : (Text.digitsOf n).head? ≠ some '-' := by
      intro h
      have hd := Text.isDigit_of_mem_digitsOf (List.mem_of_head? h)
      revert hd
      decide
    have htext : (Text.writeInt (Int.ofNat n)).toList = Text.digitsOf n := by simp [Text.writeInt]
    have hneg : decide (Int.ofNat n < 0) = false := by simp
    rw [htext, hneg]
    simp only [parse?, hsign, decide_false, Bool.false_eq_true, if_false, splitDigits_digitsOf,
      isWholePart_digitsOf, Bool.not_true, parseExponent?]
    rfl
  | negSucc n =>
    have htext : (Text.writeInt (Int.negSucc n)).toList = '-' :: Text.digitsOf (n + 1) := by
      simp [Text.writeInt]
    have hneg : decide (Int.negSucc n < 0) = true := decide_eq_true (Int.negSucc_lt_zero n)
    rw [htext, hneg]
    simp only [parse?, List.head?_cons, decide_true, if_true, List.tail_cons, splitDigits_digitsOf,
      isWholePart_digitsOf, Bool.not_true, Bool.false_eq_true, if_false, parseExponent?]
    rfl

/-- What is kept of a written whole number of 64 bits is the number. -/
theorem value?_of_range {k : Int} (hl : -((UInt64.size / 2 : Nat) : Int) ≤ k)
    (hu : k < (UInt64.size : Int)) :
    value? ⟨decide (k < 0), Text.digitsOf k.natAbs, [], none⟩ = some (.whole k) := by
  have hn : Nat.ofDigitChars 10 (Text.digitsOf k.natAbs) 0 = k.natAbs :=
    Nat.ofDigitChars_ten_toDigits
  have hi : integer? ⟨decide (k < 0), Text.digitsOf k.natAbs, [], none⟩ = some k := by
    simp only [integer?, hn, List.isEmpty_nil, Bool.not_true, Option.isSome_none, Bool.or_self,
      Bool.false_eq_true, if_false, decide_eq_true_eq]
    by_cases hk : k < 0
    · have hb : 0 < k.natAbs ∧ k.natAbs ≤ UInt64.size / 2 := by omega
      rw [if_pos hk, if_pos hb]
      exact congrArg some (by omega)
    · have hb : k.natAbs < UInt64.size := by omega
      rw [if_neg hk, if_pos hb]
      exact congrArg some (by omega)
  unfold value?
  rw [hi]

end Numeral

namespace Document

/-! ## 2. Words -/

/-- The characters that end a word. -/
theorem mem_of_endsWord {c : Char} (h : endsWord c = true) :
    c ∈ [' ', '\t', '\n', '\r', '"', '[', ']', '\x7b', '\x7d', ',', ':'] := by
  unfold endsWord Json.isSpace Token.ofChar? at h
  split at h
  all_goals first
    | decide
    | simp only [Option.isSome_none, Bool.or_false, Bool.or_eq_true, decide_eq_true_eq] at h
      rcases h with (((rfl | rfl) | rfl) | rfl) | rfl <;> decide

/-- A digit ends no word, and neither does a minus sign. -/
theorem endsWord_of_mem_writeInt {k : Int} {c : Char} (hc : c ∈ (Text.writeInt k).toList) :
    endsWord c = false := by
  have hsign : c.isDigit = true ∨ c = '-' := by
    cases k with
    | ofNat n => exact Or.inl (Text.isDigit_of_mem_digitsOf (by simpa [Text.writeInt] using hc))
    | negSucc n =>
      have hm : c = '-' ∨ c ∈ Text.digitsOf (n + 1) := by simpa [Text.writeInt] using hc
      exact hm.symm.imp_left Text.isDigit_of_mem_digitsOf
  rw [← Bool.not_eq_true]
  intro h
  have hnone : ([' ', '\t', '\n', '\r', '"', '[', ']', '\x7b', '\x7d', ',', ':'].all fun d =>
      !(d.isDigit || d = '-')) = true := by decide
  have hc := List.all_eq_true.1 hnone c (mem_of_endsWord h)
  simp only [Bool.not_eq_true', Bool.or_eq_false_iff, decide_eq_false_iff_not] at hc
  rcases hsign with hd | hd
  · rw [hc.1] at hd
    cases hd
  · exact hc.2 hd

/-- Minus zero is a word that says itself. -/
theorem ofWord?_minusZero :
    ofWord? Json.Number.minusZero.text = some (.number (some Json.Number.minusZero)) := by
  have htext : Json.Number.minusZero.text = ['-', '0', '.', '0'] := rfl
  have hp : Numeral.parse? ['-', '0', '.', '0'] = some ⟨true, ['0'], ['0'], none⟩ := by decide
  have hv : Numeral.value? ⟨true, ['0'], ['0'], none⟩ = some Json.Number.minusZero := by
    decide +kernel
  unfold ofWord?
  rw [htext, if_neg (by decide), if_neg (by decide), if_neg (by decide), hp, Option.map_some, hv]

/-- **A written integer of 64 bits is a word that says itself.** -/
theorem ofWord?_text {n : Json.Number} (h : n.IsInteger) :
    ofWord? n.text = some (.number (some n)) ∧ n.text ≠ [] ∧ ∀ c ∈ n.text, endsWord c = false := by
  rcases h with rfl | ⟨k, rfl, hl, hu⟩
  · have hall : (Json.Number.minusZero.text.all fun c => !endsWord c) = true := by decide
    exact ⟨ofWord?_minusZero, by decide, fun c hc => by simpa using List.all_eq_true.1 hall c hc⟩
  have hp := Numeral.parse?_writeInt k
  have hword (w : List Char) (hw : Numeral.parse? w = none) : (Text.writeInt k).toList ≠ w := by
    intro e
    rw [e, hw] at hp
    cases hp
  refine ⟨?_, hword [] rfl, fun c hc => endsWord_of_mem_writeInt hc⟩
  unfold ofWord? Json.Number.text
  rw [if_neg (hword _ (by decide)), if_neg (hword _ (by decide)), if_neg (hword _ (by decide)), hp,
    Option.map_some, Numeral.value?_of_range hl hu]

namespace Reader

variable {r s : Reader} {b b' : Build} {cs ws rest : List Char} {c : Char}

theorem run_append (h : r.run cs = .ok s) : r.run (cs ++ rest) = s.run rest := by
  induction cs generalizing r with
  | nil =>
    cases h
    rfl
  | cons c cs ih =>
    rw [run] at h
    rw [List.cons_append, run]
    split
    · rename_i r₁ hr
      rw [hr] at h
      exact ih h
    · rename_i hr
      rw [hr] at h
      cases h

theorem run_cons (h : r.step? c = some s) : r.run (c :: cs) = s.run cs := by
  rw [run, h]

/-- A reader stands at a builder: it is between tokens there, or in a word that leads there. -/
inductive Stands : Reader → Build → Prop where
  | between (b : Build) : Stands ⟨.between, b⟩ b
  | word {read : List Char} {b b' : Build} (h : endWord? read b = some b') : Stands ⟨.word read, b⟩ b'

namespace Stands

theorem finish? (h : Stands r b) : r.finish? = b.done? := by
  cases h with
  | between => rfl
  | word h =>
    show (endWord? _ _).bind Build.done? = _
    rw [h]
    rfl

/-- A character that ends words is read as between tokens. -/
theorem step? (h : Stands r b) (hc : endsWord c = true) : r.step? c = between? b c := by
  cases h with
  | between => rfl
  | word h =>
    show (if endsWord c = true then _ else _) = _
    rw [if_pos hc, h]
    rfl

theorem run_cons (h : Stands r b) (hc : endsWord c = true) :
    r.run (c :: rest) = (⟨.between, b⟩ : Reader).run (c :: rest) := by
  have hs : r.step? c = (⟨.between, b⟩ : Reader).step? c := h.step? hc
  rw [Reader.run, Reader.run, hs]

/-- White space and what ends words is read as between tokens. -/
theorem run (h : Stands r b) (hw : ws.all Json.isSpace = true) (hc : endsWord c = true) :
    r.run (ws ++ c :: rest) = (⟨.between, b⟩ : Reader).run (c :: rest) := by
  induction ws generalizing r with
  | nil => exact h.run_cons hc
  | cons w ws ih =>
    rw [List.all_cons, Bool.and_eq_true] at hw
    have hend : endsWord w = true := by simp [endsWord, hw.1]
    have hstep : r.step? w = some ⟨.between, b⟩ := by
      rw [h.step? hend, between?, if_pos hw.1]
    rw [List.cons_append, Reader.run_cons hstep]
    exact ih (.between b) hw.2

end Stands

/-- White space between tokens is passed over. -/
theorem run_blank (hw : ws.all Json.isSpace = true) :
    (⟨.between, b⟩ : Reader).run (ws ++ rest) = (⟨.between, b⟩ : Reader).run rest := by
  induction ws with
  | nil => rfl
  | cons w ws ih =>
    rw [List.all_cons, Bool.and_eq_true] at hw
    have hstep : (⟨.between, b⟩ : Reader).step? w = some ⟨.between, b⟩ := by
      show between? b w = _
      rw [between?, if_pos hw.1]
    rw [List.cons_append, run_cons hstep]
    exact ih hw.2

/-- A token of one character. -/
theorem run_token {t : Token} (ht : Token.ofChar? c = some t) (hs : Json.isSpace c = false)
    (hq : c ≠ '"') (hb : b.feed? t = some b') :
    (⟨.between, b⟩ : Reader).run (c :: rest) = (⟨.between, b'⟩ : Reader).run rest := by
  refine run_cons ?_
  show between? b c = _
  rw [between?, hs, ht, if_neg hq]
  simp only [hb, Bool.false_eq_true, if_false, Option.map_some]

/-- A word is read up to its end. -/
theorem run_word (hne : cs ≠ []) (hall : ∀ c ∈ cs, endsWord c = false) {d : Document}
    (hd : ofWord? cs = some d) (hb : b.feed? (.atom d) = some b') :
    ∃ r, (⟨.between, b⟩ : Reader).run cs = .ok r ∧ Stands r b' := by
  have hmore (read : List Char) : ∀ cs : List Char, (∀ c ∈ cs, endsWord c = false) →
      (⟨.word read, b⟩ : Reader).run cs = .ok ⟨.word (cs.reverse ++ read), b⟩ := by
    intro cs
    induction cs generalizing read with
    | nil => exact fun _ => rfl
    | cons c cs ih =>
      intro h
      have hstep : (⟨.word read, b⟩ : Reader).step? c = some ⟨.word (c :: read), b⟩ := by
        show (if endsWord c = true then _ else _) = _
        rw [h c List.mem_cons_self]
        rfl
      rw [run_cons hstep, ih (c :: read) fun d hd => h d (List.mem_cons_of_mem _ hd)]
      simp
  cases cs with
  | nil => exact absurd rfl hne
  | cons c cs =>
    have hc := hall c List.mem_cons_self
    simp only [endsWord, Bool.or_eq_false_iff, decide_eq_false_iff_not] at hc
    obtain ⟨⟨hspace, hquote⟩, htoken⟩ := hc
    have hstep : (⟨.between, b⟩ : Reader).step? c = some ⟨.word [c], b⟩ := by
      show between? b c = _
      rw [between?, hspace, if_neg hquote]
      cases ht : Token.ofChar? c with
      | some t =>
        rw [ht] at htoken
        cases htoken
      | none => rfl
    refine ⟨⟨.word (cs.reverse ++ [c]), b⟩, ?_, .word ?_⟩
    · rw [run_cons hstep, hmore [c] cs fun d hd => hall d (List.mem_cons_of_mem _ hd)]
    · rw [endWord?, List.reverse_append, List.reverse_reverse, List.reverse_singleton,
        List.singleton_append, hd]
      exact hb

end Reader

/-! ## 3. Strings -/

/-- A piece that says a character: the character itself, or the number of a control character. -/
inductive Piece.Says : Piece → Char → Prop where
  | char (c : Char) : Says (.char c) c
  | unit {c : Char} (h : c.toNat < 32) : Says (.unit c.toNat) c

/-- Pieces that say characters one by one spell these characters. -/
theorem spell?_of_says {ps : List Piece} {cs : List Char} (h : List.Forall₂ Piece.Says ps cs) :
    spell? ps = some cs := by
  induction h with
  | nil => rfl
  | @cons p c ps cs hp hps ih =>
    cases hp with
    | char =>
      rw [spell?, ih]
      rfl
    | unit hc =>
      have hl : isLeading c.toNat = false := by
        simp only [isLeading, Bool.and_eq_false_imp, decide_eq_true_eq]
        omega
      have ht : isTrailing c.toNat = false := by
        simp only [isTrailing, Bool.and_eq_false_imp, decide_eq_true_eq]
        omega
      have hone : spell? (.unit c.toNat :: ps) = (spell? ps).map (Char.ofNat c.toNat :: ·) := by
        cases hps with
        | nil => simp only [spell?, hl, ht, Bool.or_self, Bool.false_eq_true, if_false]
        | cons hq _ =>
          cases hq <;> simp only [spell?, hl, ht, Bool.or_self, Bool.false_and, Bool.false_eq_true, if_false]
      rw [hone, ih, Option.map_some, Char.ofNat_toNat]

/-- The two last digits of a control character say its number. -/
theorem hexValue?_digitChar {n : Nat} (h : n < 16) : hexValue? n.digitChar = some n := by
  have hall : ∀ m, m < 16 → hexValue? m.digitChar = some m := by decide
  exact hall n h

namespace Reader

variable {b b' : Build}

/-- A character, escaped or not, is read as a piece that says it. -/
theorem run_escaped (c : Char) (read : List Piece) (b : Build) :
    ∃ p, (⟨.text read, b⟩ : Reader).run (Json.escaped c) = .ok ⟨.text (p :: read), b⟩ ∧
      Piece.Says p c := by
  unfold Json.escaped
  split
  · exact ⟨_, rfl, .char _⟩
  · exact ⟨_, rfl, .char _⟩
  · exact ⟨_, rfl, .char _⟩
  · exact ⟨_, rfl, .char _⟩
  · exact ⟨_, rfl, .char _⟩
  · exact ⟨_, rfl, .char _⟩
  · exact ⟨_, rfl, .char _⟩
  · rename_i hquote hback _ _ _ _ _
    split
    · rename_i hc
      refine ⟨.unit c.toNat, ?_, .unit hc⟩
      have hhigh : hexValue? (Nat.digitChar (c.toNat / 16)) = some (c.toNat / 16) :=
        hexValue?_digitChar (by omega)
      have hlow : hexValue? (Nat.digitChar (c.toNat % 16)) = some (c.toNat % 16) :=
        hexValue?_digitChar (by omega)
      have hzero : hexValue? '0' = some 0 := rfl
      have hvalue : (((0 * 16 + 0) * 16 + 0) * 16 + c.toNat / 16) * 16 + c.toNat % 16 = c.toNat := by
        omega
      rw [run_cons (s := ⟨.escape read, b⟩) rfl, run_cons (s := ⟨.digits read 4 0, b⟩) rfl,
        run_cons (s := ⟨.digits read 3 (0 * 16 + 0), b⟩) rfl,
        run_cons (s := ⟨.digits read 2 ((0 * 16 + 0) * 16 + 0), b⟩) rfl,
        run_cons (s := ⟨.digits read 1 (((0 * 16 + 0) * 16 + 0) * 16 + c.toNat / 16), b⟩),
        run_cons (s := ⟨.text (.unit c.toNat :: read), b⟩)]
      · rfl
      · simp only [step?, hlow, Option.map_some, hvalue]
        rfl
      · simp only [step?, hhigh, Option.map_some]
        rfl
    · rename_i hc
      refine ⟨.char c, run_cons ?_, .char c⟩
      have hq : c ≠ '"' := fun e => hquote e
      have hb : c ≠ '\\' := fun e => hback e
      simp only [step?, if_neg hq, if_neg hb, if_neg hc]

/-- Characters, escaped or not, are read as pieces that spell them. -/
theorem run_flatMap_escaped (cs : List Char) (read : List Piece) (b : Build) :
    ∃ ps, (⟨.text read, b⟩ : Reader).run (cs.flatMap Json.escaped) =
        .ok ⟨.text (ps.reverse ++ read), b⟩ ∧ List.Forall₂ Piece.Says ps cs := by
  induction cs generalizing read with
  | nil => exact ⟨[], rfl, .nil⟩
  | cons c cs ih =>
    obtain ⟨p, hp, hs⟩ := run_escaped c read b
    obtain ⟨ps, hps, hss⟩ := ih (p :: read)
    refine ⟨p :: ps, ?_, .cons hs hss⟩
    rw [List.flatMap_cons, run_append hp, hps, List.reverse_cons, List.append_assoc,
      List.singleton_append]

/-- **A written string is a string token.** -/
theorem run_quoted {s : String} (hb : b.feed? (.text (some s)) = some b') :
    (⟨.between, b⟩ : Reader).run (Json.quoted s) = .ok ⟨.between, b'⟩ := by
  obtain ⟨ps, hps, hs⟩ := run_flatMap_escaped s.toList [] b
  rw [List.append_nil] at hps
  rw [Json.quoted, List.cons_append, run_cons (s := ⟨.text [], b⟩) rfl, run_append hps]
  refine run_cons (s := ⟨.between, b'⟩) ?_
  show (endText? ps.reverse b).map _ = _
  rw [endText?, List.reverse_reverse, spell?_of_says hs, Option.map_some, String.ofList_toList, hb]
  rfl

end Reader

/-! ## 4. Values -/

/-- A builder that waits for a value inside the open containers. -/
def Build.Awaits (b : Build) (stack : List Frame) : Prop :=
  ∀ t, t ≠ .closeArray → b.feed? t = Build.begin? stack t

theorem Build.awaits_value (stack : List Frame) : (Build.value stack).Awaits stack := fun _ _ => rfl

theorem Build.awaits_item (stack : List Frame) : (Build.item stack).Awaits (.items [] :: stack) := by
  intro t ht
  cases t with
  | closeArray => exact absurd rfl ht
  | _ => rfl

end Document

mutual

/-- All numbers that a value holds. -/
def Json.numbers : Json → List Json.Number
  | .null => []
  | .bool _ => []
  | .number n => [n]
  | .string _ => []
  | .array items => Json.itemNumbers items
  | .object members => Json.memberNumbers members

/-- All numbers in the items of an array. -/
def Json.itemNumbers : List Json → List Json.Number
  | [] => []
  | j :: js => Json.numbers j ++ Json.itemNumbers js

/-- All numbers in the members of an object. -/
def Json.memberNumbers : List (String × Json) → List Json.Number
  | [] => []
  | (_, j) :: ms => Json.numbers j ++ Json.memberNumbers ms

end

/-- All numbers of a value are integers of 64 bits. -/
def Json.Integral (j : Json) : Prop := ∀ n ∈ j.numbers, n.IsInteger

namespace Document.Reader

variable (l : Json.Layout) {r : Reader} {b b' : Build} {stack : List Frame}

/-- A word of letters. -/
theorem run_letters (cs : List Char) {d : Document} (hd : ofWord? cs = some d)
    (hall : (!cs.isEmpty && cs.all fun c => !endsWord c) = true) (hb : b.Awaits stack) :
    ∃ r, (⟨.between, b⟩ : Reader).run cs = .ok r ∧ Stands r (.after d stack) := by
  rw [Bool.and_eq_true, List.all_eq_true] at hall
  refine run_word ?_ (fun c hc => ?_) hd (hb _ nofun)
  · rintro rfl
    cases hall.1
  · simpa using hall.2 c hc

mutual

/-- **After a written value the reader stands behind the document that says it.** -/
theorem run_chars (level : Nat) : ∀ (j : Json) {b : Build} {stack : List Frame}, j.Integral →
    b.Awaits stack → ∃ r, (⟨.between, b⟩ : Reader).run (j.chars l level) = .ok r ∧
      Stands r (.after (ofJson j) stack)
  | .null, _, _, _, hb => run_letters "null".toList rfl (by decide) hb
  | .bool true, _, _, _, hb => run_letters "true".toList rfl (by decide) hb
  | .bool false, _, _, _, hb => run_letters "false".toList rfl (by decide) hb
  | .number n, _, _, hj, hb => by
    obtain ⟨hd, hne, hall⟩ := ofWord?_text (hj n (by simp [Json.numbers]))
    rw [Json.chars]
    exact run_word hne hall hd (hb _ nofun)
  | .string s, _, _, _, hb => by
    rw [Json.chars]
    exact ⟨_, run_quoted (hb _ nofun), .between _⟩
  | .array items, b, stack, hj, hb => by
    have hopen : b.feed? .openArray = some (.item stack) := hb _ nofun
    rw [Json.chars, run_token (t := .openArray) rfl rfl (by decide) hopen]
    exact ⟨_, run_itemChars level items hj, .between _⟩
  | .object members, b, stack, hj, hb => by
    have hopen : b.feed? .openObject = some (.key true [] stack) := hb _ nofun
    rw [Json.chars, run_token (t := .openObject) rfl rfl (by decide) hopen]
    exact ⟨_, run_memberChars level members hj, .between _⟩

theorem run_itemChars (level : Nat) : ∀ (js : List Json) {stack : List Frame},
    (∀ n ∈ Json.itemNumbers js, n.IsInteger) →
    (⟨.between, .item stack⟩ : Reader).run (Json.itemChars l level js) =
      .ok ⟨.between, .after (.array (ofJsonItems js)) stack⟩
  | [], stack, _ => by
    rw [Json.itemChars, run_token (t := .closeArray) rfl rfl (by decide) rfl]
    rfl
  | j :: js, stack, hj => by
    rw [Json.itemNumbers, List.forall_mem_append] at hj
    obtain ⟨r, hr, hs⟩ := run_chars (level + 1) j hj.1 (Build.awaits_item stack)
    rw [Json.itemChars, List.append_assoc, run_blank (l.line_blank _), run_append hr,
      run_moreItemChars level js hj.2 hs]
    rfl

theorem run_moreItemChars (level : Nat) : ∀ (js : List Json) {r : Reader} {d : Document}
    {done : List Document} {stack : List Frame}, (∀ n ∈ Json.itemNumbers js, n.IsInteger) →
    Stands r (.after d (.items done :: stack)) →
    r.run (Json.moreItemChars l level js) =
      .ok ⟨.between, .after (.array ((d :: done).reverse ++ ofJsonItems js)) stack⟩
  | [], r, d, done, stack, _, hs => by
    rw [Json.moreItemChars, hs.run (l.line_blank _) rfl,
      run_token (t := .closeArray) rfl rfl (by decide) rfl, ofJsonItems, List.append_nil]
    rfl
  | j :: js, r, d, done, stack, hj, hs => by
    rw [Json.itemNumbers, List.forall_mem_append] at hj
    obtain ⟨r', hr', hs'⟩ := run_chars (level + 1) j hj.1 (Build.awaits_value (.items (d :: done) :: stack))
    rw [Json.moreItemChars, List.cons_append, List.cons_append, List.append_assoc, hs.run_cons rfl,
      run_token (t := .comma) rfl rfl (by decide) rfl, run_blank (l.line_blank _), run_append hr',
      run_moreItemChars level js hj.2 hs', ofJsonItems]
    simp

theorem run_memberChars (level : Nat) : ∀ (ms : List (String × Json)) {stack : List Frame},
    (∀ n ∈ Json.memberNumbers ms, n.IsInteger) →
    (⟨.between, .key true [] stack⟩ : Reader).run (Json.memberChars l level ms) =
      .ok ⟨.between, .after (.object (ofJsonMembers ms)) stack⟩
  | [], stack, _ => by
    rw [Json.memberChars, run_token (t := .closeObject) rfl rfl (by decide) rfl]
    rfl
  | m :: ms, stack, hj => by
    rw [Json.memberNumbers, List.forall_mem_append] at hj
    obtain ⟨r, hr, hs⟩ := run_oneMemberChars (level + 1) m true [] stack hj.1
    rw [Json.memberChars, List.append_assoc, run_blank (l.line_blank _), run_append hr,
      run_moreMemberChars level ms hj.2 hs, ofJsonMembers, ofJsonMember_eq]
    rfl

theorem run_moreMemberChars (level : Nat) : ∀ (ms : List (String × Json)) {r : Reader}
    {d : Document} {key : Option String} {done : List (Option String × Document)}
    {stack : List Frame}, (∀ n ∈ Json.memberNumbers ms, n.IsInteger) →
    Stands r (.after d (.member done key :: stack)) →
    r.run (Json.moreMemberChars l level ms) =
      .ok ⟨.between, .after (.object (((key, d) :: done).reverse ++ ofJsonMembers ms)) stack⟩
  | [], r, d, key, done, stack, _, hs => by
    rw [Json.moreMemberChars, hs.run (l.line_blank _) rfl,
      run_token (t := .closeObject) rfl rfl (by decide) rfl, ofJsonMembers, List.append_nil]
    rfl
  | m :: ms, r, d, key, done, stack, hj, hs => by
    rw [Json.memberNumbers, List.forall_mem_append] at hj
    obtain ⟨r', hr', hs'⟩ := run_oneMemberChars (level + 1) m false ((key, d) :: done) stack hj.1
    rw [Json.moreMemberChars, List.cons_append, List.cons_append, List.append_assoc, hs.run_cons rfl,
      run_token (t := .comma) rfl rfl (by decide) rfl, run_blank (l.line_blank _), run_append hr',
      run_moreMemberChars level ms hj.2 hs', ofJsonMembers, ofJsonMember_eq]
    simp

theorem run_oneMemberChars (level : Nat) : ∀ (m : String × Json) (first : Bool)
    (done : List (Option String × Document)) (stack : List Frame),
    (∀ n ∈ m.2.numbers, n.IsInteger) →
    ∃ r, (⟨.between, .key first done stack⟩ : Reader).run (Json.oneMemberChars l level m) = .ok r ∧
      Stands r (.after (ofJson m.2) (.member done (some m.1) :: stack))
  | (key, j), first, done, stack, hj => by
    have hkey : (Build.key first done stack).feed? (.text (some key)) =
        some (.colon done (some key) stack) := by cases first <;> rfl
    obtain ⟨r, hr, hs⟩ := run_chars level j hj (Build.awaits_value (.member done (some key) :: stack))
    refine ⟨r, ?_, hs⟩
    rw [Json.oneMemberChars, List.append_assoc, run_append (run_quoted hkey), List.cons_append,
      run_token (t := .colon) rfl rfl (by decide) rfl, run_blank l.gap_blank, hr]

end

end Document.Reader

/-- **A text that was written parses to the document that says its value**, in any layout and with any
    white space behind it. -/
theorem Document.parse_text (l : Json.Layout) {j : Json} (hj : j.Integral) {ws : List Char}
    (hw : ws.all Json.isSpace = true) :
    parse (j.text l ++ String.ofList ws) = .ok (ofJson j) := by
  obtain ⟨r, hr, hs⟩ := Reader.run_chars l 0 j hj (Build.awaits_value [])
  have hrun : ∃ r', Reader.start.run (j.text l ++ String.ofList ws).toList = .ok r' ∧
      Reader.Stands r' (.after (ofJson j) []) := by
    rw [String.toList_append, Json.text, String.toList_ofList, String.toList_ofList, Reader.start,
      Reader.run_append hr]
    cases ws with
    | nil => exact ⟨r, rfl, hs⟩
    | cons w ws =>
      rw [List.all_cons, Bool.and_eq_true] at hw
      have hend : endsWord w = true := by simp [endsWord, hw.1]
      refine ⟨_, ?_, .between _⟩
      rw [hs.run_cons hend, ← List.append_nil (w :: ws), Reader.run_blank]
      · rfl
      · rw [List.all_cons, hw.1, hw.2]
        rfl
  obtain ⟨r', hr', hs'⟩ := hrun
  simp only [parse, hr', hs'.finish?, Build.done?]

end BrokerCli
