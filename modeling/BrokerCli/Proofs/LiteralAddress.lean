import Mathlib.Computability.RegularExpressions
import BrokerCli.Client
import BrokerCli.Proofs.JsonText

/-!
# Which hosts are literal addresses

A host that is no URL and no alias must be an address. Three descriptions of the addresses stand side by
side here, and all of them are the same set of texts, but for the last one:

* `Address.isLiteral` -- how an address is recognised: cut at the marks, and looked at piece by piece;
* `Address.quadPattern`, `Address.localPattern` -- two regular expressions (`isLiteral_iff_pattern`);
* `Literal` -- a host and ports, as numbers, with their text. No two literals have the same text
  (`Literal.text_injective`), and a text is recognised if it is that of an accepted literal
  (`isLiteral_iff`): octets up to 255, and any number of ports behind them, none of which is zero; behind
  `localhost` a port has at most four digits;
* `Literal.Documented` -- what an address is meant to be: at most ONE port, from 1 to 65535.

`ClientFactory.make_of_unregistered` says for which hosts a client is made, and where that is not what is
meant; `ClientFactory.make_high_port` is one of these places.
-/

namespace BrokerCli

/-! ## 1. Numbers in digits, and pieces of a text -/

namespace Text

theorem digitsOf_injective : Function.Injective digitsOf := by
  intro m n h
  have hr : some m = some n := by rw [← readNat?_digitsOf m, h, readNat?_digitsOf]
  exact Option.some.inj hr

/-- A decimal digit is that of a number below ten. -/
theorem exists_digitChar {d : Char} (h : d.isDigit = true) : ∃ k < 10, k.digitChar = d := by
  have hall : ∀ k < 10, (Nat.digitChar k).toNat = k + 48 := by decide
  simp only [Char.isDigit, Bool.and_eq_true, decide_eq_true_eq] at h
  have hlow : 48 ≤ d.toNat := h.1
  have hhigh : d.toNat ≤ 57 := h.2
  refine ⟨d.toNat - 48, by omega, Char.toNat_inj.1 ?_⟩
  rw [hall _ (by omega)]
  omega

/-- One more digit behind those of a positive number. -/
theorem digitsOf_snoc {n k : Nat} (hn : 0 < n) (hk : k < 10) :
    digitsOf (10 * n + k) = digitsOf n ++ [k.digitChar] := by
  unfold digitsOf
  rw [← Nat.toDigits_append_toDigits (by decide) hn hk, Nat.toDigits_of_lt_base hk]

theorem digitsOf_of_lt {k : Nat} (hk : k < 10) : digitsOf k = [k.digitChar] :=
  Nat.toDigits_of_lt_base hk

theorem digitsOf_two {j k : Nat} (hj : 0 < j) (hj' : j < 10) (hk : k < 10) :
    digitsOf (10 * j + k) = [j.digitChar, k.digitChar] := by
  rw [digitsOf_snoc hj hk, digitsOf_of_lt hj']
  rfl

theorem digitsOf_three {i j k : Nat} (hi : 0 < i) (hi' : i < 10) (hj : j < 10) (hk : k < 10) :
    digitsOf (10 * (10 * i + j) + k) = [i.digitChar, j.digitChar, k.digitChar] := by
  rw [digitsOf_snoc (by omega) hk, digitsOf_two hi hi' hj]
  rfl

/-- Digits that do not begin with a zero are those of the number that they denote. -/
theorem digitsOf_ofDigitChars {c : Char} {cs : List Char} (hc : c.isDigit = true)
    (hcs : cs.all Char.isDigit = true) (hz : c ≠ '0') :
    0 < Nat.ofDigitChars 10 (c :: cs) 0 ∧ digitsOf (Nat.ofDigitChars 10 (c :: cs) 0) = c :: cs := by
  induction cs using List.reverseRecOn with
  | nil =>
    obtain ⟨k, hk, rfl⟩ := exists_digitChar hc
    rw [Nat.ofDigitChars_cons_digitChar_of_lt_ten hk, Nat.ofDigitChars_nil, Nat.mul_zero, Nat.zero_add]
    refine ⟨Nat.pos_of_ne_zero fun h => hz ?_, digitsOf_of_lt hk⟩
    rw [h]
    rfl
  | append_singleton cs d ih =>
    rw [List.all_append, Bool.and_eq_true, List.all_cons, List.all_nil, Bool.and_true] at hcs
    obtain ⟨hpos, hdigits⟩ := ih hcs.1
    obtain ⟨k, hk, rfl⟩ := exists_digitChar hcs.2
    rw [← List.cons_append, Nat.ofDigitChars_append, Nat.ofDigitChars_cons_digitChar_of_lt_ten hk,
      Nat.ofDigitChars_nil, digitsOf_snoc hpos hk, hdigits]
    exact ⟨by omega, rfl⟩

theorem length_digitsOf_le_iff {n k : Nat} (hk : 0 < k) : (digitsOf n).length ≤ k ↔ n < 10 ^ k :=
  Nat.length_toDigits_le_iff (by decide) hk

variable {separator : Char}

/-- Pieces without a separator, with separators put between them, are cut at these. -/
theorem pieces_append_flatMap {α : Type} {p : List Char} {text : α → List Char} {xs : List α}
    (hp : separator ∉ p) (hxs : ∀ x ∈ xs, separator ∉ text x) :
    pieces separator (p ++ xs.flatMap fun x => separator :: text x) = p :: xs.map text := by
  induction xs generalizing p with
  | nil => rw [List.flatMap_nil, List.append_nil, pieces_of_notMem hp, List.map_nil]
  | cons x xs ih =>
    obtain ⟨hx, hxs⟩ := List.forall_mem_cons.1 hxs
    rw [List.flatMap_cons, List.cons_append, pieces_append_cons hp, ih hx hxs, List.map_cons]

/-- Conversely a text is its first piece, and the others behind separators. -/
theorem eq_of_pieces {p cs : List Char} {ps : List (List Char)} (h : pieces separator cs = p :: ps) :
    cs = p ++ ps.flatMap fun q => separator :: q := by
  have hjoin : ∀ (p : List Char) (ps : List (List Char)), [separator].intercalate (p :: ps) =
      p ++ ps.flatMap fun q => separator :: q := by
    intro p ps
    induction ps generalizing p with
    | nil => simp [List.intercalate]
    | cons q qs ih =>
      rw [List.flatMap_cons, List.cons_append, ← ih q]
      simp [List.intercalate]
  rw [← hjoin, ← h, intercalate_pieces]

end Text

namespace Address

open Text

/-! ## 2. The pieces of an address -/

variable {cs : List Char}

/-- A port is a positive number. -/
theorem isPort_iff : isPort cs = true ↔ ∃ n, 0 < n ∧ cs = digitsOf n := by
  constructor
  · intro h
    cases cs with
    | nil => cases h
    | cons c cs =>
      simp only [isPort, List.all_cons, Bool.and_eq_true, decide_eq_true_eq] at h
      obtain ⟨hpos, hdigits⟩ := digitsOf_ofDigitChars h.2.1 h.2.2 h.1
      exact ⟨_, hpos, hdigits.symm⟩
  · rintro ⟨n, hn, rfl⟩
    obtain ⟨c, cs, hd, hc⟩ := Numeral.digitsOf_of_pos hn
    have hall : (digitsOf n).all Char.isDigit = true :=
      List.all_eq_true.2 fun _ => isDigit_of_mem_digitsOf
    rw [hd] at hall ⊢
    rw [isPort, hall, Bool.and_true]
    exact decide_eq_true hc

/-- An octet is a number up to 255. -/
theorem isOctet_iff : isOctet cs = true ↔ ∃ n ≤ 255, cs = digitsOf n := by
  constructor
  · intro h
    unfold isOctet at h
    rw [Bool.and_eq_true] at h
    obtain ⟨hall, h⟩ := h
    split at h
    · cases h
    · exact ⟨0, by decide, rfl⟩
    · cases h
    · rename_i hnil hzero hlead
      cases cs with
      | nil => exact absurd rfl hnil
      | cons c cs =>
        rw [List.all_cons, Bool.and_eq_true] at hall
        have hc : c ≠ '0' := fun e => hlead cs (e ▸ rfl)
        obtain ⟨_, hdigits⟩ := digitsOf_ofDigitChars hall.1 hall.2 hc
        simp only [Bool.and_eq_true, decide_eq_true_eq] at h
        exact ⟨_, h.2, hdigits.symm⟩
  · rintro ⟨n, hn, rfl⟩
    have hall : (digitsOf n).all Char.isDigit = true :=
      List.all_eq_true.2 fun _ => isDigit_of_mem_digitsOf
    have hlength : (digitsOf n).length ≤ 3 := (length_digitsOf_le_iff (by decide)).2 (by omega)
    have hvalue : Nat.ofDigitChars 10 (digitsOf n) 0 = n := Nat.ofDigitChars_ten_toDigits
    unfold isOctet
    rw [hall, Bool.true_and]
    split
    · rename_i hnil
      exact absurd hnil (digitsOf_ne_nil n)
    · rfl
    · rename_i hne hlead
      have hpos : 0 < n := Nat.pos_of_ne_zero fun h => by
        rw [h] at hlead
        exact hne (List.cons.inj hlead).2.symm
      obtain ⟨c, cs', hd, hc⟩ := Numeral.digitsOf_of_pos hpos
      rw [hd] at hlead
      exact absurd (List.cons.inj hlead).1 hc
    · rw [hvalue]
      simp [hlength, hn]

/-! ## 3. Literals -/

/-- What stands before the ports of an address. -/
inductive Host where
  | quad (a b c d : Nat)
  | localhost
deriving DecidableEq

namespace Host

/-- The characters of a host. -/
def chars : Host → List Char
  | quad a b c d => digitsOf a ++ [b, c, d].flatMap fun n => '.' :: digitsOf n
  | localhost => "localhost".toList

/-- The numbers of a host are octets. -/
def Valid : Host → Prop
  | quad a b c d => ∀ n ∈ [a, b, c, d], n ≤ 255
  | localhost => True

end Host

/-- A literal address: a host with ports. -/
structure Literal where
  host : Host
  ports : List Nat
deriving DecidableEq

namespace Literal

/-- The characters of a literal. -/
def chars (l : Literal) : List Char := l.host.chars ++ l.ports.flatMap fun n => ':' :: digitsOf n

/-- The text of a literal. -/
def text (l : Literal) : String := String.ofList l.chars

/-- The addresses that are recognised: any number of positive ports, those of this machine with at most four
    digits. -/
def Accepted (l : Literal) : Prop :=
  l.host.Valid ∧ ∀ n ∈ l.ports, 0 < n ∧ (l.host = .localhost → n < 10 ^ 4)

/-- The addresses that are meant: at most one port, from 1 to 65535. -/
def Documented (l : Literal) : Prop :=
  l.host.Valid ∧ l.ports.length ≤ 1 ∧ ∀ n ∈ l.ports, 1 ≤ n ∧ n ≤ 65535

variable {l : Literal}

/-- Of the addresses that are meant, those of this machine with a port of five digits are not recognised. -/
theorem not_accepted_iff (h : l.Documented) :
    ¬ l.Accepted ↔ l.host = .localhost ∧ ∃ n ∈ l.ports, 10 ^ 4 ≤ n := by
  obtain ⟨hvalid, _, hports⟩ := h
  constructor
  · intro hnot
    by_contra hshort
    refine hnot ⟨hvalid, fun n hn => ⟨(hports n hn).1, fun hlocal => ?_⟩⟩
    exact Nat.lt_of_not_le fun hlong => hshort ⟨hlocal, n, hn, hlong⟩
  · rintro ⟨hlocal, n, hn, hlong⟩ haccepted
    exact absurd ((haccepted.2 n hn).2 hlocal) (Nat.not_lt_of_le hlong)

/-- Of the addresses that are recognised, those with two ports or with a port above the highest are not
    meant. -/
theorem not_documented_iff (h : l.Accepted) :
    ¬ l.Documented ↔ 1 < l.ports.length ∨ ∃ n ∈ l.ports, 65535 < n := by
  obtain ⟨hvalid, hports⟩ := h
  constructor
  · intro hnot
    by_contra hfew
    rw [not_or] at hfew
    refine hnot ⟨hvalid, Nat.le_of_not_lt hfew.1, fun n hn => ⟨(hports n hn).1, ?_⟩⟩
    exact Nat.le_of_not_lt fun hhigh => hfew.2 ⟨n, hn, hhigh⟩
  · rintro (hmany | ⟨n, hn, hhigh⟩) hdoc
    · exact absurd hdoc.2.1 (Nat.not_le_of_lt hmany)
    · exact absurd (hdoc.2.2 n hn).2 (Nat.not_le_of_lt hhigh)

end Literal

/-- No digit is a mark. -/
theorem notMem_digitsOf {c : Char} (hc : c.isDigit = false) (n : Nat) : c ∉ digitsOf n := by
  intro h
  rw [isDigit_of_mem_digitsOf h] at hc
  cases hc

theorem pieces_quad (a b c d : Nat) :
    pieces '.' (Host.quad a b c d).chars = digitsOf a :: [b, c, d].map digitsOf :=
  pieces_append_flatMap (notMem_digitsOf rfl a) fun n _ => notMem_digitsOf rfl n

/-- A quad is four octets. -/
theorem isQuad_iff : isQuad cs = true ↔ ∃ a b c d, (Host.quad a b c d).Valid ∧
    cs = (Host.quad a b c d).chars := by
  constructor
  · intro h
    simp only [isQuad, Bool.and_eq_true, decide_eq_true_eq] at h
    obtain ⟨hfour, hall⟩ := h
    obtain ⟨w, x, y, z, hp⟩ := List.length_eq_four.1 hfour
    rw [hp] at hall
    simp only [List.all_cons, List.all_nil, Bool.and_eq_true, Bool.and_true, isOctet_iff] at hall
    obtain ⟨⟨a, ha, rfl⟩, ⟨b, hb, rfl⟩, ⟨c, hc, rfl⟩, ⟨d, hd, rfl⟩⟩ := hall
    refine ⟨a, b, c, d, by simp [Host.Valid, ha, hb, hc, hd], ?_⟩
    exact eq_of_pieces hp
  · rintro ⟨a, b, c, d, hvalid, rfl⟩
    have hoctet (n : Nat) (hn : n ∈ [a, b, c, d]) : isOctet (digitsOf n) = true :=
      isOctet_iff.2 ⟨n, hvalid n hn, rfl⟩
    simp only [isQuad, pieces_quad, List.map_cons, List.map_nil, List.length_cons, List.length_nil,
      List.all_cons, List.all_nil, Bool.and_eq_true, Bool.and_true]
    exact ⟨rfl, hoctet a (by simp), hoctet b (by simp), hoctet c (by simp), hoctet d (by simp)⟩

theorem chars_quad (a b c d : Nat) : (Host.quad a b c d).chars =
    digitsOf a ++ [b, c, d].flatMap fun n => '.' :: digitsOf n := rfl

theorem chars_localhost : Host.localhost.chars = ['l', 'o', 'c', 'a', 'l', 'h', 'o', 's', 't'] := by
  decide +kernel

/-- No host has a colon. -/
theorem Host.colon_notMem (h : Host) : ':' ∉ h.chars := by
  cases h with
  | quad a b c d =>
    have hdigits (n : Nat) : ':' ∉ digitsOf n := notMem_digitsOf (by decide) n
    rw [chars_quad, List.mem_append, List.mem_flatMap, not_or]
    refine ⟨hdigits a, ?_⟩
    rintro ⟨n, _, hn⟩
    rcases List.mem_cons.1 hn with e | hn
    · exact absurd e (by decide)
    · exact hdigits n hn
  | localhost =>
    rw [chars_localhost]
    decide

/-- The octets of a host can be read off its text. -/
theorem Host.chars_injective : Function.Injective Host.chars := by
  have hlocal (a b c d : Nat) : (Host.quad a b c d).chars ≠ Host.localhost.chars := by
    intro h
    have hp := congrArg (fun cs => (pieces '.' cs).length) h
    simp only [pieces_quad, chars_localhost] at hp
    cases hp
  intro g h e
  cases g with
  | quad a b c d =>
    cases h with
    | quad a' b' c' d' =>
      have hp := congrArg (pieces '.') e
      simp only [pieces_quad, ← List.map_cons] at hp
      obtain ⟨rfl, rfl, rfl, rfl⟩ : a = a' ∧ b = b' ∧ c = c' ∧ d = d' := by
        simpa using List.map_injective_iff.2 digitsOf_injective hp
      rfl
    | localhost => exact absurd e (hlocal a b c d)
  | localhost =>
    cases h with
    | quad a b c d => exact absurd e.symm (hlocal a b c d)
    | localhost => rfl

theorem pieces_literal (l : Literal) : pieces ':' l.chars = l.host.chars :: l.ports.map digitsOf :=
  pieces_append_flatMap l.host.colon_notMem fun n _ => notMem_digitsOf rfl n

/-- **No two literals have the same text.** -/
theorem Literal.text_injective : Function.Injective Literal.text := by
  intro l m h
  have hp := congrArg (pieces ':') (String.ofList_injective h)
  rw [pieces_literal, pieces_literal] at hp
  obtain ⟨hhost, hports⟩ := List.cons.inj hp
  have hhost := Host.chars_injective hhost
  have hports := List.map_injective_iff.2 digitsOf_injective hports
  cases l
  cases m
  cases hports
  cases hhost
  rfl

/-- Ports as they may stand behind a host. -/
theorem exists_ports {p : List Char → Bool} {q : Nat → Prop}
    (hpq : ∀ cs, p cs = true ↔ ∃ n, q n ∧ cs = digitsOf n) {ps : List (List Char)} :
    ps.all p = true ↔ ∃ ns : List Nat, (∀ n ∈ ns, q n) ∧ ps = ns.map digitsOf := by
  induction ps with
  | nil => simp
  | cons cs ps ih =>
    rw [List.all_cons, Bool.and_eq_true, hpq, ih]
    constructor
    · rintro ⟨⟨n, hn, rfl⟩, ns, hns, rfl⟩
      exact ⟨n :: ns, List.forall_mem_cons.2 ⟨hn, hns⟩, rfl⟩
    · rintro ⟨ns, hns, h⟩
      obtain ⟨n, ns, rfl, rfl, rfl⟩ := List.map_eq_cons_iff.1 h.symm
      obtain ⟨hn, hns⟩ := List.forall_mem_cons.1 hns
      exact ⟨⟨n, hn, rfl⟩, ns, hns, rfl⟩

/-- **The texts that are recognised are those of the accepted literals.** -/
theorem isLiteral_iff {s : String} : isLiteral s = true ↔ ∃ l : Literal, l.Accepted ∧ s = l.text := by
  have hport (cs : List Char) : isPort cs = true ↔ ∃ n, 0 < n ∧ cs = digitsOf n := isPort_iff
  have hshort (cs : List Char) : (isPort cs && decide (cs.length ≤ 4)) = true ↔
      ∃ n, (0 < n ∧ n < 10 ^ 4) ∧ cs = digitsOf n := by
    rw [Bool.and_eq_true, hport, decide_eq_true_eq]
    constructor
    · rintro ⟨⟨n, hn, rfl⟩, hlength⟩
      exact ⟨n, ⟨hn, (length_digitsOf_le_iff (by decide)).1 hlength⟩, rfl⟩
    · rintro ⟨n, ⟨hn, hlt⟩, rfl⟩
      exact ⟨⟨n, hn, rfl⟩, (length_digitsOf_le_iff (by decide)).2 hlt⟩
  unfold isLiteral
  constructor
  · intro h
    cases hp : pieces ':' s.toList with
    | nil => exact absurd hp (pieces_ne_nil _ _)
    | cons host ports =>
      have hs : s = String.ofList (host ++ ports.flatMap fun q => ':' :: q) := by
        rw [← eq_of_pieces hp, String.ofList_toList]
      simp only [hp, Bool.or_eq_true, Bool.and_eq_true, decide_eq_true_eq, isQuad_iff,
        exists_ports hport, exists_ports hshort] at h
      rcases h with ⟨⟨a, b, c, d, hvalid, rfl⟩, ns, hns, rfl⟩ | ⟨rfl, ns, hns, rfl⟩
      · refine ⟨⟨.quad a b c d, ns⟩, ⟨hvalid, fun n hn => ⟨hns n hn, nofun⟩⟩, ?_⟩
        rw [hs, List.flatMap_map]
        rfl
      · refine ⟨⟨.localhost, ns⟩, ⟨trivial, fun n hn => ⟨(hns n hn).1, fun _ => (hns n hn).2⟩⟩, ?_⟩
        rw [hs, List.flatMap_map]
        rfl
  · rintro ⟨⟨host, ns⟩, ⟨hvalid, hns⟩, rfl⟩
    rw [Literal.text, String.toList_ofList, pieces_literal]
    simp only [Bool.or_eq_true, Bool.and_eq_true, decide_eq_true_eq, isQuad_iff,
      exists_ports hport, exists_ports hshort]
    cases host with
    | quad a b c d => exact .inl ⟨⟨a, b, c, d, hvalid, rfl⟩, ns, fun n hn => (hns n hn).1, rfl⟩
    | localhost => exact .inr ⟨rfl, ns, fun n hn => ⟨(hns n hn).1, (hns n hn).2 rfl⟩, rfl⟩

/-! ## 4. The patterns -/

open RegularExpression

/-- A regular expression over characters. -/
abbrev Pattern := RegularExpression Char

/-- One of some characters. -/
def oneOf (cs : List Char) : Pattern := (cs.map char).sum

/-- The same characters, in order. -/
def word (cs : List Char) : Pattern := (cs.map char).foldr (· * ·) 1

/-- A decimal digit from one to another. -/
def digit (low high : Nat) : Pattern := oneOf ((List.range' low (high + 1 - low)).map Nat.digitChar)

/-- The pattern, or nothing. -/
def perhaps (r : Pattern) : Pattern := r + 1

/-- An octet: one digit or two, a hundred, two hundred up to 249, or from there up to 255. -/
def octetPattern : Pattern :=
  perhaps (digit 1 9) * digit 0 9 + char '1' * digit 0 9 ^ 2 + char '2' * digit 0 4 * digit 0 9 +
    char '2' * char '5' * digit 0 5

/-- Four octets with ports. -/
def quadPattern : Pattern :=
  (octetPattern * char '.') ^ 3 * octetPattern * (char ':' * digit 1 9 * star (digit 0 9)).star

/-- The name of this machine with ports of at most four digits. -/
def localPattern : Pattern :=
  word ['l', 'o', 'c', 'a', 'l', 'h', 'o', 's', 't'] *
    (char ':' * digit 1 9 * perhaps (digit 0 9) ^ 3).star

theorem mem_oneOf {cs x : List Char} : x ∈ (oneOf cs).matches' ↔ ∃ c ∈ cs, x = [c] := by
  unfold oneOf
  induction cs with
  | nil => simp
  | cons c cs ih =>
    rw [List.map_cons, List.sum_cons, matches'_add, Language.mem_add, ih, matches'_char]
    simp only [List.exists_mem_cons_iff]
    rfl

theorem mem_word {cs x : List Char} : x ∈ (word cs).matches' ↔ x = cs := by
  unfold word
  induction cs generalizing x with
  | nil => exact Language.mem_one x
  | cons c cs ih =>
    rw [List.map_cons, List.foldr_cons, matches'_mul, Language.mem_mul, matches'_char]
    constructor
    · rintro ⟨_, rfl, y, hy, rfl⟩
      rw [ih.1 hy]
      rfl
    · rintro rfl
      exact ⟨[c], rfl, cs, ih.2 rfl, rfl⟩

theorem mem_digit {low high : Nat} {x : List Char} :
    x ∈ (digit low high).matches' ↔ ∃ k, low ≤ k ∧ k ≤ high ∧ x = [k.digitChar] := by
  simp only [digit, mem_oneOf, List.mem_map, List.mem_range'_1]
  constructor
  · rintro ⟨_, ⟨k, hk, rfl⟩, rfl⟩
    exact ⟨k, hk.1, by omega, rfl⟩
  · rintro ⟨k, hlow, hhigh, rfl⟩
    exact ⟨_, ⟨k, by omega, rfl⟩, rfl⟩

theorem mem_perhaps {r : Pattern} {x : List Char} :
    x ∈ (perhaps r).matches' ↔ x ∈ r.matches' ∨ x = [] := by
  rw [perhaps, matches'_add, matches'_epsilon, Language.mem_add, Language.mem_one]

/-- The pattern of an octet is that of the numbers up to 255. -/
theorem mem_octetPattern {x : List Char} :
    x ∈ octetPattern.matches' ↔ ∃ n ≤ 255, x = digitsOf n := by
  have hpow : (digit 0 9 ^ 2).matches' = (digit 0 9).matches' * (digit 0 9).matches' := by
    rw [matches'_pow, sq]
  simp only [octetPattern, matches'_add, matches'_mul, matches'_char, hpow, Language.mem_add,
    Language.mem_mul, mem_perhaps, mem_digit]
  constructor
  · rintro (((⟨_, (⟨j, hj, hj', rfl⟩ | rfl), _, ⟨k, hk, hk', rfl⟩, rfl⟩ |
      ⟨_, rfl, _, ⟨_, ⟨j, hj, hj', rfl⟩, _, ⟨k, hk, hk', rfl⟩, rfl⟩, rfl⟩) |
      ⟨_, ⟨_, rfl, _, ⟨j, hj, hj', rfl⟩, rfl⟩, _, ⟨k, hk, hk', rfl⟩, rfl⟩) |
      ⟨_, ⟨_, rfl, _, rfl, rfl⟩, _, ⟨k, hk, hk', rfl⟩, rfl⟩)
    · exact ⟨10 * j + k, by omega, (digitsOf_two hj (by omega) (by omega)).symm⟩
    · exact ⟨k, by omega, (digitsOf_of_lt (by omega)).symm⟩
    · exact ⟨10 * (10 * 1 + j) + k, by omega,
        (digitsOf_three (i := 1) (j := j) (by decide) (by decide) (by omega) (by omega)).symm⟩
    · exact ⟨10 * (10 * 2 + j) + k, by omega,
        (digitsOf_three (i := 2) (j := j) (by decide) (by decide) (by omega) (by omega)).symm⟩
    · exact ⟨10 * (10 * 2 + 5) + k, by omega,
        (digitsOf_three (i := 2) (j := 5) (by decide) (by decide) (by decide) (by omega)).symm⟩
  · rintro ⟨n, hn, rfl⟩
    have hlast : n = 10 * (n / 10) + n % 10 := by omega
    have hthree (h : 100 ≤ n) : digitsOf n =
        [(n / 100).digitChar, (n / 10 % 10).digitChar, (n % 10).digitChar] := by
      have hn : n = 10 * (10 * (n / 100) + n / 10 % 10) + n % 10 := by omega
      conv => lhs; rw [hn]
      exact digitsOf_three (by omega) (by omega) (by omega) (by omega)
    rcases Nat.lt_or_ge n 10 with h | h
    · rw [digitsOf_of_lt h]
      exact .inl (.inl (.inl ⟨[], .inr rfl, _, ⟨n, by omega, by omega, rfl⟩, rfl⟩))
    rcases Nat.lt_or_ge n 100 with h | h
    · rw [hlast, digitsOf_two (by omega) (by omega) (by omega)]
      exact .inl (.inl (.inl ⟨_, .inl ⟨n / 10, by omega, by omega, rfl⟩, _,
        ⟨n % 10, by omega, by omega, rfl⟩, rfl⟩))
    rw [hthree h]
    rcases Nat.lt_or_ge n 200 with h | h
    · rw [show n / 100 = 1 by omega]
      exact .inl (.inl (.inr ⟨_, rfl, _, ⟨_, ⟨n / 10 % 10, by omega, by omega, rfl⟩, _,
        ⟨n % 10, by omega, by omega, rfl⟩, rfl⟩, rfl⟩))
    rw [show n / 100 = 2 by omega]
    rcases Nat.lt_or_ge n 250 with h | h
    · exact .inl (.inr ⟨_, ⟨_, rfl, _, ⟨n / 10 % 10, by omega, by omega, rfl⟩, rfl⟩, _,
        ⟨n % 10, by omega, by omega, rfl⟩, rfl⟩)
    · rw [show n / 10 % 10 = 5 by omega]
      exact .inr ⟨_, ⟨_, rfl, _, rfl, rfl⟩, _, ⟨n % 10, by omega, by omega, rfl⟩, rfl⟩

theorem mem_digit_isDigit {x : List Char} :
    x ∈ (digit 0 9).matches' ↔ ∃ c, c.isDigit = true ∧ x = [c] := by
  rw [mem_digit]
  constructor
  · rintro ⟨k, _, hk, rfl⟩
    exact ⟨_, by rw [Nat.isDigit_digitChar]; exact decide_eq_true (by omega), rfl⟩
  · rintro ⟨c, hc, rfl⟩
    obtain ⟨k, hk, rfl⟩ := exists_digitChar hc
    exact ⟨k, Nat.zero_le k, by omega, rfl⟩

/-- Any number of digits. -/
theorem mem_star_digit {x : List Char} :
    x ∈ (star (digit 0 9)).matches' ↔ x.all Char.isDigit = true := by
  rw [matches'_star, Language.mem_kstar]
  constructor
  · rintro ⟨xs, rfl, hxs⟩
    refine List.all_eq_true.2 fun c hc => ?_
    obtain ⟨y, hy, hcy⟩ := List.mem_flatten.1 hc
    obtain ⟨d, hd, rfl⟩ := mem_digit_isDigit.1 (hxs y hy)
    rw [List.mem_singleton.1 hcy]
    exact hd
  · intro hx
    refine ⟨x.map fun c => [c], (List.flatMap_singleton' x).symm, ?_⟩
    rintro _ hy
    obtain ⟨c, hc, rfl⟩ := List.mem_map.1 hy
    exact mem_digit_isDigit.2 ⟨c, List.all_eq_true.1 hx c hc, rfl⟩

/-- At most so many digits. -/
theorem mem_perhaps_digit_pow (n : Nat) {x : List Char} :
    x ∈ (perhaps (digit 0 9) ^ n).matches' ↔ x.all Char.isDigit = true ∧ x.length ≤ n := by
  rw [matches'_pow]
  induction n generalizing x with
  | zero =>
    rw [pow_zero, Language.mem_one, Nat.le_zero, List.length_eq_zero_iff]
    exact ⟨fun h => ⟨h ▸ rfl, h⟩, And.right⟩
  | succ n ih =>
    rw [pow_succ', Language.mem_mul]
    simp only [ih, mem_perhaps, mem_digit_isDigit]
    constructor
    · rintro ⟨_, ⟨c, hc, rfl⟩ | rfl, y, ⟨hy, hlength⟩, rfl⟩
      · exact ⟨by rw [List.singleton_append, List.all_cons, hc, hy]; rfl, by simpa using hlength⟩
      · exact ⟨hy, Nat.le_succ_of_le hlength⟩
    · rintro ⟨hx, hlength⟩
      cases x with
      | nil => exact ⟨[], .inr rfl, [], ⟨rfl, Nat.zero_le n⟩, rfl⟩
      | cons c x =>
        rw [List.all_cons, Bool.and_eq_true] at hx
        exact ⟨[c], .inl ⟨c, hx.1, rfl⟩, x, ⟨hx.2, Nat.le_of_succ_le_succ hlength⟩, rfl⟩

/-- A colon and a port, with what `p` allows behind its first digit. -/
theorem mem_port {r : Pattern} {p : List Char → Prop}
    (hr : ∀ x, x ∈ r.matches' ↔ x.all Char.isDigit = true ∧ p x) {x : List Char} :
    x ∈ (char ':' * digit 1 9 * r).matches' ↔ ∃ cs, isPort cs = true ∧ p cs.tail ∧ x = ':' :: cs := by
  simp only [matches'_mul, matches'_char, Language.mem_mul, mem_digit, hr]
  constructor
  · rintro ⟨_, ⟨_, rfl, _, ⟨k, hk, hk', rfl⟩, rfl⟩, cs, ⟨hall, hp⟩, rfl⟩
    refine ⟨k.digitChar :: cs, ?_, hp, rfl⟩
    have hdigit : k.digitChar.isDigit = true := by
      rw [Nat.isDigit_digitChar]
      exact decide_eq_true (by omega)
    have hz : k.digitChar ≠ '0' := by
      rw [Ne, Nat.digitChar_eq_zero]
      omega
    rw [isPort, List.all_cons, hdigit, hall, decide_eq_true hz]
    rfl
  · rintro ⟨cs, hport, hp, rfl⟩
    cases cs with
    | nil => cases hport
    | cons c cs =>
      rw [isPort, List.all_cons, Bool.and_eq_true, Bool.and_eq_true, decide_eq_true_eq] at hport
      obtain ⟨hz, hc, hcs⟩ := hport
      obtain ⟨k, hk, rfl⟩ := exists_digitChar hc
      have hk' : k ≠ 0 := fun e => hz (e ▸ rfl)
      exact ⟨_, ⟨_, rfl, _, ⟨k, by omega, by omega, rfl⟩, rfl⟩, cs, ⟨hcs, hp⟩, rfl⟩

/-- Any number of ports. -/
theorem mem_star_ports {r : Pattern} {q : Nat → Prop}
    (hr : ∀ x, x ∈ r.matches' ↔ ∃ n, q n ∧ x = ':' :: digitsOf n) {x : List Char} :
    x ∈ r.star.matches' ↔
      ∃ ns : List Nat, (∀ n ∈ ns, q n) ∧ x = ns.flatMap fun n => ':' :: digitsOf n := by
  rw [matches'_star, Language.mem_kstar]
  constructor
  · rintro ⟨xs, rfl, hxs⟩
    induction xs with
    | nil => exact ⟨[], nofun, rfl⟩
    | cons x xs ih =>
      obtain ⟨hx, htail⟩ := List.forall_mem_cons.1 hxs
      obtain ⟨n, hn, rfl⟩ := (hr x).1 hx
      obtain ⟨ns, hns, hflat⟩ := ih htail
      exact ⟨n :: ns, List.forall_mem_cons.2 ⟨hn, hns⟩, by rw [List.flatten_cons, hflat]; rfl⟩
  · rintro ⟨ns, hns, rfl⟩
    refine ⟨ns.map fun n => ':' :: digitsOf n, rfl, ?_⟩
    rintro _ hy
    obtain ⟨n, hn, rfl⟩ := List.mem_map.1 hy
    exact (hr _).2 ⟨n, hns n hn, rfl⟩

/-- The ports behind four octets. -/
theorem mem_longPorts {x : List Char} :
    x ∈ (char ':' * digit 1 9 * star (digit 0 9)).star.matches' ↔
      ∃ ns : List Nat, (∀ n ∈ ns, 0 < n) ∧ x = ns.flatMap fun n => ':' :: digitsOf n := by
  refine mem_star_ports fun x => ?_
  rw [mem_port (p := fun _ => True) fun y => by rw [mem_star_digit, and_true]]
  constructor
  · rintro ⟨cs, hcs, _, rfl⟩
    obtain ⟨n, hn, rfl⟩ := isPort_iff.1 hcs
    exact ⟨n, hn, rfl⟩
  · rintro ⟨n, hn, rfl⟩
    exact ⟨_, isPort_iff.2 ⟨n, hn, rfl⟩, trivial, rfl⟩

/-- The ports behind the name of this machine. -/
theorem mem_shortPorts {x : List Char} :
    x ∈ (char ':' * digit 1 9 * perhaps (digit 0 9) ^ 3).star.matches' ↔
      ∃ ns : List Nat, (∀ n ∈ ns, 0 < n ∧ n < 10 ^ 4) ∧ x = ns.flatMap fun n => ':' :: digitsOf n := by
  refine mem_star_ports fun x => ?_
  rw [mem_port (p := fun cs => cs.length ≤ 3) fun y => mem_perhaps_digit_pow 3]
  have hlength (n : Nat) : (digitsOf n).tail.length ≤ 3 ↔ n < 10 ^ 4 := by
    rw [← length_digitsOf_le_iff (by decide), List.length_tail]
    omega
  constructor
  · rintro ⟨cs, hcs, hshort, rfl⟩
    obtain ⟨n, hn, rfl⟩ := isPort_iff.1 hcs
    exact ⟨n, ⟨hn, (hlength n).1 hshort⟩, rfl⟩
  · rintro ⟨n, ⟨hn, hlt⟩, rfl⟩
    exact ⟨_, isPort_iff.2 ⟨n, hn, rfl⟩, (hlength n).2 hlt, rfl⟩

/-- The octets of a quad. -/
theorem mem_octets {x : List Char} :
    x ∈ ((octetPattern * char '.') ^ 3 * octetPattern).matches' ↔
      ∃ a b c d, (Host.quad a b c d).Valid ∧ x = (Host.quad a b c d).chars := by
  have hpow : ((octetPattern * char '.') ^ 3).matches' =
      (octetPattern * char '.').matches' * ((octetPattern * char '.').matches' *
        (octetPattern * char '.').matches') := by
    rw [matches'_pow, pow_three]
  have hdotted (y : List Char) : y ∈ (octetPattern * char '.').matches' ↔
      ∃ n ≤ 255, y = digitsOf n ++ ['.'] := by
    simp only [matches'_mul, matches'_char, Language.mem_mul, mem_octetPattern]
    constructor
    · rintro ⟨_, ⟨n, hn, rfl⟩, _, rfl, rfl⟩
      exact ⟨n, hn, rfl⟩
    · rintro ⟨n, hn, rfl⟩
      exact ⟨_, ⟨n, hn, rfl⟩, _, rfl, rfl⟩
  simp only [matches'_mul _ octetPattern, hpow, Language.mem_mul, hdotted, mem_octetPattern]
  constructor
  · rintro ⟨_, ⟨_, ⟨a, ha, rfl⟩, _, ⟨_, ⟨b, hb, rfl⟩, _, ⟨c, hc, rfl⟩, rfl⟩, rfl⟩, _, ⟨d, hd, rfl⟩, rfl⟩
    refine ⟨a, b, c, d, by simp [Host.Valid, ha, hb, hc, hd], ?_⟩
    simp [chars_quad]
  · rintro ⟨a, b, c, d, hvalid, rfl⟩
    refine ⟨_, ⟨_, ⟨a, hvalid a (by simp), rfl⟩, _, ⟨_, ⟨b, hvalid b (by simp), rfl⟩, _,
      ⟨c, hvalid c (by simp), rfl⟩, rfl⟩, rfl⟩, _, ⟨d, hvalid d (by simp), rfl⟩, ?_⟩
    simp [chars_quad]

/-- **The texts that are recognised are those that match one of the patterns.** -/
theorem isLiteral_iff_pattern {s : String} : isLiteral s = true ↔
    s.toList ∈ quadPattern.matches' ∨ s.toList ∈ localPattern.matches' := by
  have htext (l : Literal) : s = l.text ↔ s.toList = l.chars := by
    rw [← String.toList_inj, Literal.text, String.toList_ofList]
  rw [isLiteral_iff, quadPattern, localPattern, matches'_mul _ (star _), matches'_mul (word _)]
  simp only [Language.mem_mul, mem_octets, mem_word, mem_longPorts, mem_shortPorts, htext,
    ← chars_localhost]
  constructor
  · rintro ⟨⟨host, ns⟩, ⟨hvalid, hns⟩, hs⟩
    cases host with
    | quad a b c d =>
      exact .inl ⟨_, ⟨a, b, c, d, hvalid, rfl⟩, _, ⟨ns, fun n hn => (hns n hn).1, rfl⟩, hs.symm⟩
    | localhost =>
      exact .inr ⟨_, rfl, _, ⟨ns, fun n hn => ⟨(hns n hn).1, (hns n hn).2 rfl⟩, rfl⟩, hs.symm⟩
  · rintro (⟨_, ⟨a, b, c, d, hvalid, rfl⟩, _, ⟨ns, hns, rfl⟩, hs⟩ | ⟨_, rfl, _, ⟨ns, hns, rfl⟩, hs⟩)
    · exact ⟨⟨.quad a b c d, ns⟩, ⟨hvalid, fun n hn => ⟨hns n hn, nofun⟩⟩, hs.symm⟩
    · exact ⟨⟨.localhost, ns⟩, ⟨trivial, fun n hn => ⟨(hns n hn).1, fun _ => (hns n hn).2⟩⟩, hs.symm⟩

end Address

/-! ## 5. The client of a host that is not registered -/

namespace ClientFactory

open Address

variable {servers : ServerTable} {r : ClientRequest}

/-- What is made for a host that is no URL and no alias: a client for the address, or none at all. -/
theorem make_of_no_alias (options : ClientOptions) (hurl : isHttp r.host = false)
    (hname : servers.contains (Client.aliasOf r.host) = false) :
    let name := Client.aliasOf r.host
    registry.make servers options r =
      if isLiteral name then
        .ok (Client.ofServer options r ("http://" ++ name) (.broker ("http://" ++ name) ""))
      else .error
        (.raise "NewClient" 2 (if name.isEmpty then "host not found" else "error host: " ++ name)) := by
  intro name
  simp only [registry, Client.resolve, Client.endpoint, hurl, Bool.false_eq_true, if_false]
  rw [if_neg (by rw [hname]; decide)]
  by_cases h : isLiteral name = true
  · rw [if_pos h, if_pos h]
    rfl
  · rw [if_neg h, if_neg h]
    rfl

/-- **For which hosts a client is made, of those that are no URL and no alias.**

    Let `name` be what comes before a path or a query. A client is made just when `name` matches one of the
    two patterns, and these are the texts of the accepted literals. Its URL is `name` with the scheme in
    front; in every other case the error is the second of making a client, and names the host.

    What is accepted is what is documented, with these exceptions: an address of this machine is refused if
    its port has five digits; and more than one port is accepted, and a port above 65535. -/
theorem make_of_unregistered (options : ClientOptions) (hurl : isHttp r.host = false)
    (hname : servers.contains (Client.aliasOf r.host) = false) :
    let name := Client.aliasOf r.host
    let made := registry.make servers options r
    ((∃ client, made = .ok client) ↔
      name.toList ∈ quadPattern.matches' ∨ name.toList ∈ localPattern.matches') ∧
    ((∃ client, made = .ok client) ↔ ∃ l : Literal, l.Accepted ∧ name = l.text) ∧
    (∀ client, made = .ok client → client.url = "http://" ++ name ∧
      client.server = .broker ("http://" ++ name) "") ∧
    ((¬ ∃ client, made = .ok client) → made = .error (.raise "NewClient" 2
      (if name.isEmpty then "host not found" else "error host: " ++ name))) ∧
    (∀ l : Literal, name = l.text → l.Documented →
      ((¬ ∃ client, made = .ok client) ↔ l.host = .localhost ∧ ∃ n ∈ l.ports, 10 ^ 4 ≤ n)) ∧
    (∀ l : Literal, name = l.text → (∃ client, made = .ok client) →
      (¬ l.Documented ↔ 1 < l.ports.length ∨ ∃ n ∈ l.ports, 65535 < n)) := by
  intro name made
  have hmade : made = if isLiteral name then
      .ok (Client.ofServer options r ("http://" ++ name) (.broker ("http://" ++ name) ""))
    else .error
      (.raise "NewClient" 2 (if name.isEmpty then "host not found" else "error host: " ++ name)) :=
    make_of_no_alias options hurl hname
  have hok : (∃ client, made = .ok client) ↔ isLiteral name = true := by
    rw [hmade]
    by_cases h : isLiteral name = true
    · simp [h]
    · simp [h]
  have hliteral (l : Literal) (hl : name = l.text) : (∃ client, made = .ok client) ↔ l.Accepted := by
    rw [hok, isLiteral_iff]
    constructor
    · rintro ⟨m, hm, hm'⟩
      rwa [Literal.text_injective (hl.symm.trans hm')]
    · exact fun h => ⟨l, h, hl⟩
  refine ⟨hok.trans isLiteral_iff_pattern, hok.trans isLiteral_iff, fun client hclient => ?_, fun hnone => ?_,
    fun l hl hdoc => ?_, fun l hl hsome => ?_⟩
  · have h := hok.1 ⟨client, hclient⟩
    rw [hmade, if_pos h] at hclient
    cases hclient
    exact ⟨rfl, rfl⟩
  · rw [hmade, if_neg fun h => hnone (hok.2 h)]
  · rw [hliteral l hl]
    exact Literal.not_accepted_iff hdoc
  · exact Literal.not_documented_iff ((hliteral l hl).1 hsome)

/-- An address with a port, and a path behind it. -/
theorem make_of_unregistered_port :
    let r : ClientRequest := { host := "127.0.0.1:1026/v2" }
    isHttp r.host = false ∧ (Dictionary.empty : ServerTable).contains (Client.aliasOf r.host) = false ∧
      ∃ client, registry.make .empty {} r = .ok client ∧ client.url = "http://127.0.0.1:1026" := by
  intro r
  have hurl : isHttp r.host = false := by decide +kernel
  have hname : (Dictionary.empty : ServerTable).contains (Client.aliasOf r.host) = false := by
    decide +kernel
  have htext : Client.aliasOf r.host = Literal.text ⟨.quad 127 0 0 1, [1026]⟩ := by decide +kernel
  have haccepted : Literal.Accepted ⟨.quad 127 0 0 1, [1026]⟩ := by
    refine ⟨?_, fun n hn => ⟨?_, nofun⟩⟩
    · unfold Host.Valid
      decide
    · rw [List.mem_singleton.1 hn]
      decide
  obtain ⟨_, hliteral, hmade, _⟩ := make_of_unregistered {} hurl hname
  obtain ⟨client, hclient⟩ := hliteral.2 ⟨_, haccepted, htext⟩
  refine ⟨hurl, hname, client, hclient, (hmade client hclient).1.trans ?_⟩
  decide +kernel

/-- **Not every documented address has a client**: a port of five digits is none for this machine. -/
theorem make_high_port : ¬ ∀ (servers : ServerTable) (options : ClientOptions) (r : ClientRequest),
    isHttp r.host = false → servers.contains (Client.aliasOf r.host) = false →
      ((∃ client, registry.make servers options r = .ok client) ↔
        ∃ l : Literal, l.Documented ∧ Client.aliasOf r.host = l.text) := by
  intro h
  have hdoc : Literal.Documented ⟨.localhost, [10000]⟩ := by
    refine ⟨trivial, Nat.le_refl 1, fun n hn => ?_⟩
    rw [List.mem_singleton.1 hn]
    decide
  have htext : Client.aliasOf "localhost:10000" = Literal.text ⟨.localhost, [10000]⟩ := by
    decide +kernel
  obtain ⟨client, hclient⟩ := (h .empty {} { host := "localhost:10000" } (by decide +kernel)
    (by decide +kernel)).2 ⟨_, hdoc, htext⟩
  have hnone : (registry.make .empty {} { host := "localhost:10000" }).isOk = false := by decide +kernel
  rw [hclient] at hnone
  cases hnone

end ClientFactory

end BrokerCli
