/-!
# Texts and their characters

Small rules on the characters of a text:

* `pieces`, `before`, `withoutTrailing`, `beginsWith` -- the pieces between separators, the beginning before
  one, the end without a trailing mark, and whether a text begins with another;
* `allBlank` -- whether a text has white space only, in the sense of the Unicode property `White_Space`. A
  configuration file that holds nothing else counts as an empty one;
* `distance` -- the least number of characters to insert, delete or exchange that turns one text into
  another. It decides which command name is suggested for a mistyped one.
-/

namespace BrokerCli.Text

/-! ## 1. Cutting a text -/

/-- The pieces between the separators; without a separator the one piece is the whole. -/
def pieces (separator : Char) : List Char → List (List Char)
  | [] => [[]]
  | c :: cs =>
    if c = separator then [] :: pieces separator cs
    else match pieces separator cs with
      | [] => [[c]]
      | p :: ps => (c :: p) :: ps

/-- A text cut at every separator. -/
def split (separator : Char) (s : String) : List String :=
  (pieces separator s.toList).map String.ofList

theorem pieces_ne_nil (separator : Char) (cs : List Char) : pieces separator cs ≠ [] := by
  cases cs with
  | nil => simp [pieces]
  | cons c cs =>
    unfold pieces
    split
    · simp
    · split <;> simp

/-- Putting the separators back gives the text. -/
theorem intercalate_pieces (separator : Char) (cs : List Char) :
    [separator].intercalate (pieces separator cs) = cs := by
  induction cs with
  | nil => rfl
  | cons c cs ih =>
    unfold pieces
    split
    · rename_i h
      obtain ⟨p, ps, hp⟩ := List.exists_cons_of_ne_nil (pieces_ne_nil separator cs)
      rw [hp] at ih ⊢
      simp [List.intercalate] at ih ⊢
      exact ⟨h.symm, ih⟩
    · obtain ⟨p, ps, hp⟩ := List.exists_cons_of_ne_nil (pieces_ne_nil separator cs)
      rw [hp] at ih ⊢
      cases ps <;> simp_all [List.intercalate]

/-- A text without a separator is one piece. -/
theorem pieces_of_notMem {separator : Char} {p : List Char} (h : separator ∉ p) : pieces separator p = [p] := by
  induction p with
  | nil => rfl
  | cons c cs ih =>
    rw [List.mem_cons, not_or] at h
    rw [pieces, if_neg fun e => h.1 e.symm, ih h.2]

/-- Up to the first separator there is one piece. -/
theorem pieces_append_cons {separator : Char} {p : List Char} (h : separator ∉ p) (cs : List Char) :
    pieces separator (p ++ separator :: cs) = p :: pieces separator cs := by
  induction p with
  | nil => rw [List.nil_append, pieces, if_pos rfl]
  | cons c p ih =>
    rw [List.mem_cons, not_or] at h
    rw [List.cons_append, pieces, if_neg fun e => h.1 e.symm, ih h.2]

/-- A text up to the first character that stops it. -/
def before (stops : Char → Bool) (s : String) : String :=
  String.ofList (s.toList.takeWhile fun c => !stops c)

/-- A text without the marks at its end. -/
def withoutTrailing (mark : Char) (s : String) : String :=
  String.ofList ((s.toList.reverse.dropWhile (· = mark)).reverse)

/-- Whether a text begins with another one. -/
def beginsWith (start s : String) : Bool := start.toList.isPrefixOf s.toList

theorem beginsWith_iff {start s : String} : beginsWith start s = true ↔ ∃ rest, s = start ++ rest := by
  rw [beginsWith, List.isPrefixOf_iff_prefix]
  constructor
  · rintro ⟨rest, h⟩
    exact ⟨String.ofList rest, String.toList_inj.1 (by simp [← h])⟩
  · rintro ⟨rest, rfl⟩
    exact ⟨rest.toList, by simp⟩

/-- A text that begins with a mark, or that is exactly it. -/
theorem beginsWith_append (start rest : String) : beginsWith start (start ++ rest) = true :=
  beginsWith_iff.2 ⟨rest, rfl⟩

/-! ## 2. White space -/

/-- The characters that are white space. -/
def isBlank (c : Char) : Bool :=
  let n := c.toNat
  (0x09 ≤ n && n ≤ 0x0D) || n = 0x20 || n = 0x85 || n = 0xA0 || n = 0x1680 ||
    (0x2000 ≤ n && n ≤ 0x200A) || n = 0x2028 || n = 0x2029 || n = 0x202F || n = 0x205F || n = 0x3000

/-- Whether a text holds white space only. -/
def allBlank (s : String) : Bool := s.toList.all isBlank

@[simp] theorem allBlank_empty : allBlank "" = true := rfl

/-- Every character that is white space in ASCII is white space. -/
theorem isBlank_of_isWhitespace {c : Char} (h : c.isWhitespace = true) : isBlank c = true := by
  simp only [Char.isWhitespace, Bool.or_eq_true, decide_eq_true_eq] at h
  rcases h with ((h | h) | h) | h <;> subst h <;> rfl

/-! ## 3. Edit distance

The distances from a text to every beginning of `target` form a ROW; `nextRow` takes the row of a text to the
row of the text with one more character. -/

/-- The rest of a row after its entry `left`, for a text that ends in `c`: each entry is one more
    than its left or upper neighbour, or the diagonal one with a step if the characters differ. -/
def rowAfter (c : Char) : Nat → List Char → List Nat → List Nat
  | left, t :: target, diagonal :: above :: row =>
    let here := min (min (left + 1) (above + 1)) (diagonal + if c = t then 0 else 1)
    here :: rowAfter c here target (above :: row)
  | _, _, _ => []

/-- The row of a text with `c` added at its end, from the row of the text. -/
def nextRow (target : List Char) (row : List Nat) (c : Char) : List Nat :=
  match row with
  | [] => []
  | first :: _ => (first + 1) :: rowAfter c (first + 1) target row

/-- The edit distance of two texts, in characters. -/
def distance (s t : String) : Nat :=
  let row := s.toList.foldl (nextRow t.toList) (List.range (t.toList.length + 1))
  row.getLastD 0

end BrokerCli.Text
