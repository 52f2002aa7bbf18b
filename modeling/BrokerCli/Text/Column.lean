/-!
# Columns of a table

Help pages set a left and a right column. A column is as wide as its longest entry, where the
length of an entry is its size in UTF-8 BYTES; an entry is filled up to that width by its number
of CHARACTERS. So every row of a block reaches the same character offset (`length_pad`), and that
offset is at least the longest entry (`length_le_width`).
-/

namespace BrokerCli.Text

/-- The width of a column: the largest byte size among its entries. -/
def width (entries : List String) : Nat :=
  entries.foldr (fun s w => max s.utf8ByteSize w) 0

/-- The text, followed by as many spaces as bring it to `n` characters. -/
def pad (n : Nat) (s : String) : String :=
  s ++ String.ofList (List.replicate (n - s.length) ' ')

theorem utf8ByteSize_le_width {entries : List String} {s : String} (h : s ∈ entries) :
    s.utf8ByteSize ≤ width entries := by
  induction entries with
  | nil => cases h
  | cons a as ih =>
    simp only [width, List.foldr_cons]
    rcases List.mem_cons.1 h with rfl | h
    · exact Nat.le_max_left ..
    · exact Nat.le_trans (ih h) (Nat.le_max_right ..)

/-- A character takes a byte at least. -/
theorem length_le_utf8ByteSize (s : String) : s.length ≤ s.utf8ByteSize := by
  have hchars (cs : List Char) : cs.length ≤ (String.ofList cs).utf8ByteSize := by
    induction cs with
    | nil => exact Nat.zero_le _
    | cons c cs ih =>
      have hc := c.utf8Size_pos
      rw [String.ofList_cons, String.utf8ByteSize_append, String.utf8ByteSize_singleton, List.length_cons]
      omega
  have hs := hchars s.toList
  rwa [String.ofList_toList, String.length_toList] at hs

theorem length_le_width {entries : List String} {s : String} (h : s ∈ entries) :
    s.length ≤ width entries :=
  Nat.le_trans (length_le_utf8ByteSize s) (utf8ByteSize_le_width h)

/-- A padded text has the width asked for, or its own length if that is more. -/
theorem length_pad (n : Nat) (s : String) : (pad n s).length = max n s.length := by
  simp [pad]
  omega

end BrokerCli.Text
