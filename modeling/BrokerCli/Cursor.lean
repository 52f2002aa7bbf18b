/-!
# A cursor over arguments

A position in a list of arguments that moves forward and back. At the end it can stand ONE place
beyond: there a step back leads to the end and reads nothing.
-/

namespace BrokerCli

/-- Arguments with a position among them. -/
structure Cursor where
  args : List String
  position : Nat := 0
deriving DecidableEq, Repr

namespace Cursor

/-- The argument that comes next. -/
def peek? (c : Cursor) : Option String := c.args[c.position]?

/-- The last argument of all. -/
def last? (c : Cursor) : Option String := c.args.getLast?

/-- The arguments that are still to come. -/
def unread (c : Cursor) : List String := c.args.drop c.position

/-- One step forward, with the argument stepped over. -/
def next (c : Cursor) : Option String × Cursor :=
  (c.peek?, { c with position := min (c.position + 1) (c.args.length + 1) })

/-- One step back, with the argument that comes next again. -/
def back (c : Cursor) : Option String × Cursor :=
  match c.position with
  | 0 => (none, c)
  | p + 1 => (c.args[p]?, { c with position := p })

theorem peek?_eq_head?_unread (c : Cursor) : c.peek? = c.unread.head? := by
  simp [peek?, unread]

/-- A step forward drops the first argument that was to come. -/
theorem unread_next (c : Cursor) : c.next.2.unread = c.unread.tail := by
  simp only [next, unread, List.tail_drop]
  by_cases h : c.position + 1 ≤ c.args.length + 1
  · rw [Nat.min_eq_left h]
  · rw [Nat.min_eq_right (by omega), List.drop_eq_nil_of_le (by omega),
      List.drop_eq_nil_of_le (by omega)]

/-- A step forward that meets an argument leaves the arguments behind it. -/
theorem unread_of_next {c behind : Cursor} {arg : String} (h : c.next = (some arg, behind)) :
    c.unread = arg :: behind.unread := by
  have hp : c.unread.head? = some arg := (peek?_eq_head?_unread c).symm.trans (congrArg Prod.fst h)
  have hb : c.next.2 = behind := congrArg Prod.snd h
  obtain ⟨rest, hr⟩ := List.head?_eq_some_iff.1 hp
  rw [← hb, unread_next, hr, List.tail_cons]

/-- A step forward that meets an argument leaves fewer to come. -/
theorem unread_lt_of_next {c behind : Cursor} {arg : String} (h : c.next = (some arg, behind)) :
    behind.unread.length < c.unread.length := by
  rw [unread_of_next h]
  exact Nat.lt_succ_self _

/-- A step forward that meets no argument has none to come. -/
theorem unread_of_next_none {c behind : Cursor} (h : c.next = (none, behind)) : c.unread = [] := by
  rw [← List.head?_eq_none_iff, ← peek?_eq_head?_unread]
  exact congrArg Prod.fst h

/-- A step back undoes a step forward over an argument. -/
theorem back_next {c : Cursor} {arg : String} (h : c.peek? = some arg) : c.next.2.back.2 = c := by
  have hlt : c.position < c.args.length := (List.getElem?_eq_some_iff.1 h).1
  simp only [next, Nat.min_eq_left (Nat.succ_le_succ (Nat.le_of_lt hlt)), back]

end Cursor

end BrokerCli
