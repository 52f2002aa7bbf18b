import BrokerCli.Cursor

/-!
# The cursor as a list with two sides

Whoever reads arguments steps forward over them, may step back, and may look, in any order and as often as
is wanted. What is answered then is what a list with two sides answers, and no number need be thought of:

* `Call`, `Call.answers` -- the ways in which arguments are asked for, and any number of them, one after the
  other;
* `Strip` -- the arguments behind and ahead of a place, and a MARK for the place beyond the end, which the
  arguments themselves do not show;
* `Cursor.call_strip` -- one call of a cursor is the call of its strip; `Cursor.answers_strip` -- so are all
  of them, as no call leaves the places that there are (`Cursor.Within`);
* `Cursor.next_back_next` -- a step back undoes a step forward for all that steps forward then; what it does
  not bring back is the mark;
* `Cursor.answers_of_calls` -- both, for every list of arguments and every course of calls.
-/

namespace BrokerCli

/-! ## 1. Calls -/

/-- A way in which arguments are asked for. -/
inductive Call where
  /-- A step forward. -/
  | next
  /-- A step back. -/
  | back
  | peek
  | last
deriving DecidableEq, Repr

namespace Call

/-- Whether a call moves to another place. -/
def moves : Call → Bool
  | next | back => true
  | peek | last => false

/-- The answers to calls, one after the other, and where they lead. -/
def answers {σ : Type} (step : σ → Call → Option String × σ) (s : σ) : List Call → List (Option String) × σ
  | [] => ([], s)
  | call :: calls =>
    let (answer, s) := step s call
    let (more, s) := answers step s calls
    (answer :: more, s)

variable {σ : Type} (step : σ → Call → Option String × σ)

theorem answers_cons (s : σ) (call : Call) (calls : List Call) :
    answers step s (call :: calls) =
      ((step s call).1 :: (answers step (step s call).2 calls).1, (answers step (step s call).2 calls).2) :=
  rfl

/-- What every call keeps is kept by all of them. -/
theorem keeps_of_step {P : σ → Prop} (hstep : ∀ s call, P s → P (step s call).2) {s : σ} (h : P s)
    (calls : List Call) : P (answers step s calls).2 := by
  induction calls generalizing s with
  | nil => exact h
  | cons call calls ih => exact ih (hstep s call h)

end Call

/-- A call of a cursor: the answer, and the cursor behind it. -/
def Cursor.call (c : Cursor) : Call → Option String × Cursor
  | .next => c.next
  | .back => c.back
  | .peek => (c.peek?, c)
  | .last => (c.last?, c)

/-! ## 2. Two sides -/

/-- Arguments on the two sides of a place. -/
structure Strip where
  /-- The arguments that were stepped over, the latest first. -/
  behind : List String := []
  /-- The arguments that are still to come. -/
  ahead : List String
  /-- A step was made where no argument was to come. -/
  beyond : Bool := false
deriving DecidableEq, Repr

/-- A call of a strip. A step forward carries an argument from one side to the other, and a step back returns
    it. Where there is none to come, a step forward sets the mark, and a step back only takes it away. -/
def Strip.call (s : Strip) : Call → Option String × Strip
  | .next => match s.ahead with
    | [] => (none, { s with beyond := true })
    | arg :: ahead => (some arg, { s with behind := arg :: s.behind, ahead })
  | .back =>
    if s.beyond then (none, { s with beyond := false })
    else match s.behind with
      | [] => (none, s)
      | arg :: behind => (some arg, { s with behind, ahead := arg :: s.ahead })
  | .peek => (s.ahead.head?, s)
  | .last => ((s.behind.reverse ++ s.ahead).getLast?, s)

namespace Cursor

/-- The cursor stands before an argument, at the end, or one place beyond. -/
def Within (c : Cursor) : Prop := c.position ≤ c.args.length + 1

/-- What a cursor stands for. -/
def strip (c : Cursor) : Strip where
  behind := (c.args.take c.position).reverse
  ahead := c.unread
  beyond := c.args.length < c.position

@[simp] theorem args_call (c : Cursor) (call : Call) : (c.call call).2.args = c.args := by
  cases call with
  | back =>
    unfold Cursor.call back
    dsimp only
    split <;> rfl
  | _ => rfl

/-- No call leads away from the places that there are. -/
theorem within_call (c : Cursor) (call : Call) (h : c.Within) : (c.call call).2.Within := by
  cases call with
  | next => exact Nat.min_le_right _ _
  | back =>
    unfold Within Cursor.call back at *
    dsimp only
    split
    · exact h
    · dsimp only
      omega
  | peek => exact h
  | last => exact h

variable {args : List String} {p : Nat}

/-- Before an argument, this is the first of those ahead. -/
theorem strip_of_lt (h : p < args.length) :
    strip ⟨args, p⟩ = ⟨(args.take p).reverse, args[p] :: args.drop (p + 1), false⟩ := by
  have hno : ¬ args.length < p := Nat.not_lt_of_lt h
  simp only [strip, unread, List.drop_eq_getElem_cons h, hno, decide_false]

/-- Behind an argument, this is the first of those behind. -/
theorem strip_succ_of_lt (h : p < args.length) :
    strip ⟨args, p + 1⟩ = ⟨args[p] :: (args.take p).reverse, args.drop (p + 1), false⟩ := by
  have hno : ¬ args.length < p + 1 := Nat.not_lt.2 h
  have htake : args.take (p + 1) = args.take p ++ [args[p]] := List.take_succ_eq_append_getElem h
  simp only [strip, unread, htake, List.reverse_append, List.reverse_singleton, List.singleton_append,
    hno, decide_false]

/-- At the end, and beyond, all arguments are behind. -/
theorem strip_of_le (h : args.length ≤ p) :
    strip ⟨args, p⟩ = ⟨args.reverse, [], decide (args.length < p)⟩ := by
  simp only [strip, unread, List.take_of_length_le h, List.drop_eq_nil_of_le h]

/-- Before an argument, a step forward goes over it. -/
theorem next_of_lt (h : p < args.length) : next ⟨args, p⟩ = (some args[p], ⟨args, p + 1⟩) := by
  simp only [next, peek?, List.getElem?_eq_getElem h, Nat.min_eq_left (Nat.succ_le_succ (Nat.le_of_lt h))]

/-- At the end, and beyond, a step forward leads beyond the end. -/
theorem next_of_le (h : args.length ≤ p) : next ⟨args, p⟩ = (none, ⟨args, args.length + 1⟩) := by
  simp only [next, peek?, List.getElem?_eq_none h, Nat.min_eq_right (Nat.succ_le_succ h)]

theorem strip_next (c : Cursor) : c.strip.call .next = (c.next.1, c.next.2.strip) := by
  obtain ⟨args, p⟩ := c
  by_cases h : p < args.length
  · rw [next_of_lt h, strip_of_lt h, strip_succ_of_lt h]
    rfl
  · have hle : args.length ≤ p := Nat.not_lt.1 h
    rw [next_of_le hle, strip_of_le hle, strip_of_le (Nat.le_succ _)]
    simp only [Strip.call, Nat.lt_succ_self, decide_true]

theorem strip_back {c : Cursor} (h : c.Within) : c.strip.call .back = (c.back.1, c.back.2.strip) := by
  obtain ⟨args, p⟩ := c
  cases p with
  | zero => simp [Strip.call, back, strip, unread]
  | succ p =>
    by_cases hp : p < args.length
    · have hback : back ⟨args, p + 1⟩ = (some args[p], ⟨args, p⟩) := by
        simp only [back, List.getElem?_eq_getElem hp]
      rw [hback, strip_succ_of_lt hp, strip_of_lt hp]
      rfl
    · -- the cursor is beyond the end, so that only the mark goes
      obtain rfl : p = args.length := Nat.le_antisymm (Nat.le_of_succ_le_succ h) (Nat.not_lt.1 hp)
      have hback : back ⟨args, args.length + 1⟩ = (none, ⟨args, args.length⟩) := by
        simp only [back, List.getElem?_eq_none (Nat.le_refl _)]
      rw [hback, strip_of_le (Nat.le_succ _), strip_of_le (Nat.le_refl _)]
      simp only [Strip.call, Nat.lt_succ_self, Nat.lt_irrefl, decide_true, decide_false, if_true]

/-- **A call of a cursor is the call of what it stands for.** -/
theorem call_strip {c : Cursor} (h : c.Within) (call : Call) :
    c.strip.call call = ((c.call call).1, (c.call call).2.strip) := by
  cases call with
  | next => exact c.strip_next
  | back => exact strip_back h
  | peek => simp only [Strip.call, Cursor.call, peek?_eq_head?_unread, strip]
  | last =>
    have hargs : c.strip.behind.reverse ++ c.strip.ahead = c.args := by
      simp only [strip, unread, List.reverse_reverse, List.take_append_drop]
    simp only [Strip.call, Cursor.call, hargs, last?]

/-- **So are any number of calls**, in any order. -/
theorem answers_strip {c : Cursor} (h : c.Within) (calls : List Call) :
    Call.answers Strip.call c.strip calls =
      ((Call.answers Cursor.call c calls).1, (Call.answers Cursor.call c calls).2.strip) := by
  induction calls generalizing c with
  | nil => rfl
  | cons call calls ih =>
    rw [Call.answers_cons, Call.answers_cons, call_strip h, ih (within_call c call h)]

/-! ## 3. A step back behind a step forward -/

/-- Unless the cursor stands beyond the end, a step back undoes a step forward. -/
theorem back_next_of_le (h : p ≤ args.length) : (next ⟨args, p⟩).2.back.2 = ⟨args, p⟩ := by
  simp only [next, Nat.min_eq_left (Nat.succ_le_succ h), back]

/-- Beyond the end it leads to the end. -/
theorem back_next_of_lt (h : args.length < p) : (next ⟨args, p⟩).2.back.2 = ⟨args, args.length⟩ := by
  rw [next_of_le (Nat.le_of_lt h)]
  rfl

/-- **Whoever steps forward again notices nothing of it**: the answer is the same, and so is the cursor. -/
theorem next_back_next (c : Cursor) : c.next.2.back.2.next = c.next := by
  obtain ⟨args, p⟩ := c
  by_cases h : p ≤ args.length
  · rw [back_next_of_le h]
  · have hlt : args.length < p := Nat.not_le.1 h
    rw [back_next_of_lt hlt, next_of_le (Nat.le_refl _), next_of_le (Nat.le_of_lt hlt)]

/-- Nor does whoever looks. -/
theorem peek?_back_next (c : Cursor) : c.next.2.back.2.peek? = c.peek? :=
  congrArg Prod.fst c.next_back_next

theorem last?_back_next (c : Cursor) : c.next.2.back.2.last? = c.last? := by
  have hargs : c.next.2.back.2.args = c.args := args_call c.next.2 .back
  rw [last?, last?, hargs]

/-- Calls are answered alike behind both steps, unless the next one that moves steps back. -/
theorem answers_back_next (c : Cursor) {calls : List Call} (hcalls : calls.find? Call.moves ≠ some .back) :
    (Call.answers Cursor.call c.next.2.back.2 calls).1 = (Call.answers Cursor.call c calls).1 := by
  induction calls with
  | nil => rfl
  | cons call calls ih =>
    rw [Call.answers_cons, Call.answers_cons]
    cases call with
    | next => simp only [Cursor.call, next_back_next]
    | back => exact absurd rfl hcalls
    | peek => simp only [Cursor.call, peek?_back_next, ih hcalls]
    | last => simp only [Cursor.call, last?_back_next, ih hcalls]

/-! ## 4. Beyond the end -/

/-- Where no argument is to come, steps forward are answered by nothing, and lead beyond the end. -/
theorem answers_next_of_le (h : args.length ≤ p) (n : Nat) :
    Call.answers Cursor.call ⟨args, p⟩ (List.replicate (n + 1) .next) =
      (List.replicate (n + 1) none, ⟨args, args.length + 1⟩) := by
  induction n generalizing p with
  | zero =>
    simp only [List.replicate_succ, List.replicate_zero, Call.answers, Cursor.call, next_of_le h]
  | succ n ih =>
    rw [List.replicate_succ, Call.answers_cons, List.replicate_succ (n := n + 1)]
    simp only [Cursor.call, next_of_le h, ih (Nat.le_succ _)]

/-! ## 5. Every course of calls -/

/-- No course of calls leads away from the arguments, or from the places that there are. -/
theorem within_answers (c : Cursor) (h : c.Within) (calls : List Call) :
    (Call.answers Cursor.call c calls).2.args = c.args ∧ (Call.answers Cursor.call c calls).2.Within := by
  refine Call.keeps_of_step (P := fun d : Cursor => d.args = c.args ∧ d.Within) Cursor.call
    (fun d call hd => ?_) ⟨rfl, h⟩ calls
  exact ⟨(d.args_call call).trans hd.1, d.within_call call hd.2⟩

/-- **A cursor is a list with two sides**, whatever it is asked for, and in whatever order.

    It never stands farther than one place beyond the end, and all its answers are those of the strip on which
    every argument is ahead. Wherever it has come to, a step back behind a step forward leaves the answers to
    all later calls as they are, unless the next call that moves steps back again; and it leaves the very
    cursor as it was, unless this stood beyond the end. Where a step forward is answered by nothing, so are
    all that follow it, however many, and then one step back is answered by nothing and leads to the end, from
    where no argument is read again. -/
theorem answers_of_calls (args : List String) (calls : List Call) :
    let course := Call.answers Cursor.call ⟨args, 0⟩ calls
    let c := course.2
    (c.args = args ∧ c.position ≤ args.length + 1) ∧
      Call.answers Strip.call { ahead := args } calls = (course.1, c.strip) ∧
      (∀ later, later.find? Call.moves ≠ some .back →
        (Call.answers Cursor.call c.next.2.back.2 later).1 = (Call.answers Cursor.call c later).1) ∧
      (c.position ≤ args.length → c.next.2.back.2 = c) ∧
      (c.next.1 = none → ∀ n,
        let steps := Call.answers Cursor.call c (List.replicate (n + 1) .next)
        steps.1 = List.replicate (n + 1) none ∧ steps.2.back = (none, ⟨args, args.length⟩)) := by
  intro course c
  have hstart : (Cursor.mk args 0).Within := Nat.zero_le _
  have hstrip : strip ⟨args, 0⟩ = { ahead := args } := by
    simp [strip, unread]
  obtain ⟨hargs, hwithin⟩ : c.args = args ∧ c.Within := within_answers ⟨args, 0⟩ hstart calls
  have hplaces : c.position ≤ args.length + 1 := hargs ▸ hwithin
  refine ⟨⟨hargs, hplaces⟩, hstrip ▸ answers_strip hstart calls, fun later h => answers_back_next c h,
    fun h => back_next_of_le (hargs.symm ▸ h), fun hnext n => ?_⟩
  have hend : c.args.length ≤ c.position := List.getElem?_eq_none_iff.1 hnext
  have hsteps := answers_next_of_le hend n
  refine ⟨congrArg Prod.fst hsteps, ?_⟩
  show (Call.answers Cursor.call c (List.replicate (n + 1) .next)).2.back = _
  rw [congrArg Prod.snd hsteps, hargs]
  simp only [back, List.getElem?_eq_none (Nat.le_refl _)]

/-- One argument, which is read; then steps beyond the end, and back. -/
theorem answers_of_calls_one :
    let c := (Call.answers Cursor.call ⟨["get"], 0⟩ [.next]).2
    c.next.2.back.2 = c ∧
      (Call.answers Cursor.call c.next.2.back.2 [.peek, .next, .back, .back]).1 = [none, none, none, some "get"] ∧
      (Call.answers Cursor.call c [.next, .next, .next]).2.back = (none, ⟨["get"], 1⟩) := by
  intro c
  obtain ⟨_, _, hlater, hsame, hend⟩ := answers_of_calls ["get"] [.next]
  refine ⟨hsame (by decide), ?_, (hend rfl 2).2⟩
  rw [hlater [.peek, .next, .back, .back] (by decide)]
  decide

/-- Beyond the end the two steps take away the mark, and only a further step back shows it. -/
example :
    let c := (Call.answers Cursor.call ⟨["get"], 0⟩ [.next, .next]).2
    (c.back.1, c.next.2.back.2.back.1) = (none, some "get") := by decide

end Cursor
end BrokerCli
