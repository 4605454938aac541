import Octet.Stack

/-!
# Nested lists on a bounded worklist

Includes and macro calls stand for further lists of the same kind. They are expanded in order, with
the lists being worked on kept on a stack instead of in recursive calls, and no deeper than a limit.
Reference model of the loop that `expandIncludes` and `expandMacros` have in common.

* `Visit` — what an element comes to: a new state, a nested list, or a failure;
* `Frame` — a list being worked on, with a note that its elements share;
* `Worklist.run`, `Worklist.expand` — works frames off, and expands one list.

The loop ends although nested lists may be of any length: with the frames read from the outermost
on, the numbers of elements left decrease in lexicographic order (`Rank`), since a nested list costs
its parent an element.
-/

namespace Octet

/-- Rows of `n` numbers. -/
def Rank : Nat → Type
  | 0 => Unit
  | n + 1 => Nat × Rank n

namespace Rank

/-- Rows are compared by the first number that differs. -/
def Lt : (n : Nat) → Rank n → Rank n → Prop
  | 0, _, _ => False
  | n + 1, a, b => Prod.Lex (· < ·) (Lt n) a b

theorem wellFounded_lt : ∀ n, WellFounded (Lt n)
  | 0 => ⟨fun _ => ⟨_, fun _ h => h.elim⟩⟩
  | n + 1 => (Prod.lex ⟨_, Nat.lt_wfRel.wf⟩ ⟨_, wellFounded_lt n⟩).wf

instance (n : Nat) : WellFoundedRelation (Rank n) := ⟨Lt n, wellFounded_lt n⟩

/-- The row of some counts: a list that is worked on counts one more than its elements, a missing
one nothing. -/
def ofCounts : (n : Nat) → List Nat → Rank n
  | 0, _ => ()
  | n + 1, [] => (0, ofCounts n [])
  | n + 1, c :: cs => (c + 1, ofCounts n cs)

/-- The first number of the row of some counts. -/
def first : List Nat → Nat
  | [] => 0
  | c :: _ => c + 1

theorem ofCounts_succ (n : Nat) (cs : List Nat) :
    ofCounts (n + 1) cs = (first cs, ofCounts n cs.tail) := by
  cases cs <;> rfl

/-- Rows that agree on some counts are compared by what follows. -/
theorem ofCounts_lt {n : Nat} {pre : List Nat} (xs ys : List Nat) (hn : pre.length < n)
    (h : first xs < first ys) :
    Lt n (ofCounts n (pre ++ xs)) (ofCounts n (pre ++ ys)) := by
  induction pre generalizing n with
  | nil =>
    match n with
    | n + 1 =>
      simp only [List.nil_append, ofCounts_succ]
      exact Prod.Lex.left _ _ h
  | cons c pre ih =>
    match n with
    | n + 1 => exact Prod.Lex.right _ (ih (by simpa using hn))

end Rank

/-- A list being worked on: a note shared by its elements, and those that are left. -/
structure Frame (φ α : Type) where
  note : φ
  left : List α

/-- What an element comes to. -/
inductive Visit (σ φ α ε : Type) where
  /-- The element is done. -/
  | done (state : σ)
  /-- The element stands for a nested list, which may be too deep; the failure is for that case. -/
  | enter (state : σ) (note : φ) (items : List α) (tooDeep : ε)
  /-- The element fails. -/
  | fail (state : σ) (error : ε)

namespace Worklist

variable {σ φ α ε : Type}

/-- The numbers of elements that are left, from the outermost frame on. -/
def counts (frames : List (Frame φ α)) : List Nat := (frames.map (·.left.length)).reverse

theorem counts_cons (f : Frame φ α) (frames : List (Frame φ α)) :
    counts (f :: frames) = counts frames ++ [f.left.length] := by
  simp only [counts, List.map_cons, List.reverse_cons]

theorem counts_length_lt {f : Frame φ α} {frames : List (Frame φ α)} {limit : Nat}
    (fits : (f :: frames).length ≤ limit) : (counts frames).length < limit := by
  simpa only [counts, List.length_reverse, List.length_map] using Nat.lt_of_succ_le fits

/-! ## One iteration lowers the counts -/

section

variable {note inner : φ} {x : α} {left items : List α} {outer : List (Frame φ α)} {limit : Nat}

theorem counts_leave (fits : (⟨note, []⟩ :: outer : List (Frame φ α)).length ≤ limit) :
    Rank.Lt limit (Rank.ofCounts limit (counts outer))
      (Rank.ofCounts limit (counts (⟨note, []⟩ :: outer))) := by
  simpa only [counts_cons, List.append_nil, List.length_nil] using
    Rank.ofCounts_lt [] [0] (counts_length_lt fits) Nat.zero_lt_one

variable (fits : (⟨note, x :: left⟩ :: outer : List (Frame φ α)).length ≤ limit)
include fits

theorem counts_done :
    Rank.Lt limit (Rank.ofCounts limit (counts (⟨note, left⟩ :: outer)))
      (Rank.ofCounts limit (counts (⟨note, x :: left⟩ :: outer))) := by
  simpa only [counts_cons, List.length_cons] using
    Rank.ofCounts_lt [left.length] [left.length + 1] (counts_length_lt fits) (Nat.lt_succ_self _)

/-- The nested list may be of any length, since its parent has an element less. -/
theorem counts_enter :
    Rank.Lt limit (Rank.ofCounts limit (counts (⟨inner, items⟩ :: ⟨note, left⟩ :: outer)))
      (Rank.ofCounts limit (counts (⟨note, x :: left⟩ :: outer))) := by
  have hlt := Rank.ofCounts_lt [left.length, items.length] [left.length + 1]
    (counts_length_lt fits) (Nat.lt_succ_self _)
  simpa only [counts_cons, List.length_cons, List.append_assoc, List.cons_append,
    List.nil_append] using hlt

end

/-! ## The loop -/

/-- How the elements of frames with a note are expanded. -/
abbrev Rules (σ φ α ε : Type) := φ → σ → α → Visit σ φ α ε

/-- Works the frames off, the innermost first in the list. A failure leaves the state that was
reached. -/
def run (rules : Rules σ φ α ε) (limit : Nat) (frames : List (Frame φ α)) (s : σ)
    (fits : frames.length ≤ limit) : Except (ε × σ) σ :=
  match frames with
  | [] => .ok s
  | ⟨_, []⟩ :: outer => run rules limit outer s (Nat.le_of_succ_le fits)
  | ⟨note, x :: left⟩ :: outer =>
    match rules note s x with
    | .done s => run rules limit (⟨note, left⟩ :: outer) s fits
    | .fail s e => .error (e, s)
    | .enter s inner items tooDeep =>
      if h : outer.length + 1 < limit then
        run rules limit (⟨inner, items⟩ :: ⟨note, left⟩ :: outer) s h
      else .error (tooDeep, s)
termination_by Rank.ofCounts limit (counts frames)
decreasing_by
  · exact counts_leave fits
  · exact counts_done fits
  · exact counts_enter fits

/-- Works one list off, nesting at most as deep as a stack with a limit. -/
def expand (rules : Rules σ φ α ε) (limit : Int) (note : φ) (items : List α) (s : σ) :
    Except (ε × σ) σ :=
  run rules (Stack.capacityOf limit) [⟨note, items⟩] s (Stack.capacityOf_pos limit)

end Worklist

end Octet
