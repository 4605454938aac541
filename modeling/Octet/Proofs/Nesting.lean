import Octet.Worklist

/-!
# Worklists and recursion

The worklist keeps the lists being worked on in frames. Here the same expansion is written as a
recursion: a nested list is expanded by a recursive call in the place of its element, and the depth
of the recursion is limited.

* `Worklist.nested` — expansion by recursion; it recurses on the depth that is left and on the list,
  so it computes.
* `Worklist.expand_eq_nested` — the worklist does what the recursion does, states and failures
  included.
* `Worklist.nested_induct` — induction along the recursion.

The link is `resume`, which says what a stack of frames still has to do: each frame is expanded by
recursion, with the depth that is left at its place in the stack, and then the frames below it
follow.
-/

namespace Octet.Worklist

variable {σ φ α ε : Type}

/-- Expands a list, with `deeper` for the lists that its elements stand for; without it they are too
deep. -/
def nestedBy (rules : Rules σ φ α ε) (deeper : Option (φ → List α → σ → Except (ε × σ) σ))
    (note : φ) :
    List α → σ → Except (ε × σ) σ
  | [], s => .ok s
  | x :: left, s =>
    match rules note s x with
    | .done s => nestedBy rules deeper note left s
    | .fail s e => .error (e, s)
    | .enter s inner items tooDeep =>
      match deeper with
      | none => .error (tooDeep, s)
      | some expandInner => expandInner inner items s >>= nestedBy rules deeper note left

/-- Expands a list by recursion. Lists may be nested in it `room` levels deep. -/
def nested (rules : Rules σ φ α ε) : Nat → φ → List α → σ → Except (ε × σ) σ
  | 0 => nestedBy rules none
  | room + 1 => nestedBy rules (some (nested rules room))

variable (rules : Rules σ φ α ε)

/-! ## One element -/

@[simp] theorem nested_nil (room : Nat) (note : φ) (s : σ) :
    nested rules room note [] s = .ok s := by
  cases room <;> rfl

variable {rules} {room : Nat} {note inner : φ} {x : α} {items : List α} {s s' : σ} {e : ε}

theorem nested_done (h : rules note s x = .done s') (left : List α) :
    nested rules room note (x :: left) s = nested rules room note left s' := by
  cases room <;> simp only [nested, nestedBy, h]

theorem nested_fail (h : rules note s x = .fail s' e) (left : List α) :
    nested rules room note (x :: left) s = .error (e, s') := by
  cases room <;> simp only [nested, nestedBy, h]

theorem nested_tooDeep (h : rules note s x = .enter s' inner items e) (left : List α) :
    nested rules 0 note (x :: left) s = .error (e, s') := by
  simp only [nested, nestedBy, h]

theorem nested_enter (h : rules note s x = .enter s' inner items e) (left : List α) :
    nested rules (room + 1) note (x :: left) s =
      nested rules room inner items s' >>= nested rules (room + 1) note left := by
  simp only [nested, nestedBy, h]

/-! ## Frames -/

/-- What is left to do for a stack of frames, the innermost first. -/
def resume (rules : Rules σ φ α ε) (limit : Nat) : List (Frame φ α) → σ → Except (ε × σ) σ
  | [], s => .ok s
  | ⟨note, left⟩ :: outer, s =>
    nested rules (limit - (outer.length + 1)) note left s >>= resume rules limit outer

theorem run_eq_resume {limit : Nat} (frames : List (Frame φ α)) (s : σ)
    (fits : frames.length ≤ limit) :
    run rules limit frames s fits = resume rules limit frames s := by
  fun_induction run rules limit frames s fits with
  | case1 => rfl
  | case2 s note outer fits _ ih =>
    rw [ih, resume, nested_nil]
    rfl
  | case3 s note x left outer fits s' hv _ ih => rw [ih, resume, resume, nested_done hv]
  | case4 s note x left outer fits s' e hv =>
    rw [resume, nested_fail hv]
    rfl
  | case5 s note x left outer fits s' inner items e hv h _ ih =>
    -- The frame that entered has one level more left than the frame it pushed.
    obtain ⟨room, hroom⟩ : ∃ room, limit - (outer.length + 1) = room + 1 :=
      ⟨limit - (outer.length + 2), by omega⟩
    have hinner : limit - (outer.length + 1 + 1) = room := by omega
    have hrest : resume rules limit (⟨note, left⟩ :: outer) =
        fun s => nested rules (room + 1) note left s >>= resume rules limit outer := by
      funext s
      rw [resume, hroom]
    rw [ih, resume, resume, List.length_cons, hinner, hroom, nested_enter hv, bind_assoc, hrest]
  | case6 s note x left outer fits s' inner items e hv h =>
    have hroom : limit - (outer.length + 1) = 0 := by omega
    rw [resume, hroom, nested_tooDeep hv]
    rfl

/-- **A worklist expands a list as the recursion does.** -/
theorem expand_eq_nested (limit : Int) (note : φ) (items : List α) (s : σ) :
    expand rules limit note items s = nested rules (Stack.capacityOf limit - 1) note items s := by
  rw [expand, run_eq_resume, resume]
  cases nested rules (Stack.capacityOf limit - 1) note items s <;> rfl

/-! ## Induction -/

/-- Induction along the recursion: over the levels that are left, and at each level over the
list. -/
theorem nested_induct (rules : Rules σ φ α ε) {motive : Nat → φ → List α → σ → Prop}
    (nil : ∀ room note s, motive room note [] s)
    (done : ∀ room note x left s s', rules note s x = .done s' → motive room note left s' →
      motive room note (x :: left) s)
    (fail : ∀ room note x left s s' e, rules note s x = .fail s' e → motive room note (x :: left) s)
    (tooDeep : ∀ note x left s s' inner items e, rules note s x = .enter s' inner items e →
      motive 0 note (x :: left) s)
    (enter : ∀ room note x left s s' inner items e, rules note s x = .enter s' inner items e →
      motive room inner items s' → (∀ t, motive (room + 1) note left t) →
      motive (room + 1) note (x :: left) s)
    (room : Nat) (note : φ) (items : List α) (s : σ) : motive room note items s := by
  induction room generalizing note items s with
  | zero =>
    induction items generalizing s with
    | nil => exact nil 0 note s
    | cons x left ih =>
      cases hv : rules note s x with
      | done s' => exact done 0 note x left s s' hv (ih s')
      | fail s' e => exact fail 0 note x left s s' e hv
      | enter s' inner items e => exact tooDeep note x left s s' inner items e hv
  | succ room ihroom =>
    induction items generalizing s with
    | nil => exact nil (room + 1) note s
    | cons x left ih =>
      cases hv : rules note s x with
      | done s' => exact done (room + 1) note x left s s' hv (ih s')
      | fail s' e => exact fail (room + 1) note x left s s' e hv
      | enter s' inner items e =>
        exact enter room note x left s s' inner items e hv (ihroom inner items s') ih

end Octet.Worklist
