import Octet.Worklist

/-!
# Worklists step by step

The loop of a worklist, one iteration at a time. A visit may ask something outside of the program
that answers differently each time, so every iteration may have rules of its own.

* `Worklist.Progress`, `Worklist.step` — where the loop is, and one iteration;
* `Worklist.iterate` — some iterations, each by its own rules;
* `Worklist.iterate_ends` — **the loop ends, whatever the rules are**;
* `Worklist.iterate_eq_run` — by the same rules throughout, it ends with the result of
  `Worklist.run`.
-/

namespace Octet.Worklist

variable {σ φ α ε : Type}

/-- Where the loop is: it has frames to work off, or it has ended. -/
inductive Progress (σ φ α ε : Type) where
  | working (frames : List (Frame φ α)) (state : σ)
  | ended (result : Except (ε × σ) σ)

/-- One iteration. A list that is worked off is left, and otherwise its next element is visited. -/
def step (rules : Rules σ φ α ε) (limit : Nat) : Progress σ φ α ε → Progress σ φ α ε
  | .working [] s => .ended (.ok s)
  | .working (⟨_, []⟩ :: outer) s => .working outer s
  | .working (⟨note, x :: left⟩ :: outer) s =>
    match rules note s x with
    | .done s => .working (⟨note, left⟩ :: outer) s
    | .fail s e => .ended (.error (e, s))
    | .enter s inner items tooDeep =>
      if outer.length + 1 < limit then .working (⟨inner, items⟩ :: ⟨note, left⟩ :: outer) s
      else .ended (.error (tooDeep, s))
  | .ended result => .ended result

/-- Some iterations, the first of them by the first rules. -/
def iterate (rules : Nat → Rules σ φ α ε) (limit : Nat) : Nat → Progress σ φ α ε → Progress σ φ α ε
  | 0, p => p
  | n + 1, p => iterate (fun k => rules (k + 1)) limit n (step (rules 0) limit p)

section

variable {rules : Rules σ φ α ε} {limit : Nat} {note inner : φ} {x : α} {left items : List α}
  {outer : List (Frame φ α)} {s s' : σ} {e : ε}

theorem step_done (h : rules note s x = .done s') :
    step rules limit (.working (⟨note, x :: left⟩ :: outer) s) =
      .working (⟨note, left⟩ :: outer) s' := by
  simp only [step, h]

theorem step_fail (h : rules note s x = .fail s' e) :
    step rules limit (.working (⟨note, x :: left⟩ :: outer) s) = .ended (.error (e, s')) := by
  simp only [step, h]

theorem step_enter (h : rules note s x = .enter s' inner items e)
    (fits : outer.length + 1 < limit) :
    step rules limit (.working (⟨note, x :: left⟩ :: outer) s) =
      .working (⟨inner, items⟩ :: ⟨note, left⟩ :: outer) s' := by
  simp only [step, h, if_pos fits]

theorem step_tooDeep (h : rules note s x = .enter s' inner items e)
    (full : ¬ outer.length + 1 < limit) :
    step rules limit (.working (⟨note, x :: left⟩ :: outer) s) = .ended (.error (e, s')) := by
  simp only [step, h, if_neg full]

end

/-- **The loop ends, whatever the rules are.** The numbers of elements left decrease with every
iteration, in lexicographic order. -/
theorem iterate_ends {limit : Nat} (rules : Nat → Rules σ φ α ε) (frames : List (Frame φ α)) (s : σ)
    (fits : frames.length ≤ limit) :
    ∃ n result, iterate rules limit n (.working frames s) = .ended result := by
  -- One iteration more than the loop takes from where the first one leads.
  have after {next : Progress σ φ α ε} (hstep : step (rules 0) limit (.working frames s) = next)
      (hnext : ∃ n result, iterate (fun k => rules (k + 1)) limit n next = .ended result) :
      ∃ n result, iterate rules limit n (.working frames s) = .ended result := by
    obtain ⟨n, result, h⟩ := hnext
    exact ⟨n + 1, result, by rw [iterate, hstep, h]⟩
  match frames with
  | [] => exact ⟨1, .ok s, rfl⟩
  | ⟨note, []⟩ :: outer =>
    exact after rfl (iterate_ends (fun k => rules (k + 1)) outer s (Nat.le_of_succ_le fits))
  | ⟨note, x :: left⟩ :: outer =>
    match hv : rules 0 note s x with
    | .done s' =>
      exact after (step_done hv)
        (iterate_ends (fun k => rules (k + 1)) (⟨note, left⟩ :: outer) s' fits)
    | .fail s' e => exact after (step_fail hv) ⟨0, _, rfl⟩
    | .enter s' inner items e =>
      by_cases hroom : outer.length + 1 < limit
      · exact after (step_enter hv hroom)
          (iterate_ends (fun k => rules (k + 1)) (⟨inner, items⟩ :: ⟨note, left⟩ :: outer) s' hroom)
      · exact after (step_tooDeep hv hroom) ⟨0, _, rfl⟩
termination_by Rank.ofCounts limit (counts frames)
decreasing_by
  · exact counts_leave fits
  · exact counts_done fits
  · exact counts_enter fits

/-- **By the same rules throughout** the loop ends with the result of the run. -/
theorem iterate_eq_run (rules : Rules σ φ α ε) {limit : Nat} (frames : List (Frame φ α)) (s : σ)
    (fits : frames.length ≤ limit) :
    ∃ n, iterate (fun _ => rules) limit n (.working frames s) =
      .ended (run rules limit frames s fits) := by
  fun_induction run rules limit frames s fits with
  | case1 s => exact ⟨1, rfl⟩
  | case2 s note outer fits _ ih =>
    obtain ⟨n, h⟩ := ih
    exact ⟨n + 1, h⟩
  | case3 s note x left outer fits s' hv _ ih =>
    obtain ⟨n, h⟩ := ih
    exact ⟨n + 1, by rw [iterate, step_done hv, h]⟩
  | case4 s note x left outer fits s' e hv => exact ⟨1, step_fail hv⟩
  | case5 s note x left outer fits s' inner items e hv hroom _ ih =>
    obtain ⟨n, h⟩ := ih
    exact ⟨n + 1, by rw [iterate, step_enter hv hroom, h]⟩
  | case6 s note x left outer fits s' inner items e hv hroom => exact ⟨1, step_tooDeep hv hroom⟩

end Octet.Worklist
