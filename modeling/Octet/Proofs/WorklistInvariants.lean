import Octet.Worklist

/-!
# Invariants of worklists

What holds of the elements of a list, and is passed on to the lists that they stand for, holds of
every element that the worklist ever visits, however deep and whether or not the run succeeds.

* `Worklist.Visits` — the visits of a run;
* `Worklist.RunInvariant` — what one visit of a run has to preserve, where the property of elements
  may depend on the state;
* `Worklist.RunInvariant.visits`, `Worklist.RunInvariant.reached_run` — **what a whole run
  preserves**, at each of its visits and in the state that it leaves;
* `Worklist.Invariant` — the same for properties that do not depend on the state;
* `Worklist.run_eq_error` — a run that fails does so at one of its visits.
-/

namespace Octet.Worklist

variable {σ φ α ε : Type}

/-- `Visits rules limit frames s note t x`: a run that has the frames to work off and starts in
state `s` visits `x`, an element of a frame with note `note`, in state `t`. -/
inductive Visits (rules : Rules σ φ α ε) (limit : Nat) : List (Frame φ α) → σ → φ → σ → α → Prop
  | here {note : φ} {x : α} {left : List α} {outer : List (Frame φ α)} {s : σ} :
    Visits rules limit (⟨note, x :: left⟩ :: outer) s note s x
  | leave {other note : φ} {outer : List (Frame φ α)} {s t : σ} {x : α}
    (h : Visits rules limit outer s note t x) :
    Visits rules limit (⟨other, []⟩ :: outer) s note t x
  | done {other note : φ} {y x : α} {left : List α} {outer : List (Frame φ α)} {s s' t : σ}
    (hy : rules other s y = .done s')
      (h : Visits rules limit (⟨other, left⟩ :: outer) s' note t x) :
    Visits rules limit (⟨other, y :: left⟩ :: outer) s note t x
  | enter {other inner note : φ} {y x : α} {left items : List α} {outer : List (Frame φ α)}
    {s s' t : σ} {e : ε}
    (hy : rules other s y = .enter s' inner items e) (fits : outer.length + 1 < limit)
    (h : Visits rules limit (⟨inner, items⟩ :: ⟨other, left⟩ :: outer) s' note t x) :
    Visits rules limit (⟨other, y :: left⟩ :: outer) s note t x

/-- The state that a run leaves, also if it fails. -/
def reached : Except (ε × σ) σ → σ
  | .ok s => s
  | .error (_, s) => s

/-- The property holds of all elements that are left. -/
def Frames (element : φ → α → Prop) (frames : List (Frame φ α)) : Prop :=
  ∀ f ∈ frames, ∀ x ∈ f.left, element f.note x

section

variable {element : φ → α → Prop} {note : φ} {x : α} {left : List α}
  {frames outer : List (Frame φ α)}

theorem frames_cons :
    Frames element (⟨note, left⟩ :: outer) ↔
    (∀ x ∈ left, element note x) ∧ Frames element outer := by
  simp [Frames]

theorem frames_singleton : Frames element [⟨note, left⟩] ↔ ∀ x ∈ left, element note x := by
  simp [Frames]

theorem Frames.first (h : Frames element (⟨note, x :: left⟩ :: outer)) : element note x :=
  (frames_cons.1 h).1 x (List.mem_cons_self ..)

theorem Frames.rest (h : Frames element (⟨note, x :: left⟩ :: outer)) :
    Frames element (⟨note, left⟩ :: outer) := by
  rw [frames_cons] at h ⊢
  exact ⟨fun y hy => h.1 y (.tail _ hy), h.2⟩

theorem Frames.mono {element' : φ → α → Prop} (h : Frames element frames)
    (hmono : ∀ note x, element note x → element' note x) : Frames element' frames :=
  fun f hf x hx => hmono _ _ (h f hf x hx)

end

/-! ## Along a run -/

/-- A property of elements, which may depend on the state, and one of states. A visit of the run
keeps both, the first for all elements, and passes the first on to the list that it enters. -/
structure RunInvariant (rules : Rules σ φ α ε) (limit : Nat) (start : List (Frame φ α)) (s₀ : σ)
    (element : σ → φ → α → Prop) (state : σ → Prop) : Prop where
  done : ∀ {note x s s'}, Visits rules limit start s₀ note s x → element s note x → state s →
    rules note s x = .done s' → state s' ∧ ∀ m y, element s m y → element s' m y
  fail : ∀ {note x s s' e}, Visits rules limit start s₀ note s x → element s note x → state s →
    rules note s x = .fail s' e → state s'
  enter : ∀ {note x s s' inner items e}, Visits rules limit start s₀ note s x → element s note x →
    state s → rules note s x = .enter s' inner items e →
      state s' ∧ (∀ m y, element s m y → element s' m y) ∧ ∀ y ∈ items, element s' inner y

namespace RunInvariant

/-- A point of a run: what is visited from there on is visited by the run, and the properties
hold. -/
structure At (rules : Rules σ φ α ε) (limit : Nat) (start : List (Frame φ α)) (s₀ : σ)
    (element : σ → φ → α → Prop) (state : σ → Prop) (frames : List (Frame φ α)) (s : σ) : Prop where
  visits : ∀ {note t x}, Visits rules limit frames s note t x → Visits rules limit start s₀ note t x
  frames : Frames (element s) frames
  state : state s

variable {rules : Rules σ φ α ε} {limit : Nat} {start frames outer : List (Frame φ α)}
  {s₀ s s' t : σ} {element : σ → φ → α → Prop} {state : σ → Prop} {note inner : φ} {x : α}
  {left items : List α} {e : ε}

theorem At.leave (h : At rules limit start s₀ element state (⟨note, []⟩ :: outer) s) :
    At rules limit start s₀ element state outer s :=
  ⟨fun hv => h.visits (.leave hv), (frames_cons.1 h.frames).2, h.state⟩

variable (hinv : RunInvariant rules limit start s₀ element state)
include hinv

theorem At.done (h : At rules limit start s₀ element state (⟨note, x :: left⟩ :: outer) s)
    (hx : rules note s x = .done s') :
    At rules limit start s₀ element state (⟨note, left⟩ :: outer) s' := by
  obtain ⟨hs', hmono⟩ := hinv.done (h.visits .here) h.frames.first h.state hx
  exact ⟨fun hv => h.visits (.done hx hv), h.frames.rest.mono hmono, hs'⟩

theorem At.enter (h : At rules limit start s₀ element state (⟨note, x :: left⟩ :: outer) s)
    (hx : rules note s x = .enter s' inner items e) (fits : outer.length + 1 < limit) :
    At rules limit start s₀ element state (⟨inner, items⟩ :: ⟨note, left⟩ :: outer) s' := by
  obtain ⟨hs', hmono, hitems⟩ := hinv.enter (h.visits .here) h.frames.first h.state hx
  exact ⟨fun hv => h.visits (.enter hx fits hv), frames_cons.2 ⟨hitems, h.frames.rest.mono hmono⟩,
    hs'⟩

theorem At.visited (h : At rules limit start s₀ element state frames s)
    (hv : Visits rules limit frames s note t x) :
    element t note x ∧ state t := by
  induction hv with
  | here => exact ⟨h.frames.first, h.state⟩
  | leave _ ih => exact ih h.leave
  | done hy _ ih => exact ih (h.done hinv hy)
  | enter hy fits _ ih => exact ih (h.enter hinv hy fits)

theorem At.reached_run (fits : frames.length ≤ limit)
    (h : At rules limit start s₀ element state frames s) :
    state (reached (run rules limit frames s fits)) := by
  fun_induction run rules limit frames s fits with
  | case1 => exact h.state
  | case2 s note outer fits _ ih => exact ih h.leave
  | case3 s note x left outer fits s' hx _ ih => exact ih (h.done hinv hx)
  | case4 s note x left outer fits s' e hx =>
    exact hinv.fail (h.visits .here) h.frames.first h.state hx
  | case5 s note x left outer fits s' inner items e hx hfits _ ih =>
    exact ih (h.enter hinv hx hfits)
  | case6 s note x left outer fits s' inner items e hx _ =>
    exact (hinv.enter (h.visits .here) h.frames.first h.state hx).1

section

variable (hframes : Frames (element s₀) start) (hs : state s₀)
include hframes hs

/-- **Every visit of a run finds an element and a state with the properties.** -/
theorem visits (hv : Visits rules limit start s₀ note t x) : element t note x ∧ state t :=
  At.visited hinv ⟨fun hv => hv, hframes, hs⟩ hv

/-- **A run leaves a state with the property**, whether it succeeds or not. -/
theorem reached_run (fits : start.length ≤ limit) :
    state (reached (run rules limit start s₀ fits)) :=
  At.reached_run hinv fits ⟨fun hv => hv, hframes, hs⟩

end

end RunInvariant

/-! ## Properties that do not depend on the state -/

/-- A property of elements with their notes and one of states, such that a visit keeps the one of
states and passes the one of elements on to the list that it enters. -/
structure Invariant (rules : Rules σ φ α ε) (element : φ → α → Prop) (state : σ → Prop) : Prop where
  done : ∀ {note x s s'}, element note x → state s → rules note s x = .done s' → state s'
  fail : ∀ {note x s s' e}, element note x → state s → rules note s x = .fail s' e → state s'
  enter : ∀ {note x s s' inner items e}, element note x → state s →
    rules note s x = .enter s' inner items e → state s' ∧ ∀ y ∈ items, element inner y

namespace Invariant

variable {rules : Rules σ φ α ε} {element : φ → α → Prop} {state : σ → Prop}
  (hinv : Invariant rules element state)
include hinv

theorem along (limit : Nat) (start : List (Frame φ α)) (s₀ : σ) :
    RunInvariant rules limit start s₀ (fun _ => element) state where
  done _ hx hs hv := ⟨hinv.done hx hs hv, fun _ _ hy => hy⟩
  fail _ hx hs hv := hinv.fail hx hs hv
  enter _ hx hs hv := ⟨(hinv.enter hx hs hv).1, fun _ _ hy => hy, (hinv.enter hx hs hv).2⟩

theorem visits {limit : Nat} {frames : List (Frame φ α)} {s t : σ} {note : φ} {x : α}
    (h : Visits rules limit frames s note t x) (hframes : Frames element frames) (hs : state s) :
    element note x ∧ state t :=
  (hinv.along limit frames s).visits hframes hs h

theorem reached_run {limit : Nat} (frames : List (Frame φ α)) (s : σ) (fits : frames.length ≤ limit)
    (hframes : Frames element frames) (hs : state s) :
    state (reached (run rules limit frames s fits)) :=
  (hinv.along limit frames s).reached_run hframes hs fits

end Invariant

/-! ## Failures -/

/-- **A run that fails does so at one of its visits**: the element fails, or its list would be
nested too deeply. -/
theorem run_eq_error {rules : Rules σ φ α ε} {limit : Nat} {frames : List (Frame φ α)} {s s' : σ}
    {fits : frames.length ≤ limit} {e : ε} (h : run rules limit frames s fits = .error (e, s')) :
    ∃ note t x, Visits rules limit frames s note t x ∧
      (rules note t x = .fail s' e ∨
        ∃ inner items, rules note t x = .enter s' inner items e) := by
  fun_induction run rules limit frames s fits with
  | case1 => cases h
  | case2 s note outer fits _ ih =>
    obtain ⟨m, t, y, hv, hend⟩ := ih h
    exact ⟨m, t, y, .leave hv, hend⟩
  | case3 s note x left outer fits s₁ hx _ ih =>
    obtain ⟨m, t, y, hv, hend⟩ := ih h
    exact ⟨m, t, y, .done hx hv, hend⟩
  | case4 s note x left outer fits s₁ e₁ hx =>
    cases h
    exact ⟨note, s, x, .here, .inl hx⟩
  | case5 s note x left outer fits s₁ inner items e₁ hx hfits _ ih =>
    obtain ⟨m, t, y, hv, hend⟩ := ih h
    exact ⟨m, t, y, .enter hx hfits hv, hend⟩
  | case6 s note x left outer fits s₁ inner items e₁ hx _ =>
    cases h
    exact ⟨note, s, x, .here, .inr ⟨inner, items, hx⟩⟩

end Octet.Worklist
