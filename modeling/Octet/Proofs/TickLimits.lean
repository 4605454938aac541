import Octet.Proofs.Ticks

/-!
# A tick limit only truncates a run

A run of the emulator goes on until the machine halts or a tick fails, so without a limit it may
have no end. The limit is tested before a tick and after the test for halting, it counts only ticks
that ended well, and no other part of the state depends on it. Runs under different limits are
therefore the same run, of which the lower limit shows less.

* `Emulator.Ends` — how a run ends, if it does;
* `Emulator.Ends.induct` — induction along a run;
* `Emulator.tick_outcomes` — **one tick**: it finds the machine halted, finds the limit reached, or
  is an `attempt`, which knows of no limit;
* `Emulator.Truncates` — what the end of a run under a limit says about the runs under other limits;
* `tick_limit_truncates_run` — **a run under a limit ends, and is the start of the runs under higher
  limits**.
-/

namespace Octet

/-! ## Ticks of the machine -/

namespace Machine

variable {m m' : Machine} {f : Fault}

theorem fetch_fault_mentions {c : Code} (h : m.fetch = .error (f, c)) :
    f.mentions .tickLimit = false := by
  unfold fetch at h
  split at h
  · cases h
    rfl
  · split at h
    · cases h
    · cases h
      rfl

/-- A faulting instruction neither halts the machine nor speaks of a limit. -/
theorem execute_fault_running {c : Code} (h : m.execute c = (m', some f))
    (hrunning : m.halted = false) :
    m'.halted = false ∧ f.mentions .tickLimit = false := by
  obtain ⟨address, -, he⟩ | ⟨hover, he⟩ | ⟨-, -, he⟩ := m.execute_cases c
  · cases he.symm.trans h
    exact ⟨hrunning, rfl⟩
  · cases he.symm.trans h
    exact ⟨hover.running, rfl⟩
  · cases he.symm.trans h

/-- **A failing tick** is not counted. -/
theorem tick_fault (h : m.tick = (m', some f)) (hrunning : m.halted = false) :
    m'.ticks = m.ticks ∧ m'.halted = false ∧ f.mentions .tickLimit = false := by
  obtain ⟨g, c, hfetch, ht⟩ | ⟨c, m₁, g, -, hx, ht⟩ | ⟨c, m₁, -, -, ht⟩ := m.tick_cases
  · cases ht.symm.trans h
    exact ⟨rfl, hrunning, fetch_fault_mentions hfetch⟩
  · cases ht.symm.trans h
    exact ⟨(execute_fault hx).2.1, execute_fault_running hx hrunning⟩
  · cases ht.symm.trans h

/-- **A tick that ends well** is counted. -/
theorem tick_ok (h : m.tick = (m', none)) : m'.ticks = m.ticks + 1 := by
  obtain ⟨g, c, -, ht⟩ | ⟨c, m₁, g, -, -, ht⟩ | ⟨c, m₁, -, hx, ht⟩ := m.tick_cases
  · cases ht.symm.trans h
  · cases ht.symm.trans h
  · cases ht.symm.trans h
    have hticks : m₁.ticks = m.ticks := by
      rw [execute_ok hx]
      exact m.perform_ticks c
    simp only [hticks]

end Machine

namespace Emulator

variable {e e' e₁ : Emulator} {ending : Ending} {f : Fault} {limit : Int}

/-! ## Ticks under different limits -/

/-- The same emulator under another tick limit. -/
def withLimit (e : Emulator) (limit : Int) : Emulator := { e with tickLimit := limit }

/-- A tick of the machine, whatever the limit. -/
def attempt (e : Emulator) : Emulator × Except Fault Bool :=
  match e.prepared.tick with
  | (m, none) => ({ e with machine := m }, .ok m.halted)
  | (m, some f) => ({ e with machine := m }, .error (blame e.program e.machine.ip f))

theorem tick_halted (h : e.machine.halted = true) :
    e.tick = ({ e with machine := e.prepared }, .ok true) := by
  rw [tick, if_pos h]

theorem tick_atLimit (h : e.machine.halted = false) (hlimit : e.atLimit = true) :
    e.tick = ({ e with machine := e.prepared },
      .error (blame e.program e.machine.ip (.cause .tickLimit))) := by
  rw [tick, if_neg (ne_true_of_eq_false h), if_pos hlimit]

theorem tick_attempt (h : e.machine.halted = false) (hlimit : e.atLimit = false) :
    e.tick = e.attempt := by
  rw [tick, if_neg (ne_true_of_eq_false h), if_neg (ne_true_of_eq_false hlimit)]
  rfl

/-- **One tick** finds the machine halted, finds the limit reached, or is an attempt. -/
theorem tick_outcomes (e : Emulator) :
    (e.machine.halted = true ∧ e.tick = ({ e with machine := e.prepared }, .ok true)) ∨
      (e.machine.halted = false ∧ e.atLimit = true ∧
        e.tick = ({ e with machine := e.prepared },
          .error (blame e.program e.machine.ip (.cause .tickLimit)))) ∨
      (e.machine.halted = false ∧ e.atLimit = false ∧ e.tick = e.attempt) := by
  cases hhalt : e.machine.halted with
  | true => exact .inl ⟨rfl, tick_halted hhalt⟩
  | false =>
    cases hlimit : e.atLimit with
    | true => exact .inr (.inl ⟨rfl, rfl, tick_atLimit hhalt hlimit⟩)
    | false => exact .inr (.inr ⟨rfl, rfl, tick_attempt hhalt hlimit⟩)

theorem atLimit_eq_true : e.atLimit = true ↔ 0 < e.tickLimit ∧ e.tickLimit ≤ e.machine.ticks := by
  simp [atLimit]

theorem atLimit_eq_false : e.atLimit = false ↔ e.tickLimit ≤ 0 ∨ e.machine.ticks < e.tickLimit := by
  rw [← Bool.not_eq_true, atLimit_eq_true]
  omega

theorem blame_mentions (p : Program) (ip : UInt16) (f : Fault) (c : Cause) :
    (blame p ip f).mentions c = f.mentions c := by
  unfold blame
  split <;> rfl

/-- A failing attempt is not counted, and does not speak of a limit. -/
theorem attempt_fault (hrunning : e.machine.halted = false) (h : e.attempt = (e', .error f)) :
    e'.machine.ticks = e.machine.ticks ∧ e'.machine.halted = false ∧
      f.mentions .tickLimit = false := by
  unfold attempt at h
  split at h
  · cases h
  · rename_i m g ht
    cases h
    obtain ⟨hticks, hhalted, hmentions⟩ := Machine.tick_fault ht hrunning
    exact ⟨hticks, hhalted, (blame_mentions ..).trans hmentions⟩

/-- An attempt that ends well is counted, and tells whether the machine is halted. -/
theorem attempt_ok {done : Bool} (h : e.attempt = (e', .ok done)) :
    e'.machine.ticks = e.machine.ticks + 1 ∧ e'.machine.halted = done ∧
      e'.tickLimit = e.tickLimit := by
  unfold attempt at h
  split at h
  · rename_i m ht
    cases h
    have hticks := Machine.tick_ok ht
    exact ⟨hticks, rfl, rfl⟩
  · cases h

theorem attempt_withLimit (e : Emulator) (limit : Int) :
    (e.withLimit limit).attempt = (e.attempt.1.withLimit limit, e.attempt.2) := by
  unfold attempt
  have hprepared : (e.withLimit limit).prepared = e.prepared := rfl
  rw [hprepared]
  rcases e.prepared.tick with ⟨m, _ | f⟩ <;> rfl

/-- A tick that goes on is an attempt below the limit. -/
theorem tick_running (h : e.tick = (e₁, .ok false)) :
    e.machine.halted = false ∧ e.atLimit = false ∧ e.attempt = (e₁, .ok false) := by
  obtain ⟨-, ht⟩ | ⟨-, -, ht⟩ | ⟨hrunning, hlimit, ht⟩ := e.tick_outcomes
  · cases ht.symm.trans h
  · cases ht.symm.trans h
  · exact ⟨hrunning, hlimit, ht.symm.trans h⟩

/-- Under a limit that is no lower, or without one, there is room for a tick if there is now. -/
theorem atLimit_withLimit (h : e.atLimit = false) (hpos : 0 < e.tickLimit)
    (hlimit : limit ≤ 0 ∨ e.tickLimit ≤ limit) : (e.withLimit limit).atLimit = false := by
  rw [atLimit_eq_false] at h ⊢
  simp only [withLimit]
  omega

/-- **A tick that does not end by the limit** is the same tick under a limit that is no lower. -/
theorem tick_withLimit (hpos : 0 < e.tickLimit) (hlimit : limit ≤ 0 ∨ e.tickLimit ≤ limit)
    (h : ∀ f, e.tick.2 = .error f → f.mentions .tickLimit = false) :
    (e.withLimit limit).tick = (e.tick.1.withLimit limit, e.tick.2) := by
  obtain ⟨hhalt, ht⟩ | ⟨-, -, ht⟩ | ⟨hrunning, hroom, ht⟩ := e.tick_outcomes
  · rw [ht]
    exact tick_halted (e := e.withLimit limit) hhalt
  · have hmentions := h _ (congrArg Prod.snd ht)
    rw [blame_mentions] at hmentions
    cases hmentions
  · have ht' := tick_attempt (e := e.withLimit limit) hrunning
      (atLimit_withLimit hroom hpos hlimit)
    rw [ht', ht, attempt_withLimit]

@[simp] theorem tick_tickLimit (e : Emulator) : e.tick.1.tickLimit = e.tickLimit := by
  obtain ⟨-, -, ht⟩ | ⟨-, -, f, ht⟩ | ⟨c, m, f, -, -, ht⟩ | ⟨c, m, -, -, ht⟩ :=
    e.tick_cases <;> rw [ht]

theorem tick_prepared (e : Emulator) :
    ({ e with machine := e.prepared } : Emulator).tick = e.tick :=
  rfl

/-! ## How runs end -/

/-- A run from `e` that is given enough ticks ends in `e'`. -/
def Ends (e e' : Emulator) (ending : Ending) : Prop :=
  ending ≠ .unfinished ∧ ∃ fuel, e.run fuel = (e', ending)

theorem ends_of_run {fuel : Nat} (h : (e.run fuel).2 = ending) (hfinished : ending ≠ .unfinished) :
    e.Ends (e.run fuel).1 ending :=
  ⟨hfinished, fuel, Prod.ext rfl h⟩

theorem ends_of_halt (h : e.tick = (e₁, .ok true)) :
    e.Ends e' ending ↔ e' = e₁ ∧ ending = .halted := by
  constructor
  · rintro ⟨hfinished, fuel, hrun⟩
    cases fuel with
    | zero =>
      cases hrun
      exact absurd rfl hfinished
    | succ fuel =>
      rw [run, h] at hrun
      cases hrun
      exact ⟨rfl, rfl⟩
  · rintro ⟨rfl, rfl⟩
    exact ⟨by simp, 1, by rw [run, h]⟩

theorem ends_of_fault (h : e.tick = (e₁, .error f)) :
    e.Ends e' ending ↔ e' = e₁ ∧ ending = .failed f := by
  constructor
  · rintro ⟨hfinished, fuel, hrun⟩
    cases fuel with
    | zero =>
      cases hrun
      exact absurd rfl hfinished
    | succ fuel =>
      rw [run, h] at hrun
      cases hrun
      exact ⟨rfl, rfl⟩
  · rintro ⟨rfl, rfl⟩
    exact ⟨by simp, 1, by rw [run, h]⟩

theorem ends_of_running (h : e.tick = (e₁, .ok false)) : e.Ends e' ending ↔ e₁.Ends e' ending := by
  constructor
  · rintro ⟨hfinished, fuel, hrun⟩
    cases fuel with
    | zero =>
      cases hrun
      exact absurd rfl hfinished
    | succ fuel =>
      rw [run, h] at hrun
      exact ⟨hfinished, fuel, hrun⟩
  · rintro ⟨hfinished, fuel, hrun⟩
    exact ⟨hfinished, fuel + 1, by rw [run, h]; exact hrun⟩

/-- Induction along a run that ends. -/
theorem Ends.induct {e' : Emulator} {ending : Ending}
    {motive : (e : Emulator) → e.Ends e' ending → Prop}
    (halt : ∀ e h, e.tick = (e', .ok true) → ending = .halted → motive e h)
    (fault : ∀ e f h, e.tick = (e', .error f) → ending = .failed f → motive e h)
    (running : ∀ e e₁ h h₁, e.tick = (e₁, .ok false) → motive e₁ h₁ → motive e h) {e : Emulator}
    (h : e.Ends e' ending) : motive e h := by
  obtain ⟨hfinished, fuel, hrun⟩ := h
  induction fuel generalizing e with
  | zero =>
    cases hrun
    exact absurd rfl hfinished
  | succ fuel ih =>
    match ht : e.tick with
    | (e₁, .ok true) =>
      obtain ⟨rfl, rfl⟩ := (ends_of_halt ht).1 ⟨hfinished, _, hrun⟩
      exact halt e _ ht rfl
    | (e₁, .error f) =>
      obtain ⟨rfl, rfl⟩ := (ends_of_fault ht).1 ⟨hfinished, _, hrun⟩
      exact fault e f _ ht rfl
    | (e₁, .ok false) =>
      rw [run, ht] at hrun
      exact running e e₁ _ ⟨hfinished, fuel, hrun⟩ ht (ih hrun)

/-- A run keeps its limit. -/
theorem Ends.tickLimit (h : e.Ends e' ending) : e'.tickLimit = e.tickLimit := by
  induction h using Ends.induct with
  | halt e _ ht _ => rw [← tick_tickLimit e, ht]
  | fault e f _ ht _ => rw [← tick_tickLimit e, ht]
  | running e e₁ _ _ ht ih => rw [ih, ← tick_tickLimit e, ht]

/-- A run has one end. -/
theorem Ends.unique {e'' : Emulator} {ending' : Ending} (h : e.Ends e' ending)
    (h' : e.Ends e'' ending') :
    e'' = e' ∧ ending' = ending := by
  induction h using Ends.induct with
  | halt e _ ht hending =>
    rw [hending]
    exact (ends_of_halt ht).1 h'
  | fault e f _ ht hending =>
    rw [hending]
    exact (ends_of_fault ht).1 h'
  | running e e₁ _ _ ht ih => exact ih ((ends_of_running ht).1 h')

theorem ends_congr {d : Emulator} (h : e.tick = d.tick) : e.Ends e' ending ↔ d.Ends e' ending := by
  match ht : d.tick with
  | (e₁, .ok true) => rw [ends_of_halt ht, ends_of_halt (h.trans ht)]
  | (e₁, .error f) => rw [ends_of_fault ht, ends_of_fault (h.trans ht)]
  | (e₁, .ok false) => rw [ends_of_running ht, ends_of_running (h.trans ht)]

/-! ## Runs under a limit -/

/-- The run was stopped by the tick limit. -/
def Ending.limited : Ending → Bool
  | failed f => f.mentions .tickLimit
  | _ => false

/-- A run under a limit ends: each tick that goes on brings it closer to the limit. -/
theorem exists_ends (hpos : 0 < e.tickLimit) (hticks : e.machine.ticks ≤ e.tickLimit) :
    ∃ e' ending, e.Ends e' ending := by
  obtain ⟨room, hroom⟩ : ∃ room : Nat, e.machine.ticks + (room : Int) = e.tickLimit :=
    ⟨(e.tickLimit - e.machine.ticks).toNat, by omega⟩
  induction room generalizing e with
  | zero =>
    obtain ⟨-, ht⟩ | ⟨-, -, ht⟩ | ⟨-, hlimit, -⟩ := e.tick_outcomes
    · exact ⟨_, _, (ends_of_halt ht).2 ⟨rfl, rfl⟩⟩
    · exact ⟨_, _, (ends_of_fault ht).2 ⟨rfl, rfl⟩⟩
    · rw [atLimit_eq_false] at hlimit
      omega
  | succ room ih =>
    match ht : e.tick with
    | (e₁, .ok true) => exact ⟨_, _, (ends_of_halt ht).2 ⟨rfl, rfl⟩⟩
    | (e₁, .error f) => exact ⟨_, _, (ends_of_fault ht).2 ⟨rfl, rfl⟩⟩
    | (e₁, .ok false) =>
      obtain ⟨hcount, -, hsame⟩ := attempt_ok (tick_running ht).2.2
      have hrest : ∃ e' ending, e₁.Ends e' ending := ih (by omega) (by omega) (by omega)
      obtain ⟨e', ending, hends⟩ := hrest
      exact ⟨e', ending, (ends_of_running ht).2 hends⟩

/-- A run succeeds exactly if the machine is halted in the end. -/
theorem Ends.halted_iff (h : e.Ends e' ending) : ending = .halted ↔ e'.machine.halted = true := by
  induction h using Ends.induct with
  | halt e _ ht hending =>
    refine ⟨fun _ => ?_, fun _ => hending⟩
    obtain ⟨hhalt, ht'⟩ | ⟨-, -, ht'⟩ | ⟨-, -, ht'⟩ := e.tick_outcomes
    · cases ht'.symm.trans ht
      exact hhalt
    · cases ht'.symm.trans ht
    · exact (attempt_ok (ht'.symm.trans ht)).2.1
  | fault e f _ ht hending =>
    have hrunning : e'.machine.halted = false := by
      obtain ⟨-, ht'⟩ | ⟨hrunning, -, ht'⟩ | ⟨hrunning, -, ht'⟩ := e.tick_outcomes
      · cases ht'.symm.trans ht
      · cases ht'.symm.trans ht
        exact hrunning
      · exact (attempt_fault hrunning (ht'.symm.trans ht)).2.1
    simp [hending, hrunning]
  | running e e₁ _ _ ht ih => exact ih

/-- **Where the limit stops a run**, and where other faults do. -/
theorem Ends.ticks (h : e.Ends e' ending) (hpos : 0 < e.tickLimit)
    (hticks : e.machine.ticks ≤ e.tickLimit) :
    (ending.limited = true → (e'.machine.ticks : Int) = e.tickLimit) ∧
      ∀ f, ending = .failed f → f.mentions .tickLimit = false → e'.machine.ticks < e.tickLimit := by
  induction h using Ends.induct with
  | halt e _ ht hending => simp [hending, Ending.limited]
  | fault e f _ ht hending =>
    subst hending
    obtain ⟨-, ht'⟩ | ⟨-, hat, ht'⟩ | ⟨hrunning, hroom, ht'⟩ := e.tick_outcomes
    · cases ht'.symm.trans ht
    · cases ht'.symm.trans ht
      rw [atLimit_eq_true] at hat
      refine ⟨fun _ => Int.le_antisymm hticks hat.2, ?_⟩
      intro g hg hmentions
      cases hg
      rw [blame_mentions] at hmentions
      cases hmentions
    · obtain ⟨hcount, -, hmentions⟩ := attempt_fault hrunning (ht'.symm.trans ht)
      rw [atLimit_eq_false] at hroom
      refine ⟨fun hlimited => ?_, fun _ _ _ => by omega⟩
      cases hmentions.symm.trans hlimited
  | running e e₁ _ _ ht ih =>
    obtain ⟨-, hroom, hattempt⟩ := tick_running ht
    obtain ⟨hcount, -, hsame⟩ := attempt_ok hattempt
    rw [atLimit_eq_false] at hroom
    rw [← hsame]
    exact ih (by omega) (by omega)

section

variable (hpos : 0 < e.tickLimit) (hlimit : limit ≤ 0 ∨ e.tickLimit ≤ limit)
include hpos hlimit

theorem tick_running_withLimit (h : e.tick = (e₁, .ok false)) :
    (e.withLimit limit).tick = (e₁.withLimit limit, .ok false) := by
  rw [tick_withLimit hpos hlimit (by simp [h]), h]

/-- **A run that the limit does not stop** is the same under every limit that is no lower. -/
theorem Ends.withLimit (h : e.Ends e' ending) (hsettled : ending.limited = false) :
    (e.withLimit limit).Ends (e'.withLimit limit) ending := by
  induction h using Ends.induct with
  | halt e _ ht hending =>
    have ht' := tick_withLimit hpos hlimit (by simp [ht])
    rw [ht] at ht'
    exact (ends_of_halt ht').2 ⟨rfl, hending⟩
  | fault e f _ ht hending =>
    subst hending
    have hmentions : ∀ g, e.tick.2 = .error g → g.mentions .tickLimit = false := by
      intro g hg
      rw [ht] at hg
      cases hg
      exact hsettled
    have ht' := tick_withLimit hpos hlimit hmentions
    rw [ht] at ht'
    exact (ends_of_fault ht').2 ⟨rfl, rfl⟩
  | running e e₁ _ _ ht ih =>
    have hsame := (attempt_ok (tick_running ht).2.2).2.2
    refine (ends_of_running (tick_running_withLimit hpos hlimit ht)).2 (ih ?_ ?_)
    · rw [hsame]
      exact hpos
    · rw [hsame]
      exact hlimit

/-- **A run that the limit stops** goes on under a limit that is no lower as if it had not
stopped. -/
theorem Ends.resume (h : e.Ends e' ending) (hstopped : ending.limited = true) (e'' : Emulator)
    (ending' : Ending) :
    (e'.withLimit limit).Ends e'' ending' ↔ (e.withLimit limit).Ends e'' ending' := by
  induction h using Ends.induct with
  | halt e _ ht hending =>
    rw [hending] at hstopped
    cases hstopped
  | fault e f _ ht hending =>
    subst hending
    obtain ⟨-, ht'⟩ | ⟨-, -, ht'⟩ | ⟨hrunning, -, ht'⟩ := e.tick_outcomes
    · cases ht'.symm.trans ht
    · cases ht'.symm.trans ht
      exact ends_congr (e.withLimit limit).tick_prepared
    · have hmentions := (attempt_fault hrunning (ht'.symm.trans ht)).2.2
      cases hmentions.symm.trans hstopped
  | running e e₁ _ _ ht ih =>
    have hsame := (attempt_ok (tick_running ht).2.2).2.2
    rw [ends_of_running (tick_running_withLimit hpos hlimit ht)]
    exact ih (by rw [hsame]; exact hpos) (by rw [hsame]; exact hlimit)

end

/-- A run that has to execute something before it halts counts that. -/
theorem Ends.ticks_lt (h : e.Ends e' .halted) (hrunning : e.machine.halted = false) :
    e.machine.ticks < e'.machine.ticks := by
  induction h using Ends.induct with
  | halt e _ ht _ =>
    obtain ⟨hhalt, -⟩ | ⟨-, -, ht'⟩ | ⟨-, -, ht'⟩ := e.tick_outcomes
    · cases hhalt.symm.trans hrunning
    · cases ht'.symm.trans ht
    · rw [(attempt_ok (ht'.symm.trans ht)).1]
      exact Nat.lt_succ_self _
  | fault e f _ _ hending => cases hending
  | running e e₁ _ _ ht ih =>
    obtain ⟨hcount, hhalted, -⟩ := attempt_ok (tick_running ht).2.2
    have := ih hhalted
    omega

/-- What the end of a run under a limit says about the runs under other limits. -/
structure Truncates (e e' : Emulator) (ending : Ending) : Prop where
  /-- The run succeeds exactly if the machine is halted in the end. -/
  halted_iff : ending = .halted ↔ e'.machine.halted = true
  /-- The limit stops the run only where it is reached, and not after a halt. -/
  limited :
    ending.limited = true → (e'.machine.ticks : Int) = e.tickLimit ∧ e'.machine.halted = false
  /-- All other faults come before the limit. -/
  fault : ∀ f, ending = .failed f → f.mentions .tickLimit = false → e'.machine.ticks < e.tickLimit
  /-- The run succeeds if without a limit it halts with the tick of the limit, or before it. -/
  in_time : ∀ e'', (e.withLimit 0).Ends e'' .halted → e''.machine.ticks ≤ e.tickLimit →
    ending = .halted ∧ e' = e''.withLimit e.tickLimit
  /-- If the limit does not stop the run, then it is the same under every higher limit and without
  one. -/
  settled : ending.limited = false → ∀ limit, limit ≤ 0 ∨ e.tickLimit ≤ limit → ∀ e'' ending',
    (e.withLimit limit).Ends e'' ending' ↔ e'' = e'.withLimit limit ∧ ending' = ending
  /-- If the limit stops the run, then going on under a higher limit, or without one, is the same as
  one run. -/
  resumed : ending.limited = true → ∀ limit, limit ≤ 0 ∨ e.tickLimit ≤ limit → ∀ e'' ending',
    (e'.withLimit limit).Ends e'' ending' ↔ (e.withLimit limit).Ends e'' ending'

theorem Ends.truncates (h : e.Ends e' ending) (hpos : 0 < e.tickLimit)
    (hticks : e.machine.ticks ≤ e.tickLimit) :
    e.Truncates e' ending := by
  obtain ⟨hstop, hfault⟩ := h.ticks hpos hticks
  have hrunning (hlimited : ending.limited = true) : e'.machine.halted = false := by
    rw [← Bool.not_eq_true, ← h.halted_iff]
    rintro rfl
    cases hlimited
  constructor
  case halted_iff => exact h.halted_iff
  case limited => exact fun hlimited => ⟨hstop hlimited, hrunning hlimited⟩
  case fault => exact hfault
  case in_time =>
    intro e'' hend hle
    cases hlimited : ending.limited with
    | false =>
      obtain ⟨rfl, rfl⟩ := (h.withLimit hpos (.inl (Int.le_refl 0)) hlimited).unique hend
      refine ⟨rfl, ?_⟩
      rw [← h.tickLimit]
      rfl
    | true =>
      -- The rest of the run would halt without executing anything.
      have hrest := (h.resume hpos (.inl (Int.le_refl 0)) hlimited _ _).2 hend
      have hlt : e'.machine.ticks < e''.machine.ticks := hrest.ticks_lt (hrunning hlimited)
      have heq := hstop hlimited
      omega
  case settled =>
    intro hsettled limit hlimit e'' ending'
    have hends := h.withLimit hpos hlimit hsettled
    constructor
    · exact fun h' => hends.unique h'
    · rintro ⟨rfl, rfl⟩
      exact hends
  case resumed => exact fun hlimited limit hlimit => h.resume hpos hlimit hlimited

end Emulator

/-- **A tick limit only truncates a run.** Under a limit that is not passed yet every run ends. It
succeeds exactly if the machine is halted in the end; the limit stops it only when it is reached,
and other faults come before that; and the run is the start of the runs under higher limits and
without one, which go on where the limit stopped it. -/
theorem tick_limit_truncates_run (e : Emulator) (hpos : 0 < e.tickLimit)
    (hticks : (e.machine.ticks : Int) ≤ e.tickLimit) :
    (∃ e' ending, e.Ends e' ending) ∧ ∀ e' ending, e.Ends e' ending → e.Truncates e' ending :=
  ⟨Emulator.exists_ends hpos hticks, fun _ _ h => h.truncates hpos hticks⟩

namespace Emulator.Ending

/-- The machine was halted. -/
def isHalted : Ending → Bool
  | halted => true
  | _ => false

theorem eq_halted {ending : Ending} (h : ending.isHalted = true) : ending = .halted := by
  cases ending with
  | halted => rfl
  | failed f => cases h
  | unfinished => cases h

theorem finished_of_limited {ending : Ending} (h : ending.limited = true) :
    ending ≠ .unfinished := by
  rintro rfl
  cases h

end Emulator.Ending

/-- An emulator that is allowed two ticks, with a program of two negations and a halt. -/
def Emulator.hurried : Emulator where
  machine := { memory := #[0xE1, 0xE1, 0x1F, 0x01] }
  tickLimit := 2

theorem tick_limit_truncates_run_of_hurried :
    0 < Emulator.hurried.tickLimit ∧
      (Emulator.hurried.machine.ticks : Int) ≤ Emulator.hurried.tickLimit ∧
      ∃ e' ending, Emulator.hurried.Ends e' ending ∧ ending.limited = true ∧
        (e'.machine.ticks : Int) = 2 ∧
        ∃ e'', (e'.withLimit 3).Ends e'' .halted ∧ (Emulator.hurried.withLimit 3).Ends e'' .halted ∧
          e''.machine.ticks = 3 := by
  have hlimited : (Emulator.hurried.run 3).2.limited = true := by decide +kernel
  have hhalted : ((Emulator.hurried.withLimit 3).run 3).2.isHalted = true := by decide +kernel
  have hstop := Emulator.ends_of_run rfl (Emulator.Ending.finished_of_limited hlimited)
  have hwhole := Emulator.ends_of_run (Emulator.Ending.eq_halted hhalted) (by simp)
  have htruncates := (tick_limit_truncates_run Emulator.hurried (by decide) (by decide)).2 _ _ hstop
  exact ⟨by decide, by decide, _, _, hstop, hlimited, (htruncates.limited hlimited).1, _,
    (htruncates.resumed hlimited 3 (.inr (by decide)) _ _).2 hwhole, hwhole, by decide +kernel⟩

end Octet
