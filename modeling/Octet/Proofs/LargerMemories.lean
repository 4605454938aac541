import Octet.Proofs.Loading
import Octet.Proofs.TickLimits

/-!
# Machines with larger memories

A machine with more memory behind its own does the same, as long as nothing fails for lack of
memory.

* `Machine.enlarged`, `Emulator.enlarged` — with more memory;
* `Machine.execute_enlarged`, `Machine.tick_enlarged` — **one instruction and one tick** that end
  well;
* `Emulator.run_enlarged` — **a run** that halts or is stopped by its tick limit.
-/

namespace Octet

/-- What can be read is read alike if more follows. -/
theorem Code.decode_append {data : Text} {c : Code} (h : decode data = .ok c) (more : Text) :
    decode (data ++ more) = .ok c := by
  cases data with
  | nil => cases h
  | cons b rest =>
    unfold decode at h
    simp only at h
    split at h
    case h_6 => cases h
    all_goals
      rename_i hs
      cases h
      simp only [List.cons_append, decode, hs]

namespace Machine

/-- The machine with more memory behind its own. -/
def enlarged (m : Machine) (more : Array UInt8) : Machine := { m with memory := m.memory ++ more }

variable {m m' : Machine} {c : Code} (more : Array UInt8)

theorem enlarged_memory_size (m : Machine) :
    (m.enlarged more).memory.size = m.memory.size + more.size :=
  Array.size_append

theorem fetch_enlarged (h : m.fetch = .ok c) : (m.enlarged more).fetch = .ok c := by
  have hip : (m.enlarged more).ip = m.ip := rfl
  unfold fetch at h
  split at h
  case isTrue => cases h
  case isFalse hin =>
    split at h
    case h_2 => cases h
    case h_1 d hdecode =>
      cases h
      have hle : m.ip.toNat ≤ m.memory.toList.length := by
        rw [Array.length_toList]
        omega
      have hbytes : (m.enlarged more).bytesAt m.ip.toNat =
          m.bytesAt m.ip.toNat ++
            more.toList.take (longest - (m.memory.toList.drop m.ip.toNat).length) := by
        rw [bytesAt_eq, bytesAt_eq, enlarged, Array.toList_append,
          List.drop_append_of_le_length hle, List.take_append]
      have hsize : ¬ (m.enlarged more).memory.size ≤ m.ip.toNat := by
        rw [enlarged_memory_size]
        omega
      rw [fetch, hip, if_neg hsize, hbytes, Code.decode_append hdecode]

theorem read_enlarged {address : Nat} (h : address < m.memory.size) :
    (m.enlarged more).read address = m.read address := by
  rw [read, read, enlarged, Array.getElem?_append_left h]

theorem write_enlarged {address : Nat} (h : address < m.memory.size) (v : UInt8) :
    (m.enlarged more).write address v = (m.write address v).enlarged more := by
  have hlist :
      (m.memory ++ more).setIfInBounds address v = m.memory.setIfInBounds address v ++ more := by
    apply Array.toList_inj.1
    rw [Array.toList_setIfInBounds, Array.toList_append, Array.toList_append,
      Array.toList_setIfInBounds, List.set_append_left _ _ (by rwa [Array.length_toList])]
  simp only [write, enlarged, hlist]

theorem outside?_enlarged (h : m.outside? c = none) : (m.enlarged more).outside? c = none := by
  have hsame : (m.enlarged more).accessed? c = m.accessed? c := rfl
  rw [outside?, Option.filter_eq_none_iff] at h ⊢
  intro a ha hle
  rw [hsame] at ha
  rw [enlarged_memory_size, decide_eq_true_eq] at hle
  exact h a ha (decide_eq_true (by omega))

theorem perform_enlarged (h : m.outside? c = none) :
    (m.enlarged more).perform c = (m.perform c).enlarged more := by
  have hinside {a : Nat} (ha : m.accessed? c = some a) : a < m.memory.size := by
    rw [outside?, Option.filter_eq_none_iff] at h
    simpa using h a ha
  unfold accessed? at hinside
  unfold perform
  cases hop : Operation.ofNumber c.nibble <;> rw [hop] at hinside
  case load =>
    have hread := read_enlarged more (hinside rfl)
    exact congrArg (fun v => (m.enlarged more).setReg (Register.ofByte c.reg) v) hread
  case store => exact write_enlarged more (hinside rfl) _
  case push =>
    have hwrite := write_enlarged more (hinside rfl) (m.reg (Register.ofByte c.reg))
    exact congrArg (fun m' : Machine => m'.setReg .rsp (m.reg .rsp - 1)) hwrite
  case pop =>
    have hread := read_enlarged more (hinside rfl)
    exact congrArg (fun v =>
      ((m.enlarged more).setReg .rsp (m.reg .rsp + 1)).setReg (Register.ofByte c.reg) v) hread
  all_goals rfl

/-- **One instruction** with more memory. -/
theorem execute_enlarged (h : m.execute c = (m', none)) :
    (m.enlarged more).execute c = (m'.enlarged more, none) := by
  obtain ⟨address, -, he⟩ | ⟨-, he⟩ | ⟨hout, hgood, he⟩ := m.execute_cases c
  · cases he.symm.trans h
  · cases he.symm.trans h
  · cases he.symm.trans h
    have hnext : (m.enlarged more).nextAddress c = m.nextAddress c := rfl
    have hperform := perform_enlarged more hout
    obtain ⟨address, hout', -⟩ | ⟨hover, -⟩ | ⟨-, -, he'⟩ := (m.enlarged more).execute_cases c
    · cases hout'.symm.trans (outside?_enlarged more hout)
    · have hrunning := hover.running
      have hleaves := hover.leaves
      rw [hperform] at hrunning
      rw [enlarged_memory_size, hnext] at hleaves
      rcases hgood with hlt | hhalted
      · omega
      · cases hhalted.symm.trans hrunning
    · rw [he', hperform, hnext]
      rfl

/-- **One tick** with more memory. -/
theorem tick_enlarged (h : m.tick = (m', none)) :
    (m.enlarged more).tick = (m'.enlarged more, none) := by
  obtain ⟨f, d, -, ht⟩ | ⟨d, m₁, f, -, -, ht⟩ | ⟨d, m₁, hfetch, hx, ht⟩ := m.tick_cases
  · cases ht.symm.trans h
  · cases ht.symm.trans h
  · cases ht.symm.trans h
    rw [tick, fetch_enlarged more hfetch]
    simp only [execute_enlarged more hx]
    rfl

end Machine

namespace Emulator

/-- The emulator with more memory. -/
def enlarged (e : Emulator) (more : Array UInt8) : Emulator :=
  { e with machine := e.machine.enlarged more }

variable (more : Array UInt8)

/-- One tick of an emulator that fails by the limit at most. -/
theorem tick_enlarged {e e' : Emulator} {r : Except Fault Bool} (h : e.tick = (e', r))
    (hlimited : ∀ f, r = .error f → f.mentions .tickLimit = true) :
    (e.enlarged more).tick = (e'.enlarged more, r) := by
  have hprepared : (e.enlarged more).prepared = e.prepared.enlarged more := rfl
  obtain ⟨hhalted, ht⟩ | ⟨hrunning, hlimit, ht⟩ | ⟨hrunning, hlimit, ht⟩ := e.tick_outcomes
  · cases ht.symm.trans h
    exact tick_halted (e := e.enlarged more) hhalted
  · cases ht.symm.trans h
    exact tick_atLimit (e := e.enlarged more) hrunning hlimit
  · rw [tick_attempt (e := e.enlarged more) hrunning hlimit]
    rw [ht] at h
    cases r with
    | error f => cases (attempt_fault hrunning h).2.2.symm.trans (hlimited f rfl)
    | ok done =>
      unfold attempt at h ⊢
      rw [hprepared]
      split at h
      · rename_i m hm
        cases h
        rw [Machine.tick_enlarged more hm]
        rfl
      · cases h

/-- **A run** that halts or is stopped by its tick limit goes alike with more memory. -/
theorem run_enlarged {fuel : Nat} {e e' : Emulator} {ending : Ending}
    (h : e.run fuel = (e', ending))
    (hending : ∀ f, ending = .failed f → f.mentions .tickLimit = true) :
    (e.enlarged more).run fuel = (e'.enlarged more, ending) := by
  induction fuel generalizing e with
  | zero =>
    cases h
    rfl
  | succ fuel ih =>
    match ht : e.tick with
    | (e₁, .ok true) =>
      rw [run, ht] at h
      cases h
      rw [run, tick_enlarged more ht (by simp)]
    | (e₁, .ok false) =>
      rw [run, ht] at h
      rw [run, tick_enlarged more ht (by simp)]
      exact ih h
    | (e₁, .error f) =>
      rw [run, ht] at h
      cases h
      rw [run, tick_enlarged more ht (by simpa using hending f rfl)]

end Emulator

end Octet
