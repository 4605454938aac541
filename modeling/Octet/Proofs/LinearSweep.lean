import Octet.Proofs.ExecutionFaults

/-!
# Linear sweeps

An image can be read as codes from its start on, each one behind the last, up to where the bytes end
inside a code. Any bytes can be read that way, also data and operations that are not assigned. Bits
that a layout does not use are lost: written out again, the codes have zeros there. The sweep does
not depend on them.

* `Code.sweep` — the codes of an image, and the bytes that are left;
* `Code.Ignored` — the bytes of which only the high half is encoded;
* `Code.read_of_decode` — **a code that is read is canonical, and its encoding is what it was read
  from, without the ignored halves**;
* `linear_sweep_stable` — **a sweep leaves at most two bytes, its codes encode the image up to
  ignored halves, and what they encode is swept to the same codes**.
-/

namespace Octet

namespace Code

/-! ## Sweeping -/

/-- What a sweep finds. -/
structure Sweep where
  codes : List Code
  /-- The bytes in which no code can be read. -/
  tail : Text
  deriving DecidableEq, Repr

/-- Reads codes from the start of `data` on, each one behind the last, until that fails. -/
def sweep (data : Text) : Sweep :=
  match _h : decode data with
  | .error _ => ⟨[], data⟩
  | .ok c =>
    let rest := sweep (data.drop c.length)
    ⟨c :: rest.codes, rest.tail⟩
termination_by data.length
decreasing_by
  have hle := length_of_decode ‹decode data = .ok c›
  have hpos := c.length_pos
  rw [List.length_drop]
  omega

theorem sweep_error {data : Text} {c : Code} (h : decode data = .error c) :
    sweep data = ⟨[], data⟩ := by
  rw [sweep]
  split
  · rfl
  · rename_i h'
    cases h'.symm.trans h

theorem sweep_ok {data : Text} {c : Code} (h : decode data = .ok c) :
    sweep data = ⟨c :: (sweep (data.drop c.length)).codes, (sweep (data.drop c.length)).tail⟩ := by
  rw [sweep]
  split
  · rename_i h'
    cases h'.symm.trans h
  · rename_i c' h'
    cases h'.symm.trans h
    rfl

/-- The encodings of codes, one after the other. -/
def image (codes : List Code) : Text := codes.flatMap bytes

/-- The bytes of a sweep, written out again. -/
def Sweep.image (s : Sweep) : Text := Code.image s.codes ++ s.tail

/-! ## Ignored halves -/

/-- The low half of byte `i` of a code is ignored: the second byte of an instruction on two
registers, and the first byte of the load of an address. -/
def IgnoredIn (c : Code) (i : Nat) : Prop :=
  c.shape = .registerRegister ∧ i = 1 ∨ opName c.op = utf8 "lda" ∧ i = 0

/-- The low half of byte `i` of an image is ignored, in the code that stands there. -/
def Ignored (codes : List Code) (i : Nat) : Prop :=
  ∃ before c after k, codes = before ++ c :: after ∧ i = (image before).length + k ∧ c.IgnoredIn k

/-- The byte `b` of an image is written out again as `b'`. -/
structure Rewritten (ignored : Prop) (b b' : Option UInt8) : Prop where
  cleared : ignored → b' = b.map (· &&& 0xF0)
  kept : ¬ ignored → b' = b

theorem opName_eq_lda {c : Code} (h : 0 ≤ c.op ∧ c.op < 16) :
    opName c.op = utf8 "lda" ↔ c.shape = .literal := by
  have hall : ∀ n : Fin 16, opName (n.val : Int) = utf8 "lda" ↔
      ({ op := (n.val : Int) } : Code).shape = .literal := by
    decide +kernel
  have hop : ((⟨c.op.toNat, by omega⟩ : Fin 16).val : Int) = c.op := Int.toNat_of_nonneg h.1
  have hn := hall ⟨c.op.toNat, by omega⟩
  rw [hop] at hn
  exact hn

/-! ## One code -/

section Bytes

variable {b b₁ b₂ : UInt8}

theorem op_bounds (b : UInt8) :
    (0 : Int) ≤ ((b >>> 4).toNat : Int) ∧ ((b >>> 4).toNat : Int) < 16 := by
  have h := b.toNat_lt
  rw [toNat_highHalf]
  omega

theorem opByte_of_op {c : Code} (h : c.op = ((b >>> 4).toNat : Int)) : c.opByte = b &&& 0xF0 := by
  have hmask : UInt8.ofNat (b.toNat / 16 * 16) = b &&& 0xF0 := forall_byte (by decide +kernel) b
  have hnibble := nibble_eq (c := c) (by rw [h]; exact op_bounds b)
  rw [toNat_highHalf] at h
  have hn : c.nibble = b.toNat / 16 := by omega
  rw [opByte, hn, hmask]

theorem firstByte_of_op {c : Code} (h : c.op = ((b >>> 4).toNat : Int)) (hr : c.reg = b &&& 0xF) :
    c.firstByte = b := by
  have hnibble := nibble_eq (c := c) (by rw [h]; exact op_bounds b)
  rw [toNat_highHalf] at h
  apply UInt8.toNat_inj.1
  rw [firstByte_toNat, hr, toNat_lowHalf]
  omega

theorem highHalf_cleared (b : UInt8) : ((b >>> 4) &&& 0xF) <<< 4 = b &&& 0xF0 :=
  forall_byte (by decide +kernel) b

theorem highHalf_lt (b : UInt8) : b >>> 4 < 16 := forall_byte (by decide +kernel) b

theorem word_high (b₁ b₂ : UInt8) : (word b₁ b₂ >>> 8).toUInt8 = b₁ := by
  have hlo := b₂.toNat_lt
  apply UInt8.toNat_inj.1
  rw [toNat_highByte, toNat_word]
  omega

theorem word_low (b₁ b₂ : UInt8) : (word b₁ b₂).toUInt8 = b₂ := by
  have hlo := b₂.toNat_lt
  apply UInt8.toNat_inj.1
  rw [UInt16.toNat_toUInt8, toNat_word]
  omega

end Bytes

section

variable {c : Code} {i : Nat}

theorem ignoredIn_registers (hop : 0 ≤ c.op ∧ c.op < 16) (hs : c.shape = .registerRegister) :
    c.IgnoredIn i ↔ i = 1 := by
  simp [IgnoredIn, opName_eq_lda hop, hs]

theorem ignoredIn_address (hop : 0 ≤ c.op ∧ c.op < 16) (hs : c.shape = .literal) :
    c.IgnoredIn i ↔ i = 0 := by
  simp [IgnoredIn, opName_eq_lda hop, hs]

theorem not_ignoredIn (hop : 0 ≤ c.op ∧ c.op < 16)
    (hs : c.shape ≠ .registerRegister ∧ c.shape ≠ .literal) :
    ¬ c.IgnoredIn i := by
  simp [IgnoredIn, opName_eq_lda hop, hs]

end

theorem Rewritten.congr {ignored ignored' : Prop} {b b' : Option UInt8} (h : Rewritten ignored b b')
    (hiff : ignored' ↔ ignored) : Rewritten ignored' b b' :=
  ⟨fun hi => h.cleared (hiff.1 hi), fun hi => h.kept fun h' => hi (hiff.2 h')⟩

theorem Rewritten.same {ignored : Prop} (h : ¬ ignored) (b : Option UInt8) :
    Rewritten ignored b b :=
  ⟨fun hi => absurd hi h, fun _ => rfl⟩

/-- What a code is read from: its bytes are those of the encoding, up to ignored halves. -/
structure ReadFrom (front : Text) (c : Code) : Prop where
  canonical : c.Canonical
  length : front.length = c.bytes.length
  rewritten : ∀ i, Rewritten (c.IgnoredIn i) front[i]? c.bytes[i]?

/-- **A code that is read is canonical, and its encoding is what it was read from**, up to ignored
halves. -/
theorem read_of_decode {data : Text} {c : Code} (h : decode data = .ok c) :
    ∃ front rest, data = front ++ rest ∧ ReadFrom front c := by
  cases reads_of_decode h with
  | @registers b b₁ rest c hs hc =>
    have hop : 0 ≤ c.op ∧ c.op < 16 := by rw [hc]; exact op_bounds b
    have hbytes : c.bytes = [b, b₁ &&& 0xF0] := by
      rw [bytes, hs, firstByte_of_op (by rw [hc]) (by rw [hc]), hc]
      simp only [highHalf_cleared]
    refine ⟨[b, b₁], rest, rfl, ⟨hop, ?_⟩, by simp [hbytes], ?_⟩
    · rw [hs, hc]
      exact ⟨lowHalf_lt b, highHalf_lt b₁, rfl⟩
    · intro i
      rw [hbytes]
      refine Rewritten.congr ?_ (ignoredIn_registers hop hs)
      rcases i with _ | _ | i
      · exact .same (by omega) _
      · exact ⟨fun _ => rfl, fun hi => absurd rfl hi⟩
      · exact .same (by omega) _
  | @registerByte b b₁ rest c hs hc =>
    have hop : 0 ≤ c.op ∧ c.op < 16 := by rw [hc]; exact op_bounds b
    have hbytes : c.bytes = [b, b₁] := by
      rw [bytes, hs, firstByte_of_op (by rw [hc]) (by rw [hc]), hc]
      simp
    refine ⟨[b, b₁], rest, rfl, ⟨hop, ?_⟩, by simp [hbytes], ?_⟩
    · rw [hs, hc]
      exact ⟨lowHalf_lt b, rfl, b₁.toNat_lt⟩
    · intro i
      rw [hbytes]
      exact .same (not_ignoredIn hop (by simp [hs])) _
  | @address b b₁ b₂ rest c hs hc =>
    have hop : 0 ≤ c.op ∧ c.op < 16 := by rw [hc]; exact op_bounds b
    have hbytes : c.bytes = [b &&& 0xF0, b₁, b₂] := by
      rw [bytes, hs, opByte_of_op (by rw [hc]), hc]
      simp only [word_high, word_low]
    refine ⟨[b, b₁, b₂], rest, rfl, ⟨hop, ?_⟩, by simp [hbytes], ?_⟩
    · rw [hs, hc]
      exact ⟨rfl, rfl⟩
    · intro i
      rw [hbytes]
      refine Rewritten.congr ?_ (ignoredIn_address hop hs)
      rcases i with _ | i
      · exact ⟨fun _ => rfl, fun hi => absurd rfl hi⟩
      · exact .same (by omega) _
  | @register b rest c hs hc =>
    have hop : 0 ≤ c.op ∧ c.op < 16 := by rw [hc]; exact op_bounds b
    have hfirst := firstByte_of_op (c := c) (b := b) (by rw [hc]) (by rw [hc])
    have hbytes : c.bytes = [b] := by
      rw [bytes]
      rcases hs with hs | hs <;> simp [hs, hfirst]
    refine ⟨[b], rest, rfl, ⟨hop, ?_⟩, by simp [hbytes], ?_⟩
    · rcases hs with hs | hs
      all_goals
        rw [hs, hc]
        exact ⟨lowHalf_lt b, rfl, rfl⟩
    · intro i
      rw [hbytes]
      refine .same (not_ignoredIn hop ?_) _
      rcases hs with hs | hs <;> simp [hs]

/-! ## Whole sweeps -/

theorem image_cons (c : Code) (codes : List Code) :
    image (c :: codes) = c.bytes ++ image codes := by
  simp [image]

/-- Ignored halves of the first code, and of those behind it. -/
theorem ignored_cons {c : Code} {codes : List Code} {i : Nat} :
    Ignored (c :: codes) i ↔ c.IgnoredIn i ∨ ∃ j, i = c.bytes.length + j ∧ Ignored codes j := by
  constructor
  · rintro ⟨before, d, after, k, hcodes, rfl, hk⟩
    cases before with
    | nil =>
      cases hcodes
      exact .inl (by simpa [image] using hk)
    | cons e before =>
      cases hcodes
      refine .inr ⟨(image before).length + k, ?_, before, d, after, k, rfl, rfl, hk⟩
      simp [image_cons]
      omega
  · rintro (h | ⟨j, rfl, before, d, after, k, rfl, rfl, hk⟩)
    · exact ⟨[], c, codes, i, rfl, by simp [image], h⟩
    · refine ⟨c :: before, d, after, k, rfl, ?_, hk⟩
      simp [image_cons]
      omega

theorem IgnoredIn.lt {c : Code} {i : Nat} (h : c.IgnoredIn i) : i < c.bytes.length := by
  have hpos := c.length_pos
  rw [← bytes_length] at hpos
  rcases h with ⟨hs, rfl⟩ | ⟨-, rfl⟩
  · rw [bytes_length_eq_size, hs]
    decide
  · exact hpos

/-- What holds of a sweep. -/
structure Swept (data : Text) (s : Sweep) : Prop where
  canonical : ∀ c ∈ s.codes, c.Canonical
  stuck : ∃ c, decode s.tail = .error c
  split : ∃ front, data = front ++ s.tail ∧ front.length = (image s.codes).length
  rewritten : ∀ i, Rewritten (Ignored s.codes i) data[i]? s.image[i]?

/-- **A sweep goes through all of its data.** -/
theorem swept (data : Text) : Swept data (sweep data) := by
  induction hn : data.length using Nat.strongRecOn generalizing data with
  | ind n ih =>
    cases h : decode data with
    | error c =>
      rw [sweep_error h]
      have hnone (i : Nat) : ¬ Ignored [] i := by
        rintro ⟨before, d, after, k, hcodes, -⟩
        simp at hcodes
      exact ⟨fun c hc => (List.not_mem_nil hc).elim, ⟨c, h⟩, ⟨[], rfl, rfl⟩,
        fun i => .same (hnone i) _⟩
    | ok c =>
      obtain ⟨front, rest, rfl, hread⟩ := read_of_decode h
      have hpos := c.length_pos
      have hfront : c.length = front.length := by rw [hread.length, bytes_length]
      have hdrop : (front ++ rest).drop c.length = rest := by rw [hfront, List.drop_left]
      rw [List.length_append] at hn
      obtain ⟨hcanonical, hstuck, ⟨more, hmore, hlength⟩, hrewritten⟩ :=
        ih rest.length (by omega) rest rfl
      rw [sweep_ok h, hdrop]
      refine ⟨List.forall_mem_cons.2 ⟨hread.canonical, hcanonical⟩, hstuck, ⟨front ++ more, ?_, ?_⟩,
        ?_⟩
      · rw [List.append_assoc, ← hmore]
      · rw [image_cons, List.length_append, List.length_append, hread.length, hlength]
      · intro i
        show Rewritten _ _ (image (c :: (sweep rest).codes) ++ (sweep rest).tail)[i]?
        rw [image_cons, List.append_assoc]
        by_cases hi : i < front.length
        · rw [List.getElem?_append_left hi, List.getElem?_append_left (by rwa [← hread.length])]
          refine (hread.rewritten i).congr (ignored_cons.trans (or_iff_left ?_))
          rintro ⟨j, rfl, -⟩
          have := hread.length
          omega
        · obtain ⟨j, rfl⟩ : ∃ j, i = front.length + j := ⟨i - front.length, by omega⟩
          rw [List.getElem?_append_right (by omega), Nat.add_sub_cancel_left, hread.length,
            List.getElem?_append_right (by omega), Nat.add_sub_cancel_left]
          refine (hrewritten j).congr (ignored_cons.trans ⟨?_, fun hj => .inr ⟨j, rfl, hj⟩⟩)
          rintro (hin | ⟨k, hk, hj⟩)
          · have := hin.lt
            omega
          · rwa [show j = k by omega]

/-- **Canonical codes are swept back from their encodings.** -/
theorem sweep_image {codes : List Code} {tail : Text} {e : Code} (hcodes : ∀ c ∈ codes, c.Canonical)
    (htail : decode tail = .error e) : sweep (image codes ++ tail) = ⟨codes, tail⟩ := by
  induction codes with
  | nil => exact sweep_error htail
  | cons c codes ih =>
    obtain ⟨hc, hcodes⟩ := List.forall_mem_cons.1 hcodes
    have hdecode := decode_bytes hc (image codes ++ tail)
    rw [image_cons, List.append_assoc, sweep_ok hdecode, ← bytes_length, List.drop_left, ih hcodes]

theorem length_le_three (c : Code) : c.length ≤ 3 := by
  rw [← bytes_length]
  exact c.bytes_length_le

/-- Bytes in which no code can be read are none, or the start of a longer code. -/
theorem short_of_decode {tail : Text} {e : Code} (h : decode tail = .error e) :
    tail.length ≤ 2 ∧ ∀ b rest, tail = b :: rest →
      tail.length < ({ op := (b >>> 4).toNat } : Code).length := by
  cases tail with
  | nil => exact ⟨Nat.zero_le _, fun b rest hnil => by cases hnil⟩
  | cons b rest =>
    have hshort := (decode_cons_eq_error.1 h).2
    have hle := length_le_three { op := (b >>> 4).toNat }
    refine ⟨by rw [List.length_cons]; omega, ?_⟩
    rintro b' rest' hcons
    cases hcons
    exact hshort

end Code

open Code

/-- **The linear sweep of any image is stable.** It goes through all of the image up to at most two
bytes, with which a longer code starts. The encodings of its codes and the bytes that are left are
as long as the image, and are the image with the ignored halves cleared. A sweep of them finds the
same codes and leaves the same bytes. Every encoding is as long as its code says. -/
theorem linear_sweep_stable (data : Text) :
    (∃ front, data = front ++ (sweep data).tail ∧
      front.length = (image (sweep data).codes).length) ∧
      (sweep data).tail.length ≤ 2 ∧
      (∀ b rest, (sweep data).tail = b :: rest →
        (sweep data).tail.length < ({ op := (b >>> 4).toNat } : Code).length) ∧
      (sweep data).image.length = data.length ∧
      (∀ i, Rewritten (Ignored (sweep data).codes i) data[i]? (sweep data).image[i]?) ∧
      sweep (sweep data).image = sweep data ∧
      ∀ c : Code, c.bytes.length = c.length := by
  obtain ⟨hcanonical, ⟨e, hstuck⟩, ⟨front, hdata, hlength⟩, hrewritten⟩ := swept data
  obtain ⟨hle, hshort⟩ := short_of_decode hstuck
  refine ⟨⟨front, hdata, hlength⟩, hle, hshort, ?_, hrewritten, sweep_image hcanonical hstuck,
    bytes_length⟩
  rw [Sweep.image, List.length_append, ← hlength, ← List.length_append, ← hdata]

example : sweep [0x45, 0x12, 0x34, 0x8A, 0x9F, 0xF7, 0x4C, 0x01] =
    ⟨[.ofAddress 4 0x1234, .ofRegisters 8 10 9, .ofRegister 15 7], [0x4C, 0x01]⟩ := by
      decide +kernel

end Octet
