import Octet.Text.Basic

/-!
# Code points and the bytes below them

Text is decoded from its start on, but an ASCII byte always starts a code point of its own. So text
can be taken apart in front of such a byte, and trimming takes nothing off that stands between two
of them, unless they are white space.

* `Text.leadPoint?_append` — an ASCII byte does not go on with a code point;
* `Text.points_append` — **text is decoded piece by piece, where the later piece starts with an
  ASCII byte**;
* `Text.flatMap_points` — decoding loses no byte;
* `Text.Framed` — text that starts and ends with ASCII bytes that are no white space;
* `Text.Framed.infix_trim` — **such text outlives trimming**, whatever stands around it.
-/

namespace Octet.Text

/-! ## Taking text apart -/

section

variable {e : UInt8} (he : e < 0x80)
include he

theorem tail?_ascii {lo : UInt8} (hi : UInt8) (hlo : 0x80 ≤ lo) : tail? lo hi e = none := by
  rw [tail?, if_neg]
  rw [Bool.and_eq_true, decide_eq_true_eq]
  intro hle
  exact absurd (UInt8.le_trans hlo hle.1) (UInt8.not_le.2 he)

theorem point2?_append (b : UInt8) (x y : Text) : point2? b (x ++ e :: y) = point2? b x := by
  cases x with
  | nil => simp [point2?, tail?_ascii he]
  | cons c x => rfl

theorem point3?_append (b : UInt8) (x y : Text) : point3? b (x ++ e :: y) = point3? b x := by
  have hfirst :
      tail? (if b == 0xE0 then 0xA0 else 0x80) (if b == 0xED then 0x9F else 0xBF) e = none :=
    tail?_ascii he _ (by split <;> decide)
  rcases x with _ | ⟨c, _ | ⟨d, x⟩⟩
  · cases y with
    | nil => rfl
    | cons _ _ =>
      rw [List.nil_append, point3?, hfirst]
      rfl
  · simp [point3?, tail?_ascii he]
  · rfl

theorem point4?_append (b : UInt8) (x y : Text) : point4? b (x ++ e :: y) = point4? b x := by
  have hfirst :
      tail? (if b == 0xF0 then 0x90 else 0x80) (if b == 0xF4 then 0x8F else 0xBF) e = none :=
    tail?_ascii he _ (by split <;> decide)
  have hnext : tail? 0x80 0xBF e = none := tail?_ascii he _ (UInt8.le_refl _)
  rcases x with _ | ⟨c, _ | ⟨d, _ | ⟨f, x⟩⟩⟩
  · rcases y with _ | ⟨_, _ | ⟨_, _⟩⟩
    · rfl
    · rfl
    · rw [List.nil_append, point4?, hfirst]
      rfl
  · cases y with
    | nil => rfl
    | cons _ _ => simp [point4?, hnext]
  · simp [point4?, hnext]
  · rfl

/-- A code point that starts before an ASCII byte ends there, or it is none. -/
theorem leadPoint?_append (b : UInt8) (x y : Text) :
    leadPoint? b (x ++ e :: y) = leadPoint? b x := by
  rw [leadPoint?, leadPoint?, point2?_append he, point3?_append he, point4?_append he]

end

/-- The bytes of a code point are there. -/
theorem length_of_leadPoint? {b : UInt8} {rest : Text} {c n : Nat}
    (h : leadPoint? b rest = some (c, n)) :
    n ≤ rest.length := by
  unfold leadPoint? at h
  split at h
  · cases h
    exact Nat.zero_le _
  · split at h
    · obtain ⟨v, hv, heq⟩ := Option.map_eq_some_iff.1 h
      cases heq
      cases rest with
      | nil => cases hv
      | cons => simp
    · split at h
      · obtain ⟨v, hv, heq⟩ := Option.map_eq_some_iff.1 h
        cases heq
        rcases rest with _ | ⟨_, _ | ⟨_, _⟩⟩
        · cases hv
        · cases hv
        · simp
      · split at h
        · obtain ⟨v, hv, heq⟩ := Option.map_eq_some_iff.1 h
          cases heq
          rcases rest with _ | ⟨_, _ | ⟨_, _ | ⟨_, _⟩⟩⟩
          · cases hv
          · cases hv
          · cases hv
          · simp
        · cases h

/-- The first code point, and what follows it, make up the text. -/
theorem bytes_firstPoint_append (b : UInt8) (rest : Text) :
    (firstPoint b rest).bytes ++ afterPoint b rest = b :: rest := by
  unfold firstPoint afterPoint
  cases leadPoint? b rest with
  | none => rfl
  | some p => simp

/-- **Decoding loses no byte.** -/
theorem flatMap_points (x : Text) : (points x).flatMap (·.bytes) = x := by
  fun_induction points x with
  | case1 => rfl
  | case2 b rest ih => rw [List.flatMap_cons, ih, bytes_firstPoint_append]

section

variable {e : UInt8} (he : e < 0x80)
include he

theorem firstPoint_append (b : UInt8) (x y : Text) :
    firstPoint b (x ++ e :: y) = firstPoint b x := by
  unfold firstPoint
  rw [leadPoint?_append he]
  cases h : leadPoint? b x with
  | none => rfl
  | some p => simp only [List.take_append_of_le_length (length_of_leadPoint? h)]

theorem afterPoint_append (b : UInt8) (x y : Text) :
    afterPoint b (x ++ e :: y) = afterPoint b x ++ e :: y := by
  unfold afterPoint
  rw [leadPoint?_append he]
  cases h : leadPoint? b x with
  | none => rfl
  | some p => simp only [List.drop_append_of_le_length (length_of_leadPoint? h)]

/-- **Text is decoded piece by piece**, where the later piece starts with an ASCII byte. -/
theorem points_append (x y : Text) : points (x ++ e :: y) = points x ++ points (e :: y) := by
  fun_induction points x with
  | case1 => rfl
  | case2 b rest ih =>
    rw [List.cons_append, points, firstPoint_append he, afterPoint_append he, ih, List.cons_append]

theorem points_ascii (y : Text) : points (e :: y) = ⟨some e.toNat, [e]⟩ :: points y := by
  have hlead : leadPoint? e y = some (e.toNat, 0) := by rw [leadPoint?, if_pos he]
  rw [points, firstPoint, afterPoint, hlead]
  rfl

end

/-- ASCII text has as many characters as bytes. -/
theorem length_points_ascii {x : Text} (h : ∀ b ∈ x, b < 0x80) : (points x).length = x.length := by
  induction x with
  | nil => simp [points]
  | cons b x ih =>
    obtain ⟨hb, hx⟩ := List.forall_mem_cons.1 h
    rw [points_ascii hb, List.length_cons, List.length_cons, ih hx]

/-! ## Trimming -/

/-- ASCII bytes that are no white space. -/
def isVisible (b : UInt8) : Bool := b < 0x80 && !isSpace b.toNat

/-- Text that starts and ends with visible bytes. -/
structure Framed (x : Text) : Prop where
  nonempty : x ≠ []
  first : ∀ b ∈ x.head?, isVisible b = true
  last : ∀ b ∈ x.getLast?, isVisible b = true

theorem framed_of_all {x : Text} (hne : x ≠ []) (h : ∀ b ∈ x, isVisible b = true) : Framed x where
  nonempty := hne
  first b hb := h b (List.mem_of_mem_head? hb)
  last b hb := h b (List.mem_of_mem_getLast? hb)

theorem framed_of_ends {b c : UInt8} (hb : isVisible b = true) (hc : isVisible c = true)
    (x : Text) :
    Framed (b :: (x ++ [c])) where
  nonempty := List.cons_ne_nil _ _
  first d hd := by
    cases hd
    exact hb
  last d hd := by
    rw [← List.cons_append, List.getLast?_concat] at hd
    cases hd
    exact hc

section

variable {α : Type} {p : α → Bool}

/-- What is dropped in front stops at an element that is not of the class. -/
theorem dropWhile_append_stop (x : List α) {y : List α} (hy : ∀ a ∈ y.head?, p a = false) :
    (x ++ y).dropWhile p = x.dropWhile p ++ y := by
  induction x with
  | nil =>
    cases y with
    | nil => rfl
    | cons a y => rw [List.nil_append, List.dropWhile_cons_of_neg (by simp [hy a rfl])]; rfl
  | cons a x ih =>
    by_cases ha : p a = true
    · rw [List.cons_append, List.dropWhile_cons_of_pos ha, List.dropWhile_cons_of_pos ha, ih]
    · rw [List.cons_append, List.dropWhile_cons_of_neg ha, List.dropWhile_cons_of_neg ha,
        List.cons_append]

/-- What is dropped at both ends stops at elements that are not of the class. -/
theorem dropWhile_both_ends (x z : List α) {y : List α} (hne : y ≠ [])
    (hfirst : ∀ a ∈ y.head?, p a = false) (hlast : ∀ a ∈ y.getLast?, p a = false) :
    (((x ++ (y ++ z)).dropWhile p).reverse.dropWhile p).reverse =
      x.dropWhile p ++ (y ++ (z.reverse.dropWhile p).reverse) := by
  have hhead : ∀ a ∈ (y ++ z).head?, p a = false := by
    cases y with
    | nil => exact absurd rfl hne
    | cons a y => exact hfirst
  have hend : ∀ a ∈ (y.reverse ++ (x.dropWhile p).reverse).head?, p a = false := by
    rw [List.head?_append, List.head?_reverse]
    cases hy : y.getLast? with
    | none => exact absurd (List.getLast?_eq_none_iff.1 hy) hne
    | some c =>
      rw [hy] at hlast
      exact hlast
  rw [dropWhile_append_stop x hhead, List.reverse_append, List.reverse_append, List.append_assoc,
    dropWhile_append_stop _ hend]
  simp

end

section

variable {b : UInt8} (hb : isVisible b = true)
include hb

theorem lt_of_isVisible : b < 0x80 := by
  rw [isVisible, Bool.and_eq_true, decide_eq_true_eq] at hb
  exact hb.1

theorem not_isSpace_of_isVisible : Point.isSpace ⟨some b.toNat, [b]⟩ = false := by
  rw [isVisible, Bool.and_eq_true, Bool.not_eq_true'] at hb
  exact hb.2

/-- After a visible byte, text is decoded on its own. -/
theorem points_append_visible (x y : Text) :
    points (x ++ [b] ++ y) = points (x ++ [b]) ++ points y := by
  have hlt := lt_of_isVisible hb
  rw [List.append_assoc, List.singleton_append, points_append hlt, points_append hlt,
    points_ascii hlt, points_ascii hlt, points, List.append_assoc, List.singleton_append]

end

/-- **What starts and ends with visible bytes outlives trimming.** -/
theorem Framed.infix_trim {x : Text} (h : Framed x) (before after : Text) :
    x <:+: trim (before ++ (x ++ after)) := by
  obtain ⟨b, more, hx⟩ := List.exists_cons_of_ne_nil h.nonempty
  obtain ⟨y, c, hy⟩ := (List.eq_nil_or_concat x).resolve_left h.nonempty
  rw [List.concat_eq_append] at hy
  have hb : isVisible b = true := h.first b (by rw [hx]; rfl)
  have hc : isVisible c = true := h.last c (by rw [hy]; simp)
  have hpoints : points (before ++ (x ++ after)) = points before ++ (points x ++ points after) := by
    rw [hx, List.cons_append, points_append (lt_of_isVisible hb), ← List.cons_append,
      ← hx, hy, points_append_visible hc]
  have hhead : ∀ q ∈ (points x).head?, q.isSpace = false := by
    rw [hx, points_ascii (lt_of_isVisible hb)]
    intro q hq
    cases hq
    exact not_isSpace_of_isVisible hb
  have hend : ∀ q ∈ (points x).getLast?, q.isSpace = false := by
    rw [hy, points_append (lt_of_isVisible hc), points_ascii (lt_of_isVisible hc), points]
    intro q hq
    rw [List.getLast?_concat] at hq
    cases hq
    exact not_isSpace_of_isVisible hc
  have hnonempty : points x ≠ [] := by
    rw [hx, points_ascii (lt_of_isVisible hb)]
    exact List.cons_ne_nil _ _
  rw [trim, hpoints, dropWhile_both_ends _ _ hnonempty hhead hend, List.flatMap_append,
    List.flatMap_append, flatMap_points]
  exact ⟨_, _, List.append_assoc ..⟩

end Octet.Text
