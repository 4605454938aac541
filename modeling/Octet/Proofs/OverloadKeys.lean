import Octet.Proofs.Encoding
import Octet.Statement.Basic

/-!
# Overload keys tell overloads apart

Calls reach instructions and macros through one text, the overload key. It loses nothing: the name
and the kinds of the arguments can be read back from it, since the last opening parenthesis of a key
ends its name.

* `overloadKey_inj` — **the key of a name and kinds belongs to no other name and kinds**;
* `Instruction.kinds_of_find?` — so the instruction that a call finds takes arguments of the kinds
  of the call.
-/

namespace Octet

/-- What stands before the last mark can be told from what stands after it. -/
theorem eq_of_append_mark {mark : UInt8} {x y u v : Text} (hu : mark ∉ u) (hv : mark ∉ v)
    (h : x ++ mark :: u = y ++ mark :: v) : x = y ∧ u = v := by
  rcases List.append_eq_append_iff.1 h with ⟨between, rfl, heq⟩ | ⟨between, rfl, heq⟩
  · cases between with
    | nil => exact ⟨(List.append_nil x).symm, (List.cons.inj heq).2⟩
    | cons b between =>
      exact absurd ((List.cons.inj heq).2 ▸ List.mem_append_right _ (List.mem_cons_self ..)) hu
  · cases between with
    | nil => exact ⟨List.append_nil y, (List.cons.inj heq).2.symm⟩
    | cons b between =>
      exact absurd ((List.cons.inj heq).2 ▸ List.mem_append_right _ (List.mem_cons_self ..)) hv

namespace ArgKind

/-- The kinds that arguments and parameters have. -/
def Known (k : ArgKind) : Prop := k = .register ∨ k = .literal

theorem Known.not_mem_name {k : ArgKind} (h : k.Known) : '('.toUInt8 ∉ k.name := by
  rcases h with rfl | rfl <;> decide +kernel

/-- The first byte of its name tells a kind. -/
theorem Known.eq_of_name {k l : ArgKind} (hk : k.Known) (hl : l.Known) {u v : Text}
    (h : k.name ++ u = l.name ++ v) :
    k = l := by
  have hhead (k : ArgKind) (hk : k.Known) (u : Text) :
      (k.name ++ u).head? = some (if k = .register then 'r'.toUInt8 else 'l'.toUInt8) := by
    rcases hk with rfl | rfl <;> rfl
  have heq : some (if k = .register then 'r'.toUInt8 else 'l'.toUInt8) =
      some (if l = .register then 'r'.toUInt8 else 'l'.toUInt8) := by
    rw [← hhead k hk u, ← hhead l hl v, h]
  rcases hk with rfl | rfl <;> rcases hl with rfl | rfl
  · rfl
  · exact absurd heq (by decide)
  · exact absurd heq (by decide)
  · rfl

end ArgKind

/-! ## Keys -/

/-- The kinds of arguments as a key lists them. -/
def kindsText (kinds : List ArgKind) : Text := (utf8 ",").intercalate (kinds.map ArgKind.name)

theorem kindsText_cons (k : ArgKind) (ks : List ArgKind) :
    kindsText (k :: ks) = k.name ++ if ks = [] then [] else ','.toUInt8 :: kindsText ks := by
  cases ks with
  | nil => simp [kindsText, List.intercalate_singleton]
  | cons l ls =>
    rw [kindsText, List.map_cons, List.map_cons, List.intercalate_cons_cons, List.append_assoc,
      if_neg (by simp)]
    rfl

theorem not_mem_kindsText {ks : List ArgKind} (h : ∀ k ∈ ks, k.Known) :
    '('.toUInt8 ∉ kindsText ks := by
  induction ks with
  | nil => simp [kindsText]
  | cons k ks ih =>
    have hk := (h k (List.mem_cons_self ..)).not_mem_name
    have hks := ih fun l hl => h l (.tail _ hl)
    have hcomma : '('.toUInt8 ≠ ','.toUInt8 := by decide
    rw [kindsText_cons, List.mem_append]
    split
    · simp [hk]
    · simp [hk, hks, hcomma]

theorem kindsText_inj {ks ls : List ArgKind} (hk : ∀ k ∈ ks, k.Known) (hl : ∀ l ∈ ls, l.Known)
    (h : kindsText ks = kindsText ls) : ks = ls := by
  have hne (k : ArgKind) (hk : k.Known) (u : Text) : k.name ++ u ≠ [] := by
    rcases hk with rfl | rfl <;> exact List.cons_ne_nil _ _
  induction ks generalizing ls with
  | nil =>
    cases ls with
    | nil => rfl
    | cons l ls =>
      rw [kindsText_cons] at h
      exact absurd h.symm (hne l (hl l (List.mem_cons_self ..)) _)
  | cons k ks ih =>
    rw [kindsText_cons] at h
    cases ls with
    | nil => exact absurd h (hne k (hk k (List.mem_cons_self ..)) _)
    | cons l ls =>
      rw [kindsText_cons] at h
      obtain rfl := (hk k (List.mem_cons_self ..)).eq_of_name (hl l (List.mem_cons_self ..)) h
      have hrest := List.append_cancel_left h
      congr 1
      -- The comma after the kind says whether others follow.
      by_cases hks : ks = []
      · by_cases hls : ls = []
        · rw [hks, hls]
        · rw [if_pos hks, if_neg hls] at hrest
          cases hrest
      · by_cases hls : ls = []
        · rw [if_neg hks, if_pos hls] at hrest
          cases hrest
        · rw [if_neg hks, if_neg hls] at hrest
          exact ih (fun k hm => hk k (.tail _ hm)) (fun l hm => hl l (.tail _ hm))
            (List.cons.inj hrest).2

theorem overloadKey_eq (name : Text) (ks : List ArgKind) :
    overloadKey name ks = name ++ '('.toUInt8 :: (kindsText ks ++ [')'.toUInt8]) := by
  rw [overloadKey, List.append_assoc, List.append_assoc]
  rfl

/-- **The key of a name and kinds belongs to no other name and kinds.** -/
theorem overloadKey_inj {n m : Text} {ks ls : List ArgKind} (hk : ∀ k ∈ ks, k.Known)
    (hl : ∀ l ∈ ls, l.Known) (h : overloadKey n ks = overloadKey m ls) : n = m ∧ ks = ls := by
  have hclose : '('.toUInt8 ≠ ')'.toUInt8 := by decide
  have hnot {ks : List ArgKind} (hk : ∀ k ∈ ks, k.Known) :
      '('.toUInt8 ∉ kindsText ks ++ [')'.toUInt8] := by
    simp [not_mem_kindsText hk, hclose]
  rw [overloadKey_eq, overloadKey_eq] at h
  obtain ⟨hname, hkinds⟩ := eq_of_append_mark (hnot hk) (hnot hl) h
  exact ⟨hname, kindsText_inj hk hl (List.append_cancel_right hkinds)⟩

/-! ## Calls -/

theorem Arg.kind_known (a : Arg) : a.kind.Known := by
  cases a
  · exact .inl rfl
  · exact .inr rfl
  · exact .inr rfl
  · exact .inl rfl
  · exact .inr rfl

theorem Call.kinds_known (c : Call) : ∀ k ∈ c.kinds, k.Known := by
  intro k hk
  obtain ⟨a, -, rfl⟩ := List.mem_map.1 hk
  exact a.kind_known

theorem catalog_known : ∀ i ∈ catalog, ∀ k ∈ i.kinds, k.Known := by
  unfold ArgKind.Known
  decide +kernel

/-- No two entries of the catalog have one key. -/
theorem Instruction.find?_key : ∀ {i : Instruction}, i ∈ catalog → find? i.key = some i := by
  decide +kernel

/-- **The instruction that a call finds** has its name, and takes arguments of its kinds. -/
theorem Instruction.kinds_of_find? {c : Call} {entry : Instruction}
    (h : Instruction.find? c.key = some entry) :
    entry.mnemonic = c.name ∧ entry.kinds = c.kinds := by
  have hkey : entry.key = c.key := by simpa using List.find?_some h
  exact overloadKey_inj (catalog_known entry (Instruction.mem_of_find? h)) c.kinds_known hkey

/-- The macro that a call names has as many parameters of each kind as the call has arguments. -/
theorem Macro.params_of_key {c : Call} {m : Macro} (hm : ∀ k ∈ m.params, k.Known)
    (h : m.key = c.key) :
    m.name = c.name ∧ m.params = c.kinds :=
  overloadKey_inj hm c.kinds_known h

end Octet
