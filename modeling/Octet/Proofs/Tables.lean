import Octet.Table

/-!
# Looking names up

A look-up finds the first entry of a name. In a table whose names are distinct it finds every entry.

* `Table.find?_of_mem` — look-ups in a table with distinct names;
* `Table.find?_map` — look-ups in a table whose values were changed;
* `Table.find?_insert_self`, `Table.find?_insert_ne` — look-ups after a value was set;
* `Table.Fresh` — names that can be added one by one, each of which must be new when its turn comes.
-/

namespace Octet.Table

variable {α : Type} {t : Table α} {name n : Text} {v : α}

theorem find?_cons_self : find? ((name, v) :: t) name = some v :=
  List.lookup_cons_self

theorem find?_cons_ne (h : name ≠ n) : find? ((n, v) :: t) name = find? t name := by
  have hb : (name == n) = false := by simpa using h
  rw [find?, List.lookup_cons, hb, find?]

theorem find?_of_mem (hnd : (t.map Prod.fst).Nodup) (h : (name, v) ∈ t) :
    find? t name = some v := by
  induction t with
  | nil => cases h
  | cons e t ih =>
    obtain ⟨n, w⟩ := e
    rw [List.map_cons, List.nodup_cons] at hnd
    rcases List.mem_cons.1 h with heq | hmem
    · cases heq
      exact find?_cons_self
    · have hne : name ≠ n := by
        intro he
        rw [← he] at hnd
        exact hnd.1 (List.mem_map.2 ⟨_, hmem, rfl⟩)
      rw [find?_cons_ne hne, ih hnd.2 hmem]

theorem mem_of_find? (h : find? t name = some v) : (name, v) ∈ t := by
  induction t with
  | nil => cases h
  | cons e t ih =>
    obtain ⟨n, w⟩ := e
    by_cases hn : name = n
    · subst hn
      rw [find?_cons_self] at h
      cases h
      exact List.mem_cons_self ..
    · rw [find?_cons_ne hn] at h
      exact .tail _ (ih h)

theorem find?_map {β : Type} (f : α → β) (t : Table α) (name : Text) :
    find? (t.map fun e => (e.1, f e.2)) name = (find? t name).map f := by
  induction t with
  | nil => rfl
  | cons e t ih =>
    obtain ⟨n, v⟩ := e
    rw [List.map_cons]
    by_cases h : name = n
    · subst h
      rw [find?_cons_self, find?_cons_self]
      rfl
    · rw [find?_cons_ne h, find?_cons_ne h, ih]

theorem find?_insert_self (t : Table α) (name : Text) (v : α) :
    find? (t.insert name v) name = some v := by
  induction t with
  | nil => exact find?_cons_self
  | cons e t ih =>
    obtain ⟨n, w⟩ := e
    rw [insert]
    split
    · exact find?_cons_self
    · rename_i hn
      have hne : name ≠ n := fun he => hn (by simp [he])
      rw [find?_cons_ne hne, ih]

theorem find?_insert_ne (h : name ≠ n) (t : Table α) (v : α) :
    find? (t.insert n v) name = find? t name := by
  induction t with
  | nil => exact find?_cons_ne h
  | cons e t ih =>
    obtain ⟨m, w⟩ := e
    rw [insert]
    split
    · rename_i hm
      have hne : name ≠ m := fun he => h (he.trans (by simpa using hm))
      rw [find?_cons_ne h, find?_cons_ne hne]
    · by_cases hname : name = m
      · subst hname
        rw [find?_cons_self, find?_cons_self]
      · rw [find?_cons_ne hname, find?_cons_ne hname, ih]

/-- Setting a value drops no name. -/
theorem mem_fst_insert (v : α) (h : n ∈ t.map Prod.fst) : n ∈ (t.insert name v).map Prod.fst := by
  induction t with
  | nil => cases h
  | cons e t ih =>
    obtain ⟨m, w⟩ := e
    rw [insert]
    split
    · rename_i hm
      rw [beq_iff_eq] at hm
      subst hm
      exact h
    · obtain rfl | h := List.mem_cons.1 h
      · exact .head _
      · exact .tail _ (ih h)

/-- Names that can be added to a table: they are distinct, and the table has none of them. -/
structure Fresh (t : Table α) (names : List Text) : Prop where
  distinct : names.Nodup
  new : ∀ n ∈ names, t.find? n = none

theorem fresh_nil : Fresh t [] := ⟨List.nodup_nil, by simp⟩

/-- The names after the first must be new in the table with the first. -/
theorem fresh_cons {names : List Text} (v : α) :
    Fresh t (name :: names) ↔ t.find? name = none ∧ Fresh ((name, v) :: t) names := by
  constructor
  · rintro ⟨hd, hn⟩
    rw [List.nodup_cons] at hd
    refine ⟨hn name (List.mem_cons_self ..), hd.2, ?_⟩
    intro n hmem
    have hne : n ≠ name := fun he => hd.1 (he ▸ hmem)
    rw [find?_cons_ne hne]
    exact hn n (.tail _ hmem)
  · rintro ⟨hnew, hd, hn⟩
    have hne : ∀ n ∈ names, n ≠ name := by
      intro n hmem he
      have := hn n hmem
      rw [he, find?_cons_self] at this
      cases this
    refine ⟨List.nodup_cons.2 ⟨fun hmem => hne name hmem rfl, hd⟩, ?_⟩
    intro n hmem
    rcases List.mem_cons.1 hmem with rfl | hmem
    · exact hnew
    · rw [← find?_cons_ne (hne n hmem)]
      exact hn n hmem

end Octet.Table
