import Octet.Proofs.Resolvers
import Octet.Proofs.Tables

/-!
# Paths that stay below their start

Cleaning a path keeps a stack of elements, with `..` at its bottom where the path left its start. A
path is looked up only if no such element is left, so what matters is the walk of its elements
alone.

* `Path.walk?` — where a relative path leads, unless it leaves its start on the way;
* `Path.isLocal_clean_iff` — a clean path is local exactly if the walk stays below the start;
* `FileTree.Proper.readUnder_iff` — which files are read below a folder;
* `resolves_exactly_walks_to_files` — **a path is resolved exactly if it walks to a file below the
  root, and then to the content of that file**.
-/

namespace Octet

namespace Text

variable {sep : UInt8}

theorem splitAt_of_notMem {x : Text} (h : sep ∉ x) : splitAt sep x = [x] := by
  induction x with
  | nil => rfl
  | cons b x ih =>
    rw [List.mem_cons, not_or] at h
    have hb : ¬ (b == sep) = true := fun he => h.1 (eq_of_beq he).symm
    rw [splitAt, if_neg hb, ih h.2]

theorem notMem_of_mem_splitAt {x piece : Text} (h : piece ∈ splitAt sep x) : sep ∉ piece := by
  induction x generalizing piece with
  | nil =>
    rw [List.mem_singleton.1 h]
    exact List.not_mem_nil
  | cons b x ih =>
    rw [splitAt] at h
    split at h
    · rcases List.mem_cons.1 h with rfl | h
      · exact List.not_mem_nil
      · exact ih h
    · rename_i hb
      have hne : sep ≠ b := fun he => hb (by rw [he]; exact beq_self_eq_true b)
      obtain ⟨first, pieces, hx⟩ := List.exists_cons_of_ne_nil (splitAt_ne_nil sep x)
      rw [hx] at h
      rcases List.mem_cons.1 h with rfl | h
      · rw [List.mem_cons, not_or]
        exact ⟨hne, ih (hx ▸ .head _)⟩
      · exact ih (hx ▸ .tail _ h)

end Text

namespace Path

/-! ## Walks -/

/-- Where an element leads from the elements kept so far, unless it removes one when none is
kept. -/
def step? (kept : List Text) (e : Text) : Option (List Text) :=
  if e = [] ∨ e = here then some kept
  else if e = above then (if kept = [] then none else some kept.dropLast)
  else some (kept ++ [e])

/-- Where a relative path leads, unless it leaves its start on the way. -/
def walk? (path : Text) : Option (List Text) :=
  if isAbsolute path then none else (elements path).foldlM step? []

/-- An element that names something in a folder. -/
structure IsName (e : Text) : Prop where
  nonempty : e ≠ []
  notHere : e ≠ here
  notAbove : e ≠ above
  whole : slash ∉ e

variable {kept kept' es : List Text} {e path : Text}

theorem step?_isName (hkept : ∀ k ∈ kept, IsName k) (he : slash ∉ e)
    (h : step? kept e = some kept') :
    ∀ k ∈ kept', IsName k := by
  unfold step? at h
  split at h
  case isTrue =>
    cases h
    exact hkept
  case isFalse hskip =>
    rw [not_or] at hskip
    split at h
    case isTrue =>
      split at h
      · cases h
      · cases h
        exact fun k hk => hkept k (List.dropLast_subset _ hk)
    case isFalse habove =>
      cases h
      intro k hk
      rcases List.mem_append.1 hk with hk | hk
      · exact hkept k hk
      · rw [List.mem_singleton.1 hk]
        exact ⟨hskip.1, hskip.2, habove, he⟩

/-- Cleaning does what the walk does, on the reversed elements. -/
theorem keep_of_step? (hkept : ∀ k ∈ kept, IsName k) (h : step? kept e = some kept') :
    keep false kept.reverse e = kept'.reverse := by
  unfold step? at h
  simp only [keep, Bool.or_eq_true, List.isEmpty_iff, beq_iff_eq]
  split at h
  case isTrue hskip =>
    cases h
    rw [if_pos hskip]
  case isFalse hskip =>
    rw [if_neg hskip]
    split at h
    case isTrue habove =>
      rw [if_pos habove]
      split at h
      · cases h
      · rename_i hne
        cases h
        obtain ⟨front, last, rfl⟩ : ∃ front last, kept = front ++ [last] :=
          ⟨_, _, (List.dropLast_concat_getLast hne).symm⟩
        have hlast : last ≠ above := (hkept last (by simp)).notAbove
        simp [hlast]
    case isFalse habove =>
      cases h
      rw [if_neg habove, List.reverse_append]
      rfl

theorem keep_of_leave (h : step? kept e = none) : keep false kept.reverse e = [above] := by
  unfold step? at h
  split at h
  · cases h
  · rename_i hskip
    split at h
    · rename_i habove
      split at h
      · rename_i hnil
        rw [hnil, habove]
        rfl
      · cases h
    · cases h

/-- What left the start stays away. -/
theorem getLast?_keep (h : kept.getLast? = some above) :
    (keep false kept e).getLast? = some above := by
  unfold keep
  split
  · exact h
  · split
    · cases kept with
      | nil => cases h
      | cons last rest =>
        simp only
        split
        · rw [List.getLast?_cons_cons]
          exact h
        · rename_i hlast
          cases rest with
          | nil =>
            cases h
            exact absurd (beq_self_eq_true above) hlast
          | cons next rest => rwa [List.getLast?_cons_cons] at h
    · cases kept with
      | nil => cases h
      | cons last rest => rwa [List.getLast?_cons_cons]

theorem getLast?_foldl_keep (h : kept.getLast? = some above) :
    (es.foldl (keep false) kept).getLast? = some above := by
  induction es generalizing kept with
  | nil => exact h
  | cons e es ih => exact ih (getLast?_keep h)

theorem foldl_keep_of_walk (hkept : ∀ k ∈ kept, IsName k) (hes : ∀ e ∈ es, slash ∉ e)
    (h : es.foldlM step? kept = some kept') :
    es.foldl (keep false) kept.reverse = kept'.reverse ∧ ∀ k ∈ kept', IsName k := by
  induction es generalizing kept with
  | nil =>
    cases h
    exact ⟨rfl, hkept⟩
  | cons e es ih =>
    rw [List.foldlM_cons] at h
    obtain ⟨next, hnext, h⟩ := Option.bind_eq_some_iff.1 h
    have hnames := step?_isName hkept (hes e (.head _)) hnext
    rw [List.foldl_cons, keep_of_step? hkept hnext]
    exact ih hnames (fun e he => hes e (.tail _ he)) h

theorem foldl_keep_of_leave (hkept : ∀ k ∈ kept, IsName k) (hes : ∀ e ∈ es, slash ∉ e)
    (h : es.foldlM step? kept = none) :
    (es.foldl (keep false) kept.reverse).getLast? = some above := by
  induction es generalizing kept with
  | nil => cases h
  | cons e es ih =>
    rw [List.foldlM_cons] at h
    rw [List.foldl_cons]
    cases hnext : step? kept e with
    | none =>
      rw [keep_of_leave hnext]
      exact getLast?_foldl_keep rfl
    | some next =>
      rw [hnext] at h
      rw [keep_of_step? hkept hnext]
      exact ih (step?_isName hkept (hes e (.head _)) hnext) (fun e he => hes e (.tail _ he)) h

/-- Elements stay whole. -/
theorem keep_whole (hkept : ∀ k ∈ kept, slash ∉ k) (he : slash ∉ e) :
    ∀ k ∈ keep false kept e, slash ∉ k := by
  intro k hk
  unfold keep at hk
  split at hk
  · exact hkept k hk
  · split at hk
    · have habove : slash ∉ above := by decide +kernel
      cases kept with
      | nil =>
        rw [List.mem_singleton.1 hk]
        exact habove
      | cons last rest =>
        simp only at hk
        split at hk
        · rcases List.mem_cons.1 hk with rfl | hk
          · exact habove
          · exact hkept k hk
        · exact hkept k (.tail _ hk)
    · rcases List.mem_cons.1 hk with rfl | hk
      · exact he
      · exact hkept k hk

theorem foldl_keep_whole (hkept : ∀ k ∈ kept, slash ∉ k) (hes : ∀ e ∈ es, slash ∉ e) :
    ∀ k ∈ es.foldl (keep false) kept, slash ∉ k := by
  induction es generalizing kept with
  | nil => exact hkept
  | cons e es ih => exact ih (keep_whole hkept (hes e (.head _))) fun e he => hes e (.tail _ he)

/-! ## Local paths -/

theorem join_cons_cons (a b : Text) (es : List Text) :
    join (a :: b :: es) = a ++ slash :: join (b :: es) := by
  rw [join, List.intercalate_cons_cons, List.append_assoc]
  rfl

theorem join_singleton (a : Text) : join [a] = a := List.intercalate_singleton

theorem join_append {a b : List Text} (ha : a ≠ []) (hb : b ≠ []) :
    join (a ++ b) = join a ++ slash :: join b := by
  induction a with
  | nil => exact absurd rfl ha
  | cons x a ih =>
    cases a with
    | nil =>
      obtain ⟨y, b, rfl⟩ := List.exists_cons_of_ne_nil hb
      rw [List.singleton_append, join_cons_cons, join_singleton]
    | cons y a =>
      rw [List.cons_append, List.cons_append, join_cons_cons, ← List.cons_append,
        ih (List.cons_ne_nil y a), join_cons_cons, List.append_assoc, List.cons_append]

theorem elements_join (hne : es ≠ []) (hes : ∀ e ∈ es, slash ∉ e) : elements (join es) = es := by
  induction es with
  | nil => exact absurd rfl hne
  | cons a es ih =>
    have ha := Text.splitAt_of_notMem (hes a (.head _))
    cases es with
    | nil =>
      rw [join_singleton]
      exact ha
    | cons b es =>
      rw [join_cons_cons, elements, Text.splitAt_append, ha]
      exact congrArg _ (ih (List.cons_ne_nil b es) fun e he => hes e (.tail _ he))

theorem elements_notMem_slash : ∀ e ∈ elements path, slash ∉ e :=
  fun _ he => Text.notMem_of_mem_splitAt he

/-- The path of a walk. -/
def pathOf (es : List Text) : Text := if es = [] then here else join es

/-- A path that stays below its start is cleaned to the path of its walk. -/
theorem clean_of_walk? (h : walk? path = some es) :
    clean path = pathOf es ∧ ∀ e ∈ es, IsName e := by
  unfold walk? at h
  split at h
  · cases h
  · rename_i hrelative
    obtain ⟨hkept, hnames⟩ := foldl_keep_of_walk (by simp) elements_notMem_slash h
    refine ⟨?_, hnames⟩
    rw [Bool.not_eq_true] at hrelative
    rw [List.reverse_nil] at hkept
    simp [clean, pathOf, hrelative, hkept]

theorem isLocal_pathOf (hes : ∀ e ∈ es, IsName e) :
    isLocal (pathOf es) = Text.isUtf8 (join es) := by
  unfold pathOf
  split
  · rename_i hnil
    rw [hnil]
    decide +kernel
  · rename_i hne
    have hall :
        ((elements (join es)).all fun e => !e.isEmpty && e != here && e != above) = true := by
      rw [elements_join hne fun e he => (hes e he).whole, List.all_eq_true]
      intro e he
      simp [(hes e he).nonempty, (hes e he).notHere, (hes e he).notAbove]
    rw [isLocal, hall, Bool.or_true, Bool.and_true]

theorem isLocal_of_mem (he : e ∈ elements path) (h : e = [] ∨ e = above) :
    isLocal path = false := by
  have hhere : path ≠ here := by
    rintro rfl
    have helements : elements here = [here] := by decide +kernel
    rw [helements, List.mem_singleton] at he
    subst he
    revert h
    decide +kernel
  have hall : ((elements path).all fun e => !e.isEmpty && e != here && e != above) = false := by
    rw [List.all_eq_false]
    refine ⟨e, he, ?_⟩
    rcases h with rfl | rfl <;> simp
  rw [isLocal, hall, beq_eq_false_iff_ne.2 hhere, Bool.or_false, Bool.and_false]

/-- A path that starts at the root or leaves its start is not cleaned to a local one. -/
theorem isLocal_clean_of_leave (h : walk? path = none) : isLocal (clean path) = false := by
  unfold walk? at h
  split at h
  · rename_i habsolute
    refine isLocal_of_mem (e := []) ?_ (.inl rfl)
    rw [clean, if_pos habsolute, elements, ← List.nil_append (slash :: _), Text.splitAt_append]
    exact .head _
  · rename_i hrelative
    rw [Bool.not_eq_true] at hrelative
    have hlast := foldl_keep_of_leave (by simp) elements_notMem_slash h
    have hwhole : ∀ k ∈ (elements path).foldl (keep false) [], slash ∉ k :=
      foldl_keep_whole (by simp) elements_notMem_slash
    rw [List.reverse_nil] at hlast
    have hclean : clean path = join ((elements path).foldl (keep false) []).reverse := by
      have hne : (elements path).foldl (keep false) [] ≠ [] := by
        intro hnil
        rw [hnil] at hlast
        cases hlast
      simp [clean, hrelative, hne]
    rw [hclean]
    generalize (elements path).foldl (keep false) [] = kept at hlast hwhole
    have hmem : above ∈ kept.reverse := List.mem_reverse.2 (List.mem_of_getLast? hlast)
    refine isLocal_of_mem (e := above) ?_ (.inr rfl)
    rwa [elements_join (List.ne_nil_of_mem hmem) fun k hk => hwhole k (List.mem_reverse.1 hk)]

/-- A path that leads to a place below its start. -/
structure Reaches (name : Text) (es : List Text) : Prop where
  walk : walk? name = some es
  nonempty : es ≠ []
  characters : Text.isUtf8 (join es) = true

/-- **A clean path is local exactly if its walk stays below the start** and is made of
characters. -/
theorem isLocal_clean_iff :
    isLocal (clean path) = true ↔ ∃ es, walk? path = some es ∧ Text.isUtf8 (join es) = true := by
  cases h : walk? path with
  | none => simp [isLocal_clean_of_leave h]
  | some es =>
    obtain ⟨hclean, hnames⟩ := clean_of_walk? h
    simp [hclean, isLocal_pathOf hnames]

end Path

namespace FileTree

open Octet.Path

/-! ## Files below a folder -/

/-- A tree in which nothing lies below a file, and whose files have names that can be followed. -/
structure Proper (t : FileTree) : Prop where
  leaves : ∀ f ∈ t.files, t.hasBelow f.1 = false
  names : ∀ f ∈ t.files, 0 ∉ f.1 ∧ ∀ e ∈ elements f.1, e.length ≤ longestName

/-- A path below a folder. -/
def under (folder path : Text) : Text :=
  folder ++ (if folder.getLast? = some slash then [] else [slash]) ++ path

variable {t : FileTree} {root place es before after : List Text} {e path folder content : Text}

theorem entryAt_of_ne_nil (h : place ≠ []) : t.entryAt place = t.entry (join place) :=
  if_neg fun hempty => h (List.isEmpty_iff.1 hempty)

theorem entryAt_eq_file (h : t.entryAt place = .file content) :
    place ≠ [] ∧ (join place, content) ∈ t.files := by
  have hne : place ≠ [] := by
    rintro rfl
    cases h
  refine ⟨hne, ?_⟩
  rw [entryAt_of_ne_nil hne, entry] at h
  split at h
  · rename_i hfind
    cases h
    exact Table.mem_of_find? hfind
  · split at h <;> cases h

theorem follow_isName (he : IsName e) :
    t.follow root e = .ok place ↔
      t.entryAt root = .folder ∧ e.length ≤ longestName ∧ place = root ++ [e] := by
  have hskip : ¬ (e.isEmpty || e == here) = true := by simp [he.nonempty, he.notHere]
  have habove : ¬ (e == above) = true := by simp [he.notAbove]
  unfold follow
  split
  · rename_i hroot
    simp [hroot]
  · rename_i hroot
    simp [hroot]
  · rename_i hroot
    rw [if_neg hskip, if_neg habove]
    split
    · rename_i hlong
      simp [Nat.not_le_of_lt hlong]
    · rename_i hshort
      simp [hroot, Nat.le_of_not_lt hshort, eq_comm]

/-- Names lead below a place as long as there are folders. -/
theorem foldlM_follow_names (hes : ∀ e ∈ es, IsName e) :
    es.foldlM t.follow root = .ok place ↔ place = root ++ es ∧ (∀ e ∈ es, e.length ≤ longestName) ∧
      ∀ before after, es = before ++ after → after ≠ [] → t.entryAt (root ++ before) = .folder := by
  induction es generalizing root with
  | nil =>
    rw [List.foldlM_nil]
    constructor
    · intro h
      cases h
      refine ⟨(List.append_nil _).symm, by simp, fun before after he hafter => ?_⟩
      exact absurd (List.append_eq_nil_iff.1 he.symm).2 hafter
    · rintro ⟨rfl, -, -⟩
      rw [List.append_nil]
      rfl
  | cons e es ih =>
    rw [List.foldlM_cons, Except.bind_eq_ok]
    constructor
    · rintro ⟨next, hnext, hrest⟩
      obtain ⟨hroot, hshort, rfl⟩ := (follow_isName (hes e (.head _))).1 hnext
      obtain ⟨rfl, hshorts, hfolders⟩ := (ih fun e he => hes e (.tail _ he)).1 hrest
      refine ⟨by simp, List.forall_mem_cons.2 ⟨hshort, hshorts⟩, fun before after he hafter => ?_⟩
      cases before with
      | nil =>
        rw [List.append_nil]
        exact hroot
      | cons b before =>
        cases he
        have hfolder := hfolders before after rfl hafter
        rwa [List.append_assoc] at hfolder
    · rintro ⟨rfl, hshorts, hfolders⟩
      have hroot := hfolders [] (e :: es) rfl (List.cons_ne_nil e es)
      rw [List.append_nil] at hroot
      refine ⟨root ++ [e], (follow_isName (hes e (.head _))).2 ⟨hroot, hshorts e (.head _), rfl⟩,
        ?_⟩
      refine (ih fun e he => hes e (.tail _ he)).2 ⟨by simp, fun e he => hshorts e (.tail _ he), ?_⟩
      intro before after he hafter
      rw [List.append_assoc]
      exact hfolders (e :: before) after (by rw [he]; rfl) hafter

/-- The places above a file are folders. -/
theorem Proper.entryAt_folder (h : t.Proper) (hfile : t.entryAt (before ++ after) = .file content)
    (hafter : after ≠ []) :
    t.entryAt before = .folder := by
  by_cases hbefore : before = []
  · rw [hbefore]
    rfl
  · obtain ⟨-, hmem⟩ := entryAt_eq_file hfile
    have hbelow : t.hasBelow (join before) = true := by
      rw [hasBelow, Bool.or_eq_true, List.any_eq_true]
      refine .inl ⟨_, hmem, ?_⟩
      rw [List.isPrefixOf_iff_prefix, join_append hbefore hafter]
      exact ⟨join after, by simp⟩
    have hnone : t.files.find? (join before) = none := by
      cases hfind : t.files.find? (join before) with
      | none => rfl
      | some other =>
        have hleaf := h.leaves _ (Table.mem_of_find? hfind)
        rw [hbelow] at hleaf
        cases hleaf
    rw [entryAt_of_ne_nil hbefore, entry, hnone]
    simp [hbelow]

theorem elementsOf_eq_ok :
    elementsOf path = .ok es ↔
      path ≠ [] ∧ 0 ∉ path ∧ path.length ≤ longestPath ∧ es = elements path := by
  unfold elementsOf
  split
  · rename_i hempty
    simp [List.isEmpty_iff.1 hempty]
  · rename_i hne
    split
    · rename_i hnul
      simp [List.contains_iff_mem.1 hnul]
    · rename_i hnul
      split
      · rename_i hlong
        simp [Nat.not_le_of_lt hlong]
      · rename_i hshort
        have hne' : path ≠ [] := fun hnil => hne (List.isEmpty_iff.2 hnil)
        have hnul' : 0 ∉ path := fun hmem => hnul (List.contains_iff_mem.2 hmem)
        simp [hne', hnul', Nat.le_of_not_lt hshort, eq_comm]

theorem follow_nil {place' : List Text} (h : t.follow place [] = .ok place') : place' = place := by
  unfold follow at h
  split at h
  · cases h
  · cases h
  · exact (Except.ok.inj h).symm

/-- The elements of a path below a folder lead first to the folder. -/
theorem walk_under (hfolder : folder ≠ []) (hroot : t.walk folder (elements folder) = .ok root)
    (hne : es ≠ []) (hes : ∀ e ∈ es, IsName e) :
    t.walk (under folder (join es)) (elements (under folder (join es))) =
      es.foldlM t.follow root := by
  have helements := elements_join hne fun e he => (hes e he).whole
  have habsolute : isAbsolute (under folder (join es)) = isAbsolute folder := by
    obtain ⟨b, rest, rfl⟩ := List.exists_cons_of_ne_nil hfolder
    rfl
  unfold walk at hroot ⊢
  rw [habsolute]
  generalize (if isAbsolute folder then [] else t.start) = start at hroot
  unfold under
  split
  · rename_i hlast
    obtain ⟨x, rfl⟩ := List.getLast?_eq_some_iff.1 hlast
    have hx : elements (x ++ [slash]) = elements x ++ [[]] := Text.splitAt_append slash x []
    have hunder : elements (x ++ [slash] ++ [] ++ join es) = elements x ++ es := by
      rw [List.append_nil, List.append_assoc, List.singleton_append, elements, Text.splitAt_append]
      exact congrArg _ helements
    rw [hx, List.foldlM_append] at hroot
    obtain ⟨next, hnext, hroot⟩ := Except.bind_eq_ok.1 hroot
    obtain ⟨last, hlast, hroot⟩ := Except.bind_eq_ok.1 hroot
    cases hroot
    rw [hunder, List.foldlM_append, hnext, follow_nil hlast]
    rfl
  · have hunder : elements (folder ++ [slash] ++ join es) = elements folder ++ es := by
      rw [List.append_assoc, List.singleton_append, elements, Text.splitAt_append]
      exact congrArg _ helements
    rw [hunder, List.foldlM_append, hroot]
    rfl

theorem mem_under {b : UInt8} : b ∈ under folder path ↔
    b ∈ folder ∨ (b = slash ∧ folder.getLast? ≠ some slash) ∨ b ∈ path := by
  unfold under
  split <;> simp_all

/-- A path below a folder is followed from where the folder is. -/
theorem locate_under (hroot : t.locate folder = .ok root) (hne : es ≠ [])
    (hes : ∀ e ∈ es, IsName e) :
    t.locate (under folder (join es)) = .ok place ↔
      0 ∉ join es ∧ (under folder (join es)).length ≤ longestPath ∧
        es.foldlM t.follow root = .ok place := by
  obtain ⟨steps, hsteps, hwalk⟩ := Except.bind_eq_ok.1 hroot
  obtain ⟨hfolder, hnul, -, rfl⟩ := elementsOf_eq_ok.1 hsteps
  have hnul' : 0 ∉ under folder (join es) ↔ 0 ∉ join es := by
    have hslash : (0 : UInt8) ≠ slash := by decide
    simp [mem_under, hnul, hslash]
  have hne' : under folder (join es) ≠ [] := by
    simp [under, hfolder]
  rw [← walk_under hfolder hwalk hne hes, locate, Except.bind_eq_ok]
  constructor
  · rintro ⟨steps, hsteps, hplace⟩
    obtain ⟨-, hnul, hshort, rfl⟩ := elementsOf_eq_ok.1 hsteps
    exact ⟨hnul'.1 hnul, hshort, hplace⟩
  · rintro ⟨hnul, hshort, hplace⟩
    exact ⟨_, elementsOf_eq_ok.2 ⟨hne', hnul'.2 hnul, hshort, rfl⟩, hplace⟩

theorem readAs_eq_ok {told : Text} :
    t.readAs path told = .ok content ↔
      ∃ place, t.locate path = .ok place ∧ t.entryAt place = .file content := by
  unfold readAs
  split
  · rename_i herror
    simp [herror]
  · rename_i place hplace
    rw [hplace]
    split
    · rename_i hentry
      simp [hentry, eq_comm]
    · rename_i hentry
      simp [hentry]
    · rename_i hentry
      simp [hentry]

theorem readUnder_eq_ok :
    t.readUnder folder path = .ok content ↔
      folder ≠ [] ∧ 0 ∉ path ∧ t.readAs (under folder path) path = .ok content := by
  unfold readUnder
  split
  · rename_i hempty
    simp [List.isEmpty_iff.1 hempty]
  · rename_i hne
    have hne' : folder ≠ [] := fun hnil => hne (List.isEmpty_iff.2 hnil)
    split
    · rename_i hnul
      simp [List.contains_iff_mem.1 hnul]
    · rename_i hnul
      have hnul' : 0 ∉ path := fun hmem => hnul (List.contains_iff_mem.2 hmem)
      exact ⟨fun h => ⟨hne', hnul', h⟩, fun h => h.2.2⟩

/-- The last elements of a joined path are read back. -/
theorem elements_join_append (root : List Text) (hne : es ≠ []) (hes : ∀ e ∈ es, IsName e) :
    ∃ front more, join (root ++ es) = front ++ join es ∧
      elements (join (root ++ es)) = more ++ es := by
  have helements := elements_join hne fun e he => (hes e he).whole
  by_cases hroot : root = []
  · subst hroot
    exact ⟨[], [], rfl, helements⟩
  · refine ⟨join root ++ [slash], elements (join root), by simp [join_append hroot hne], ?_⟩
    rw [join_append hroot hne, elements, Text.splitAt_append]
    exact congrArg _ helements

/-- **The files that are read below a folder** are those of the tree there, as far as their paths
are not too long. -/
theorem Proper.readUnder_iff (h : t.Proper) (hroot : t.locate folder = .ok root) (hne : es ≠ [])
    (hes : ∀ e ∈ es, IsName e) :
    t.readUnder folder (join es) = .ok content ↔
      t.entryAt (root ++ es) = .file content ∧ (under folder (join es)).length ≤ longestPath := by
  rw [readUnder_eq_ok, readAs_eq_ok]
  constructor
  · rintro ⟨-, -, place, hplace, hfile⟩
    obtain ⟨-, hshort, hplace⟩ := (locate_under hroot hne hes).1 hplace
    obtain ⟨rfl, -, -⟩ := (foldlM_follow_names hes).1 hplace
    exact ⟨hfile, hshort⟩
  · rintro ⟨hfile, hshort⟩
    obtain ⟨steps, hsteps, -⟩ := Except.bind_eq_ok.1 hroot
    obtain ⟨-, hmem⟩ := entryAt_eq_file hfile
    obtain ⟨hnul, hnames⟩ := h.names _ hmem
    obtain ⟨front, more, hjoin, helements⟩ := elements_join_append root hne hes
    have hnul' : 0 ∉ join es := fun hz => hnul (hjoin ▸ List.mem_append_right _ hz)
    have hfollow : es.foldlM t.follow root = .ok (root ++ es) := by
      refine (foldlM_follow_names hes).2 ⟨rfl, ?_, ?_⟩
      · intro e he
        exact hnames e (helements ▸ List.mem_append_right _ he)
      · rintro before after rfl hafter
        rw [← List.append_assoc] at hfile
        exact h.entryAt_folder hfile hafter
    exact ⟨(elementsOf_eq_ok.1 hsteps).1, hnul', _,
      (locate_under hroot hne hes).2 ⟨hnul', hshort, hfollow⟩, hfile⟩

theorem readArchive_eq_ok : t.readArchive path = .ok content ↔ t.entry path = .file content := by
  unfold readArchive
  split <;> simp_all

end FileTree

namespace Resolver

open Octet.Path

/-! ## Resolved paths -/

variable {verbose : Bool} {read : Text → Except Text Text} {name content : Text}

/-- What is read for a path depends on its walk alone. -/
theorem ofReader_find_iff : (ofReader verbose read).find name = some content ↔
    ∃ es, walk? name = some es ∧ (∀ e ∈ es, IsName e) ∧ Text.isUtf8 (join es) = true ∧
      read (pathOf es) = .ok content := by
  show (if isLocal (clean name) then (read (clean name)).toOption else Option.none) =
      some content ↔ _
  constructor
  · intro h
    split at h
    case isTrue hlocal =>
      obtain ⟨es, hwalk, hutf8⟩ := isLocal_clean_iff.1 hlocal
      obtain ⟨hclean, hnames⟩ := clean_of_walk? hwalk
      rw [hclean] at h
      exact ⟨es, hwalk, hnames, hutf8, Except.toOption_eq_some.1 h⟩
    case isFalse => cases h
  · rintro ⟨es, hwalk, -, hutf8, hread⟩
    rw [if_pos (isLocal_clean_iff.2 ⟨es, hwalk, hutf8⟩), (clean_of_walk? hwalk).1]
    exact Except.toOption_eq_some.2 hread

/-- An archive resolves a path to the file that it walks to. -/
theorem archive_find_iff {t : FileTree} (hroot : t.entry here = .folder) :
    (archive verbose t).find name = some content ↔
      ∃ es, Reaches name es ∧ t.entryAt es = .file content := by
  rw [archive, ofReader_find_iff]
  simp only [FileTree.readArchive_eq_ok]
  constructor
  · rintro ⟨es, hwalk, -, hutf8, hentry⟩
    have hne : es ≠ [] := by
      rintro rfl
      cases hroot.symm.trans hentry
    rw [pathOf, if_neg hne, ← FileTree.entryAt_of_ne_nil hne] at hentry
    exact ⟨es, ⟨hwalk, hne, hutf8⟩, hentry⟩
  · rintro ⟨es, ⟨hwalk, hne, hutf8⟩, hentry⟩
    rw [FileTree.entryAt_of_ne_nil hne] at hentry
    exact ⟨es, hwalk, (clean_of_walk? hwalk).2, hutf8, by rwa [pathOf, if_neg hne]⟩

/-- A folder resolves a path to the file that it walks to from there. -/
theorem folder_find_iff {t : FileTree} {path : Text} {root : List Text} (hproper : t.Proper)
    (hroot : t.locate path = .ok root) : (folder verbose t path).find name = some content ↔
      ∃ es, Reaches name es ∧ t.entryAt (root ++ es) = .file content ∧
        (FileTree.under path (join es)).length ≤ FileTree.longestPath := by
  rw [folder, ofReader_find_iff]
  constructor
  · rintro ⟨es, hwalk, hnames, hutf8, hread⟩
    have hne : es ≠ [] := by
      rintro rfl
      cases (FileTree.readUnder_here path).symm.trans (Except.toOption_eq_some.2 hread)
    rw [pathOf, if_neg hne] at hread
    exact ⟨es, ⟨hwalk, hne, hutf8⟩, (hproper.readUnder_iff hroot hne hnames).1 hread⟩
  · rintro ⟨es, ⟨hwalk, hne, hutf8⟩, hfile⟩
    have hnames := (clean_of_walk? hwalk).2
    refine ⟨es, hwalk, hnames, hutf8, ?_⟩
    rw [pathOf, if_neg hne]
    exact (hproper.readUnder_iff hroot hne hnames).2 hfile

end Resolver

open Octet.Path

/-- **A path is resolved exactly if it walks to a file below the root**, and then to the content of
that file. This holds in an archive, and below a folder of a tree as far as the paths there are not
too long. A walk takes only names from the root downwards, and paths with the same walk are resolved
alike. -/
theorem resolves_exactly_walks_to_files (verbose : Bool) (t : FileTree) :
    (t.entry here = .folder → ∀ name content,
      (Resolver.archive verbose t).find name = some content ↔
        ∃ es, Reaches name es ∧ t.entryAt es = .file content) ∧
    (t.Proper → ∀ folder root, t.locate folder = .ok root → ∀ name content,
      (Resolver.folder verbose t folder).find name = some content ↔
        ∃ es, Reaches name es ∧ t.entryAt (root ++ es) = .file content ∧
          (FileTree.under folder (join es)).length ≤ FileTree.longestPath) ∧
    (∀ name es, walk? name = some es → ∀ e ∈ es, IsName e) ∧
    ∀ read name name', walk? name = walk? name' →
      (Resolver.ofReader verbose read).find name = (Resolver.ofReader verbose read).find name' := by
  refine ⟨?_, ?_, ?_, ?_⟩
  · intro hroot name content
    exact Resolver.archive_find_iff hroot
  · intro hproper folder root hroot name content
    exact Resolver.folder_find_iff hproper hroot
  · intro name es hwalk
    exact (clean_of_walk? hwalk).2
  · intro read name name' hwalk
    refine Option.ext fun content => ?_
    rw [Resolver.ofReader_find_iff, Resolver.ofReader_find_iff, hwalk]

/-- A tree with a file in a folder and one beside it. -/
def FileTree.besideFolder : FileTree :=
  { files := [(utf8 "src/lib/a.asm", utf8 "not r1\n"), (utf8 "key", utf8 "#1\n")] }

theorem resolves_exactly_walks_to_files_beside_folder :
    (Resolver.archive false .besideFolder).find (utf8 "./src//x/../lib/a.asm") =
      some (utf8 "not r1\n") ∧
    (Resolver.archive false .besideFolder).find (utf8 "src/../../key") = none ∧
    (Resolver.folder false .besideFolder (utf8 "/src/")).find (utf8 "lib/../lib/a.asm") =
      some (utf8 "not r1\n") ∧
    (Resolver.folder false .besideFolder (utf8 "/src/")).find (utf8 "lib/../../key") = none := by
  obtain ⟨harchive, hfolder, -, -⟩ := resolves_exactly_walks_to_files false .besideFolder
  have hroot : FileTree.besideFolder.entry here = .folder := by decide +kernel
  have hproper : FileTree.besideFolder.Proper := ⟨by decide +kernel, by decide +kernel⟩
  have hplace : FileTree.besideFolder.locate (utf8 "/src/") = .ok [utf8 "src"] :=
    Except.toOption_eq_some.1 (by decide +kernel)
  have hleave (name : Text) (h : walk? name = none) (es : List Text) : ¬ Reaches name es := by
    intro hreaches
    cases h.symm.trans hreaches.walk
  refine ⟨?_, ?_, ?_, ?_⟩
  · exact (harchive hroot _ _).2 ⟨[utf8 "src", utf8 "lib", utf8 "a.asm"],
      ⟨by decide +kernel, by decide +kernel, by decide +kernel⟩, by decide +kernel⟩
  · refine Option.eq_none_iff_forall_ne_some.2 fun content h => ?_
    obtain ⟨es, hreaches, -⟩ := (harchive hroot _ _).1 h
    exact hleave _ (by decide +kernel) es hreaches
  · exact (hfolder hproper _ _ hplace _ _).2 ⟨[utf8 "lib", utf8 "a.asm"],
      ⟨by decide +kernel, by decide +kernel, by decide +kernel⟩, by decide +kernel,
        by decide +kernel⟩
  · refine Option.eq_none_iff_forall_ne_some.2 fun content h => ?_
    obtain ⟨es, hreaches, -⟩ := (hfolder hproper _ _ hplace _ _).1 h
    exact hleave _ (by decide +kernel) es hreaches

end Octet
