import Octet.Library.FileTree
import Octet.Proofs.Outcome
import Octet.Proofs.Tables

/-!
# Files read back what was written

A path is followed through folders only, and a file is never written over a folder. So the folders
on the way to a file are still folders after it was written, and the same path leads to the same
place.

* `FileTree.entryAt_insertAt` — folders stay folders;
* `FileTree.walk_insertAt` — paths lead where they led before;
* `FileTree.read_of_write` — **a file that was written is read back**.
-/

namespace Octet

namespace FileTree

variable {t : FileTree} {place : List Text} {content : Text}

/-- The tree with a file at a place. -/
def insertAt (t : FileTree) (place : List Text) (content : Text) : FileTree :=
  { t with files := t.files.insert (Path.join place) content }

theorem files_insertAt :
    (t.insertAt place content).files = t.files.insert (Path.join place) content :=
  rfl

theorem hasBelow_insertAt {path : Text} (h : t.hasBelow path = true) :
    (t.insertAt place content).hasBelow path = true := by
  rw [hasBelow, Bool.or_eq_true] at h ⊢
  refine h.imp_left fun hfiles => ?_
  obtain ⟨f, hf, hbelow⟩ := List.any_eq_true.1 hfiles
  have hname : f.1 ∈ (t.insertAt place content).files.map Prod.fst :=
    Table.mem_fst_insert content (List.mem_map_of_mem hf)
  obtain ⟨g, hg, heq⟩ := List.mem_map.1 hname
  exact List.any_eq_true.2 ⟨g, hg, by rwa [heq]⟩

/-- A file has no folder's path, so folders stay folders. -/
theorem entryAt_insertAt (hplace : t.entryAt place ≠ .folder) {other : List Text}
    (h : t.entryAt other = .folder) :
    (t.insertAt place content).entryAt other = .folder := by
  unfold entryAt at h hplace ⊢
  split
  · rfl
  · rename_i hother
    rw [if_neg hother] at h
    split at hplace
    · exact absurd rfl hplace
    · have hne : Path.join other ≠ Path.join place := by
        intro heq
        rw [heq] at h
        exact hplace h
      unfold entry at h ⊢
      rw [files_insertAt, Table.find?_insert_ne hne]
      split at h
      · cases h
      · split at h
        · rename_i hfolder
          refine if_pos ?_
          rw [Bool.or_eq_true] at hfolder ⊢
          exact hfolder.imp_right hasBelow_insertAt
        · cases h

theorem follow_insertAt (hplace : t.entryAt place ≠ .folder) {current next : List Text} {e : Text}
    (h : t.follow current e = .ok next) :
    (t.insertAt place content).follow current e = .ok next := by
  unfold follow at h ⊢
  split at h
  · cases h
  · cases h
  · rename_i hfolder
    rw [entryAt_insertAt hplace hfolder]
    exact h

/-- Paths lead where they led before. -/
theorem walk_insertAt (hplace : t.entryAt place ≠ .folder) {path : Text} {es next : List Text}
    (h : t.walk path es = .ok next) : (t.insertAt place content).walk path es = .ok next := by
  unfold walk at h ⊢
  show es.foldlM _ (if Path.isAbsolute path then [] else t.start) = _
  generalize (if Path.isAbsolute path then [] else t.start) = start at h
  induction es generalizing start with
  | nil => exact h
  | cons e es ih =>
    rw [List.foldlM_cons] at h ⊢
    obtain ⟨middle, hmiddle, hrest⟩ := Except.bind_eq_ok.1 h
    exact Except.bind_eq_ok.2 ⟨middle, follow_insertAt hplace hmiddle, ih middle hrest⟩

theorem entryAt_insertAt_self (hplace : t.entryAt place ≠ .folder) :
    (t.insertAt place content).entryAt place = .file content := by
  unfold entryAt at hplace ⊢
  split
  · rename_i hempty
    rw [if_pos hempty] at hplace
    exact absurd rfl hplace
  · unfold entry
    rw [files_insertAt, Table.find?_insert_self]

/-- A file is written to a place that its path leads to, and that is no folder. -/
theorem write_eq_ok {path : Text} {t' : FileTree} (h : t.write path content = .ok t') :
    ∃ place, t.locate path = .ok place ∧ t.entryAt place ≠ .folder ∧
      t' = t.insertAt place content := by
  unfold write at h
  simp only at h
  split at h
  · cases h
  · rename_i place hdestination
    obtain ⟨es, hes, hwalk⟩ := Except.bind_eq_ok.1 hdestination
    split at hwalk
    · obtain ⟨_, -, hwalk⟩ := Except.bind_eq_ok.1 hwalk
      cases hwalk
    · split at h
      · cases h
      · rename_i hentry
        cases h
        exact ⟨place, Except.bind_eq_ok.2 ⟨es, hes, hwalk⟩, hentry, rfl⟩

/-- **A file that was written is read back.** -/
theorem read_of_write {path : Text} {t' : FileTree} (h : t.write path content = .ok t') :
    t'.read path = .ok content := by
  obtain ⟨place, hlocate, hplace, rfl⟩ := write_eq_ok h
  obtain ⟨es, hes, hwalk⟩ := Except.bind_eq_ok.1 hlocate
  have hlocate' : (t.insertAt place content).locate path = .ok place :=
    Except.bind_eq_ok.2 ⟨es, hes, walk_insertAt hplace hwalk⟩
  simp only [read, readAs, hlocate', entryAt_insertAt_self hplace]

end FileTree

end Octet
