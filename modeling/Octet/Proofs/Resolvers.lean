import Octet.Library.Standard
import Octet.Proofs.Outcome

/-!
# The empty path

The empty path stands for the root source, so a resolver had better not know it. The resolver of
folders and the standard library does not: in a folder the empty path names the folder itself.

* `FileTree.readAs_here` — a folder is not read as a file;
* `Resolver.folders_find_nil` — **folders with the standard library do not know the empty path**.
-/

namespace Octet

namespace Text

variable (sep : UInt8)

theorem splitAt_ne_nil (x : Text) : splitAt sep x ≠ [] := by
  cases x with
  | nil => simp [splitAt]
  | cons b x =>
    rw [splitAt]
    split
    · simp
    · split <;> simp

/-- The pieces of two texts with the separator between them are the pieces of both. -/
theorem splitAt_append (x y : Text) :
    splitAt sep (x ++ sep :: y) = splitAt sep x ++ splitAt sep y := by
  induction x with
  | nil => simp [splitAt]
  | cons b x ih =>
    rw [List.cons_append, splitAt, splitAt, ih]
    split
    · rfl
    · obtain ⟨piece, pieces, hx⟩ := List.exists_cons_of_ne_nil (splitAt_ne_nil sep x)
      rw [hx]
      rfl

end Text

namespace FileTree

variable {t : FileTree}

/-- From a place one can stay only if it is a folder. -/
theorem follow_here {place place' : List Text} (h : t.follow place Path.here = .ok place') :
    t.entryAt place' = .folder := by
  unfold follow at h
  split at h
  · cases h
  · cases h
  · rename_i hfolder
    have hhere : (Path.here.isEmpty || Path.here == Path.here) = true := by decide
    rw [if_pos hhere] at h
    cases h
    exact hfolder

theorem walk_here {path : Text} {es place : List Text}
    (h : t.walk path (es ++ [Path.here]) = .ok place) :
    t.entryAt place = .folder := by
  unfold walk at h
  rw [List.foldlM_append] at h
  obtain ⟨before, -, h⟩ := Except.bind_eq_ok.1 h
  obtain ⟨last, hlast, h⟩ := Except.bind_eq_ok.1 h
  cases h
  exact follow_here hlast

/-- **A folder is not read as a file**, under the path that stays there. -/
theorem readAs_here (x told : Text) :
    (t.readAs (x ++ Path.slash :: Path.here) told).toOption = none := by
  have helements : Path.elements (x ++ Path.slash :: Path.here) = Path.elements x ++ [Path.here] :=
    Text.splitAt_append Path.slash x Path.here
  unfold readAs
  cases hlocate : t.locate (x ++ Path.slash :: Path.here) with
  | error e => rfl
  | ok place =>
    obtain ⟨es, hes, hwalk⟩ := Except.bind_eq_ok.1 hlocate
    have hes' : es = Path.elements x ++ [Path.here] := by
      unfold elementsOf at hes
      rw [helements] at hes
      split at hes
      · cases hes
      · split at hes
        · cases hes
        · split at hes
          · cases hes
          · exact (Except.ok.inj hes).symm
    rw [hes'] at hwalk
    simp only [walk_here hwalk]
    rfl

theorem readUnder_here (folder : Text) : (t.readUnder folder Path.here).toOption = none := by
  unfold readUnder
  split
  · rfl
  · split
    · rfl
    · simp only
      split
      · rename_i hlast
        obtain ⟨x, hx⟩ := List.getLast?_eq_some_iff.1 hlast
        have hpath : folder ++ [] ++ Path.here = x ++ Path.slash :: Path.here := by simp [hx]
        rw [hpath]
        exact readAs_here x Path.here
      · rw [List.append_assoc]
        exact readAs_here folder Path.here

end FileTree

namespace Resolver

theorem folder_find_nil (verbose : Bool) (t : FileTree) (path : Text) :
    (folder verbose t path).find [] = Option.none := by
  have hclean : Path.clean [] = Path.here := by decide
  have hlocal : Path.isLocal Path.here = true := by decide +kernel
  show (if Path.isLocal (Path.clean []) then
      (t.readUnder path (Path.clean [])).toOption else Option.none) = Option.none
  rw [hclean, if_pos hlocal]
  exact FileTree.readUnder_here path

/-- **Folders with the standard library do not know the empty path.** -/
theorem folders_find_nil (verbose : Bool) (fs : List (FileTree × Text)) :
    (folders verbose fs).find [] = Option.none := by
  unfold folders chain
  induction fs with
  | nil =>
    have hstandard : standard.find [] = Option.none := by decide +kernel
    show (standard.find []).or Option.none = Option.none
    rw [hstandard]
    rfl
  | cons f fs ih =>
    show ((folder verbose f.1 f.2).find []).or _ = Option.none
    rw [folder_find_nil, Option.none_or]
    exact ih

end Resolver

end Octet
