import HypervisorTrace.Store.Path
import Mathlib.Tactic

/-!
Paths and their pieces. A path is its pieces with slashes between them, and no
piece holds a slash, so some first pieces of a path, joined again, are a path
with these pieces. That is how a path without its last part is written.
-/

namespace HypervisorTrace.Path

theorem notMem_of_mem_splitOn {separator : Char} {chars piece : List Char}
    (hpiece : piece ∈ chars.splitOn separator) : separator ∉ piece := by
  induction chars generalizing piece with
  | nil =>
      rw [List.splitOn_nil, List.mem_singleton] at hpiece
      rw [hpiece]
      exact List.not_mem_nil
  | cons char rest ih =>
      rw [List.splitOn_cons_eq_if_modifyHead] at hpiece
      split at hpiece
      · rcases List.mem_cons.mp hpiece with rfl | hrest
        · exact List.not_mem_nil
        · exact ih hrest
      · rename_i hchar
        obtain ⟨first, others, hsplit⟩ :=
          List.exists_cons_of_ne_nil (List.splitOn_ne_nil separator rest)
        rw [hsplit, List.modifyHead_cons] at hpiece
        rw [hsplit] at ih
        rcases List.mem_cons.mp hpiece with rfl | hrest
        · rw [List.mem_cons, not_or]
          exact ⟨fun hequal => hchar (beq_iff_eq.mpr hequal.symm), ih List.mem_cons_self⟩
        · exact ih (List.mem_cons_of_mem _ hrest)

theorem slash_notMem_of_mem_pieces {path piece : String} (hpiece : piece ∈ pieces path) :
    '/' ∉ piece.toList := by
  obtain ⟨chars, hchars, rfl⟩ := List.mem_map.mp hpiece
  rw [String.toList_ofList]
  exact notMem_of_mem_splitOn hchars

theorem toList_intercalate (names : List String) :
    ("/".intercalate names).toList = ['/'].intercalate (names.map String.toList) :=
  String.toList_intercalate

theorem intercalate_pieces (path : String) : "/".intercalate (pieces path) = path := by
  rw [← String.toList_inj, toList_intercalate, pieces, List.map_map]
  have hchars : (path.toList.splitOn '/').map (String.toList ∘ String.ofList) =
      path.toList.splitOn '/' :=
    (List.map_congr_left fun _ _ => String.toList_ofList).trans (List.map_id _)
  rw [hchars, List.intercalate_splitOn]

theorem pieces_intercalate {names : List String} (hslash : ∀ name ∈ names, '/' ∉ name.toList)
    (hsome : names ≠ []) : pieces ("/".intercalate names) = names := by
  rw [pieces, toList_intercalate, List.splitOn_intercalate, List.map_map]
  · exact (List.map_congr_left fun _ _ => String.ofList_toList).trans (List.map_id _)
  · intro chars hchars
    obtain ⟨name, hname, rfl⟩ := List.mem_map.mp hchars
    exact hslash name hname
  · rwa [Ne, List.map_eq_nil_iff]

theorem map_fst_parts (path : String) : (parts path).map (·.1) = pieces path := by
  rw [parts, List.map_map]
  exact List.zipIdx_map_fst 0 (pieces path)

/-- A part is not the empty name. -/
theorem ne_empty_of_mem_parts {path piece : String} (hpart : (piece, true) ∈ parts path) :
    piece ≠ "" := by
  obtain ⟨⟨other, index⟩, -, hequal⟩ := List.mem_map.mp hpart
  rw [Prod.mk.injEq] at hequal
  obtain ⟨rfl, hname⟩ := hequal
  rw [Bool.and_eq_true, decide_eq_true_eq] at hname
  exact hname.1

/-- If the end of a list is cut off up to the last of its parts, what is left is
that part and what stands before it, read backwards. -/
theorem exists_of_dropWhile_reverse {marked rest : List (String × Bool)} {last : String × Bool}
    (hdrop : marked.reverse.dropWhile (fun part => !part.2) = last :: rest) :
    last.2 = true ∧ ∃ ending, marked = rest.reverse ++ last :: ending := by
  have hsome := hdrop ▸ List.cons_ne_nil last rest
  constructor
  · have hhead := List.head_dropWhile_not (fun part : String × Bool => !part.2) hsome
    simpa only [hdrop, List.head_cons, Bool.not_eq_false'] using hhead
  · refine ⟨(marked.reverse.takeWhile fun part => !part.2).reverse, ?_⟩
    calc
      marked = (marked.reverse.takeWhile (fun part => !part.2) ++ last :: rest).reverse := by
        rw [← hdrop, List.takeWhile_append_dropWhile, List.reverse_reverse]
      _ = _ := by
        rw [List.reverse_append, List.reverse_cons, List.append_assoc, List.singleton_append]

/-- What a path lies in: some of its first pieces, with a name among the others.
If there are first pieces, the last of them is a name, and they are joined
again; if there are none, the path lies in the root or in the empty path. -/
theorem exists_pieces_of_parent? {path parent : String} (hparent : parent? path = some parent) :
    ∃ kept others, pieces path = kept ++ others ∧ (∃ name ∈ others, name ≠ "") ∧
      (kept = [] ∧ parent = (if isAbsolute path then "/" else "") ∨
        (∃ front name, kept = front ++ [name] ∧ name ≠ "") ∧ parent = "/".intercalate kept) := by
  have hpieces := map_fst_parts path
  unfold parent? at hparent
  split at hparent
  · cases hparent
  · rename_i last rest hlast
    obtain ⟨hname, ending, hparts⟩ := exists_of_dropWhile_reverse hlast
    have hlastName : last.1 ≠ "" := by
      apply @ne_empty_of_mem_parts path
      rw [hparts, ← hname]
      simp
    cases hdrop : rest.dropWhile fun part => !part.2 with
    | nil =>
        rw [hdrop] at hparent
        refine ⟨[], pieces path, rfl, ⟨last.1, ?_, hlastName⟩, Or.inl ⟨rfl, ?_⟩⟩
        · rw [← hpieces, hparts]
          simp
        · exact (Option.some.inj hparent).symm
    | cons name front =>
        have hdrop' := hdrop
        rw [← List.reverse_reverse rest] at hdrop'
        obtain ⟨hkept, skipped, hrest⟩ := exists_of_dropWhile_reverse hdrop'
        rw [hrest] at hparts
        have hkeptName : name.1 ≠ "" := by
          apply @ne_empty_of_mem_parts path
          rw [hparts, ← hkept]
          simp
        refine ⟨front.reverse.map (·.1) ++ [name.1], (skipped ++ last :: ending).map (·.1), ?_,
          ⟨last.1, by simp, hlastName⟩, Or.inr ⟨⟨_, _, rfl, hkeptName⟩, ?_⟩⟩
        · rw [← hpieces, hparts]
          simp
        · rw [hdrop] at hparent
          simpa using hparent.symm

theorem fault?_eq_none_iff (path : String) :
    fault? path = none ↔ '\x00' ∉ path.toList ∧ path ≠ "" ∧ path.utf8ByteSize ≤ maxLength := by
  simp only [fault?, List.contains_iff_mem]
  split_ifs with hnull hempty hlong
  · exact iff_of_false nofun fun hsound => hsound.1 hnull
  · exact iff_of_false nofun fun hsound => hsound.2.1 hempty
  · exact iff_of_false nofun fun hsound => Nat.not_lt.mpr hsound.2.2 hlong
  · exact iff_of_true rfl ⟨hnull, hempty, Nat.not_lt.mp hlong⟩

/-- Nothing is wrong with the front of a path that nothing is wrong with. -/
theorem fault?_of_append {front back : String} (hfault : fault? (front ++ back) = none)
    (hsome : front ≠ "") : fault? front = none := by
  rw [fault?_eq_none_iff, String.toList_append, String.utf8ByteSize_append] at hfault
  rw [fault?_eq_none_iff]
  obtain ⟨hnull, -, hlength⟩ := hfault
  refine ⟨fun hmem => hnull (List.mem_append_left _ hmem), hsome, ?_⟩
  omega

/-- The first pieces of a path start where the path starts, if they end in a
name and are not all of it. -/
theorem isAbsolute_of_pieces {path parent name : String} {front others : List String}
    (hpath : pieces path = (front ++ [name]) ++ others) (hparent : pieces parent = front ++ [name])
    (hname : name ≠ "") (hothers : others ≠ []) : isAbsolute parent = isAbsolute path := by
  have hlength := List.length_pos_iff.mpr hothers
  unfold isAbsolute
  rw [hpath, hparent]
  cases front with
  | nil => simp [hname]
  | cons first rest => simp [hothers]

/-- What a path lies in has the first of its names and starts where it starts,
and there is nothing wrong with it unless there is with the path. -/
theorem names_of_parent? {path parent : String} (hparent : parent? path = some parent)
    (hsome : parent ≠ "") (hfault : fault? path = none) :
    fault? parent = none ∧ isAbsolute parent = isAbsolute path ∧
      ∃ name others, names path = names parent ++ name :: others := by
  obtain ⟨kept, others, hpieces, ⟨name, hmem, hname⟩, hkept⟩ := exists_pieces_of_parent? hparent
  obtain ⟨first, rest, hnames⟩ : ∃ first rest, others.filter (· ≠ "") = first :: rest := by
    apply List.exists_cons_of_ne_nil
    exact List.ne_nil_of_mem (List.mem_filter.mpr ⟨hmem, by simpa using hname⟩)
  have hsplit : names path = kept.filter (· ≠ "") ++ first :: rest := by
    rw [names, hpieces, List.filter_append, hnames]
  rcases hkept with ⟨rfl, rfl⟩ | ⟨⟨front, last, rfl, hlast⟩, rfl⟩
  · by_cases habsolute : isAbsolute path
    · rw [if_pos habsolute, habsolute]
      exact ⟨by decide, by decide, first, rest, hsplit⟩
    · rw [if_neg habsolute] at hsome
      exact absurd rfl hsome
  · have hothers : others ≠ [] := List.ne_nil_of_mem hmem
    have hparentPieces : pieces ("/".intercalate (front ++ [last])) = front ++ [last] := by
      apply pieces_intercalate
      · intro piece hpiece
        apply @slash_notMem_of_mem_pieces path
        rw [hpieces]
        exact List.mem_append_left _ hpiece
      · exact List.append_ne_nil_of_right_ne_nil _ (List.cons_ne_nil _ _)
    refine ⟨?_, isAbsolute_of_pieces hpieces hparentPieces hlast hothers, first, rest, ?_⟩
    · apply @fault?_of_append _ ("/" ++ "/".intercalate others) _ hsome
      rw [← String.append_assoc, ← String.intercalate_append_of_ne_nil _ hothers, ← hpieces,
        intercalate_pieces]
      · exact hfault
      · exact List.append_ne_nil_of_right_ne_nil _ (List.cons_ne_nil _ _)
    · rw [hsplit, names, hparentPieces]

end HypervisorTrace.Path
