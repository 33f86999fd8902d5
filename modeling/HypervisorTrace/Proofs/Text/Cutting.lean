import Mathlib.Tactic

/-!
Cutting a text at separators. A text is cut at the first place where a
separator stands, and that place is found from what is before it alone if no
part of the separator can begin there. Lines that hold no newline, each ended
by one, are read off their text.
-/

namespace HypervisorTrace.Text

/-- The text before a separator and the text after it, where the separator
stands for the first time. -/
structure FirstCut (separator text before after : String) : Prop where
  joined : text = before ++ separator ++ after
  first : ∀ front back, text = front ++ separator ++ back → before.length ≤ front.length

section Cuts

variable {separator text before after before' after' : String}

/-- There is one first place. -/
theorem FirstCut.unique (hcut : FirstCut separator text before after)
    (hcut' : FirstCut separator text before' after') : before' = before ∧ after' = after := by
  have hlength : before'.length = before.length :=
    Nat.le_antisymm (hcut'.first _ _ hcut.joined) (hcut.first _ _ hcut'.joined)
  have hlists : before'.toList ++ (separator.toList ++ after'.toList) =
      before.toList ++ (separator.toList ++ after.toList) := by
    simpa only [String.toList_append, List.append_assoc] using
      congrArg String.toList (hcut'.joined.symm.trans hcut.joined)
  obtain ⟨hbefore, hrest⟩ := List.append_inj hlists (by
    rwa [String.length_toList, String.length_toList])
  exact ⟨String.toList_inj.mp hbefore, String.toList_inj.mp (List.append_cancel_left hrest)⟩

/-- A separator stands first after a text if it begins at no character of that
text, not even where it would reach beyond it. -/
theorem firstCut_of_not_begins
    (hbegins : ∀ front rest, before.toList = front ++ rest → rest ≠ [] →
      ¬ separator.toList <+: rest ++ separator.toList ++ after.toList) :
    FirstCut separator (before ++ separator ++ after) before after := by
  refine ⟨rfl, fun front back hjoined => ?_⟩
  by_contra hshort
  have hlists : front.toList ++ (separator.toList ++ back.toList) =
      before.toList ++ (separator.toList ++ after.toList) := by
    simpa only [String.toList_append, List.append_assoc] using
      congrArg String.toList hjoined.symm
  rcases List.append_eq_append_iff.mp hlists with ⟨rest, hbefore, hrest⟩ | ⟨rest, hfront, -⟩
  · have hsome : rest ≠ [] := by
      rintro rfl
      apply hshort
      rw [← String.length_toList, ← String.length_toList, hbefore, List.append_nil]
    apply hbegins front.toList rest hbefore hsome
    rw [List.append_assoc, ← hrest]
    exact List.prefix_append _ _
  · apply hshort
    rw [← String.length_toList, ← String.length_toList, hfront, List.length_append]
    exact Nat.le_add_right _ _

/-- A separator stands first after a text that does not hold the character it
begins with. -/
theorem firstCut_of_head {first : Char} {others : List Char}
    (hseparator : separator.toList = first :: others) (hfirst : first ∉ before.toList) :
    FirstCut separator (before ++ separator ++ after) before after := by
  apply firstCut_of_not_begins
  rintro front (_ | ⟨char, rest⟩) hbefore hsome hprefix
  · exact hsome rfl
  · rw [hseparator, List.cons_append, List.cons_append, List.cons_prefix_cons] at hprefix
    apply hfirst
    rw [hbefore, hprefix.1]
    exact List.mem_append_right _ List.mem_cons_self

/-- A separator stands first after a text that does not hold its second
character, if that is not the first one too. -/
theorem firstCut_of_second {first second : Char} {others : List Char}
    (hseparator : separator.toList = first :: second :: others) (hdistinct : second ≠ first)
    (hsecond : second ∉ before.toList) :
    FirstCut separator (before ++ separator ++ after) before after := by
  apply firstCut_of_not_begins
  rintro front (_ | ⟨char, _ | ⟨next, rest⟩⟩) hbefore hsome hprefix
  · exact hsome rfl
  · -- The second character would have to be where the separator itself begins.
    rw [hseparator, List.cons_append, List.cons_append, List.cons_prefix_cons, List.nil_append,
      List.cons_append, List.cons_prefix_cons] at hprefix
    exact hdistinct hprefix.2.1
  · rw [hseparator, List.cons_append, List.cons_append, List.cons_prefix_cons, List.cons_append,
      List.cons_append, List.cons_prefix_cons] at hprefix
    apply hsecond
    rw [hbefore, hprefix.2.1]
    exact List.mem_append_right _ (List.mem_cons_of_mem _ List.mem_cons_self)

end Cuts

section Lines

variable {lines : List (List Char)}

/-- Lines, each ended by a newline. -/
def ofLines (lines : List (List Char)) : List Char :=
  lines.flatMap (· ++ ['\n'])

theorem ofLines_append (first second : List (List Char)) :
    ofLines (first ++ second) = ofLines first ++ ofLines second :=
  List.flatMap_append

/-- A text of lines is the lines and an empty rest, with newlines between
them. -/
theorem ofLines_eq_intercalate (lines : List (List Char)) :
    ofLines lines = ['\n'].intercalate (lines ++ [[]]) := by
  induction lines with
  | nil => rfl
  | cons line rest ih =>
      have hsome : rest ++ [[]] ≠ [] := by simp
      obtain ⟨next, others, hnext⟩ := List.exists_cons_of_ne_nil hsome
      rw [ofLines, List.flatMap_cons, ← ofLines, ih, List.cons_append, hnext,
        List.intercalate_cons_cons, List.append_assoc]

/-- Lines without newlines are read off their text. -/
theorem splitOn_ofLines (hlines : ∀ line ∈ lines, '\n' ∉ line) :
    (ofLines lines).splitOn '\n' = lines ++ [[]] := by
  rw [ofLines_eq_intercalate, List.splitOn_intercalate]
  · intro line hline
    rcases List.mem_append.mp hline with hline | hline
    · exact hlines line hline
    · rw [List.mem_singleton.mp hline]
      exact List.not_mem_nil
  · simp

theorem count_newline_ofLines (hlines : ∀ line ∈ lines, '\n' ∉ line) :
    (ofLines lines).count '\n' = lines.length := by
  induction lines with
  | nil => rfl
  | cons line rest ih =>
      have hline := List.count_eq_zero_of_not_mem (hlines line List.mem_cons_self)
      have hrest := ih fun other hother => hlines other (List.mem_cons_of_mem line hother)
      rw [ofLines, List.flatMap_cons, ← ofLines, List.count_append, List.count_append, hline, hrest,
        List.length_cons, List.count_singleton_self]
      omega

end Lines

end HypervisorTrace.Text
