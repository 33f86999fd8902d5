import HypervisorTrace.Text
import Mathlib.Data.List.TakeWhile
import Mathlib.Tactic

/-!
Characters without the blanks around them. What trimming leaves is what stands
between blanks, and neither begins nor ends with one.
-/

namespace HypervisorTrace.Text

/-- Whether some characters are others without the blanks around them. -/
structure Strips (chars body : List Char) : Prop where
  around : ∃ front back, chars = front ++ body ++ back ∧ (∀ char ∈ front, isBlank char) ∧
    ∀ char ∈ back, isBlank char
  first : ∀ char ∈ body.head?, isBlank char = false
  last : ∀ char ∈ body.getLast?, isBlank char = false

variable {chars body : List Char}

theorem dropWhile_isBlank (hfirst : ∀ char ∈ chars.head?, isBlank char = false) :
    chars.dropWhile isBlank = chars := by
  cases chars with
  | nil => rfl
  | cons char rest =>
      apply List.dropWhile_cons_of_neg
      simp [hfirst char rfl]

theorem trimEnd_append {back : List Char} (hback : ∀ char ∈ back, isBlank char) :
    trimEnd (body ++ back) = trimEnd body := by
  simp only [trimEnd, List.reverse_append]
  rw [List.dropWhile_append_of_pos]
  intro char hchar
  exact hback char (List.mem_reverse.mp hchar)

theorem trimEnd_of_last (hlast : ∀ char ∈ body.getLast?, isBlank char = false) :
    trimEnd body = body := by
  rw [trimEnd, dropWhile_isBlank (by simpa using hlast), List.reverse_reverse]

/-- What follows the characters that trimming leaves is blank. -/
theorem exists_trimEnd (chars : List Char) :
    ∃ back, chars = trimEnd chars ++ back ∧ ∀ char ∈ back, isBlank char := by
  refine ⟨(chars.reverse.takeWhile isBlank).reverse, ?_, ?_⟩
  · rw [trimEnd, ← List.reverse_append, List.takeWhile_append_dropWhile, List.reverse_reverse]
  · intro char hchar
    exact List.mem_takeWhile_imp (List.mem_reverse.mp hchar)

theorem Strips.trim_eq (hstrips : Strips chars body) : trim chars = body := by
  obtain ⟨⟨front, back, rfl, hfront, hback⟩, hfirst, hlast⟩ := hstrips
  rw [trim, List.append_assoc, List.dropWhile_append_of_pos hfront]
  cases body with
  | nil => simp [List.dropWhile_eq_nil_iff.mpr hback, trimEnd]
  | cons char rest =>
      rw [dropWhile_isBlank (by simpa using hfirst), trimEnd_append hback, trimEnd_of_last hlast]

theorem strips_trim (chars : List Char) : Strips chars (trim chars) := by
  obtain ⟨back, hback, hblank⟩ := exists_trimEnd (chars.dropWhile isBlank)
  constructor
  case around =>
    refine ⟨chars.takeWhile isBlank, back, ?_, fun char hchar => List.mem_takeWhile_imp hchar,
      hblank⟩
    rw [trim, List.append_assoc, ← hback, List.takeWhile_append_dropWhile]
  case first =>
    intro char hchar
    have hhead : char ∈ (chars.dropWhile isBlank).head? := by
      rw [hback]
      exact List.mem_head?_append_of_mem_head? hchar
    have hnot := List.head?_dropWhile_not isBlank chars
    rw [Option.mem_def.mp hhead] at hnot
    exact hnot
  case last =>
    intro char hchar
    have hnot := List.head?_dropWhile_not isBlank (chars.dropWhile isBlank).reverse
    rw [trim, trimEnd, List.getLast?_reverse] at hchar
    rw [Option.mem_def.mp hchar] at hnot
    exact hnot

/-- Trimming leaves the first character that is not blank where it was. -/
theorem head?_trim (chars : List Char) :
    (trim chars).head? = (chars.dropWhile isBlank).head? := by
  obtain ⟨back, hback, hblank⟩ := exists_trimEnd (chars.dropWhile isBlank)
  rw [trim]
  cases htrimmed : trimEnd (chars.dropWhile isBlank) with
  | cons first rest =>
      rw [htrimmed] at hback
      rw [hback]
      rfl
  | nil =>
      rw [htrimmed, List.nil_append] at hback
      cases hdropped : chars.dropWhile isBlank with
      | nil => rfl
      | cons first rest =>
          -- All that is left is blank, yet its first character is not.
          have hnot := List.head?_dropWhile_not isBlank chars
          rw [hdropped] at hnot hback
          rw [← hback] at hblank
          exact absurd (hblank first List.mem_cons_self) (Bool.eq_false_iff.mp hnot)

end HypervisorTrace.Text
