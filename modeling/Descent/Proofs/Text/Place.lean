import Descent.ParseError
import Mathlib.Algebra.GroupWithZero.Nat
import Mathlib.Data.List.DropRight
import Mathlib.Order.Monotone.Basic

/-!
# Lines and columns

A text is cut at an offset into the whole lines before, a part of one more line, and the rest. The
line and the column of a place count these pieces. Main statements: they lead back to the offset by
the lines of the text, and so the order of reading is the order of offsets.
-/

namespace Descent.Text

variable {text own after rest : Text} {offset : Nat}

/-- The lines before an offset, up to the last line feed. -/
def linesBefore (text : Text) (offset : Nat) : Text :=
  (text.take offset).rdropWhile (· != '\n')

/-- A text is empty or ends in a line feed. -/
def Whole (text : Text) : Prop := ∀ c ∈ text.getLast?, c = '\n'

/-- A text up to an offset and after it: the lines before, a part of one more line, and the rest. -/
structure Cut (text : Text) (offset : Nat) (own after : Text) : Prop where
  text_eq : text = text.linesBefore offset ++ (own ++ after)
  length_eq : (text.linesBefore offset).length + own.length = offset
  unbroken : '\n' ∉ own

theorem whole_linesBefore (text : Text) (offset : Nat) : Whole (text.linesBefore offset) := by
  intro c ends
  obtain ⟨some, last⟩ := List.mem_getLast?_eq_getLast ends
  have stops := List.rdropWhile_last_not (· != '\n') (text.take offset) some
  rw [last]
  simpa [linesBefore] using stops

theorem exists_cut (inside : offset ≤ text.length) : ∃ own after, Cut text offset own after := by
  let taken := text.take offset
  have pieces : text.linesBefore offset ++ taken.rtakeWhile (· != '\n') = taken :=
    List.rdropWhile_append_rtakeWhile
  refine ⟨taken.rtakeWhile (· != '\n'), text.drop offset, ?_, ?_, ?_⟩
  · rw [← List.append_assoc, pieces, List.take_append_drop]
  · have lengths := congrArg List.length pieces
    simpa [taken, inside] using lengths
  · intro member
    have passes := List.mem_rtakeWhile_imp member
    simp at passes

theorem Cut.take_eq (cut : Cut text offset own after) :
    text.take offset = text.linesBefore offset ++ own := by
  conv_lhs => rw [cut.text_eq, ← List.append_assoc]
  apply List.take_left'
  rw [List.length_append, cut.length_eq]

theorem Cut.passes (cut : Cut text offset own after) : ∀ c ∈ own, (c != '\n') = true := by
  intro c member
  have other : c ≠ '\n' := fun same => cut.unbroken (same ▸ member)
  simpa using other

theorem Cut.placeAt (cut : Cut text offset own after) :
    text.placeAt offset
      = ⟨offset, (text.linesBefore offset).count '\n' + 1, own.length + 1⟩ := by
  have passes : ∀ c ∈ own.reverse, (c != '\n') = true :=
    fun c member => cut.passes c (List.mem_reverse.mp member)
  have nothing : (text.linesBefore offset).reverse.takeWhile (· != '\n') = [] := by
    have ends := whole_linesBefore text offset
    cases shape : (text.linesBefore offset).reverse with
    | nil => rfl
    | cons c others =>
      have last : c = '\n' := ends c (by rw [← List.head?_reverse, shape]; rfl)
      simp [last]
  have column : (text.take offset).reverse.takeWhile (· != '\n') = own.reverse := by
    rw [cut.take_eq, List.reverse_append, List.takeWhile_append_of_pos passes, nothing,
      List.append_nil]
  have line : (text.take offset).count '\n' = (text.linesBefore offset).count '\n' := by
    rw [cut.take_eq, List.count_append, List.count_eq_zero.mpr cut.unbroken, Nat.add_zero]
  unfold Text.placeAt
  simp only [column, line, List.length_reverse]

/-! ## Lines -/

theorem length_splitOn (text : Text) :
    (text.splitOn '\n').length = text.count '\n' + 1 := by
  induction text with
  | nil => simp
  | cons c text ih =>
    rw [List.splitOn_cons_eq_if_modifyHead]
    by_cases feed : c = '\n' <;> simp [feed, ih]

theorem sum_length_splitOn (text : Text) :
    ((text.splitOn '\n').map List.length).sum + text.count '\n' = text.length := by
  induction text with
  | nil => simp
  | cons c text ih =>
    rw [List.splitOn_cons_eq_if_modifyHead]
    by_cases feed : c = '\n'
    · simp [feed]
      omega
    · obtain ⟨line, lines, shape⟩ := List.exists_cons_of_ne_nil (List.splitOn_ne_nil '\n' text)
      simp only [shape, List.map_cons, List.sum_cons] at ih
      simp [feed, shape]
      omega

theorem exists_splitOn (text : Text) :
    ∃ lines, text.splitOn '\n' = text.takeWhile (· != '\n') :: lines := by
  induction text with
  | nil => exact ⟨[], by simp⟩
  | cons c text ih =>
    obtain ⟨lines, shape⟩ := ih
    rw [List.splitOn_cons_eq_if_modifyHead, shape]
    by_cases feed : c = '\n' <;> simp [feed]

theorem Whole.exists_splitOn_append {before : Text} (whole : Whole before) (rest : Text) :
    ∃ lines : List Text, (before ++ rest).splitOn '\n' = lines ++ rest.splitOn '\n' ∧
      lines.length = before.count '\n' ∧
      (lines.map List.length).sum + lines.length = before.length := by
  cases shape : before.getLast? with
  | none =>
    have empty := List.getLast?_eq_none_iff.mp shape
    exact ⟨[], by simp [empty]⟩
  | some c =>
    obtain ⟨first, rfl⟩ := List.getLast?_eq_some_iff.mp shape
    have feed := whole c shape
    subst feed
    have count := length_splitOn first
    have sum := sum_length_splitOn first
    refine ⟨first.splitOn '\n', ?_, ?_, ?_⟩
    · rw [List.append_assoc]
      exact List.splitOn_append_cons_self first rest
    · simpa using count
    · simp only [List.length_append, List.length_singleton]
      omega

/-! ## Places -/

/-- The length of the first lines of a text, each with its line feed. -/
def lengthOfLines (text : Text) (lines : Nat) : Nat :=
  (((text.splitOn '\n').take lines).map List.length).sum + lines

theorem lengthOfLines_succ (text : Text) (lines : Nat) :
    text.lengthOfLines (lines + 1) = text.lengthOfLines lines
      + (((text.splitOn '\n')[lines]?.map List.length).getD 0 + 1) := by
  unfold lengthOfLines
  rw [List.take_add_one]
  cases (text.splitOn '\n')[lines]? <;> simp <;> omega

theorem lengthOfLines_mono (text : Text) : Monotone text.lengthOfLines := by
  apply monotone_nat_of_le_succ
  intro lines
  rw [lengthOfLines_succ]
  omega

/-- A line and a column lead to an offset: all lines before are passed, and a part of that line. -/
structure Place.Locates (place : Place) (text : Text) : Prop where
  line_pos : 1 ≤ place.line
  line_le : place.line ≤ (text.splitOn '\n').length
  column_pos : 1 ≤ place.column
  column_le : ∃ line, (text.splitOn '\n')[place.line - 1]? = some line ∧
    place.column ≤ line.length + 1
  offset_eq : text.lengthOfLines (place.line - 1) + (place.column - 1) = place.offset

/-- The line feeds before an offset end the lines before, and its own line goes on after it. -/
theorem Cut.exists_splitOn (cut : Cut text offset own after) :
    ∃ lines others : List Text,
      text.splitOn '\n' = lines ++ (own ++ after.takeWhile (· != '\n')) :: others ∧
      lines.length = (text.linesBefore offset).count '\n' ∧
      (lines.map List.length).sum + lines.length = (text.linesBefore offset).length := by
  obtain ⟨lines, split, count, sum⟩ :=
    (whole_linesBefore text offset).exists_splitOn_append (own ++ after)
  obtain ⟨others, first⟩ := Text.exists_splitOn (own ++ after)
  refine ⟨lines, others, ?_, count, sum⟩
  conv_lhs => rw [cut.text_eq]
  rw [split, first, List.takeWhile_append_of_pos cut.passes]

theorem Cut.line_eq (cut : Cut text offset own after) :
    (text.splitOn '\n')[(text.placeAt offset).line - 1]?
      = some (own ++ after.takeWhile (· != '\n')) := by
  obtain ⟨lines, others, split, count, -⟩ := cut.exists_splitOn
  rw [cut.placeAt, split]
  simp [← count]

theorem Cut.locates (cut : Cut text offset own after) : (text.placeAt offset).Locates text := by
  obtain ⟨lines, others, split, count, sum⟩ := cut.exists_splitOn
  have line := cut.line_eq
  have total := cut.length_eq
  rw [cut.placeAt] at line ⊢
  constructor
  · simp
  · simp [split, count]
  · simp
  · refine ⟨_, line, ?_⟩
    simp
  · simp [lengthOfLines, split, ← count]
    omega

namespace Place

/-- The order of reading. -/
def Before (a b : Place) : Prop := a.line < b.line ∨ a.line = b.line ∧ a.column < b.column

variable {a b : Place}

theorem Locates.offset_eq_of_same (first : a.Locates text) (second : b.Locates text)
    (line : a.line = b.line) (column : a.column = b.column) : a.offset = b.offset := by
  rw [← first.offset_eq, ← second.offset_eq, line, column]

theorem Locates.offset_lt (first : a.Locates text) (second : b.Locates text) (before : a.Before b) :
    a.offset < b.offset := by
  obtain ⟨line, found, column⟩ := first.column_le
  have here := first.offset_eq
  have there := second.offset_eq
  have column_pos := first.column_pos
  have line_pos := first.line_pos
  rcases before with less | ⟨same, less⟩
  · -- the line of the first place is passed as a whole before the second one
    have passed := text.lengthOfLines_succ (a.line - 1)
    have more : a.line - 1 + 1 ≤ b.line - 1 := by omega
    have longer := text.lengthOfLines_mono more
    rw [found, Option.map_some, Option.getD_some] at passed
    omega
  · rw [same] at here
    omega

theorem Locates.before_iff (first : a.Locates text) (second : b.Locates text) :
    a.Before b ↔ a.offset < b.offset := by
  refine ⟨first.offset_lt second, fun less => ?_⟩
  rcases Nat.lt_trichotomy a.line b.line with line | line | line
  · exact .inl line
  · rcases Nat.lt_trichotomy a.column b.column with column | column | column
    · exact .inr ⟨line, column⟩
    · have same := first.offset_eq_of_same second line column
      omega
    · have more := second.offset_lt first (.inr ⟨line.symm, column⟩)
      omega
  · have more := second.offset_lt first (.inl line)
    omega

end Place

end Descent.Text
