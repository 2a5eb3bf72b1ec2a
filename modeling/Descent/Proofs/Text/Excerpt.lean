import Descent.ParseError
import Descent.Proofs.Text.Place

/-!
# Excerpts

Places count lines by line feeds, and excerpts are taken from lines that other characters end too.
Where no other break stands before a line, both counts agree. Main statements: a place tells the
position from all others; the excerpt shows the line of the position, and the mark below it is under
the character at the position as far as column 20 and one character past it from there on.
-/

namespace Descent.Text

variable {text own after before rest : Text} {offset : Nat} {c : Char}

/-- How many line breaks of a text are neither a line feed nor a return and a line feed. -/
def otherBreaks : Text → Nat
  | [] => 0
  | '\r' :: '\n' :: rest => otherBreaks rest
  | c :: rest => if isLineBreak c && c != '\n' then otherBreaks rest + 1 else otherBreaks rest

/-! ## Lines ended by any break -/

@[simp] theorem isLineBreak_feed : isLineBreak '\n' = true := rfl

@[simp] theorem isLineBreak_return : isLineBreak '\r' = true := rfl

@[simp] theorem lines_nil : lines [] = [] := rfl

@[simp] theorem lines_return_feed (rest : Text) :
    lines ('\r' :: '\n' :: rest) = [] :: lines rest := rfl

@[simp] theorem otherBreaks_return_feed (rest : Text) :
    otherBreaks ('\r' :: '\n' :: rest) = otherBreaks rest := rfl

theorem lines_cons (alone : ∀ more, c = '\r' → rest = '\n' :: more → False) :
    lines (c :: rest) = if isLineBreak c then [] :: lines rest
      else match lines rest with
        | [] => [[c]]
        | line :: more => (c :: line) :: more := by
  -- by the cases of the function, as its equation takes long to derive from the patterns
  generalize shape : c :: rest = text
  fun_cases lines text with
  | case1 => cases shape
  | case2 more =>
    obtain ⟨rfl, rfl⟩ := List.cons.inj shape
    exact (alone more rfl rfl).elim
  | case3 d others _ breaks =>
    obtain ⟨rfl, rfl⟩ := List.cons.inj shape
    rw [if_pos breaks]
  | case4 d others _ plain none =>
    obtain ⟨rfl, rfl⟩ := List.cons.inj shape
    rw [if_neg plain, none]
  | case5 d others _ plain line more first =>
    obtain ⟨rfl, rfl⟩ := List.cons.inj shape
    rw [if_neg plain, first]

theorem otherBreaks_cons (alone : ∀ more, c = '\r' → rest = '\n' :: more → False) :
    otherBreaks (c :: rest)
      = if isLineBreak c && c != '\n' then otherBreaks rest + 1 else otherBreaks rest := by
  generalize shape : c :: rest = text
  fun_cases otherBreaks text with
  | case1 => cases shape
  | case2 more =>
    obtain ⟨rfl, rfl⟩ := List.cons.inj shape
    exact (alone more rfl rfl).elim
  | case3 d others _ other =>
    obtain ⟨rfl, rfl⟩ := List.cons.inj shape
    rw [if_pos other]
  | case4 d others _ plain =>
    obtain ⟨rfl, rfl⟩ := List.cons.inj shape
    rw [if_neg plain]

theorem Whole.tail (whole : Whole (c :: rest)) : Whole rest := by
  intro d ends
  apply whole
  rw [List.getLast?_cons, ends]
  rfl

/-- No line break is made at the end of whole lines. -/
theorem Whole.alone (whole : Whole (c :: before))
    (alone : ∀ rest, c = '\r' → before = '\n' :: rest → False) (rest : Text) :
    ∀ more, c = '\r' → before ++ rest = '\n' :: more → False := by
  intro more return_ feed
  cases before with
  | nil =>
    have last : c = '\n' := whole c rfl
    simp [return_] at last
  | cons d before =>
    obtain ⟨rfl, -⟩ := List.cons.inj feed
    exact alone before return_ rfl

theorem lines_eq_nil_iff : text.lines = [] ↔ text = [] := by
  fun_cases lines text <;> simp

theorem lines_append (whole : Whole before) (rest : Text) :
    (before ++ rest).lines = before.lines ++ rest.lines := by
  fun_induction lines before with
  | case1 => rfl
  | case2 before ih => simp [ih whole.tail.tail]
  | case3 c before alone breaks ih =>
    rw [List.cons_append, lines_cons (whole.alone alone rest), if_pos breaks,
      ih whole.tail]
    rfl
  | case4 c before alone plain none ih =>
    obtain rfl := lines_eq_nil_iff.mp none
    have last : c = '\n' := whole c rfl
    simp [last] at plain
  | case5 c before alone plain line more shape ih =>
    rw [List.cons_append, lines_cons (whole.alone alone rest), if_neg plain,
      ih whole.tail, shape]
    rfl

theorem otherBreaks_append (whole : Whole before) (rest : Text) :
    (before ++ rest).otherBreaks = before.otherBreaks + rest.otherBreaks := by
  fun_induction otherBreaks before with
  | case1 => simp
  | case2 before ih => simp [ih whole.tail.tail]
  | case3 c before alone other ih =>
    rw [List.cons_append, otherBreaks_cons (whole.alone alone rest),
      if_pos other, ih whole.tail]
    omega
  | case4 c before alone plain ih =>
    rw [List.cons_append, otherBreaks_cons (whole.alone alone rest),
      if_neg plain, ih whole.tail]

/-- Whole lines are the lines that line feeds end, and one more for each other break. -/
theorem length_lines (whole : Whole before) :
    before.lines.length = before.count '\n' + before.otherBreaks := by
  fun_induction lines before with
  | case1 => rfl
  | case2 before ih => 
    simp [ih whole.tail.tail]
    omega
  | case3 c before alone breaks ih =>
    rw [otherBreaks_cons alone]
    by_cases feed : c = '\n'
    · simp [feed, ih whole.tail]
      omega
    · simp [feed, breaks, ih whole.tail]
      omega
  | case4 c before alone plain none ih =>
    obtain rfl := lines_eq_nil_iff.mp none
    have last : c = '\n' := whole c rfl
    simp [last] at plain
  | case5 c before alone plain line more shape ih =>
    have feed : c ≠ '\n' := by
      rintro rfl
      simp at plain
    have lines := ih whole.tail
    rw [shape] at lines
    rw [otherBreaks_cons alone]
    simpa [plain, feed] using lines

theorem exists_lines (some : text ≠ []) :
    ∃ more, text.lines = text.takeWhile (!isLineBreak ·) :: more := by
  fun_induction lines text with
  | case1 => exact absurd rfl some
  | case2 => simp
  | case3 c text _ breaks => simp [breaks]
  | case4 c text _ plain none =>
    obtain rfl := lines_eq_nil_iff.mp none
    simp [plain]
  | case5 c text _ plain line more shape ih =>
    have rest : text ≠ [] := by
      rintro rfl
      cases shape
    obtain ⟨others, first⟩ := ih rest
    rw [shape] at first
    obtain ⟨rfl, -⟩ := List.cons.inj first
    simp [plain]

theorem infix_of_mem_lines {line : Text} (member : line ∈ text.lines) : line <:+: text := by
  fun_induction lines text with
  | case1 => cases member
  | case2 text ih =>
    rcases List.mem_cons.mp member with rfl | later
    · exact List.nil_infix
    · exact (ih later).trans (List.suffix_append ['\r', '\n'] text).isInfix
  | case3 c text _ _ ih =>
    rcases List.mem_cons.mp member with rfl | later
    · exact List.nil_infix
    · exact (ih later).trans (List.suffix_cons c text).isInfix
  | case4 c text _ _ none =>
    obtain rfl := lines_eq_nil_iff.mp none
    obtain rfl := List.mem_singleton.mp member
    exact List.infix_rfl
  | case5 c text _ _ first more shape ih =>
    rcases List.mem_cons.mp member with rfl | later
    · have rest : text ≠ [] := by
        rintro rfl
        cases shape
      obtain ⟨others, begins⟩ := exists_lines rest
      rw [shape] at begins
      obtain ⟨rfl, -⟩ := List.cons.inj begins
      exact (List.prefix_cons_inj c |>.mpr (List.takeWhile_prefix _)).isInfix
    · exact (ih (shape ▸ List.mem_cons_of_mem _ later)).trans (List.suffix_cons c text).isInfix

/-- Without other breaks, every break is a line feed or stands before one. -/
theorem feed_of_isLineBreak {before after : Text} (plain : text.otherBreaks = 0)
    (shape : text = before ++ c :: after) (breaks : isLineBreak c) :
    c = '\n' ∨ c = '\r' ∧ after.head? = some '\n' := by
  fun_induction otherBreaks text generalizing before with
  | case1 => simp at shape
  | case2 text ih =>
    rcases before with _ | ⟨d, _ | ⟨e, before⟩⟩
    · obtain ⟨rfl, rfl⟩ := List.cons.inj shape
      exact .inr ⟨rfl, rfl⟩
    · obtain ⟨-, inner⟩ := List.cons.inj shape
      obtain ⟨rfl, -⟩ := List.cons.inj inner
      exact .inl rfl
    · obtain ⟨-, inner⟩ := List.cons.inj shape
      obtain ⟨-, later⟩ := List.cons.inj inner
      exact ih plain later
  | case3 => omega
  | case4 d text _ other ih =>
    cases before with
    | nil =>
      obtain ⟨rfl, -⟩ := List.cons.inj shape
      left
      simpa [breaks] using other
    | cons e before =>
      obtain ⟨-, later⟩ := List.cons.inj shape
      exact ih plain later

/-! ## The line of an excerpt -/

theorem excerptOf?_eq_some {line : Text} {column : Nat} {e : Excerpt} :
    excerptOf? line column = some e ↔ column ≤ line.length ∧
      e = if column ≤ 20 then ⟨line.take 40, column - 1⟩
        else ⟨(line.drop (column - 20)).take 40, 20⟩ := by
  unfold excerptOf? excerptReach
  split
  · simp
    omega
  · split <;> simp [eq_comm] <;> omega

theorem excerptOf?_isSome {line : Text} {column : Nat} :
    (excerptOf? line column).isSome ↔ column ≤ line.length := by
  simp [Option.isSome_iff_exists, excerptOf?_eq_some]

theorem infix_of_excerptOf? {line : Text} {column : Nat} {e : Excerpt}
    (shown : excerptOf? line column = some e) : e.shown <:+: line := by
  obtain ⟨-, rfl⟩ := excerptOf?_eq_some.mp shown
  split
  · exact (List.take_prefix 40 line).isInfix
  · exact (List.take_prefix 40 _).isInfix.trans (List.drop_suffix _ line).isInfix

theorem Cut.lines_eq (cut : Cut text offset own after) :
    text.lines = (text.linesBefore offset).lines ++ (own ++ after).lines := by
  conv_lhs => rw [cut.text_eq]
  exact lines_append (whole_linesBefore text offset) _

/-- Where no other break stands before a line, it is found by the number of line feeds before it. -/
theorem Cut.excerptAt_eq (cut : Cut text offset own after)
    (plain : (text.linesBefore offset).otherBreaks = 0) :
    text.excerptAt? (text.placeAt offset)
      = excerptOf? ((own ++ after).takeWhile (!isLineBreak ·)) (own.length + 1) := by
  have count := length_lines (whole_linesBefore text offset)
  have found : text.lines[(text.linesBefore offset).count '\n']? = (own ++ after).lines[0]? := by
    rw [cut.lines_eq, List.getElem?_append_right (by omega)]
    congr 1
    omega
  rw [cut.placeAt]
  simp only [excerptAt?, Nat.add_sub_cancel, found]
  by_cases none : own ++ after = []
  · simp [none, excerptOf?]
  · obtain ⟨more, first⟩ := exists_lines none
    simp [first]

/-- Where another break stands before a line, one of the lines before it is shown in its place. -/
theorem Cut.excerptAt_infix (cut : Cut text offset own after)
    (other : (text.linesBefore offset).otherBreaks ≠ 0) {e : Excerpt}
    (shown : text.excerptAt? (text.placeAt offset) = some e) :
    e.shown <:+: text.linesBefore offset := by
  have count := length_lines (whole_linesBefore text offset)
  rw [cut.placeAt] at shown
  simp only [excerptAt?, Nat.add_sub_cancel] at shown
  rw [cut.lines_eq, List.getElem?_append_left (by omega)] at shown
  obtain ⟨line, found, excerpt⟩ := Option.bind_eq_some_iff.mp shown
  exact (infix_of_excerptOf? excerpt).trans (infix_of_mem_lines (List.mem_of_getElem? found))

theorem Cut.getElem?_eq (cut : Cut text offset own after) :
    text[offset]? = (own ++ after)[own.length]? := by
  have length := cut.length_eq
  conv_lhs => rw [cut.text_eq]
  rw [List.getElem?_append_right (by omega)]
  congr 1
  omega

theorem Cut.otherBreaks_linesBefore (cut : Cut text offset own after)
    (plain : text.otherBreaks = 0) : (text.linesBefore offset).otherBreaks = 0 := by
  have whole := whole_linesBefore text offset
  have sum := otherBreaks_append whole (own ++ after)
  rw [← cut.text_eq] at sum
  omega

theorem Cut.reaches_iff (cut : Cut text offset own after) (plain : text.otherBreaks = 0) :
    own.length < ((own ++ after).takeWhile (!isLineBreak ·)).length ↔
      ∃ c rest, after = c :: rest ∧ c ≠ '\n' ∧ ¬ (c = '\r' ∧ rest.head? = some '\n') := by
  constructor
  · intro reaches
    have along := List.takeWhile_prefix (!isLineBreak ·) (l := own ++ after)
    have here := List.prefix_iff_getElem?.mp along own.length reaches
    have passes := List.mem_takeWhile_imp (List.getElem_mem reaches)
    rw [List.getElem?_append_right le_rfl, Nat.sub_self] at here
    cases shape : after with
    | nil => simp [shape] at here
    | cons c rest =>
      simp only [shape, List.getElem?_cons_zero, Option.some.injEq] at here
      simp only [shape, ← here] at passes
      refine ⟨c, rest, rfl, ?_, ?_⟩
      · rintro rfl
        simp at passes
      · rintro ⟨rfl, -⟩
        simp at passes
  · rintro ⟨c, rest, rfl, notFeed, notReturn⟩
    have feedless : '\n' ∉ own ++ [c] := by simp [cut.unbroken, notFeed.symm]
    have unbroken : ∀ d ∈ own ++ [c], (!isLineBreak d) = true := by
      intro d member
      by_contra breaks
      obtain ⟨first, last, split⟩ := List.append_of_mem member
      have shape : text = (text.linesBefore offset ++ first) ++ d :: (last ++ rest) := by
        conv_lhs => rw [cut.text_eq, ← List.singleton_append, ← List.append_assoc own, split]
        simp
      rcases feed_of_isLineBreak plain shape (by simpa using breaks) with rfl | ⟨rfl, feed⟩
      · exact feedless member
      · cases last with
        | nil =>
          obtain ⟨-, same⟩ := List.append_inj' split rfl
          obtain ⟨rfl, -⟩ := List.cons.inj same
          exact notReturn ⟨rfl, feed⟩
        | cons next last =>
          obtain rfl : next = '\n' := by simpa using feed
          apply feedless
          rw [split]
          simp
    rw [← List.singleton_append, ← List.append_assoc, List.takeWhile_append_of_pos unbroken]
    simp

/-- The line that is shown goes past the offset, and does not leave the line of the offset. -/
theorem Cut.exists_line (cut : Cut text offset own after)
    (plain : (text.linesBefore offset).otherBreaks = 0) {e : Excerpt}
    (shown : text.excerptAt? (text.placeAt offset) = some e) :
    ∃ found, found <+: own ++ after.takeWhile (· != '\n') ∧ own.length < found.length ∧
      found[own.length]? = text[offset]? ∧ excerptOf? found (own.length + 1) = some e := by
  rw [cut.excerptAt_eq plain] at shown
  have reaches := (excerptOf?_eq_some.mp shown).1
  have along := List.takeWhile_prefix (!isLineBreak ·) (l := own ++ after)
  refine ⟨_, ?_, reaches, ?_, shown⟩
  · have narrower : (own ++ after).takeWhile (!isLineBreak ·)
        = ((own ++ after).takeWhile (· != '\n')).takeWhile (!isLineBreak ·) := by
      rw [List.takeWhile_takeWhile]
      congr 1
      funext c
      by_cases feed : c = '\n' <;> simp [feed]
    rw [narrower, ← List.takeWhile_append_of_pos cut.passes]
    exact List.takeWhile_prefix _
  · rw [cut.getElem?_eq, List.prefix_iff_getElem?.mp along own.length reaches,
      List.getElem?_eq_getElem]

/-- Up to column 20 the line is shown from its start. -/
theorem Cut.shown_near (cut : Cut text offset own after)
    (plain : (text.linesBefore offset).otherBreaks = 0) (near : own.length + 1 ≤ 20) {e : Excerpt}
    (shown : text.excerptAt? (text.placeAt offset) = some e) :
    e.indent = own.length ∧ e.shown <+: own ++ after.takeWhile (· != '\n') ∧
      own.length < e.shown.length ∧ e.shown[own.length]? = text[offset]? := by
  obtain ⟨found, along, reaches, here, excerpt⟩ := cut.exists_line plain shown
  obtain ⟨-, rfl⟩ := excerptOf?_eq_some.mp excerpt
  rw [if_pos near]
  refine ⟨rfl, (List.take_prefix 40 found).trans along, ?_, ?_⟩
  · rw [List.length_take]
    omega
  · rw [List.getElem?_take_of_lt (by omega), here]

/-- After column 20 the line is shown from 19 characters before the offset on, and the mark is one
character past it. -/
theorem Cut.shown_far (cut : Cut text offset own after)
    (plain : (text.linesBefore offset).otherBreaks = 0) (far : 20 < own.length + 1) {e : Excerpt}
    (shown : text.excerptAt? (text.placeAt offset) = some e) :
    e.indent = 20 ∧ e.shown <:+: own ++ after.takeWhile (· != '\n') ∧
      19 < e.shown.length ∧ e.shown[19]? = text[offset]? := by
  obtain ⟨found, along, reaches, here, excerpt⟩ := cut.exists_line plain shown
  have inner := (infix_of_excerptOf? excerpt).trans along.isInfix
  obtain ⟨-, rfl⟩ := excerptOf?_eq_some.mp excerpt
  rw [if_neg (by omega)] at inner ⊢
  refine ⟨rfl, inner, ?_, ?_⟩
  · rw [List.length_take, List.length_drop]
    omega
  · rw [List.getElem?_take_of_lt (by omega), List.getElem?_drop, ← here]
    congr 1
    omega

theorem Cut.exists_excerpt_iff (cut : Cut text offset own after) (plain : text.otherBreaks = 0) :
    (text.excerptAt? (text.placeAt offset)).isSome ↔
      ∃ c, text[offset]? = some c ∧ c ≠ '\n' ∧ ¬ (c = '\r' ∧ text[offset + 1]? = some '\n') := by
  rw [cut.excerptAt_eq (cut.otherBreaks_linesBefore plain), excerptOf?_isSome, Nat.succ_le_iff,
    cut.reaches_iff plain]
  have length := cut.length_eq
  have here : text[offset]? = after[0]? := by
    rw [cut.getElem?_eq, List.getElem?_append_right le_rfl, Nat.sub_self]
  have next : text[offset + 1]? = after[1]? := by
    conv_lhs => rw [cut.text_eq, ← List.append_assoc]
    rw [List.getElem?_append_right (by rw [List.length_append]; omega), List.length_append, length,
      Nat.add_sub_cancel_left]
  rw [here, next]
  cases after <;> simp [List.head?_eq_getElem?]

end Descent.Text

/-! ## Notes -/

namespace Descent.PlacedNote

open Text

variable (text : Text) (position : Int) (label : Option String) {e : Excerpt}

theorem exists_cut_clamp : ∃ own after, Cut text (text.clamp position) own after :=
  exists_cut (Nat.min_le_right _ _)

/-- The line and the column of a note lead to its position, and to no other one. Where all breaks
are line feeds, alone or after a carriage return, there is an excerpt unless the position is at a
break or at the end. -/
theorem ofPosition_identifies :
    (∀ position : Int,
      ((ofPosition text position label).place.offset : Int) = max 0 (min position text.length) ∧
      (ofPosition text position label).place.Locates text) ∧
    (∀ a b : Int,
      ((ofPosition text a label).place.line = (ofPosition text b label).place.line ∧
        (ofPosition text a label).place.column = (ofPosition text b label).place.column) ↔
      max 0 (min a text.length) = max 0 (min b text.length)) ∧
    (∀ a b : Int,
      (ofPosition text a label).place.Before (ofPosition text b label).place ↔
      max 0 (min a text.length) < max 0 (min b text.length)) ∧
    (text.otherBreaks = 0 → ∀ position : Int,
      ((ofPosition text position label).excerpt.isSome ↔
        ∃ c, text[(max 0 (min position text.length)).toNat]? = some c ∧ c ≠ '\n' ∧
          ¬ (c = '\r' ∧ text[(max 0 (min position text.length)).toNat + 1]? = some '\n'))) := by
  have offset (position : Int) :
      ((ofPosition text position label).place.offset : Int)
        = max 0 (min position text.length) := by
    show (text.clamp position : Int) = _
    unfold clamp
    omega
  have locates (position : Int) : (ofPosition text position label).place.Locates text := by
    obtain ⟨own, after, cut⟩ := exists_cut_clamp text position
    exact cut.locates
  refine ⟨fun position => ⟨offset position, locates position⟩, ?_, ?_, ?_⟩
  · intro a b
    rw [← offset a, ← offset b, Int.natCast_inj]
    constructor
    · rintro ⟨line, column⟩
      exact (locates a).offset_eq_of_same (locates b) line column
    · intro same
      have clamps : text.clamp a = text.clamp b := same
      unfold ofPosition
      simp only [clamps, and_self]
  · intro a b
    rw [← offset a, ← offset b, Int.ofNat_lt]
    exact (locates a).before_iff (locates b)
  · intro plain position
    obtain ⟨own, after, cut⟩ := exists_cut_clamp text position
    rw [← offset position, Int.toNat_natCast]
    exact cut.exists_excerpt_iff plain

theorem ofPosition_identifies_crlf :
    otherBreaks "ab\r\ncd\n".toList = 0 ∧
      (ofPosition "ab\r\ncd\n".toList 5 none).excerpt.isSome ∧
      (ofPosition "ab\r\ncd\n".toList 5 none).place.Locates "ab\r\ncd\n".toList := by
  obtain ⟨located, -, -, excerpts⟩ := ofPosition_identifies "ab\r\ncd\n".toList none
  have plain : otherBreaks "ab\r\ncd\n".toList = 0 := by decide
  refine ⟨plain, (excerpts plain 5).mpr ⟨'d', ?_⟩, (located 5).2⟩
  decide

/-- Up to column 20 the mark of an excerpt is below the character at the position. After column 20
it is below the next one. -/
theorem excerpt_mark (plain : text.otherBreaks = 0)
    (shown : (ofPosition text position label).excerpt = some e) :
    let q := text.clamp position
    let place := (ofPosition text position label).place
    q < text.length ∧
    (∃ line, (text.splitOn '\n')[place.line - 1]? = some line ∧ e.shown <:+: line) ∧
    (place.column ≤ 20 → e.indent < e.shown.length ∧ e.shown[e.indent]? = text[q]?) ∧
    (20 < place.column → e.indent = 20 ∧ 19 < e.shown.length ∧ e.shown[19]? = text[q]?) := by
  intro q place
  obtain ⟨own, after, cut⟩ := exists_cut_clamp text position
  have column : place.column = own.length + 1 := congrArg Place.column cut.placeAt
  have plainBefore := cut.otherBreaks_linesBefore plain
  obtain ⟨c, found, -⟩ := (cut.exists_excerpt_iff plain).mp (Option.isSome_of_eq_some shown)
  refine ⟨(List.getElem?_eq_some_iff.mp found).1, ⟨_, cut.line_eq, ?_⟩, ?_, ?_⟩
  · by_cases near : own.length + 1 ≤ 20
    · exact (cut.shown_near plainBefore near shown).2.1.isInfix
    · exact (cut.shown_far plainBefore (by omega) shown).2.1
  · intro near
    obtain ⟨indent, -, reaches, here⟩ := cut.shown_near plainBefore (column ▸ near) shown
    rw [indent]
    exact ⟨reaches, here⟩
  · intro far
    obtain ⟨indent, -, reaches, here⟩ := cut.shown_far plainBefore (column ▸ far) shown
    exact ⟨indent, reaches, here⟩

theorem excerpt_mark_letters :
    otherBreaks "abcdefghijklmnopqrstuvwxyz".toList = 0 ∧
      ∃ e, (ofPosition "abcdefghijklmnopqrstuvwxyz".toList 20 none).excerpt = some e ∧
        e.indent = 20 ∧ e.shown[19]? = some 'u' := by
  have plain : otherBreaks "abcdefghijklmnopqrstuvwxyz".toList = 0 := by decide
  obtain ⟨-, -, -, far⟩ := excerpt_mark _ 20 none plain rfl
  obtain ⟨indent, -, here⟩ := far (by decide)
  exact ⟨plain, _, rfl, indent, here⟩

theorem not_excerpt_mark_always :
    ¬ ∀ (text : Text) (position : Int) (label : Option String) (e : Excerpt),
      text.otherBreaks = 0 → (ofPosition text position label).excerpt = some e →
        e.indent < e.shown.length ∧ e.shown[e.indent]? = text[text.clamp position]? := by
  intro marks
  obtain ⟨-, here⟩ := marks "abcdefghijklmnopqrstuvwxyz".toList 20 none _ (by decide) rfl
  revert here
  decide

/-- Up to column 20 an excerpt begins where the line of the position begins, and goes past the
position, unless another break stands before this line: then it is taken from a line before. -/
theorem excerpt_line (shown : (ofPosition text position label).excerpt = some e)
    (near : (ofPosition text position label).place.column ≤ 20) :
    let q := text.clamp position
    let before := text.linesBefore q
    (before.otherBreaks = 0 → (∃ after, text = before ++ (e.shown ++ after)) ∧
      before.length ≤ q ∧ q < before.length + e.shown.length ∧ e.shown[e.indent]? = text[q]?) ∧
    (before.otherBreaks ≠ 0 → e.shown <:+: before) := by
  intro q before
  obtain ⟨own, after, cut⟩ := exists_cut_clamp text position
  have length : before.length + own.length = q := cut.length_eq
  have column : (ofPosition text position label).place.column = own.length + 1 :=
    congrArg Place.column cut.placeAt
  refine ⟨fun plain => ?_, fun other => cut.excerptAt_infix other shown⟩
  obtain ⟨indent, along, reaches, here⟩ := cut.shown_near plain (column ▸ near) shown
  refine ⟨?_, by omega, by omega, by rw [indent, here]⟩
  obtain ⟨rest, split⟩ :=
    along.trans ((List.prefix_append_right_inj own).mpr (List.takeWhile_prefix _))
  exact ⟨rest, by rw [split]; exact cut.text_eq⟩

theorem excerpt_line_crlf :
    ∃ e, (ofPosition "ab\r\ncd\n".toList 5 none).excerpt = some e ∧ e.shown[1]? = some 'd' := by
  obtain ⟨own, -⟩ := excerpt_line "ab\r\ncd\n".toList 5 none rfl (by decide)
  obtain ⟨-, -, -, here⟩ := own (by decide)
  exact ⟨_, rfl, here⟩

theorem not_excerpt_line_always :
    ¬ ∀ (text : Text) (position : Int) (label : Option String) (e : Excerpt),
      (ofPosition text position label).excerpt = some e →
        (ofPosition text position label).place.column ≤ 20 →
          (∃ after, text = text.linesBefore (text.clamp position) ++ (e.shown ++ after)) ∧
            e.shown[e.indent]? = text[text.clamp position]? := by
  intro lines
  obtain ⟨-, here⟩ := lines "a\u2028b\nc".toList 4 none _ rfl (by decide)
  revert here
  decide

end Descent.PlacedNote
