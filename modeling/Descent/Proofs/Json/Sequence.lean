import Descent.Proofs.Json.Acceptance
import Mathlib.Logic.Relation

/-!
# Sequences of items and pairs

Inside an array or an object stand parts, each of which may be followed by a separator. What is
left after a part is determined, and what is left after a separator is too if the separator takes
as much as it can. Main statement: a sequence of parts whose separators do so, and which cannot go
on, leaves no more than any other sequence does.
-/

namespace Descent.Grammar.Json

open Lexical Relation

variable {text rest next : Text}

/-- A document and what is left after it. -/
def Item (text rest : Text) : Prop := ∃ document : Document, document.Leads text rest

/-- A key with its document, and what is left after them. -/
def Pair (text rest : Text) : Prop :=
  ∃ (key : Content) (keyGap colonGap : Gap) (inner : Text),
    text = key.text ++ (keyGap.text ++ ':' :: (colonGap.text ++ inner)) ∧ Item inner rest

section Part

variable {Part : Text → Text → Prop}

/-- A part and a separator, which may be missing. -/
def Step (Part : Text → Text → Prop) (text rest : Text) : Prop :=
  ∃ separator : Separator, Part text (separator.text ++ rest)

/-- Blanks and then a sequence of parts. -/
def Reaches (Part : Text → Text → Prop) (text rest : Text) : Prop :=
  ∃ (gap : Gap) (inner : Text), text = gap.text ++ inner ∧ ReflTransGen (Step Part) inner rest

/-- What is left after blanks and the longest sequence of parts. No part stands at its start. -/
structure Remains (Part : Text → Text → Prop) (text rest : Text) : Prop where
  reached : Reaches Part text rest
  longest : ∀ other, Reaches Part text other → rest.length ≤ other.length
  ends : ∀ next, ¬ Part rest next

/-- A part begins with a character of its own, and it determines what is left after it. -/
structure Determined (Part : Text → Text → Prop) : Prop where
  begins : ∀ {text rest}, Part text rest → BeginsPart text
  shorter : ∀ {text rest}, Part text rest → rest.length < text.length
  unique : ∀ {text rest other}, Part text rest → Part text other → rest = other

/-! ## Separators that take as much as they can -/

/-- A part and a separator that takes as much as it can. -/
def MaximalStep (Part : Text → Text → Prop) (text rest : Text) : Prop :=
  ∃ separator : Separator, separator.Maximal rest ∧ Part text (separator.text ++ rest)

/-- Blanks that are left after a gap keep a part from beginning there. -/
theorem Gap.append_eq {gap other : Gap} (stops : rest.Stops Unicode.isBlank)
    (same : gap.text ++ rest = other.text ++ next) :
    next = rest ∨ ¬ BeginsPart next ∧ rest.length ≤ next.length := by
  have blank {c : Char} {tail : Text} (begins : BeginsPart (c :: tail)) :
      Unicode.isBlank c = false := Text.stops_cons.mp begins.stops
  rcases List.append_eq_append_iff.mp same with ⟨more, longer, rfl⟩ | ⟨more, longer, rfl⟩
  · cases more with
    | nil => exact .inl rfl
    | cons c more =>
      have passes := other.blank c (by simp [longer])
      rw [Text.stops_cons.mp stops] at passes
      cases passes
  · cases more with
    | nil => exact .inl rfl
    | cons c more =>
      right
      constructor
      · intro begins
        have passes := gap.blank c (by simp [longer])
        rw [blank begins] at passes
        cases passes
      · simp only [List.length_append, List.length_cons]
        omega

theorem Gap.append_inj {gap other : Gap} (first : BeginsPart rest) (second : BeginsPart next)
    (same : gap.text ++ rest = other.text ++ next) : rest = next := by
  rcases Gap.append_eq first.stops same with equal | ⟨never, -⟩
  · exact equal.symm
  · exact absurd second never

theorem Separator.append_eq {separator other : Separator} (maximal : separator.Maximal rest)
    (same : separator.text ++ rest = other.text ++ next) :
    next = rest ∨ ¬ BeginsPart next ∧ rest.length ≤ next.length := by
  cases separator with
  | none =>
    cases other with
    | none => exact .inl same.symm
    | some gap =>
      have comma : rest.head? = some ',' := congrArg List.head? same
      exact absurd comma maximal
  | some gap =>
    cases other with
    | none =>
      right
      constructor
      · intro begins
        have comma : next.head? = some ',' := congrArg List.head? same.symm
        exact begins.head?_ne comma
      · have lengths := congrArg List.length same
        simp only [Separator.text, List.length_append, List.length_cons, List.length_nil] at lengths
        omega
    | some more => exact Gap.append_eq maximal (List.cons.inj same).2

/-! ## Longest sequences -/

namespace Determined

variable (determined : Determined Part)

include determined

theorem length_le (steps : ReflTransGen (MaximalStep Part) text rest) :
    rest.length ≤ text.length := by
  induction steps with
  | refl => exact Nat.le_refl _
  | tail _ step ih =>
    obtain ⟨separator, -, part⟩ := step
    have shorter := determined.shorter part
    rw [List.length_append] at shorter
    omega

theorem eq_of_not_begins (never : ¬ BeginsPart text)
    (steps : ReflTransGen (Step Part) text rest) : rest = text := by
  cases steps.cases_head with
  | inl same => exact same.symm
  | inr step =>
    obtain ⟨middle, ⟨separator, part⟩, -⟩ := step
    exact absurd (determined.begins part) never

/-- Any other sequence takes the same parts, as far as it goes. -/
theorem longest (steps : ReflTransGen (MaximalStep Part) text rest)
    (ends : ∀ next, ¬ Part rest next) (others : ReflTransGen (Step Part) text next) :
    rest.length ≤ next.length := by
  -- A sequence that leaves the given one stops there: no part begins with what a separator takes.
  induction steps using ReflTransGen.head_induction_on with
  | refl =>
    cases others.cases_head with
    | inl same => rw [same]
    | inr step =>
      obtain ⟨middle, ⟨separator, part⟩, -⟩ := step
      exact absurd part (ends _)
  | head step steps ih =>
    obtain ⟨separator, maximal, part⟩ := step
    have shorter := determined.shorter part
    have length := determined.length_le steps
    rw [List.length_append] at shorter
    cases others.cases_head with
    | inl same =>
      subst same
      omega
    | inr step =>
      obtain ⟨middle, ⟨other, again⟩, later⟩ := step
      rcases Separator.append_eq maximal (determined.unique part again) with rfl | ⟨never, more⟩
      · exact ih later
      · rw [determined.eq_of_not_begins never later]
        omega

theorem remains {gap : Gap} {inner : Text} (stops : inner.Stops Unicode.isBlank)
    (steps : ReflTransGen (MaximalStep Part) inner rest) (ends : ∀ next, ¬ Part rest next) :
    Remains Part (gap.text ++ inner) rest := by
  have weaken : ∀ text next, MaximalStep Part text next → Step Part text next :=
    fun text next ⟨separator, _, part⟩ => ⟨separator, part⟩
  refine ⟨⟨gap, inner, rfl, ReflTransGen.mono weaken _ _ steps⟩, ?_, ends⟩
  · rintro next ⟨other, again, same, others⟩
    have length := determined.length_le steps
    rcases Gap.append_eq stops same with rfl | ⟨never, more⟩
    · exact determined.longest steps ends others
    · rw [determined.eq_of_not_begins never others]
      omega

end Determined

end Part

/-! ## Items and pairs -/

theorem determined_item : Determined Item where
  begins := by
    rintro text rest ⟨document, leads⟩
    rw [leads.text_eq]
    exact document.begins.append rest
  shorter := by
    rintro text rest ⟨document, leads⟩
    obtain ⟨c, tail, begins, -⟩ := document.begins
    rw [leads.text_eq, begins]
    simp only [List.length_append, List.length_cons]
    omega
  unique := by
    rintro text rest other ⟨document, leads⟩ ⟨document', leads'⟩
    have deep := Nat.lt_succ_self text.length
    have first := (accepts_alone deep).mpr ⟨document, leads, rfl⟩
    have second := (accepts_alone deep).mpr ⟨document', leads', rfl⟩
    exact (first.unique second).2

theorem Content.append_inj {key other : Content} (same : key.text ++ rest = other.text ++ next) :
    rest = next := by
  have first : Parser.Accepts Parser.stringLiteral (key.text ++ rest) key.content rest :=
    Parser.accepts_stringLiteral.mpr ⟨by simp [Content.text], key.closed⟩
  have second : Parser.Accepts Parser.stringLiteral (key.text ++ rest) other.content next :=
    Parser.accepts_stringLiteral.mpr ⟨by rw [same]; simp [Content.text], other.closed⟩
  exact (first.unique second).2

theorem determined_pair : Determined Pair where
  begins := by
    rintro text rest ⟨key, keyGap, colonGap, inner, rfl, -⟩
    exact key.begins.append _
  shorter := by
    rintro text rest ⟨key, keyGap, colonGap, inner, rfl, found⟩
    have shorter := determined_item.shorter found
    simp only [List.length_append, List.length_cons]
    omega
  unique := by
    rintro text rest other ⟨key, keyGap, colonGap, inner, rfl, found⟩
      ⟨key', keyGap', colonGap', inner', same, found'⟩
    have colon (inner : Text) : BeginsPart (':' :: inner) := ⟨':', inner, rfl, by decide⟩
    have values := Gap.append_inj (colon _) (colon _) (Content.append_inj same)
    have begins := determined_item.begins found
    have begins' := determined_item.begins found'
    obtain rfl := Gap.append_inj begins begins' (List.cons.inj values).2
    exact determined_item.unique found found'

end Descent.Grammar.Json
