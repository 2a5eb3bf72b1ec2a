import Descent.Grammar.Html
import Descent.Proofs.Json.Document

/-!
# Tags

Markup tags by themselves, without a parser. The opening of a tag holds every character up to the
mark that closes it, so it tells the text and the value. What is written of a name and its attributes
is an opening and that mark.

Whether a name is complete depends on what follows it: it must not go on with a further letter.
-/

namespace Descent

/-! ## Letters and blanks -/

namespace Unicode

theorem mem_range'_of_contains {ranges : Ranges} {n : Nat} (inside : ranges.contains n) :
    n ∈ ranges.flatMap fun range => List.range' range.1 (range.2 + 1 - range.1) := by
  induction ranges with
  | nil => cases inside
  | cons range ranges ih =>
    simp only [List.flatMap_cons, List.mem_append, List.mem_range'_1]
    unfold Ranges.contains at inside
    split at inside
    · cases inside
    · simp only [Bool.or_eq_true, decide_eq_true_eq] at inside
      rcases inside with below | later
      · left
        omega
      · exact .inr (ih later)

theorem isLetter_of_isBlank {c : Char} (blank : isBlank c) : isLetter c = false := by
  have listed := mem_range'_of_contains blank
  have unlike : ((blankRanges.flatMap fun range => List.range' range.1 (range.2 + 1 - range.1)).all
      fun n => !isLetter (Char.ofNat n)) = true := by decide +kernel
  have own := List.all_eq_true.mp unlike c.toNat listed
  rw [Char.ofNat_toNat] at own
  simpa using own

theorem isBlank_of_isLetter {c : Char} (letter : isLetter c) : isBlank c = false := by
  cases blank : isBlank c with
  | false => rfl
  | true =>
    rw [isLetter_of_isBlank blank] at letter
    cases letter

end Unicode

namespace Gap

def none : Gap := ⟨[], List.forall_mem_nil _⟩

def space : Gap := ⟨[' '], List.forall_mem_singleton.mpr rfl⟩

variable {gap : Gap} {after : Text}

theorem eq_nil (stops : (gap.text ++ after).Stops Unicode.isBlank) : gap.text = [] := by
  cases shape : gap.text with
  | nil => rfl
  | cons c rest =>
    have blank := gap.blank c (by simp [shape])
    rw [shape] at stops
    rw [Text.stops_cons.mp stops] at blank
    cases blank

/-- Letters end before a gap, unless it is empty and they go on after it. -/
theorem stops_letters (stops : after.Stops Unicode.isLetter) :
    (gap.text ++ after).Stops Unicode.isLetter := by
  cases shape : gap.text with
  | nil => exact stops
  | cons c rest =>
    have blank := gap.blank c (by simp [shape])
    exact Text.stops_cons.mpr (Unicode.isLetter_of_isBlank blank)

end Gap

namespace Grammar.Html

open Lexical
open Json (Content)

/-! ## Parts of a tag -/

structure Word where
  text : Text
  nonempty : text ≠ []
  letters : ∀ c ∈ text, Unicode.isLetter c

theorem Word.begins (word : Word) : ∃ c rest, word.text = c :: rest ∧ Unicode.isLetter c := by
  obtain ⟨c, rest, shape⟩ := List.exists_cons_of_ne_nil word.nonempty
  exact ⟨c, rest, shape, word.letters c (by simp [shape])⟩

theorem Word.stops (word : Word) (after : Text) : (word.text ++ after).Stops Unicode.isBlank := by
  obtain ⟨c, rest, shape, letter⟩ := word.begins
  rw [shape]
  exact Text.stops_cons.mpr (Unicode.isBlank_of_isLetter letter)

/-- A key and a text in quotes. Blanks may stand after both, but not after the equals sign. -/
structure Attribute where
  key : Word
  keyGap : Gap
  content : Content
  gap : Gap

namespace Attribute

def text (a : Attribute) : Text :=
  a.key.text ++ (a.keyGap.text ++ '=' :: (a.content.text ++ a.gap.text))

def texts (attributes : List Attribute) : Text := attributes.flatMap text

def entry (a : Attribute) : Text × Value := (a.key.text, .str a.content.content)

def dict (attributes : List Attribute) : Value :=
  .dict (Value.Entries.ofTexts (attributes.map entry))

@[simp] theorem texts_nil : texts [] = [] := rfl

@[simp] theorem texts_cons (a : Attribute) (attributes : List Attribute) :
    texts (a :: attributes) = a.text ++ texts attributes := rfl

theorem stops_texts (attributes : List Attribute) {after : Text}
    (stops : after.Stops Unicode.isBlank) : (texts attributes ++ after).Stops Unicode.isBlank := by
  cases attributes with
  | nil => exact stops
  | cons a attributes =>
    simp only [texts_cons, text, List.append_assoc]
    exact a.key.stops _

end Attribute

/-- A tag up to the mark that closes it. -/
structure Opening where
  bracketGap : Gap
  name : Word
  nameGap : Gap
  attributes : List Attribute

namespace Opening

def text (opening : Opening) : Text :=
  '<' :: (opening.bracketGap.text ++
    (opening.name.text ++ (opening.nameGap.text ++ Attribute.texts opening.attributes)))

def value (opening : Opening) : Value :=
  .pair (.str opening.name.text) (Attribute.dict opening.attributes)

/-- The name does not go on in what follows it. -/
def Maximal (opening : Opening) (after : Text) : Prop :=
  (opening.nameGap.text ++ (Attribute.texts opening.attributes ++ after)).Stops Unicode.isLetter

end Opening

/-! ## Writing -/

def dictOf (pairs : List (Word × Content)) : Value :=
  .dict (pairs.map fun pair => (.str pair.1.text, .str pair.2.content))

/-- The text of attributes, each after a blank. -/
def printAttributes : List (Word × Content) → Text
  | [] => []
  | (key, content) :: rest =>
    ' ' :: (key.text ++ '=' :: (content.text ++ printAttributes rest))

/-- The text of a tag. -/
def print (name : Word) (attributes : List (Word × Content)) : Text :=
  '<' :: (name.text ++ (printAttributes attributes ++ ['/', '>']))

/-- The blank before an attribute belongs to the part before it. -/
theorem printAttributes_eq (pairs : List (Word × Content)) :
    ∃ (gap : Gap) (attributes : List Attribute),
      printAttributes pairs = gap.text ++ Attribute.texts attributes ∧
      (∀ after, after.Stops Unicode.isLetter →
        (gap.text ++ (Attribute.texts attributes ++ after)).Stops Unicode.isLetter) ∧
      attributes.map Attribute.entry
        = pairs.map fun pair => (pair.1.text, .str pair.2.content) := by
  induction pairs with
  | nil => exact ⟨Gap.none, [], rfl, fun after => id, rfl⟩
  | cons pair pairs ih =>
    obtain ⟨gap, attributes, written, -, entries⟩ := ih
    refine ⟨Gap.space, ⟨pair.1, Gap.none, pair.2, gap⟩ :: attributes, ?_, fun after _ => ?_, ?_⟩
    · simp [printAttributes, written, Attribute.text, Gap.space, Gap.none]
    · exact Text.stops_cons.mpr (Unicode.isLetter_of_isBlank rfl)
    · rw [List.map_cons, List.map_cons, entries]
      rfl

end Grammar.Html
end Descent
