import Descent.Parser.Lexical
import Descent.Proofs.Acceptance.Basic
import Mathlib.Data.List.TakeWhile

/-!
# What lexical parsers accept

A run of characters is accepted as far as it goes: what is left does not begin with one more of
them. The rest may otherwise be anything, so the statements here are about a text that ends in a
rest. A literal is accepted if it is the text between its quotes, with every quote escaped; only a
text that ends in the escape character cannot be written in this way.
-/

namespace Descent

/-- A text does not begin with a character that passes a test. -/
def Text.Stops (test : Char → Bool) (text : Text) : Prop :=
  ∀ c ∈ text.head?, test c = false

theorem Text.stops_nil (test : Char → Bool) : Text.Stops test [] := nofun

@[simp] theorem Text.stops_cons {test : Char → Bool} {c : Char} {text : Text} :
    Text.Stops test (c :: text) ↔ test c = false := by
  simp [Text.Stops]

namespace Lexical

/-- A text as it stands between quotes. -/
def escaped (content : Text) : Text :=
  content.flatMap fun c => if c = quote then [escape, quote] else [c]

@[simp] theorem escaped_nil : escaped [] = [] := rfl

theorem escaped_quote (content : Text) :
    escaped (quote :: content) = escape :: quote :: escaped content := rfl

theorem escaped_cons {c : Char} (plain : c ≠ quote) (content : Text) :
    escaped (c :: content) = c :: escaped content := by
  simp [escaped, plain]

def literalChar : Parser (Except Fault) Char :=
  ((Parser.string [escape, quote]).map fun _ => quote).alternate (Parser.noneOf [quote])

end Lexical

namespace Parser

open Lexical

variable {test : Char → Bool} {c : Char} {text rest word : Text}

/-! ## Single characters and words -/

theorem accepts_satisfy :
    Accepts (satisfy test) text c rest ↔ text = c :: rest ∧ test c := by
  unfold Accepts satisfy satisfyM
  cases text with
  | nil => simp [pure, Except.pure]
  | cons d text =>
    cases passes : test d <;>
      simp only [bind, Except.bind, pure, Except.pure, passes] <;> grind

theorem rejects_satisfy : Rejects (satisfy test) text ↔ Text.Stops test text := by
  unfold Rejects satisfy satisfyM
  cases text with
  | nil => simp [pure, Except.pure, Text.stops_nil]
  | cons d text =>
    cases passes : test d <;>
      simp [bind, Except.bind, pure, Except.pure, passes]

/-- A single character that does not pass the test is not consumed. -/
theorem satisfy_of_stops (stops : text.Stops test) :
    (satisfy test : Parser (Except Fault) Char) text
      = .ok (.failure ⟨text.failureMessage, text, []⟩) := by
  unfold satisfy satisfyM
  cases text with
  | nil => rfl
  | cons c text =>
    have differs : test c = false := Text.stops_cons.mp stops
    simp [bind, Except.bind, pure, Except.pure, differs]

theorem accepts_char {d : Char} :
    Accepts (char c) text d rest ↔ d = c ∧ text = c :: rest := by
  unfold char
  rw [accepts_satisfy]
  grind

theorem rejects_char : Rejects (char c) text ↔ text.head? ≠ some c := by
  unfold char
  rw [rejects_satisfy]
  cases text <;> simp [Text.stops_nil]

theorem char_of_head?_ne (differs : text.head? ≠ some c) :
    (char c : Parser (Except Fault) Char) text
      = .ok (.failure ⟨text.failureMessage, text, []⟩) := by
  apply satisfy_of_stops
  intro d begins
  have other : d ≠ c := by
    intro same
    subst same
    exact differs begins
  simp [other]

theorem accepts_string {value : Text} :
    Accepts (string word) text value rest ↔ value = word ∧ text = word ++ rest := by
  unfold Accepts string
  cases starts : word.isPrefixOf text with
  | false =>
    have absent : text ≠ word ++ rest := by
      rintro rfl
      rw [List.isPrefixOf_iff_prefix.mpr ⟨rest, rfl⟩] at starts
      cases starts
    simp [pure, Except.pure, absent]
  | true =>
    obtain ⟨after, rfl⟩ := List.isPrefixOf_iff_prefix.mp starts
    simp [pure, Except.pure, eq_comm]

theorem rejects_string : Rejects (string word) text ↔ ¬ word <+: text := by
  unfold Rejects string
  rw [← List.isPrefixOf_iff_prefix]
  cases word.isPrefixOf text <;> simp [pure, Except.pure]

/-! ## Runs of characters -/

theorem rounds_satisfy {run : Text} :
    Rounds (satisfy test) text run rest ↔ text = run ++ rest ∧ ∀ c ∈ run, test c := by
  constructor
  · intro rounds
    induction rounds with
    | done => exact ⟨rfl, nofun⟩
    | next accepted _ _ ih =>
      obtain ⟨rfl, passes⟩ := accepts_satisfy.mp accepted
      obtain ⟨rfl, all⟩ := ih
      exact ⟨rfl, List.forall_mem_cons.mpr ⟨passes, all⟩⟩
  · rintro ⟨rfl, all⟩
    induction run with
    | nil => exact .done
    | cons c run ih =>
      obtain ⟨passes, all⟩ := List.forall_mem_cons.mp all
      exact .next (accepts_satisfy.mpr ⟨rfl, passes⟩) (by simp) (ih all)

theorem accepts_many_satisfy {run : Text} :
    Accepts (satisfy test).many text run rest
      ↔ text = run ++ rest ∧ (∀ c ∈ run, test c) ∧ rest.Stops test := by
  rw [accepts_many, rounds_satisfy, rejects_satisfy, and_assoc]

theorem accepts_many1_satisfy {run : Text} :
    Accepts (satisfy test).many1 text run rest
      ↔ run ≠ [] ∧ text = run ++ rest ∧ (∀ c ∈ run, test c) ∧ rest.Stops test := by
  simp only [many1, accepts_flatMap, accepts_map, accepts_satisfy, accepts_many_satisfy]
  constructor
  · rintro ⟨first, middle, ⟨rfl, passes⟩, others, ⟨rfl, all, stops⟩, rfl⟩
    exact ⟨nofun, rfl, List.forall_mem_cons.mpr ⟨passes, all⟩, stops⟩
  · rintro ⟨some, rfl, all, stops⟩
    obtain ⟨first, others, rfl⟩ := List.exists_cons_of_ne_nil some
    obtain ⟨passes, all⟩ := List.forall_mem_cons.mp all
    exact ⟨first, others ++ rest, ⟨rfl, passes⟩, others, ⟨rfl, all, stops⟩, rfl⟩

theorem rejects_many1_satisfy (stops : text.Stops test) :
    Rejects (satisfy test).many1 text :=
  (rejects_satisfy.mpr stops).flatMap _

theorem stops_dropWhile (test : Char → Bool) (text : Text) :
    Text.Stops test (text.dropWhile test) := by
  intro c starts
  have fails := List.head?_dropWhile_not test text
  rw [Option.mem_def.mp starts] at fails
  simpa using fails

theorem stops_of_takeWhile_eq_nil (none : text.takeWhile test = []) : text.Stops test := by
  have whole : text.takeWhile test ++ text.dropWhile test = text := List.takeWhile_append_dropWhile
  rw [none, List.nil_append] at whole
  rw [← whole]
  exact stops_dropWhile test text

theorem dropWhile_eq_of_stops {run : Text} (all : ∀ c ∈ run, test c) (stops : rest.Stops test) :
    (run ++ rest).dropWhile test = rest := by
  rw [List.dropWhile_append_of_pos all]
  cases rest with
  | nil => rfl
  | cons c rest => simp [Text.stops_cons.mp stops]

theorem accepts_skipBlank :
    Accepts skipBlank text () rest
      ↔ ∃ gap, text = gap ++ rest ∧ (∀ c ∈ gap, Unicode.isBlank c) ∧
          rest.Stops Unicode.isBlank := by
  unfold Accepts skipBlank
  simp only [pure, Except.pure, Except.ok.injEq, Outcome.success.injEq, true_and]
  constructor
  · rintro rfl
    exact ⟨text.takeWhile Unicode.isBlank, List.takeWhile_append_dropWhile.symm,
      fun c member => List.mem_takeWhile_imp member, stops_dropWhile _ _⟩
  · rintro ⟨gap, rfl, blank, stops⟩
    exact dropWhile_eq_of_stops blank stops

/-! ## Numbers -/

theorem accepts_naturalOf {bound : Int} {digits : Text} {number : Nat} :
    Accepts (naturalOf (fun number => pure (exceededLimit? (some bound) number)) digits)
        text number rest
      ↔ text = rest ∧ Text.decimalValue digits = number ∧ digits.length ≤ maxDigits ∧
          number ≤ bound := by
  unfold Accepts naturalOf exceededLimit?
  by_cases long : maxDigits < digits.length
  · simp only [long, if_true, pure, Except.pure]
    grind
  · by_cases large : bound < Text.decimalValue digits <;>
      simp only [long, large, if_true, if_false, bind, Except.bind, Option.bind, pure, Except.pure]
        <;> grind

theorem accepts_natural {bound : Int} {number : Nat} :
    Accepts (natural (some bound)) text number rest
      ↔ ∃ digits, digits ≠ [] ∧ text = digits ++ rest ∧
          (∀ c ∈ digits, Text.decimalDigits.contains c) ∧
          rest.Stops Text.decimalDigits.contains ∧
          Text.decimalValue digits = number ∧ digits.length ≤ maxDigits ∧ number ≤ bound := by
  change Accepts ((satisfy Text.decimalDigits.contains).many1.flatMap
    (naturalOf fun number => pure (exceededLimit? (some bound) number))) text number rest ↔ _
  simp only [accepts_flatMap, accepts_many1_satisfy, accepts_naturalOf]
  constructor
  · rintro ⟨digits, _, ⟨some, rfl, all, stops⟩, rfl, worth⟩
    exact ⟨digits, some, rfl, all, stops, worth⟩
  · rintro ⟨digits, some, rfl, all, stops, worth⟩
    exact ⟨digits, rest, ⟨some, rfl, all, stops⟩, rfl, worth⟩

theorem rejects_natural {limit : Option Int} (stops : text.Stops Text.decimalDigits.contains) :
    Rejects (natural limit) text :=
  (rejects_many1_satisfy stops).flatMap fun digits =>
    naturalOf (fun number => pure (exceededLimit? limit number)) digits

/-! ## Literals -/

theorem accepts_escapedQuote :
    Accepts ((string [escape, quote]).map fun _ => quote) text c rest
      ↔ c = quote ∧ text = escape :: quote :: rest := by
  simp only [accepts_map, accepts_string]
  constructor
  · rintro ⟨_, ⟨rfl, rfl⟩, rfl⟩
    exact ⟨rfl, rfl⟩
  · rintro ⟨rfl, rfl⟩
    exact ⟨_, ⟨rfl, rfl⟩, rfl⟩

theorem rejects_escapedQuote :
    Rejects ((string [escape, quote]).map fun _ => quote) (c :: text)
      ↔ ¬ (c = escape ∧ text.head? = some quote) := by
  rw [rejects_map, rejects_string, List.cons_prefix_cons, eq_comm]
  cases text <;> simp [eq_comm]

theorem accepts_literalChar :
    Accepts literalChar text c rest
      ↔ (c = quote ∧ text = escape :: quote :: rest) ∨
        (c ≠ quote ∧ text = c :: rest ∧ ¬ (c = escape ∧ rest.head? = some quote)) := by
  unfold literalChar noneOf
  rw [accepts_alternate, accepts_escapedQuote, accepts_satisfy]
  refine or_congr_right ?_
  constructor
  · rintro ⟨unescaped, rfl, plain⟩
    exact ⟨by simpa using plain, rfl, rejects_escapedQuote.mp unescaped⟩
  · rintro ⟨plain, rfl, unescaped⟩
    exact ⟨rejects_escapedQuote.mpr unescaped, rfl, by simpa using plain⟩

theorem rejects_literalChar (rest : Text) : Rejects literalChar (quote :: rest) := by
  refine rejects_alternate.mpr ⟨rejects_escapedQuote.mpr ?_, rejects_satisfy.mpr ?_⟩
  · rintro ⟨same, -⟩
    cases same
  · simp

theorem head?_escaped (c : Char) (content rest : Text) :
    (escaped (c :: content) ++ rest).head? ≠ some quote := by
  by_cases plain : c = quote
  · subst plain
    rw [escaped_quote, List.cons_append, List.head?_cons]
    decide
  · rw [escaped_cons plain]
    simpa using plain

theorem rounds_literalChar {content : Text} :
    Rounds literalChar text content (quote :: rest)
      ↔ text = escaped content ++ quote :: rest ∧ content.getLast? ≠ some escape := by
  induction content generalizing text with
  | nil =>
    constructor
    · rintro ⟨⟩
      exact ⟨rfl, nofun⟩
    · rintro ⟨rfl, -⟩
      exact .done
  | cons c content ih =>
    constructor
    · intro rounds
      cases rounds with
      | next accepted _ rounds =>
        obtain ⟨rfl, closed⟩ := ih.mp rounds
        rcases accepts_literalChar.mp accepted with ⟨rfl, rfl⟩ | ⟨plain, rfl, unescaped⟩
        · refine ⟨rfl, ?_⟩
          cases content with
          | nil => decide
          | cons d content => simpa using closed
        · refine ⟨by rw [escaped_cons plain]; rfl, ?_⟩
          cases content with
          | nil => simpa using unescaped
          | cons d content => simpa using closed
    · rintro ⟨rfl, closed⟩
      have shorter : (escaped content ++ quote :: rest).length
          < (escaped (c :: content) ++ quote :: rest).length := by
        by_cases plain : c = quote
        · subst plain
          simp only [escaped_quote, List.cons_append, List.length_cons]
          omega
        · simp [escaped_cons plain]
      refine .next (accepts_literalChar.mpr ?_) shorter (ih.mpr ⟨rfl, ?_⟩)
      · by_cases plain : c = quote
        · subst plain
          exact .inl ⟨rfl, rfl⟩
        · refine .inr ⟨plain, by rw [escaped_cons plain]; rfl, ?_⟩
          rintro ⟨escapes, quoted⟩
          -- only the end of the content can be followed by a quote
          cases content with
          | nil => exact closed (by rw [escapes]; rfl)
          | cons d content => exact head?_escaped d content _ quoted
      · cases content with
        | nil => nofun
        | cons d content => simpa using closed

theorem accepts_stringLiteral {content : Text} :
    Accepts stringLiteral text content rest
      ↔ text = quote :: (escaped content ++ quote :: rest) ∧ content.getLast? ≠ some escape := by
  have unfolded : stringLiteral = literalChar.many.between (char quote) (char quote) := rfl
  rw [unfolded, accepts_between]
  simp only [accepts_char, accepts_many]
  constructor
  · rintro ⟨inner, _, _, _, ⟨rfl, rfl⟩, ⟨rounds, -⟩, rfl, rfl⟩
    obtain ⟨rfl, closed⟩ := rounds_literalChar.mp rounds
    exact ⟨rfl, closed⟩
  · rintro ⟨rfl, closed⟩
    exact ⟨_, _, _, _, ⟨rfl, rfl⟩,
      ⟨rounds_literalChar.mpr ⟨rfl, closed⟩, rejects_literalChar rest⟩, rfl, rfl⟩

theorem rejects_stringLiteral (unquoted : text.head? ≠ some quote) :
    Rejects stringLiteral text :=
  (rejects_char.mpr unquoted).between _ _

end Parser
end Descent
