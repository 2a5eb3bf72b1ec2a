import Descent.Proofs.Acceptance.Failure
import Descent.Proofs.Errors
import Descent.Proofs.Json.Dialect
import Descent.Proofs.Memoryless
import Mathlib.Data.Nat.Digits.Defs

/-!
# Natural numbers

Main statement: the parser of natural numbers takes all the ASCII digits that a text begins with. It
gives the exact number that they write, or it fails after them: where they are too many, where the
number is above the limit, or at the start of the text where there is none. So a number that is within
the limit is read back, after as many zeros as fit, and a higher limit changes no success.
-/

namespace Descent

/-! ## Digits -/

namespace Text

/-- All the digits that a text begins with. -/
def leadingDigits (text : Text) : Text := text.takeWhile decimalDigits.contains

def afterDigits (text : Text) : Text := text.dropWhile decimalDigits.contains

/-- What the digits stand for, the least significant one first. -/
def digitValues (digits : Text) : List Nat := digits.reverse.map decimalDigits.idxOf

variable {text digits rest : Text}

theorem leadingDigits_append_afterDigits (text : Text) :
    text.leadingDigits ++ text.afterDigits = text :=
  List.takeWhile_append_dropWhile

theorem decimal_of_mem_leadingDigits {c : Char} (member : c ∈ text.leadingDigits) :
    decimalDigits.contains c :=
  List.mem_takeWhile_imp member

theorem stops_afterDigits (text : Text) : text.afterDigits.Stops decimalDigits.contains :=
  Parser.stops_dropWhile _ _

theorem afterDigits_append (decimal : ∀ c ∈ digits, decimalDigits.contains c)
    (stops : rest.Stops decimalDigits.contains) : (digits ++ rest).afterDigits = rest :=
  Parser.dropWhile_eq_of_stops decimal stops

theorem leadingDigits_append (decimal : ∀ c ∈ digits, decimalDigits.contains c)
    (stops : rest.Stops decimalDigits.contains) : (digits ++ rest).leadingDigits = digits := by
  have whole := leadingDigits_append_afterDigits (digits ++ rest)
  rw [afterDigits_append decimal stops] at whole
  exact List.append_cancel_right whole

theorem stops_of_leadingDigits_eq_nil (none : text.leadingDigits = []) :
    text.Stops decimalDigits.contains :=
  Parser.stops_of_takeWhile_eq_nil none

theorem toNat_sub_eq_idxOf {c : Char} (digit : decimalDigits.contains c) :
    c.toNat - '0'.toNat = decimalDigits.idxOf c := by
  have each : ∀ d ∈ decimalDigits, d.toNat - '0'.toNat = decimalDigits.idxOf d := by
    simp [decimalDigits, List.idxOf_cons]
  exact each c (List.contains_iff_mem.mp digit)

theorem decimalValue_eq_ofDigits (decimal : ∀ c ∈ digits, decimalDigits.contains c) :
    decimalValue digits = Nat.ofDigits 10 digits.digitValues := by
  induction digits using List.reverseRecOn with
  | nil => rfl
  | append_singleton digits c ih =>
    have last := toNat_sub_eq_idxOf (decimal c (by simp))
    have others := ih fun d member => decimal d (List.mem_append_left _ member)
    rw [decimalValue_append_singleton, last, others]
    simp [digitValues, Nat.ofDigits_cons, Nat.add_comm]

theorem decimalValue_zeros (zeros : Nat) (digits : Text) :
    decimalValue (List.replicate zeros '0' ++ digits) = decimalValue digits := by
  have nothing : decimalValue (List.replicate zeros '0') = 0 := by
    induction zeros with
    | zero => rfl
    | succ zeros ih =>
      rw [List.replicate_succ', decimalValue_append_singleton, ih]
      decide
  unfold decimalValue at *
  rw [List.foldl_append, nothing]

/-- The text of a number, after some zeros. -/
def padded (zeros number : Nat) : Text := List.replicate zeros '0' ++ Nat.toDigits 10 number

theorem decimal_of_mem_padded {zeros number : Nat} {c : Char} (member : c ∈ padded zeros number) :
    decimalDigits.contains c := by
  rcases List.mem_append.mp member with zero | digit
  · rw [List.eq_of_mem_replicate zero]
    rfl
  · exact Grammar.Json.decimal_of_mem_toDigits digit

theorem decimalValue_padded (zeros number : Nat) : decimalValue (padded zeros number) = number := by
  rw [padded, decimalValue_zeros]
  exact Nat.ofDigitChars_toDigits (by decide) (by decide)

end Text

open Lexical

/-! ## Outcomes -/

namespace Parser

variable {text : Text}

theorem natural_of_stops (limit : Option Int) (stops : text.Stops Text.decimalDigits.contains) :
    (natural limit : Parser (Except Fault) Nat) text
      = .ok (.failure ⟨text.failureMessage, text, []⟩) := by
  have first : (satisfy Text.decimalDigits.contains : Parser (Except Fault) Char) text = _ :=
    satisfy_of_stops stops
  have digits : (satisfy Text.decimalDigits.contains).many1 text = _ := flatMap_of_failure first _
  exact flatMap_of_failure digits (naturalOf fun number => pure (exceededLimit? limit number))

theorem natural_of_digits (limit : Option Int) (some : text.leadingDigits ≠ []) :
    (natural limit : Parser (Except Fault) Nat) text
      = naturalOf (fun number => pure (exceededLimit? limit number)) text.leadingDigits
          text.afterDigits := by
  have digits : Accepts (satisfy Text.decimalDigits.contains).many1 text text.leadingDigits
      text.afterDigits :=
    accepts_many1_satisfy.mpr ⟨some, text.leadingDigits_append_afterDigits.symm,
      fun _ => Text.decimal_of_mem_leadingDigits, text.stops_afterDigits⟩
  exact flatMap_of_accepts digits _

end Parser

/-! ## Answers -/

/-- The value that a limit is given as. -/
def Lexical.limitValue : Option Int → Value
  | none => .null
  | some bound => .int bound

theorem Primitive.parse_natural (limit : Option Int) :
    (Primitive.natural (limitValue limit)).parse
      = (Parser.natural limit).map fun number => .int number := by
  cases limit with
  | none => exact parse_natural_null
  | some bound => exact parse_natural_int bound

/-- The number that the digits at the start of a text write. -/
def Text.number (text : Text) : Nat := Nat.ofDigits 10 text.leadingDigits.digitValues

theorem Text.decimalValue_leadingDigits (text : Text) :
    decimalValue text.leadingDigits = text.number :=
  decimalValue_eq_ofDigits fun _ => decimal_of_mem_leadingDigits

/-- What the parser of natural numbers up to a limit answers on a text. -/
structure Lexical.NaturalAnswer (limit : Option Int) (text : Text) (answer : Answer) : Prop where
  missing : text.leadingDigits = [] →
    answer = .outcome (.failure ⟨text.failureMessage, text, []⟩)
  tooLong : maxDigits < text.leadingDigits.length →
    answer = .outcome (.failure
      ⟨"Natural number too long: \"" ++ text.leadingDigits.snippet ++ "\"", text.afterDigits, []⟩)
  tooLarge : text.leadingDigits ≠ [] → text.leadingDigits.length ≤ maxDigits →
    ∀ bound ∈ limit, bound < text.number → answer = .outcome (.failure
      ⟨"Natural number \"" ++ text.leadingDigits.snippet ++ "\" is larger than " ++ toString bound,
        text.afterDigits, []⟩)
  accepted : text.leadingDigits ≠ [] → text.leadingDigits.length ≤ maxDigits →
    (∀ bound ∈ limit, text.number ≤ bound) →
      answer = .outcome (.success (.int text.number) text.afterDigits)

theorem Lexical.naturalAnswer (limit : Option Int) (text : Text) :
    NaturalAnswer limit text
      (.ofRun .parse text ((Primitive.natural (limitValue limit)).parse text)) := by
  have some_of_long (long : maxDigits < text.leadingDigits.length) : text.leadingDigits ≠ [] := by
    intro none
    rw [none] at long
    cases long
  rw [Primitive.parse_natural]
  constructor
  · intro none
    have failed := Parser.natural_of_stops limit (Text.stops_of_leadingDigits_eq_nil none)
    rw [Parser.map_of_failure failed]
    rfl
  · intro long
    have failed := Parser.natural_of_digits limit (some_of_long long)
    rw [Parser.naturalOf, if_pos long] at failed
    rw [Parser.map_of_failure failed]
    rfl
  · rintro some short bound rfl large
    have failed := Parser.natural_of_digits bound some
    rw [Parser.naturalOf, if_neg (Nat.not_lt.mpr short), text.decimalValue_leadingDigits] at failed
    simp only [Parser.exceededLimit?, Option.bind_some, if_pos large] at failed
    rw [Parser.map_of_failure failed]
    rfl
  · intro some short within
    have accepted := Parser.natural_of_digits limit some
    have unexceeded : Parser.exceededLimit? limit text.number = none := by
      cases limit with
      | none => rfl
      | some bound => exact if_neg (Int.not_lt.mpr (within bound rfl))
    rw [Parser.naturalOf, if_neg (Nat.not_lt.mpr short), text.decimalValue_leadingDigits] at accepted
    simp only [unexceeded] at accepted
    rw [Parser.map_of_accepts accepted]
    rfl

namespace Lexical.NaturalAnswer

variable {limit limit' : Option Int} {text : Text} {answer answer' : Answer}

/-- The parser ends in an outcome, right after the digits; a success has their number. -/
theorem ends (answers : NaturalAnswer limit text answer) : ∃ outcome, answer = .outcome outcome ∧
    outcome.remaining = text.afterDigits ∧
    ∀ value rest, outcome = .success value rest → value = .int text.number := by
  by_cases none : text.leadingDigits = []
  · have whole := text.leadingDigits_append_afterDigits
    rw [none, List.nil_append] at whole
    exact ⟨_, answers.missing none, whole.symm, nofun⟩
  by_cases long : maxDigits < text.leadingDigits.length
  · exact ⟨_, answers.tooLong long, rfl, nofun⟩
  by_cases within : ∀ bound ∈ limit, text.number ≤ bound
  · refine ⟨_, answers.accepted none (Nat.not_lt.mp long) within, rfl, ?_⟩
    rintro _ _ ⟨⟩
    rfl
  · simp only [not_forall, not_le] at within
    obtain ⟨bound, set, large⟩ := within
    exact ⟨_, answers.tooLarge none (Nat.not_lt.mp long) bound set large, rfl, nofun⟩

theorem outcome (answers : NaturalAnswer limit text answer) : ∃ outcome, answer = .outcome outcome := by
  obtain ⟨outcome, ended, -⟩ := answers.ends
  exact ⟨outcome, ended⟩

theorem of_success (answers : NaturalAnswer limit text answer) {value : Value} {rest : Text}
    (success : answer = .outcome (.success value rest)) :
    text.leadingDigits ≠ [] ∧ text.leadingDigits.length ≤ maxDigits ∧
      ∀ bound ∈ limit, text.number ≤ bound := by
  have some : text.leadingDigits ≠ [] := by
    intro none
    cases success.symm.trans (answers.missing none)
  have short : text.leadingDigits.length ≤ maxDigits := by
    by_contra long
    cases success.symm.trans (answers.tooLong (Nat.not_le.mp long))
  refine ⟨some, short, fun bound set => ?_⟩
  by_contra large
  cases success.symm.trans (answers.tooLarge some short bound set (Int.not_le.mp large))

/-- A higher limit, or none, changes no success. -/
theorem mono (answers : NaturalAnswer limit text answer)
    (answers' : NaturalAnswer limit' text answer')
    (higher : ∀ bound' ∈ limit', ∃ bound ∈ limit, bound ≤ bound') {value : Value} {rest : Text}
    (success : answer = .outcome (.success value rest)) :
    answer' = .outcome (.success value rest) := by
  obtain ⟨some, short, within⟩ := answers.of_success success
  rw [← success, answers.accepted some short within]
  apply answers'.accepted some short
  intro bound' set'
  obtain ⟨bound, set, le⟩ := higher bound' set'
  exact (within bound set).trans le

theorem padded {zeros number : Nat} {rest : Text}
    (answers : NaturalAnswer limit (Text.padded zeros number ++ rest) answer)
    (short : zeros + (Nat.toDigits 10 number).length ≤ maxDigits)
    (within : ∀ bound ∈ limit, (number : Int) ≤ bound)
    (stops : rest.Stops Text.decimalDigits.contains) :
    answer = .outcome (.success (.int number) rest) := by
  have decimal : ∀ c ∈ Text.padded zeros number, Text.decimalDigits.contains c :=
    fun _ => Text.decimal_of_mem_padded
  have digits := Text.leadingDigits_append decimal stops
  have worth : Text.number (Text.padded zeros number ++ rest) = number := by
    rw [← Text.decimalValue_leadingDigits, digits, Text.decimalValue_padded]
  have accepted := answers.accepted
  rw [digits, worth, Text.afterDigits_append decimal stops] at accepted
  apply accepted
  · simp [Text.padded]
  · simpa [Text.padded] using short
  · exact within

end Lexical.NaturalAnswer

/-- In every session and for every limit the parser of natural numbers can be built, and on every text
it answers as `NaturalAnswer` says, never with a fault. A number within the limit is read back after
any zeros that fit. What a limit lets pass, every higher one does, and so does the lack of one. -/
theorem Session.natural_exact (session : Session) (limit : Option Int) :
    let parser : Expr Link := .fix (.prim (.natural (limitValue limit)))
    (∃ next, session.build (.prim (.natural (limitValue limit))) = .ok (parser, next)) ∧
    (∀ text, NaturalAnswer limit text (session.answer parser text .parse) ∧
      ∃ outcome, session.answer parser text .parse = .outcome outcome) ∧
    (∀ (zeros number : Nat) (rest : Text), zeros + (Nat.toDigits 10 number).length ≤ maxDigits →
      (∀ bound ∈ limit, (number : Int) ≤ bound) → rest.Stops Text.decimalDigits.contains →
        session.answer parser (List.replicate zeros '0' ++ Nat.toDigits 10 number ++ rest) .parse
          = .outcome (.success (.int number) rest)) ∧
    ∀ higher : Option Int, (∀ bound' ∈ higher, ∃ bound ∈ limit, bound ≤ bound') →
      ∀ text value rest, session.answer parser text .parse = .outcome (.success value rest) →
        session.answer (.fix (.prim (.natural (limitValue higher)))) text .parse
          = .outcome (.success value rest) := by
  have answers (limit : Option Int) (text : Text) : NaturalAnswer limit text
      (session.answer (.fix (.prim (.natural (limitValue limit)))) text .parse) := by
    rw [answer_eq, parse_prim]
    exact naturalAnswer limit text
  refine ⟨⟨_, rfl⟩, fun text => ⟨answers limit text, (answers limit text).outcome⟩, ?_, ?_⟩
  · intro zeros number rest short within stops
    exact (answers limit _).padded short within stops
  · intro higher above text value rest success
    exact (answers limit text).mono (answers higher text) above success

theorem Session.natural_exact_padded :
    empty.answer (.fix (.prim (.natural (.int 7)))) ['0', '0', '7', 'x'] .parse
      = .outcome (.success (.int 7) ['x']) := by
  have readBack := (natural_exact empty (some 7)).2.2.1
  exact readBack 2 7 ['x'] (by decide) (by simp) (Text.stops_cons.mpr (by decide))

end Descent
