import Descent.Proofs.Blanks
import Descent.Proofs.Natural

/-!
# Spans

The longest run of characters that a text begins with and that all pass a test. Main statement: this is
what a repeated parser of single characters takes, and it leaves the rest. It may find none if it is
repeated any number of times, and fails there, at the text itself, if at least once. So the value and
the rest of runs of letters, of the digits of a number, and of given or other characters make up the text.

A repetition is never endless here, in any monad and in any grammar, because each round takes a
character.
-/

namespace Descent

namespace Text

variable {test : Char → Bool}

structure Span (test : Char → Bool) (text run rest : Text) : Prop where
  whole : run ++ rest = text
  passes : ∀ c ∈ run, test c
  longest : ∀ other, other <+: text → (∀ c ∈ other, test c) → other <+: run

theorem span_takeWhile (test : Char → Bool) (text : Text) :
    text.Span test (text.takeWhile test) (text.dropWhile test) := by
  refine ⟨List.takeWhile_append_dropWhile, fun _ => List.mem_takeWhile_imp, ?_⟩
  rintro other ⟨after, rfl⟩ passes
  rw [List.takeWhile_append_of_pos passes]
  exact List.prefix_append other _

theorem Span.unique {text run rest run' rest' : Text} (span : text.Span test run rest)
    (span' : text.Span test run' rest') : run = run' ∧ rest = rest' := by
  have within : run <+: run' := span'.longest run ⟨rest, span.whole⟩ span.passes
  have within' : run' <+: run := span.longest run' ⟨rest', span'.whole⟩ span'.passes
  obtain rfl := within.eq_of_length_le within'.length_le
  exact ⟨rfl, List.append_cancel_left (span.whole.trans span'.whole.symm)⟩

/-- What comes of a run of characters that must not be empty. -/
def runOutcome (text run rest : Text) : Outcome Value :=
  if run = [] then .failure ⟨text.failureMessage, text, []⟩ else .success (.str run) rest

end Text

/-! ## Repetition at least once -/

namespace Parser

variable {m : Type → Type} [Monad m] [MonadExceptOf Fault m] {α : Type} {p : Parser m α}
  {test : Char → Bool} {value : Char → α} {text : Text}

theorem lift_of_ok {p : Parser (Except Fault) α} {outcome : Outcome α} (ran : p text = .ok outcome) :
    (p.lift : Parser m α) text = pure outcome := by
  unfold lift
  rw [ran]
  rfl

variable [LawfulMonad m]

theorem Single.many1 (single : p.Single test value) (some : text.takeWhile test ≠ []) :
    p.many1 text
      = pure (.success ((text.takeWhile test).map value) (text.dropWhile test)) := by
  cases text with
  | nil => exact absurd rfl some
  | cons c text =>
    have passes : test c := by
      by_contra fails
      exact some (List.takeWhile_cons_of_neg fails)
    -- the first round stands before the loop, which goes on from the text after it
    unfold Parser.many1 flatMap
    rw [single.takes c text passes, single.many]
    simp [Outcome.flatMapSuccess, Parser.map, Parser.mapM, Outcome.mapValue, passes]

theorem many1_of_stopped {f : Failure} (failed : p text = pure (.failure f)) :
    p.many1 text = pure (.failure f) := by
  unfold Parser.many1 flatMap
  rw [failed, pure_bind]
  rfl

end Parser

/-! ## Characters as values -/

namespace Value

/-- The characters of a text, one by one. -/
def chars (text : Text) : Value := .list (text.map fun c => .str [c])

theorem joinItems_chars (text : Text) : joinItems (text.map fun c => .str [c]) = .ok text := by
  induction text with
  | nil => rfl
  | cons c text ih =>
    simp only [List.map_cons, joinItems, toText?, ih]
    rfl

theorem joinText_chars (text : Text) : joinText (chars text) = .ok (.str text) := by
  simp only [joinText, chars, items, bind, Except.bind, joinItems_chars]
  rfl

end Value

/-! ## Grammars -/

namespace Expr

variable {ι : Type}

/-- Wherever an expression stands, it gives an outcome on a text, and does nothing else. -/
def Gives (p : Expr ι) (text : Text) (outcome : Outcome Value) : Prop :=
  ∀ (m : Type → Type) [Monad m] [LawfulMonad m] [MonadExceptOf Fault m] (host : Host ι m)
    (self : Expr ι), denote host self p text = pure outcome

theorem gives_prim {p : Primitive} {text : Text} {outcome : Outcome Value}
    (ran : p.parse text = .ok outcome) : (Expr.prim p : Expr ι).Gives text outcome :=
  fun _ _ _ _ _ _ => Parser.lift_of_ok ran

variable {p : Expr ι} {test : Char → Bool} {text run rest : Text}

theorem Gives.asString_chars (gives : p.Gives text (.success (Value.chars run) rest)) :
    p.asString.Gives text (.success (.str run) rest) := by
  intro m _ _ _ host self
  show (denote host self p).mapM _ text = _
  unfold Parser.mapM
  rw [gives m host self, pure_bind]
  simp only [Outcome.mapValue, Value.joinText_chars]
  exact pure_bind (Value.str run) _

theorem Gives.asString_failure {f : Failure} (gives : p.Gives text (.failure f)) :
    p.asString.Gives text (.failure f) := by
  intro m _ _ _ host self
  show (denote host self p).mapM _ text = _
  unfold Parser.mapM
  rw [gives m host self, pure_bind]
  rfl

section Single

variable {single : Primitive}
  (passing : single.parse = (Parser.satisfy test).map fun c => .str [c])

include passing

theorem single_lift_parse {m : Type → Type} [Monad m] [LawfulMonad m] [MonadExceptOf Fault m] :
    (single.parse.lift : Parser m Value).Single test fun c => .str [c] := by
  rw [passing]
  exact Parser.single_lift ((Parser.single_satisfy test).map _)

theorem gives_many (text : Text) : (Expr.prim single : Expr ι).many.Gives text
    (.success (Value.chars (text.takeWhile test)) (text.dropWhile test)) := by
  intro m _ _ _ host self
  show (single.parse.lift.many.map Value.list) text = _
  unfold Parser.map Parser.mapM
  rw [(single_lift_parse passing).many, pure_bind]
  exact pure_bind (Value.chars _) _

theorem gives_many1 (some : text.takeWhile test ≠ []) :
    (Expr.unary .many1 (.prim single) : Expr ι).Gives text
      (.success (Value.chars (text.takeWhile test)) (text.dropWhile test)) := by
  intro m _ _ _ host self
  show (single.parse.lift.many1.map Value.list) text = _
  unfold Parser.map Parser.mapM
  rw [(single_lift_parse passing).many1 some, pure_bind]
  exact pure_bind (Value.chars _) _

theorem gives_many1_failure (none : text.takeWhile test = []) :
    (Expr.unary .many1 (.prim single) : Expr ι).Gives text
      (.failure ⟨text.failureMessage, text, []⟩) := by
  have failed : single.parse text = .ok (.failure ⟨text.failureMessage, text, []⟩) := by
    rw [passing]
    exact Parser.map_of_failure (Parser.satisfy_of_stops (Parser.stops_of_takeWhile_eq_nil none)) _
  intro m _ _ _ host self
  show (single.parse.lift.many1.map Value.list) text = _
  unfold Parser.map Parser.mapM
  rw [Parser.many1_of_stopped (Parser.lift_of_ok failed), pure_bind]
  rfl

end Single

/-- However expressions are run, repeating a parser of single characters takes spans. -/
def TakesSpans (gives : Expr ι → Text → Outcome Value → Prop) (p : Expr ι) (test : Char → Bool) :
    Prop :=
  ∀ text, ∃ run rest, Text.Span test text run rest ∧
    gives p.many text (.success (Value.chars run) rest) ∧
    gives p.many.asString text (.success (.str run) rest) ∧
    gives (Expr.unary .many1 p).asString text (text.runOutcome run rest)

theorem takesSpans {single : Primitive}
    (passing : single.parse = (Parser.satisfy test).map fun c => .str [c]) :
    TakesSpans Gives (Expr.prim single : Expr ι) test := by
  intro text
  have many : (Expr.prim single : Expr ι).many.Gives text _ := gives_many passing text
  refine ⟨text.takeWhile test, text.dropWhile test, text.span_takeWhile test, many,
    many.asString_chars, ?_⟩
  unfold Text.runOutcome
  split
  · next none => exact (gives_many1_failure passing none).asString_failure
  · next some => exact (gives_many1 passing some).asString_chars

theorem TakesSpans.mono {gives gives' : Expr ι → Text → Outcome Value → Prop}
    (spans : TakesSpans gives p test)
    (weaken : ∀ p text outcome, gives p text outcome → gives' p text outcome) :
    TakesSpans gives' p test := by
  intro text
  obtain ⟨run, rest, span, many, joined, some⟩ := spans text
  exact ⟨run, rest, span, weaken _ _ _ many, weaken _ _ _ joined, weaken _ _ _ some⟩

/-- However expressions are run, lexical parsers take spans. -/
structure ReadsSpans (gives : Expr ι → Text → Outcome Value → Prop) : Prop where
  satisfy : ∀ accepts test, (∀ c, accepts c = .ok (test c)) →
    TakesSpans gives (.prim (.satisfy accepts)) test
  oneOf : ∀ chars, chars ≠ [] → ∃ p, Primitive.oneOf chars = .ok p ∧
    TakesSpans gives (.prim p) chars.contains
  noneOf : ∀ chars, TakesSpans gives (.prim (.noneOf chars)) fun c => !chars.contains c
  letters : ∀ text, ∃ run rest, Text.Span Unicode.isLetter text run rest ∧
    gives (.prim .letters) text (text.runOutcome run rest)
  /-- A number fails after its digits or succeeds with what they write. -/
  natural : ∀ limit text, ∃ digits outcome,
    Text.Span Text.decimalDigits.contains text digits outcome.remaining ∧
    gives (.prim (.natural (Lexical.limitValue limit))) text outcome ∧
    ∀ value rest, outcome = .success value rest → value = .int (Nat.ofDigits 10 digits.digitValues : Nat)

theorem ReadsSpans.mono {gives gives' : Expr ι → Text → Outcome Value → Prop}
    (spans : ReadsSpans gives)
    (weaken : ∀ p text outcome, gives p text outcome → gives' p text outcome) :
    ReadsSpans gives' where
  satisfy accepts test never := (spans.satisfy accepts test never).mono weaken
  oneOf chars some := by
    obtain ⟨p, made, taken⟩ := spans.oneOf chars some
    exact ⟨p, made, taken.mono weaken⟩
  noneOf chars := (spans.noneOf chars).mono weaken
  letters text := by
    obtain ⟨run, rest, span, ran⟩ := spans.letters text
    exact ⟨run, rest, span, weaken _ _ _ ran⟩
  natural limit text := by
    obtain ⟨digits, outcome, span, ran, worth⟩ := spans.natural limit text
    exact ⟨digits, outcome, span, weaken _ _ _ ran, worth⟩

theorem parse_letters (text : Text) : Primitive.letters.parse text
    = .ok (text.runOutcome (text.takeWhile Unicode.isLetter) (text.dropWhile Unicode.isLetter)) := by
  show (Parser.satisfy Unicode.isLetter).many1.map Value.str text = _
  unfold Text.runOutcome
  split
  · next none =>
    have stops := Parser.stops_of_takeWhile_eq_nil none
    exact Parser.map_of_failure (Parser.many1_of_stopped (Parser.satisfy_of_stops stops)) _
  · next some =>
    have taken := (Parser.single_satisfy (m := Except Fault) Unicode.isLetter).many1 some
    rw [List.map_id] at taken
    exact Parser.map_of_accepts taken _

theorem readsSpans : ReadsSpans (@Gives ι) where
  satisfy accepts test never := by
    obtain rfl : accepts = fun c => .ok (test c) := funext never
    exact takesSpans rfl
  oneOf chars some := by
    refine ⟨_, if_neg ?_, takesSpans rfl⟩
    simpa using some
  noneOf chars := takesSpans rfl
  letters text := ⟨_, _, text.span_takeWhile _, gives_prim (parse_letters text)⟩
  natural limit text := by
    obtain ⟨outcome, ended, rest, worth⟩ := (Lexical.naturalAnswer limit text).ends
    have span := text.span_takeWhile Text.decimalDigits.contains
    exact ⟨text.leadingDigits, outcome, rest ▸ span, gives_prim (Answer.ofRun_eq_outcome.mp ended),
      worth⟩

end Expr

/-! ## Sessions -/

namespace Session

theorem ran_of_gives (session : Session) {p : Expr Link} {text : Text} {outcome : Outcome Value}
    (gives : p.Gives text outcome) : session.ran (.fix p) text = (.ok outcome, session.memory) := by
  obtain ⟨depth, deep⟩ := session.exists_depth text
  unfold ran
  rw [deep]
  exact congrArg (fun run : Run (Outcome Value) => run.run.run session.memory) (gives Run _ _)

/-- In every grammar and in every run of a session, a repeated parser of single characters takes the
longest run that passes its test, and never ends in a fault; so do the lexical parsers that repeat one.
Building such parsers needs no more than their parts. -/
theorem repetition_takes_spans :
    (∀ ι : Type, Expr.ReadsSpans (@Expr.Gives ι)) ∧
    (∀ session : Session, Expr.ReadsSpans fun p text outcome =>
      session.ran (.fix p) text = (.ok outcome, session.memory)) ∧
    ∀ (session : Session) (p : Primitive),
      let next := { session with builds := session.builds + 1 }
      session.build (.prim p) = .ok (.fix (.prim p), next) ∧
      session.build (Expr.prim p).many = .ok (.fix (Expr.prim p).many, next) ∧
      session.build (Expr.prim p).many.asString = .ok (.fix (Expr.prim p).many.asString, next) ∧
      session.build (Expr.unary .many1 (.prim p)).asString
        = .ok (.fix (Expr.unary .many1 (.prim p)).asString, next) := by
  refine ⟨fun ι => Expr.readsSpans, fun session => ?_, fun session p => ⟨rfl, rfl, rfl, rfl⟩⟩
  exact Expr.readsSpans.mono fun p text outcome => session.ran_of_gives

/-- The vowels at the start of a text. Where there are none, one is missing. -/
theorem repetition_takes_spans_vowels :
    let vowels : Text := ['a', 'e', 'i', 'o', 'u']
    let p : Expr Link := .prim (.satisfy fun c => .ok (vowels.contains c))
    empty.ran (.fix (Expr.unary .many1 p).asString) ['e', 'a', 'r']
      = (.ok (.success (.str ['e', 'a']) ['r']), .empty) ∧
    empty.ran (.fix (Expr.unary .many1 p).asString) ['r', 'a']
      = (.ok (.failure ⟨"Failed at char 'r' in \"ra\"", ['r', 'a'], []⟩), .empty) := by
  intro vowels p
  obtain ⟨-, runs, -⟩ := repetition_takes_spans
  have taken := (runs empty).satisfy _ vowels.contains (fun _ => rfl)
  constructor
  · obtain ⟨run, rest, span, -, -, ran⟩ := taken ['e', 'a', 'r']
    obtain ⟨rfl, rfl⟩ := span.unique (Text.span_takeWhile _ _)
    exact ran
  · obtain ⟨run, rest, span, -, -, ran⟩ := taken ['r', 'a']
    obtain ⟨rfl, rfl⟩ := span.unique (Text.span_takeWhile _ _)
    exact ran

end Session
end Descent
