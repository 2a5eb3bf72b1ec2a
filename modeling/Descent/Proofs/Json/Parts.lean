import Descent.Proofs.Json.Document
import Descent.Proofs.SelfContained

/-!
# The parts of the grammar of documents

What each part of the grammar accepts, told by the parts of documents, and on which first characters
it rejects. The parser that stands for the whole one inside it may be any parser here.
-/

namespace Descent.Grammar.Json

open Descent.Parser Descent.Expr Lexical

/-- The alternatives of a value, without the blanks after them, each with the characters that it can
begin with. -/
def alternatives : List (Expr Mention × (Char → Bool)) :=
  [(number, Text.decimalDigits.contains), (Json.text, (· == quote)),
    (boolean, fun c => c == 't' || c == 'f'), (null, (· == 'n')), (array, (· == '[')),
    (object, (· == '{'))]

/-- What the grammar repeats inside itself. -/
def body : Expr Mention := .choice (alternatives.map (·.1.token))

/-- What a part of the grammar stands for inside a parser of values. -/
abbrev meaning {m : Type → Type} [Monad m] [MonadExceptOf Fault m] (whole : Parser m Value)
    (p : Expr Mention) : Parser m Value :=
  Expr.denote (.recursive whole) body p

variable {whole : Parser (Except Fault) Value} {p : Expr Mention} {text rest : Text}
  {result : Value}

/-! ## Parts without documents inside -/

theorem accepts_number :
    Accepts (meaning whole number) text result rest
      ↔ ∃ digits : Digits, Value.int (Text.decimalValue digits.text) = result ∧
          text = digits.text ++ rest ∧ rest.Stops Text.decimalDigits.contains := by
  change Accepts (Primitive.natural (.int maxNatural)).parse.lift _ _ _ ↔ _
  rw [lift_eq, Primitive.parse_natural_int]
  simp only [accepts_map, accepts_natural]
  constructor
  · rintro ⟨_, ⟨digits, nonempty, rfl, decimal, stops, rfl, short, small⟩, rfl⟩
    exact ⟨⟨digits, nonempty, decimal, short, by exact_mod_cast small⟩, rfl, rfl, stops⟩
  · rintro ⟨digits, rfl, rfl, stops⟩
    exact ⟨_, ⟨digits.text, digits.nonempty, rfl, digits.decimal, stops, rfl, digits.short,
      by exact_mod_cast digits.small⟩, rfl⟩

theorem rejects_number (stops : text.Stops Text.decimalDigits.contains) :
    Rejects (meaning whole number) text := by
  change Rejects (Primitive.natural (.int maxNatural)).parse.lift _
  rw [lift_eq, Primitive.parse_natural_int, rejects_map]
  exact rejects_natural stops

theorem accepts_literal {ι : Type} {host : Host ι (Except Fault)} {self : Expr ι} :
    Accepts (denote host self (.prim .stringLiteral)) text result rest
      ↔ ∃ content : Content, Value.str content.content = result ∧ text = content.text ++ rest := by
  change Accepts (stringLiteral.map Value.str).lift _ _ _ ↔ _
  simp only [lift_eq, accepts_map, accepts_stringLiteral]
  constructor
  · rintro ⟨content, ⟨rfl, closed⟩, rfl⟩
    exact ⟨⟨content, closed⟩, rfl, by simp [Content.text]⟩
  · rintro ⟨content, rfl, rfl⟩
    exact ⟨content.content, ⟨by simp [Content.text], content.closed⟩, rfl⟩

theorem accepts_text :
    Accepts (meaning whole Json.text) text result rest
      ↔ ∃ content : Content, Value.str content.content = result ∧ text = content.text ++ rest :=
  accepts_literal

theorem rejects_literal {ι : Type} {host : Host ι (Except Fault)} {self : Expr ι}
    (unquoted : text.head? ≠ some quote) :
    Rejects (denote host self (.prim .stringLiteral)) text := by
  change Rejects (stringLiteral.map Value.str).lift _
  rw [lift_eq, rejects_map]
  exact rejects_stringLiteral unquoted

theorem rejects_text (unquoted : text.head? ≠ some quote) :
    Rejects (meaning whole Json.text) text :=
  rejects_literal unquoted

theorem accepts_boolean :
    Accepts (meaning whole boolean) text result rest
      ↔ ∃ word : Keyword, word ≠ .null ∧ word.value = result ∧ text = word.text ++ rest := by
  change Accepts (Parser.alternate (meaning whole ((Expr.string "true").mapTo fun _ => .bool true))
    (meaning whole ((Expr.string "false").mapTo fun _ => .bool false))) _ _ _ ↔ _
  rw [accepts_alternate, accepts_word, accepts_word]
  constructor
  · rintro (⟨rfl, rfl⟩ | ⟨-, rfl, rfl⟩)
    · exact ⟨.true, nofun, rfl, rfl⟩
    · exact ⟨.false, nofun, rfl, rfl⟩
  · rintro ⟨word, notNull, rfl, rfl⟩
    cases word with
    | true => exact .inl ⟨rfl, rfl⟩
    | false => exact .inr ⟨rejects_word 't' rfl (by simp [Keyword.text]), rfl, rfl⟩
    | null => cases notNull rfl

theorem rejects_boolean (notTrue : text.head? ≠ some 't') (notFalse : text.head? ≠ some 'f') :
    Rejects (meaning whole boolean) text :=
  rejects_alternate.mpr ⟨rejects_word 't' rfl notTrue, rejects_word 'f' rfl notFalse⟩

theorem accepts_null :
    Accepts (meaning whole null) text result rest
      ↔ Value.null = result ∧ text = Keyword.null.text ++ rest :=
  accepts_word

theorem rejects_null (notNull : text.head? ≠ some 'n') : Rejects (meaning whole null) text :=
  rejects_word 'n' rfl notNull

/-! ## Parts with documents inside -/

theorem exists_gap (text : Text) :
    ∃ (gap : Gap) (rest : Text), text = gap.text ++ rest ∧ rest.Stops Unicode.isBlank :=
  ⟨⟨text.takeWhile Unicode.isBlank, fun _ member => List.mem_takeWhile_imp member⟩,
    text.dropWhile Unicode.isBlank, List.takeWhile_append_dropWhile.symm, stops_dropWhile _ _⟩

/-- A separator follows any text, if only a missing one. -/
theorem exists_separator (text : Text) :
    ∃ (separator : Separator) (rest : Text),
      text = separator.text ++ rest ∧ separator.Maximal rest := by
  by_cases begins : text.head? = some ','
  · obtain ⟨after, rfl⟩ := List.head?_eq_some_iff.mp begins
    obtain ⟨gap, rest, rfl, stops⟩ := exists_gap after
    exact ⟨some gap, rest, rfl, stops⟩
  · exact ⟨none, text, rfl, begins⟩

theorem accepts_comma :
    Accepts (meaning whole comma) text result rest
      ↔ ∃ gap : Gap, result = .str [','] ∧ text = ',' :: (gap.text ++ rest) ∧
          rest.Stops Unicode.isBlank := by
  unfold comma
  simp only [accepts_token, accepts_mark, and_assoc]

theorem rejects_comma : Rejects (meaning whole comma) text ↔ text.head? ≠ some ',' := by
  constructor
  · intro rejected begins
    obtain ⟨after, rfl⟩ := List.head?_eq_some_iff.mp begins
    obtain ⟨gap, rest, rfl, stops⟩ := exists_gap after
    have accepted : Accepts (meaning whole comma) _ _ rest :=
      accepts_comma.mpr ⟨gap, rfl, rfl, stops⟩
    exact accepted.not_rejects rejected
  · intro differs
    exact rejects_token (rejects_mark differs)

theorem accepts_separated :
    Accepts (meaning whole (p.skipOptional comma)) text result rest
      ↔ ∃ separator : Separator, separator.Maximal rest ∧
          Accepts (meaning whole p) text result (separator.text ++ rest) := by
  change Accepts (Parser.skipOptional (meaning whole p) (meaning whole comma)) _ _ _ ↔ _
  simp only [accepts_skipOptional, accepts_comma, rejects_comma]
  constructor
  · rintro ⟨middle, matched, ⟨_, gap, -, rfl, stops⟩ | ⟨differs, rfl⟩⟩
    · exact ⟨some gap, stops, matched⟩
    · exact ⟨none, differs, matched⟩
  · rintro ⟨separator, maximal, matched⟩
    refine ⟨_, matched, ?_⟩
    cases separator with
    | none => exact .inr ⟨maximal, rfl⟩
    | some gap => exact .inl ⟨_, gap, rfl, rfl, maximal⟩

/-- Between an opening mark and a closing one stand the rounds of a part. -/
theorem accepts_bracketed {opening closing : Char} :
    Accepts (meaning whole (.between p.many (Expr.char opening).token (.char closing)))
        text result rest
      ↔ ∃ (gap : Gap) (inner : Text) (values : List Value), result = .list values ∧
          text = opening :: (gap.text ++ inner) ∧ inner.Stops Unicode.isBlank ∧
          Rounds (meaning whole p) inner values (closing :: rest) ∧
          Rejects (meaning whole p) (closing :: rest) := by
  change Accepts (Parser.between ((meaning whole p).many.map Value.list)
    (meaning whole (Expr.char opening).token) (meaning whole (.char closing))) _ _ _ ↔ _
  rw [accepts_between]
  simp only [accepts_token, accepts_mark, accepts_map, accepts_many]
  constructor
  · rintro ⟨inner, _, _, _, ⟨gap, ⟨-, rfl⟩, stops⟩, ⟨values, ⟨rounds, ends⟩, rfl⟩, -, rfl⟩
    exact ⟨gap, inner, values, rfl, rfl, stops, rounds, ends⟩
  · rintro ⟨gap, inner, values, rfl, rfl, stops, rounds, ends⟩
    exact ⟨inner, _, _, _, ⟨gap, ⟨rfl, rfl⟩, stops⟩, ⟨values, ⟨rounds, ends⟩, rfl⟩, rfl, rfl⟩

theorem rejects_bracketed {opening closing : Char} (differs : text.head? ≠ some opening) :
    Rejects (meaning whole (.between p (Expr.char opening).token (.char closing))) text :=
  (rejects_token (rejects_mark differs)).between _ _

def item : Expr Mention := (Expr.ref (.delayed (.recursive valueOrigin))).skipOptional comma

theorem accepts_array :
    Accepts (meaning whole array) text result rest
      ↔ Accepts (meaning whole (.between item.many (Expr.char '[').token (.char ']')))
          text result rest :=
  accepts_name

theorem rejects_array (differs : text.head? ≠ some '[') : Rejects (meaning whole array) text :=
  (rejects_bracketed differs).name _

/-- The pairs of an object, before they become a dictionary. -/
def entries : Expr Mention := .between pair.many (Expr.char '{').token (.char '}')

theorem accepts_object :
    Accepts (meaning whole object) text result rest
      ↔ ∃ pairs, Accepts (meaning whole entries) text pairs rest ∧
          Value.toDict pairs = .ok result := by
  change Accepts (Parser.name (Parser.mapM _ fun value => MonadExcept.ofExcept _) _) _ _ _ ↔ _
  simp only [accepts_name, accepts_mapM, ofExcept_eq]
  rfl

theorem rejects_object (differs : text.head? ≠ some '{') : Rejects (meaning whole object) text :=
  (rejects_mapM.mpr (rejects_bracketed differs)).name _

theorem accepts_pair :
    Accepts (meaning whole pair) text result rest
      ↔ ∃ (key : Content) (keyGap : Gap) (inner : Text) (value : Value),
          text = key.text ++ (keyGap.text ++ inner) ∧ inner.Stops Unicode.isBlank ∧
          result = .pair (.str key.content) value ∧
          Accepts (meaning whole (((Expr.char ':').token.andThen
            (.ref (.anew (.recursive valueOrigin)))).skipOptional comma)) inner value rest := by
  change Accepts (Parser.flatMap (meaning whole Json.text.token) fun first =>
    Parser.map (meaning whole _) fun second => Value.pair first second) _ _ _ ↔ _
  rw [accepts_flatMap]
  simp only [accepts_token, accepts_text, accepts_map]
  constructor
  · rintro ⟨_, inner, ⟨gap, ⟨key, rfl, rfl⟩, stops⟩, value, matched, rfl⟩
    exact ⟨key, gap, inner, value, rfl, stops, rfl, matched⟩
  · rintro ⟨key, gap, inner, value, rfl, stops, rfl, matched⟩
    exact ⟨_, inner, ⟨gap, ⟨key, rfl, rfl⟩, stops⟩, value, matched, rfl⟩

theorem rejects_pair (unquoted : text.head? ≠ some quote) : Rejects (meaning whole pair) text :=
  (rejects_token (rejects_text unquoted)).flatMap fun first =>
    (meaning whole _).map fun second => Value.pair first second

/-- The value of a pair: it stands after a colon and its blanks. -/
theorem accepts_pairValue :
    Accepts (meaning whole ((Expr.char ':').token.andThen (.ref (.anew (.recursive valueOrigin)))))
        text result rest
      ↔ ∃ (gap : Gap) (inner : Text), text = ':' :: (gap.text ++ inner) ∧
          inner.Stops Unicode.isBlank ∧ whole.Accepts inner result rest := by
  change Accepts (Parser.andThen (meaning whole (Expr.char ':').token) whole) _ _ _ ↔ _
  rw [accepts_andThen]
  simp only [accepts_token, accepts_mark]
  constructor
  · rintro ⟨_, inner, ⟨gap, ⟨rfl, rfl⟩, stops⟩, matched⟩
    exact ⟨gap, inner, rfl, stops, matched⟩
  · rintro ⟨gap, inner, rfl, stops, matched⟩
    exact ⟨_, inner, ⟨gap, ⟨rfl, rfl⟩, stops⟩, matched⟩

/-! ## First characters -/

theorem rejects_of_stops {alternative : Expr Mention × (Char → Bool)}
    (listed : alternative ∈ alternatives) (stops : text.Stops alternative.2) :
    Rejects (meaning whole alternative.1) text := by
  simp only [alternatives, List.mem_cons, List.not_mem_nil, or_false] at listed
  have differs {c : Char} {test : Char → Bool} (stops : text.Stops test) (passes : test c) :
      text.head? ≠ some c := by
    intro begins
    rw [stops c begins] at passes
    cases passes
  rcases listed with rfl | rfl | rfl | rfl | rfl | rfl
  · exact rejects_number stops
  · exact rejects_text (differs stops rfl)
  · exact rejects_boolean (differs stops rfl) (differs stops rfl)
  · exact rejects_null (differs stops rfl)
  · exact rejects_array (differs stops rfl)
  · exact rejects_object (differs stops rfl)

end Descent.Grammar.Json
