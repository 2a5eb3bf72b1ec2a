import Descent.Proofs.Html.Tag
import Descent.Proofs.Json.Parts

/-!
# The parser of tags

The parser accepts a text exactly if an opening stands at its start, then the mark that closes a tag,
and then blanks up to the first other character. It never goes back: once the attributes have ended,
only the closing mark may follow. So what is written of a tag is read back, and a blank between an
equals sign and a quote, or inside the closing mark, makes the parser fail.
-/

namespace Descent

/-! ## Sequences that fail -/

namespace Parser

variable {α β : Type} {p : Parser (Except Fault) α} {text rest : Text} {value : α}

theorem Accepts.flatMap_rejects (accepted : p.Accepts text value rest)
    {next : α → Parser (Except Fault) β} (rejected : (next value).Rejects rest) :
    (p.flatMap next).Rejects text := by
  obtain ⟨f, failed⟩ := rejected
  exact ⟨f, bind_eq_ok.mpr ⟨_, accepted, failed⟩⟩

theorem Accepts.precedes_rejects (accepted : p.Accepts text value rest)
    {q : Parser (Except Fault) β} (rejected : q.Rejects rest) : (p.precedes q).Rejects text := by
  have mapped : (q.map fun _ => value).Rejects rest := rejects_map.mpr rejected
  exact accepted.flatMap_rejects mapped

end Parser

namespace Grammar.Html

open Descent.Parser Descent.Expr Lexical
open Json (Content accepts_literal rejects_literal)

variable {ι : Type} {host : Host ι (Except Fault)} {self : Expr ι} {text rest : Text}
  {result : Value}

/-! ## Names and marks -/

theorem accepts_letters :
    Accepts (denote host self (.prim .letters)) text result rest
      ↔ ∃ word : Word, .str word.text = result ∧ text = word.text ++ rest ∧
          rest.Stops Unicode.isLetter := by
  change Accepts ((Parser.satisfy Unicode.isLetter).many1.map Value.str).lift _ _ _ ↔ _
  simp only [lift_eq, accepts_map, accepts_many1_satisfy]
  constructor
  · rintro ⟨word, ⟨nonempty, shape, letters, stops⟩, rfl⟩
    exact ⟨⟨word, nonempty, letters⟩, rfl, shape, stops⟩
  · rintro ⟨word, rfl, shape, stops⟩
    exact ⟨word.text, ⟨word.nonempty, shape, word.letters, stops⟩, rfl⟩

theorem rejects_letters (stops : text.Stops Unicode.isLetter) :
    Rejects (denote host self (.prim .letters)) text := by
  change Rejects ((Parser.satisfy Unicode.isLetter).many1.map Value.str).lift _
  rw [lift_eq, rejects_map]
  exact rejects_many1_satisfy stops

/-- A word takes all letters and then all blanks. -/
theorem accepts_wordToken :
    Accepts (denote host self (Expr.prim .letters).token) text result rest
      ↔ ∃ (word : Word) (gap : Gap), .str word.text = result ∧
          text = word.text ++ (gap.text ++ rest) ∧ (gap.text ++ rest).Stops Unicode.isLetter ∧
          rest.Stops Unicode.isBlank := by
  rw [accepts_token]
  constructor
  · rintro ⟨gap, matched, blanks⟩
    obtain ⟨word, rfl, rfl, letters⟩ := accepts_letters.mp matched
    exact ⟨word, gap, rfl, rfl, letters, blanks⟩
  · rintro ⟨word, gap, rfl, rfl, letters, blanks⟩
    exact ⟨gap, accepts_letters.mpr ⟨word, rfl, rfl, letters⟩, blanks⟩

theorem accepts_openBracket :
    Accepts (denote host self openBracket) text result rest
      ↔ ∃ gap : Gap, result = .str ['<'] ∧ text = '<' :: (gap.text ++ rest) ∧
          rest.Stops Unicode.isBlank := by
  change Accepts (Parser.name (denote host self (Expr.char '<').token) _) _ _ _ ↔ _
  rw [accepts_name, accepts_token]
  simp only [accepts_mark, and_assoc]

theorem accepts_closeBracket :
    Accepts (denote host self closeBracket) text result rest
      ↔ ∃ gap : Gap, result = .str ['/', '>'] ∧ text = '/' :: '>' :: (gap.text ++ rest) ∧
          rest.Stops Unicode.isBlank := by
  change Accepts (Parser.name (denote host self (Expr.string "/>").token) _) _ _ _ ↔ _
  rw [accepts_name, accepts_token]
  simp only [accepts_fixed, and_assoc]
  rfl

theorem rejects_closeBracket (differs : ¬ ['/', '>'] <+: text) :
    Rejects (denote host self closeBracket) text := by
  have mark : Rejects (denote host self (Expr.string "/>").token) text :=
    rejects_token (rejects_fixed differs)
  exact mark.name _

/-! ## Attributes -/

/-- The parser of an attribute, without its name. -/
theorem denote_tagAttribute :
    denote host self tagAttribute
      = ((denote host self (Expr.prim .letters).token).flatMap fun key =>
          ((denote host self (.char '=')).andThen (denote host self (.prim .stringLiteral))).map
            fun item => .pair key item).name "tag attribute" := rfl

theorem accepts_attribute :
    Accepts (denote host self tagAttribute.token) text result rest
      ↔ ∃ a : Attribute, .pair (.str a.entry.1) a.entry.2 = result ∧ text = a.text ++ rest ∧
          rest.Stops Unicode.isBlank := by
  rw [accepts_token, denote_tagAttribute]
  simp only [accepts_name, accepts_flatMap, accepts_map, accepts_andThen, accepts_wordToken,
    accepts_mark, accepts_literal]
  constructor
  · rintro ⟨gap, ⟨_, _, ⟨key, keyGap, rfl, rfl, -, -⟩, _, ⟨_, _, ⟨-, rfl⟩, content, rfl, rfl⟩, rfl⟩,
      stops⟩
    exact ⟨⟨key, keyGap, content, gap⟩, rfl, by simp [Attribute.text], stops⟩
  · rintro ⟨⟨key, keyGap, content, gap⟩, rfl, rfl, stops⟩
    have letters : (keyGap.text ++ '=' :: (content.text ++ (gap.text ++ rest))).Stops
        Unicode.isLetter := Gap.stops_letters (Text.stops_cons.mpr (by decide))
    have blanks : Text.Stops Unicode.isBlank ('=' :: (content.text ++ (gap.text ++ rest))) :=
      Text.stops_cons.mpr (by decide)
    refine ⟨gap, ⟨_, _, ⟨key, keyGap, rfl, ?_, letters, blanks⟩, _,
      ⟨_, _, ⟨rfl, rfl⟩, content, rfl, rfl⟩, rfl⟩, stops⟩
    simp [Attribute.text]

theorem rejects_attribute (stops : text.Stops Unicode.isLetter) :
    Rejects (denote host self tagAttribute.token) text := by
  apply rejects_token
  have key : Rejects (denote host self (Expr.prim .letters).token) text :=
    rejects_token (rejects_letters stops)
  rw [denote_tagAttribute]
  exact (key.flatMap _).name _

theorem rejects_attribute_unquoted (key : Word) (gap : Gap) (unquoted : text.head? ≠ some quote) :
    Rejects (denote host self tagAttribute.token) (key.text ++ (gap.text ++ '=' :: text)) := by
  have named : Accepts (denote host self (Expr.prim .letters).token)
      (key.text ++ (gap.text ++ '=' :: text)) (.str key.text) ('=' :: text) :=
    accepts_wordToken.mpr ⟨key, gap, rfl, rfl, Gap.stops_letters (Text.stops_cons.mpr (by decide)),
      Text.stops_cons.mpr (by decide)⟩
  have sign : Accepts (denote host self (.char '=')) ('=' :: text) (.str ['=']) text :=
    accepts_mark.mpr ⟨rfl, rfl⟩
  have value : Rejects ((denote host self (.char '=')).andThen
      (denote host self (.prim .stringLiteral))) ('=' :: text) :=
    sign.flatMap_rejects (rejects_literal unquoted)
  apply rejects_token
  rw [denote_tagAttribute]
  exact (named.flatMap_rejects (rejects_map.mpr value)).name _

theorem attributes_of_rounds {values : List Value}
    (rounds : Rounds (denote host self tagAttribute.token) text values rest)
    (stops : text.Stops Unicode.isBlank) :
    ∃ attributes : List Attribute, text = Attribute.texts attributes ++ rest ∧
      rest.Stops Unicode.isBlank ∧
      values = (attributes.map Attribute.entry).map fun entry => .pair (.str entry.1) entry.2 := by
  induction rounds with
  | done => exact ⟨[], rfl, stops, rfl⟩
  | next accepted _ _ ih =>
    obtain ⟨a, rfl, rfl, middle⟩ := accepts_attribute.mp accepted
    obtain ⟨attributes, rfl, stops, rfl⟩ := ih middle
    exact ⟨a :: attributes, by simp, stops, rfl⟩

theorem rounds_of_attributes (attributes : List Attribute) (stops : rest.Stops Unicode.isBlank) :
    Rounds (denote host self tagAttribute.token) (Attribute.texts attributes ++ rest)
      ((attributes.map Attribute.entry).map fun entry => .pair (.str entry.1) entry.2) rest := by
  induction attributes with
  | nil => exact .done
  | cons a attributes ih =>
    have accepted : Accepts (denote host self tagAttribute.token)
        (Attribute.texts (a :: attributes) ++ rest) (.pair (.str a.entry.1) a.entry.2)
        (Attribute.texts attributes ++ rest) :=
      accepts_attribute.mpr ⟨a, rfl, by simp, Attribute.stops_texts attributes stops⟩
    refine .next accepted ?_ ih
    simp [Attribute.text]
    omega

/-- After a part that skips blanks, the attributes are read up to where none begins. -/
theorem accepts_attributes (stops : text.Stops Unicode.isBlank) :
    Accepts (denote host self attributes) text result rest
      ↔ ∃ attributes : List Attribute, Attribute.dict attributes = result ∧
          text = Attribute.texts attributes ++ rest ∧ rest.Stops Unicode.isBlank ∧
          Rejects (denote host self tagAttribute.token) rest := by
  change Accepts (Parser.mapM (Parser.map (denote host self tagAttribute.token).many Value.list) _)
    _ _ _ ↔ _
  simp only [accepts_mapM, accepts_map, accepts_many, ofExcept_eq]
  constructor
  · rintro ⟨_, ⟨values, ⟨rounds, rejected⟩, rfl⟩, collected⟩
    obtain ⟨attributes, rfl, stops, rfl⟩ := attributes_of_rounds rounds stops
    rw [Value.toDict_pairs] at collected
    cases collected
    exact ⟨attributes, rfl, rfl, stops, rejected⟩
  · rintro ⟨attributes, rfl, rfl, stops, rejected⟩
    exact ⟨_, ⟨_, ⟨rounds_of_attributes attributes stops, rejected⟩, rfl⟩, Value.toDict_pairs _⟩

/-! ## Tags -/

/-- All of a tag before the mark that closes it. -/
def start (host : Host ι (Except Fault)) (self : Expr ι) : Parser (Except Fault) Value :=
  (denote host self openBracket).andThen (denote host self (tagName.both attributes).token)

theorem denote_emptyTag :
    denote host self emptyTag
      = ((start host self).precedes (denote host self closeBracket)).name "empty html tag" := rfl

/-- A name takes the blanks after it, and so do the attributes: none is left before the mark. -/
theorem accepts_named :
    Accepts (denote host self (tagName.both attributes)) text result rest
      ↔ ∃ (name : Word) (gap : Gap) (attributes : List Attribute),
          .pair (.str name.text) (Attribute.dict attributes) = result ∧
          text = name.text ++ (gap.text ++ (Attribute.texts attributes ++ rest)) ∧
          (gap.text ++ (Attribute.texts attributes ++ rest)).Stops Unicode.isLetter ∧
          rest.Stops Unicode.isBlank ∧ Rejects (denote host self tagAttribute.token) rest := by
  change Accepts (Parser.flatMap (Parser.name (denote host self (Expr.prim .letters).token) _)
    fun first => Parser.map (denote host self attributes) fun second => Value.pair first second)
    _ _ _ ↔ _
  simp only [accepts_flatMap, accepts_name, accepts_map, accepts_wordToken]
  constructor
  · rintro ⟨_, middle, ⟨name, gap, rfl, rfl, letters, blanks⟩, dict, collected, rfl⟩
    obtain ⟨attributes, rfl, rfl, stops, rejected⟩ := (accepts_attributes blanks).mp collected
    exact ⟨name, gap, attributes, rfl, rfl, letters, stops, rejected⟩
  · rintro ⟨name, gap, attributes, rfl, rfl, letters, stops, rejected⟩
    have blanks := Attribute.stops_texts attributes stops
    exact ⟨_, _, ⟨name, gap, rfl, rfl, letters, blanks⟩, _,
      (accepts_attributes blanks).mpr ⟨attributes, rfl, rfl, stops, rejected⟩, rfl⟩

theorem accepts_start :
    Accepts (start host self) text result rest
      ↔ ∃ opening : Opening, opening.value = result ∧ text = opening.text ++ rest ∧
          opening.Maximal rest ∧ rest.Stops Unicode.isBlank ∧
          Rejects (denote host self tagAttribute.token) rest := by
  unfold start
  simp only [accepts_andThen, accepts_openBracket, accepts_token, accepts_named]
  constructor
  · rintro ⟨_, _, ⟨bracketGap, rfl, rfl, -⟩, gap, ⟨name, nameGap, attributes, rfl, rfl, letters,
      stops, rejected⟩, -⟩
    have nothing := Gap.eq_nil stops
    rw [nothing, List.nil_append] at letters stops rejected
    refine ⟨⟨bracketGap, name, nameGap, attributes⟩, rfl, ?_, letters, stops, rejected⟩
    simp [Opening.text, nothing]
  · rintro ⟨⟨bracketGap, name, nameGap, attributes⟩, rfl, rfl, maximal, stops, rejected⟩
    refine ⟨_, _, ⟨bracketGap, rfl, ?_, name.stops _⟩, .none, ⟨name, nameGap, attributes, rfl, rfl,
      maximal, stops, rejected⟩, stops⟩
    simp [Opening.text, Gap.none]

theorem accepts_emptyTag :
    Accepts (denote host self emptyTag) text result rest
      ↔ ∃ (opening : Opening) (gap : Gap), opening.value = result ∧
          text = opening.text ++ '/' :: '>' :: (gap.text ++ rest) ∧
          opening.Maximal ('/' :: '>' :: (gap.text ++ rest)) ∧ rest.Stops Unicode.isBlank := by
  rw [denote_emptyTag]
  simp only [accepts_name, accepts_precedes, accepts_start, accepts_closeBracket]
  constructor
  · rintro ⟨_, _, ⟨opening, rfl, rfl, maximal, -, -⟩, gap, -, rfl, stops⟩
    exact ⟨opening, gap, rfl, rfl, maximal, stops⟩
  · rintro ⟨opening, gap, rfl, rfl, maximal, stops⟩
    have blanks : Text.Stops Unicode.isBlank ('/' :: '>' :: (gap.text ++ rest)) :=
      Text.stops_cons.mpr (by decide)
    have rejected : Rejects (denote host self tagAttribute.token)
        ('/' :: '>' :: (gap.text ++ rest)) := rejects_attribute (Text.stops_cons.mpr (by decide))
    exact ⟨_, _, ⟨opening, rfl, rfl, maximal, blanks, rejected⟩, gap, rfl, rfl, stops⟩

theorem rejects_emptyTag {opening : Opening} (maximal : opening.Maximal text)
    (blanks : text.Stops Unicode.isBlank)
    (rejected : Rejects (denote host self tagAttribute.token) text)
    (differs : ¬ ['/', '>'] <+: text) :
    Rejects (denote host self emptyTag) (opening.text ++ text) := by
  have started : Accepts (start host self) (opening.text ++ text) opening.value text :=
    accepts_start.mpr ⟨opening, rfl, rfl, maximal, blanks, rejected⟩
  rw [denote_emptyTag]
  exact (started.precedes_rejects (rejects_closeBracket differs)).name _

/-- A tag goes on with a blank inside the mark that closes it, or before the text of an attribute. -/
inductive Broken : Text → Prop where
  | mark {blank : Char} (isBlank : Unicode.isBlank blank) (after : Text) :
      Broken ('/' :: blank :: after)
  | value (key : Word) (gap : Gap) {blank : Char} (isBlank : Unicode.isBlank blank) (after : Text) :
      Broken (key.text ++ (gap.text ++ '=' :: blank :: after))

theorem Broken.rejects (broken : Broken text) {opening : Opening} (maximal : opening.Maximal text) :
    Rejects (denote host self emptyTag) (opening.text ++ text) := by
  cases broken with
  | @mark blank isBlank after =>
    apply rejects_emptyTag maximal
    · exact Text.stops_cons.mpr (by decide)
    · exact rejects_attribute (Text.stops_cons.mpr (by decide))
    · rintro ⟨rest, shape⟩
      cases shape
      cases isBlank
  | @value key gap blank isBlank after =>
    apply rejects_emptyTag maximal
    · exact key.stops _
    · apply rejects_attribute_unquoted
      rintro ⟨⟩
      cases isBlank
    · rintro ⟨rest, shape⟩
      obtain ⟨c, letters, begins, letter⟩ := key.begins
      rw [begins] at shape
      obtain rfl : '/' = c := (List.cons.inj shape).1
      cases letter

/-- What is written of a tag is read back, with its attributes in their order. -/
theorem accepts_print (name : Word) {pairs : List (Word × Content)}
    (distinct : (pairs.map fun pair => pair.1.text).Nodup) :
    Accepts (denote host self emptyTag) (print name pairs) (.pair (.str name.text) (dictOf pairs))
      [] := by
  obtain ⟨gap, attributes, written, letters, entries⟩ := printAttributes_eq pairs
  have dict : Attribute.dict attributes = dictOf pairs := by
    unfold Attribute.dict dictOf
    rw [entries, Value.Entries.ofTexts_of_nodup]
    · simp
    · simpa [Function.comp_def] using distinct
  rw [← dict]
  refine accepts_emptyTag.mpr
    ⟨⟨.none, name, gap, attributes⟩, .none, rfl, ?_, ?_, Text.stops_nil _⟩
  · simp [print, written, Opening.text, Gap.none]
  · exact letters _ (Text.stops_cons.mpr (by decide))

/-- Every run of the parser succeeds exactly on a tag, with the name and the dictionary of its
attributes, and leaves what comes after the blanks that follow. It fails where a blank stands inside
the closing mark, or between an equals sign and its text. What is written of a name and a dictionary
is read back. -/
theorem emptyTag_accepts_tags :
    Session.Gives emptyTag fun text answer =>
      (∀ value rest, answer = .outcome (.success value rest) ↔
        ∃ (opening : Opening) (gap : Gap), opening.value = value ∧
          text = opening.text ++ '/' :: '>' :: (gap.text ++ rest) ∧
          opening.Maximal ('/' :: '>' :: (gap.text ++ rest)) ∧ rest.Stops Unicode.isBlank) ∧
      (∀ (opening : Opening) after, text = opening.text ++ after → opening.Maximal after →
        Broken after → ∃ f, answer = .outcome (.failure f)) ∧
      ∀ name (pairs : List (Word × Content)), (pairs.map fun pair => pair.1.text).Nodup →
        text = print name pairs →
          answer = .outcome (.success (.pair (.str name.text) (dictOf pairs)) []) := by
  refine Session.gives_of_alone rfl (.inl rfl) ?_
  intro text depth deep
  obtain ⟨depth, rfl⟩ : ∃ levels, depth = levels + 1 := Nat.exists_eq_add_one_of_ne_zero (by omega)
  refine ⟨fun value rest => ?_, ?_, ?_⟩
  · rw [Answer.ofRun_eq_outcome]
    exact accepts_emptyTag
  · rintro opening after rfl maximal broken
    obtain ⟨f, failed⟩ := broken.rejects maximal
    exact ⟨f, Answer.ofRun_eq_outcome.mpr failed⟩
  · rintro name pairs distinct rfl
    rw [Answer.ofRun_eq_outcome]
    exact accepts_print name distinct

end Grammar.Html
end Descent
