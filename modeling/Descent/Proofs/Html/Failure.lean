import Descent.Proofs.Acceptance.Failure
import Descent.Proofs.Html.Acceptance
import Descent.Proofs.Repetition
import Descent.Proofs.Totality

/-!
# What is reported on texts that are no tags

Main statement: on every text the parser of tags succeeds or reports one of three failures. The mark
that opens a tag is missing, or its name is, or the mark that closes it. The attributes report nothing:
where one of them is broken, the tag goes on to be closed at its start, after the longest sequence of
complete attributes.
-/

namespace Descent

open Lexical

/-- Two labels before a message. -/
theorem Failure.annotate_annotate (f : Failure) (inner outer : String) (left start : Int) :
    (f.annotate inner left).annotate outer start
      = ⟨outer ++ ": " ++ inner ++ ": " ++ f.message, f.remaining,
          f.notes ++ [⟨left, some inner⟩, ⟨start, some outer⟩]⟩ := by
  simp [annotate, String.append_assoc]

namespace Expr

open Descent.Parser

variable {ι : Type} {host : Host ι (Except Fault)} {self : Expr ι} {text : Text} {f : Failure}

theorem fails_letters :
    Fails (denote host self (.prim .letters)) text f
      ↔ text.Stops Unicode.isLetter ∧ f = ⟨text.failureMessage, text, []⟩ := by
  change Fails ((Parser.satisfy Unicode.isLetter).many1.map Value.str).lift _ _ ↔ _
  rw [lift_eq, fails_map, fails_many1_satisfy]

theorem fails_fixed {word : String} :
    Fails (denote host self (.string word)) text f
      ↔ ¬ word.toList <+: text ∧
        f = ⟨"Expected \"" ++ word ++ "\" at \"" ++ text.snippet ++ "\"", text, []⟩ := by
  change Fails ((Parser.string word.toList).map Value.str).lift _ _ ↔ _
  rw [lift_eq, fails_map, fails_string, String.ofList_toList]

end Expr

namespace Grammar.Html

open Descent.Parser Descent.Expr
open Json (exists_gap)

variable {ι : Type} {host : Host ι (Except Fault)} {self : Expr ι} {text rest : Text} {f : Failure}

/-! ## The longest sequence of attributes -/

/-- What is left after the longest sequence of attributes at the start of a text. -/
structure Remains (text rest : Text) : Prop where
  reached : ∃ attributes : List Attribute, text = Attribute.texts attributes ++ rest
  longest : ∀ (others : List Attribute) next, text = Attribute.texts others ++ next →
    rest.length ≤ next.length

theorem Attribute.begins (a : Attribute) (others : List Attribute) (next : Text) :
    (Attribute.texts (a :: others) ++ next).Stops Unicode.isBlank := by
  simp only [Attribute.texts_cons, Attribute.text, List.append_assoc]
  exact a.key.stops _

/-- An attribute with further blanks after it. -/
def Attribute.widen (a : Attribute) (gap : Gap) : Attribute where
  key := a.key
  keyGap := a.keyGap
  content := a.content
  gap := ⟨a.gap.text ++ gap.text, List.forall_mem_append.mpr ⟨a.gap.blank, gap.blank⟩⟩

@[simp] theorem Attribute.text_widen (a : Attribute) (gap : Gap) :
    (a.widen gap).text = a.text ++ gap.text := by
  simp [widen, text]

theorem Attribute.texts_concat (attributes : List Attribute) (a : Attribute) :
    texts (attributes ++ [a]) = texts attributes ++ a.text := by
  simp [texts]

/-- An attribute is accepted before anything, with the blanks that follow it. -/
theorem accepts_append (host : Host ι (Except Fault)) (self : Expr ι) (a : Attribute)
    (next : Text) :
    ∃ (gap : Gap) (value : Value) (last : Text), next = gap.text ++ last ∧
      Accepts (denote host self tagAttribute.token) (a.text ++ next) value last := by
  obtain ⟨gap, last, rfl, stops⟩ := exists_gap next
  exact ⟨gap, _, last, rfl, accepts_attribute.mpr ⟨a.widen gap, rfl, by simp, stops⟩⟩

/-- Where attributes are read up to a text at which none is, no sequence of attributes leaves less. -/
theorem longest_of_rounds {values : List Value}
    (rounds : Rounds (denote host self tagAttribute.token) text values rest)
    (rejected : Rejects (denote host self tagAttribute.token) rest) (others : List Attribute)
    {next : Text} (same : text = Attribute.texts others ++ next) : rest.length ≤ next.length := by
  induction rounds generalizing others with
  | done =>
    cases others with
    | nil => exact Nat.le_of_eq (congrArg List.length same)
    | cons a others =>
      rw [Attribute.texts_cons, List.append_assoc] at same
      obtain ⟨-, _, _, -, accepted⟩ := accepts_append host self a
        (Attribute.texts others ++ next)
      rw [← same] at accepted
      exact absurd rejected accepted.not_rejects
  | @next text middle rest value values accepted shorter rounds ih =>
    have fewer := rounds.length_le
    cases others with
    | nil =>
      rw [Attribute.texts_nil, List.nil_append] at same
      rw [← same]
      omega
    | cons a others =>
      rw [Attribute.texts_cons, List.append_assoc] at same
      obtain ⟨gap, _, last, after, again⟩ := accepts_append host self a
        (Attribute.texts others ++ next)
      rw [← same] at again
      obtain rfl := (accepted.unique again).2
      cases others with
      | nil =>
        have lengths := congrArg List.length after
        simp only [Attribute.texts_nil, List.nil_append, List.length_append] at lengths
        omega
      | cons b others =>
        -- the blanks before a further attribute belong to the one before it
        have stops := Attribute.begins b others next
        rw [after] at stops
        rw [Gap.eq_nil stops] at after
        exact ih rejected (b :: others) after.symm

theorem remains_of_rejects (attributes : List Attribute) (stops : rest.Stops Unicode.isBlank)
    (rejected : Rejects (denote host self tagAttribute.token) rest) :
    Remains (Attribute.texts attributes ++ rest) rest :=
  ⟨⟨attributes, rfl⟩,
    fun others _ => longest_of_rounds (rounds_of_attributes attributes stops) rejected others⟩

/-! ## Parts of a tag -/

/-- A labelled part that skips blanks after it reports what the part by itself does. -/
theorem fails_labelled {p : Expr ι} {label : String} {missing : Prop} {g : Failure}
    (own : ∀ f, Fails (denote host self p) text f ↔ missing ∧ f = g) :
    Fails (denote host self (p.token.named label)) text f
      ↔ missing ∧ f = g.annotate label text.length := by
  change Fails (Parser.name (denote host self p.token) label) _ _ ↔ _
  simp only [fails_name, fails_token, own]
  constructor
  · rintro ⟨_, ⟨lacks, rfl⟩, rfl⟩
    exact ⟨lacks, rfl⟩
  · rintro ⟨lacks, rfl⟩
    exact ⟨_, ⟨lacks, rfl⟩, rfl⟩

theorem fails_openBracket :
    Fails (denote host self openBracket) text f
      ↔ text.head? ≠ some '<' ∧
        f = Failure.annotate ⟨text.failureMessage, text, []⟩ "open bracket" text.length :=
  fails_labelled fun _ => fails_mark

theorem fails_tagName :
    Fails (denote host self tagName) text f
      ↔ text.Stops Unicode.isLetter ∧
        f = Failure.annotate ⟨text.failureMessage, text, []⟩ "tag name" text.length :=
  fails_labelled fun _ => fails_letters

theorem fails_closeBracket :
    Fails (denote host self closeBracket) text f
      ↔ ¬ ['/', '>'] <+: text ∧
        f = Failure.annotate ⟨"Expected \"/>\" at \"" ++ text.snippet ++ "\"", text, []⟩
          "close bracket" text.length :=
  fails_labelled fun _ => fails_fixed

theorem not_fails_attributes : ¬ Fails (denote host self attributes) text f := by
  change ¬ Fails (Parser.mapM (Parser.map (denote host self tagAttribute.token).many Value.list) _) _ _
  rw [fails_mapM, fails_map]
  exact not_fails_many

theorem fails_start :
    Fails (start host self) text f
      ↔ Fails (denote host self openBracket) text f ∨
        ∃ v inner, Accepts (denote host self openBracket) text v inner ∧
          Fails (denote host self tagName) inner f := by
  change Fails (Parser.flatMap (denote host self openBracket) fun _ =>
    denote host self (tagName.both attributes).token) _ _ ↔ _
  have named {inner : Text} : Fails (denote host self (tagName.both attributes).token) inner f
      ↔ Fails (denote host self tagName) inner f := by
    rw [fails_token]
    change Fails (Parser.flatMap (denote host self tagName) fun first =>
      Parser.map (denote host self attributes) fun second => Value.pair first second) _ _ ↔ _
    simp only [fails_flatMap, fails_map, not_fails_attributes, and_false, exists_false, or_false]
  simp only [fails_flatMap, named]

/-! ## Reports -/

/-- The failure that is reported on a text. -/
inductive Reported (text : Text) : Failure → Prop where
  | openBracket (missing : text.head? ≠ some '<') : Reported text
      ⟨"empty html tag: open bracket: " ++ text.failureMessage, text,
        [⟨text.length, some "open bracket"⟩, ⟨text.length, some "empty html tag"⟩]⟩
  | tagName (gap : Gap) {rest : Text} (begins : text = '<' :: (gap.text ++ rest))
      (blanks : rest.Stops Unicode.isBlank) (missing : rest.Stops Unicode.isLetter) : Reported text
      ⟨"empty html tag: tag name: " ++ rest.failureMessage, rest,
        [⟨rest.length, some "tag name"⟩, ⟨text.length, some "empty html tag"⟩]⟩
  | closeBracket (bracketGap : Gap) (name : Word) (nameGap : Gap) {after rest : Text}
      (begins : text = '<' :: (bracketGap.text ++ (name.text ++ (nameGap.text ++ after))))
      (letters : (nameGap.text ++ after).Stops Unicode.isLetter)
      (blanks : after.Stops Unicode.isBlank) (remains : Remains after rest)
      (missing : ¬ ['/', '>'] <+: rest) : Reported text
      ⟨"empty html tag: close bracket: Expected \"/>\" at \"" ++ rest.snippet ++ "\"", rest,
        [⟨rest.length, some "close bracket"⟩, ⟨text.length, some "empty html tag"⟩]⟩

theorem reported_of_fails (failed : Fails (denote host self emptyTag) text f) : Reported text f := by
  rw [denote_emptyTag, fails_name] at failed
  obtain ⟨g, failed, rfl⟩ := failed
  rcases fails_precedes.mp failed with opening | ⟨_, rest, started, closing⟩
  · rcases fails_start.mp opening with bracket | ⟨_, inner, bracket, name⟩
    · obtain ⟨missing, rfl⟩ := fails_openBracket.mp bracket
      rw [Failure.annotate_annotate]
      exact .openBracket missing
    · obtain ⟨gap, -, begins, blanks⟩ := accepts_openBracket.mp bracket
      obtain ⟨missing, rfl⟩ := fails_tagName.mp name
      rw [Failure.annotate_annotate]
      exact .tagName gap begins blanks missing
  · obtain ⟨⟨bracketGap, name, nameGap, attributes⟩, -, rfl, letters, stops, rejected⟩ :=
      accepts_start.mp started
    obtain ⟨missing, rfl⟩ := fails_closeBracket.mp closing
    have remains := remains_of_rejects attributes stops rejected
    have blanks := Attribute.stops_texts attributes stops
    rw [Failure.annotate_annotate]
    exact .closeBracket bracketGap name nameGap (by simp [Opening.text]) letters blanks remains missing

/-! ## From what is missing to the report -/

theorem Remains.stops {text rest : Text} (remains : Remains text rest)
    (stops : text.Stops Unicode.isBlank) : rest.Stops Unicode.isBlank := by
  obtain ⟨⟨attributes, rfl⟩, longest⟩ := remains
  rcases List.eq_nil_or_concat attributes with rfl | ⟨attributes, a, rfl⟩
  · exact stops
  · -- the last attribute could take further blanks
    obtain ⟨gap, last, rfl, ends⟩ := exists_gap rest
    have shorter := longest (attributes ++ [a.widen gap]) last (by simp [Attribute.texts_concat])
    have none : gap.text = [] := by
      rw [List.length_append] at shorter
      exact List.eq_nil_of_length_eq_zero (by omega)
    rw [none]
    exact ends

variable {whole : Parser (Except Fault) Value} {own : Expr Mention}

theorem Remains.rejects {text rest : Text} (remains : Remains text rest) :
    Rejects (denote (.recursive whole) own tagAttribute.token) rest := by
  obtain ⟨⟨attributes, rfl⟩, longest⟩ := remains
  have total : Total (rest.length + 1) 1 (denote (.recursive whole) own tagAttribute.token)
      (denote (.recursive whole) own tagAttribute.token) := total_tagAttribute.token_expr
  obtain ⟨outcome, ran, -⟩ := (total rest (Nat.lt_succ_self _)).eq_ok_of_noFault
  cases outcome with
  | failure f => exact ⟨f, ran⟩
  | success value next =>
    obtain ⟨a, -, rfl, -⟩ := accepts_attribute.mp ran
    have shorter := longest (attributes ++ [a]) next (by simp [Attribute.texts_concat])
    simp only [Attribute.text, List.length_append, List.length_cons] at shorter
    omega

theorem Reported.fails (reported : Reported text f) :
    Fails (denote (.recursive whole) own emptyTag) text f := by
  rw [denote_emptyTag, fails_name]
  cases reported with
  | openBracket missing =>
    refine ⟨_, fails_precedes.mpr (.inl (fails_start.mpr (.inl
      (fails_openBracket.mpr ⟨missing, rfl⟩)))), ?_⟩
    rw [Failure.annotate_annotate]
    rfl
  | tagName gap begins blanks missing =>
    have bracket : Accepts (denote (.recursive whole) own Html.openBracket) text (.str ['<']) _ :=
      accepts_openBracket.mpr ⟨gap, rfl, begins, blanks⟩
    refine ⟨_, fails_precedes.mpr (.inl (fails_start.mpr (.inr ⟨_, _, bracket,
      fails_tagName.mpr ⟨missing, rfl⟩⟩))), ?_⟩
    rw [Failure.annotate_annotate]
    rfl
  | @closeBracket bracketGap name nameGap after rest begins letters blanks remains missing =>
    obtain ⟨attributes, rfl⟩ := remains.reached
    have started : Accepts (start (.recursive whole) own) text _ rest := accepts_start.mpr
      ⟨⟨bracketGap, name, nameGap, attributes⟩, rfl, by simp [begins, Opening.text], letters,
        remains.stops blanks, remains.rejects⟩
    refine ⟨_, fails_precedes.mpr (.inr ⟨_, _, started, fails_closeBracket.mpr ⟨missing, rfl⟩⟩), ?_⟩
    rw [Failure.annotate_annotate]
    rfl

/-- There are two notes, and none of them is about an attribute. -/
theorem Reported.notes (reported : Reported text f) :
    ∃ label ∈ ["open bracket", "tag name", "close bracket"],
      f.notes = [⟨f.remaining.length, some label⟩, ⟨text.length, some "empty html tag"⟩] := by
  cases reported with
  | openBracket => exact ⟨"open bracket", by simp, rfl⟩
  | tagName => exact ⟨"tag name", by simp, rfl⟩
  | closeBracket => exact ⟨"close bracket", by simp, rfl⟩

/-- Every run of the parser ends in an outcome, and in a failure exactly where that is reported. It has
two notes: where the mark or the name is missing, and the start of the text. -/
theorem emptyTag_reports :
    Session.Gives emptyTag fun text answer =>
      (∃ outcome, answer = .outcome outcome) ∧
      (∀ f, answer = .outcome (.failure f) ↔ Reported text f) ∧
      ∀ f, answer = .outcome (.failure f) → ∃ label ∈ ["open bracket", "tag name", "close bracket"],
        f.notes = [⟨f.remaining.length, some label⟩, ⟨text.length, some "empty html tag"⟩] := by
  refine Session.gives_of_alone rfl (.inl rfl) fun text depth deep => ?_
  obtain ⟨depth, rfl⟩ := Nat.exists_eq_add_one_of_ne_zero (by omega : depth ≠ 0)
  have total : Total (text.length + 1) 1 (emptyTag.alone (depth + 1)) (emptyTag.alone (depth + 1)) :=
    total_emptyTag
  obtain ⟨outcome, ran, -⟩ := (total text (Nat.lt_succ_self _)).eq_ok_of_noFault
  have reports (f : Failure) : Fails (Expr.alone (ι := Mention) emptyTag (depth + 1)) text f
      ↔ Reported text f := ⟨reported_of_fails, Reported.fails⟩
  simp only [Answer.ofRun_eq_outcome]
  exact ⟨⟨outcome, ran⟩, reports, fun f failed => ((reports f).mp failed).notes⟩

end Grammar.Html
end Descent
