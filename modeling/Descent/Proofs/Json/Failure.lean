import Descent.Proofs.Acceptance.Failure
import Descent.Proofs.Json.Sequence
import Descent.Proofs.Literal
import Descent.Proofs.Totality

/-!
# What the parser of documents reports

Every alternative but the one that a text opens fails where the text starts, and the deepest failure
is reported. Main statement: inside an array or an object the report is about the first thing after
the longest sequence of complete parts, and labelled once; the failures inside that thing are lost,
because a repetition does not report why it ended.
-/

namespace Descent.Grammar.Json

open Descent.Parser Descent.Expr Lexical Relation

variable {whole : Parser (Except Fault) Value} {p : Expr Mention} {text rest : Text} {f : Failure}

/-! ## Where the alternatives fail -/

/-- Characters that tell which alternative a text is meant for. -/
def opens (c : Char) : Bool :=
  c == '[' || c == '{' || c == quote || Text.decimalDigits.contains c

theorem fails_number :
    Fails (meaning whole number) text f
      ↔ Fails (Parser.natural (some (maxNatural : Int))) text f := by
  change Fails (Primitive.natural (.int maxNatural)).parse.lift _ _ ↔ _
  rw [lift_eq, Primitive.parse_natural_int, fails_map]

theorem fails_text (failed : Fails (meaning whole Json.text) text f) :
    f = if text.head? = some quote then ⟨Text.exhausted, [], []⟩
      else ⟨text.failureMessage, text, []⟩ := by
  change Fails (stringLiteral.map Value.str).lift _ _ at failed
  rw [lift_eq, fails_map] at failed
  rcases stringLiteral_ends text with ⟨content, rest, accepted⟩ | reported
  · exact absurd failed.rejects accepted.not_rejects
  · exact failed.unique reported

theorem fails_bracketed {opening closing : Char}
    (failed : Fails (meaning whole (.between p.many (Expr.char opening).token (.char closing)))
      text f) :
    text.head? ≠ some opening ∧ f = ⟨text.failureMessage, text, []⟩ ∨
      ∃ (gap : Gap) (inner : Text) (values : List Value) (rest : Text),
        text = opening :: (gap.text ++ inner) ∧ inner.Stops Unicode.isBlank ∧
          Rounds (meaning whole p) inner values rest ∧ Rejects (meaning whole p) rest ∧
          f = ⟨rest.failureMessage, rest, []⟩ := by
  change Fails (Parser.between ((meaning whole p).many.map Value.list)
    (meaning whole (Expr.char opening).token) (meaning whole (.char closing))) _ _ at failed
  rcases fails_between.mp failed with opened | ⟨v, inner, opened, parts⟩ |
    ⟨v, inner, w, outer, opened, parts, closed⟩
  · exact .inl (fails_mark.mp (fails_token.mp opened))
  · exact absurd (fails_map.mp parts) not_fails_many
  · right
    obtain ⟨gap, mark, stops⟩ := accepts_token.mp opened
    obtain ⟨-, rfl⟩ := accepts_mark.mp mark
    obtain ⟨values, many, -⟩ := accepts_map.mp parts
    obtain ⟨rounds, ends⟩ := accepts_many.mp many
    exact ⟨gap, inner, values, outer, rfl, stops, rounds, ends, (fails_mark.mp closed).2⟩

theorem fails_array :
    Fails (meaning whole array) text f
      ↔ ∃ g, Fails (meaning whole (.between item.many (Expr.char '[').token (.char ']'))) text g ∧
          f = g.annotate "array" text.length :=
  fails_name

theorem fails_object :
    Fails (meaning whole object) text f
      ↔ ∃ g, Fails (meaning whole entries) text g ∧ f = g.annotate "object" text.length := by
  change Fails (Parser.name (Parser.mapM _ fun value => MonadExcept.ofExcept _) _) _ _ ↔ _
  simp only [fails_name, fails_mapM]
  rfl

theorem remaining_of_fails_bracketed {opening closing : Char} (differs : text.head? ≠ some opening)
    (failed : Fails (meaning whole (.between p.many (Expr.char opening).token (.char closing)))
      text f) : f.remaining = text := by
  rcases fails_bracketed failed with ⟨-, rfl⟩ | ⟨gap, inner, values, rest, rfl, -⟩
  · rfl
  · exact absurd rfl differs

/-- An alternative that a text is not meant for fails where the text starts. -/
theorem remaining_of_fails {alternative : Expr Mention × (Char → Bool)}
    (listed : alternative ∈ alternatives)
    (unlike : ∀ c ∈ text.head?, opens c → alternative.2 c = false)
    (failed : Fails (meaning whole alternative.1) text f) : f.remaining = text := by
  have differs {c : Char} (opening : opens c) (passes : alternative.2 c = true) :
      text.head? ≠ some c := by
    intro begins
    rw [unlike c begins opening] at passes
    cases passes
  simp only [alternatives, List.mem_cons, List.not_mem_nil, or_false] at listed
  rcases listed with rfl | rfl | rfl | rfl | rfl | rfl
  · rcases fails_natural (fails_number.mp failed) with ⟨rfl, -⟩ | ⟨-, -, begins⟩
    · rfl
    · refine absurd (fun c first => ?_) begins
      by_contra digit
      have decimal : Text.decimalDigits.contains c = true := Bool.eq_true_of_not_eq_false digit
      have opening : opens c = true := by
        unfold opens
        rw [decimal, Bool.or_true]
      exact differs opening decimal first
  · rw [fails_text failed, if_neg (differs rfl rfl)]
  · obtain ⟨g, h, first, second, rfl⟩ := fails_alternate.mp failed
    unfold Failure.deeper
    split
    · exact fails_word first
    · exact fails_word second
  · exact fails_word failed
  · obtain ⟨g, inner, rfl⟩ := fails_array.mp failed
    have closed : text.head? ≠ some '[' := differs rfl rfl
    show g.remaining = text
    exact remaining_of_fails_bracketed closed inner
  · obtain ⟨g, inner, rfl⟩ := fails_object.mp failed
    have closed : text.head? ≠ some '{' := differs rfl rfl
    show g.remaining = text
    exact remaining_of_fails_bracketed (p := pair) closed inner

/-! ## The deepest failure -/

theorem fails_body
    (inside : ∀ alternative ∈ alternatives, ∀ g, Fails (meaning whole alternative.1) text g →
      g.remaining.length ≤ text.length)
    (failed : Fails (meaning whole body) text f) :
    ∃ before alternative after, alternatives = before ++ alternative :: after ∧
      Fails (meaning whole alternative.1) text f ∧
      (∀ other ∈ before, ∃ g, Fails (meaning whole other.1) text g ∧
        f.remaining.length < g.remaining.length) ∧
      ∀ other ∈ after, ∃ g, Fails (meaning whole other.1) text g ∧
        f.remaining.length ≤ g.remaining.length := by
  unfold body meaning at failed
  rw [denote_choice, List.map_map] at failed
  obtain ⟨before, _, after, split, deepest, earlier, later⟩ := fails_choice (by simp [alternatives])
    (by simpa only [List.forall_mem_map, Function.comp_apply, fails_token] using inside) failed
  obtain ⟨before, rest, shape, rfl, tail⟩ := List.map_eq_append_iff.mp split
  obtain ⟨alternative, after, rfl, rfl, rfl⟩ := List.map_eq_cons_iff.mp tail
  simp only [List.forall_mem_map, Function.comp_apply, fails_token] at deepest earlier later
  exact ⟨before, alternative, after, shape, deepest, earlier, later⟩

/-- Where the alternative that a text is meant for fails, it alone gets past the start. -/
theorem fails_of_meant {alternative : Expr Mention × (Char → Bool)}
    {before others : List (Expr Mention × (Char → Bool))} {c : Char} {after : Text}
    (listed : alternatives = before ++ alternative :: others)
    (unlike : ∀ other ∈ before ++ others, other.2 c = false)
    (further : ∀ g, Fails (meaning whole alternative.1) (c :: after) g →
      g.remaining.length ≤ after.length)
    (failed : Fails (meaning whole body) (c :: after) f) :
    Fails (meaning whole alternative.1) (c :: after) f := by
  have atStart {other : Expr Mention × (Char → Bool)} (member : other ∈ alternatives)
      (differs : other ≠ alternative) {g : Failure}
      (failed : Fails (meaning whole other.1) (c :: after) g) : g.remaining = c :: after := by
    have among : other ∈ before ++ others := by
      rw [listed] at member
      simpa [differs] using member
    refine remaining_of_fails member (fun d begins _ => ?_) failed
    cases begins
    exact unlike other among
  have inside : ∀ other ∈ alternatives, ∀ g, Fails (meaning whole other.1) (c :: after) g →
      g.remaining.length ≤ (c :: after).length := by
    intro other member g failed
    by_cases same : other = alternative
    · subst same
      exact Nat.le_succ_of_le (further g failed)
    · rw [atStart member same failed]
  obtain ⟨earlier, found, later, split, deepest, behind, beside⟩ := fails_body inside failed
  by_cases same : found = alternative
  · exact same ▸ deepest
  · have start : f.remaining = c :: after :=
      atStart (split ▸ List.mem_append_cons_self) same deepest
    have away : ∀ g, Fails (meaning whole alternative.1) (c :: after) g →
        ¬ f.remaining.length ≤ g.remaining.length := by
      intro g failed
      have less := further g failed
      rw [start, List.length_cons]
      omega
    have member : alternative ∈ alternatives := listed ▸ List.mem_append_cons_self
    rw [split, List.mem_append, List.mem_cons] at member
    rcases member with member | member | member
    · obtain ⟨g, failed, less⟩ := behind alternative member
      exact absurd (Nat.le_of_lt less) (away g failed)
    · exact absurd member.symm same
    · obtain ⟨g, failed, less⟩ := beside alternative member
      exact absurd less (away g failed)

/-- On a text that is meant for no alternative, the first one reports. -/
theorem fails_of_unmeant (unmeant : text.Stops opens) (failed : Fails (meaning whole body) text f) :
    f = ⟨text.failureMessage, text, []⟩ := by
  have atStart : ∀ alternative ∈ alternatives, ∀ g, Fails (meaning whole alternative.1) text g →
      g.remaining = text := by
    intro alternative listed g failed
    refine remaining_of_fails listed (fun c begins opening => ?_) failed
    rw [unmeant c begins] at opening
    cases opening
  have inside : ∀ alternative ∈ alternatives, ∀ g, Fails (meaning whole alternative.1) text g →
      g.remaining.length ≤ text.length :=
    fun alternative listed g failed => (atStart alternative listed g failed) ▸ Nat.le_refl _
  obtain ⟨before, found, after, split, deepest, earlier, -⟩ := fails_body inside failed
  have start := atStart found (split ▸ List.mem_append_cons_self) f deepest
  cases before with
  | nil =>
    obtain ⟨rfl, -⟩ := List.cons.inj split
    rcases fails_natural (fails_number.mp deepest) with ⟨rfl, -⟩ | ⟨-, -, begins⟩
    · rfl
    · refine absurd (fun c first => ?_) begins
      have unlike := unmeant c first
      simp only [opens, Bool.or_eq_false_iff] at unlike
      exact unlike.2
  | cons first before =>
    obtain ⟨g, failed, less⟩ := earlier first List.mem_cons_self
    rw [start, atStart first (split ▸ List.mem_cons_self) g failed] at less
    exact absurd less (Nat.lt_irrefl _)

/-! ## Sequences of parts -/

variable {Part : Text → Text → Prop} {length depth : Nat}

/-- A part of the grammar accepts a part of a document and a separator, and rejects a text below a
length only where no part stands. -/
structure Recognizes (whole : Parser (Except Fault) Value) (p : Expr Mention)
    (Part : Text → Text → Prop) (length : Nat) : Prop where
  sound : ∀ text value rest, Accepts (meaning whole p) text value rest → MaximalStep Part text rest
  ends : ∀ text rest, text.length < length → Part text rest → ¬ Rejects (meaning whole p) text

theorem recognizes_item (depth : Nat) : Recognizes (body.alone depth) item Item depth where
  sound := by
    intro text value rest accepted
    obtain ⟨separator, maximal, accepted⟩ := accepts_separated.mp accepted
    obtain ⟨document, leads, -⟩ := alone_sound depth _ _ _ accepted
    exact ⟨separator, maximal, document, leads⟩
  ends := by
    rintro text rest short ⟨document, leads⟩
    have accepted := (accepts_alone short).mpr ⟨document, leads, rfl⟩
    obtain ⟨separator, last, rfl, maximal⟩ := exists_separator rest
    have separated : Accepts (meaning (body.alone depth) item) text document.value last :=
      accepts_separated.mpr ⟨separator, maximal, accepted⟩
    exact separated.not_rejects

theorem recognizes_pair (depth : Nat) : Recognizes (body.alone depth) pair Pair depth where
  sound := by
    intro text value rest accepted
    obtain ⟨key, keyGap, inner, value, rfl, -, -, valued⟩ := accepts_pair.mp accepted
    obtain ⟨separator, maximal, valued⟩ := accepts_separated.mp valued
    obtain ⟨colonGap, inner, rfl, -, accepted⟩ := accepts_pairValue.mp valued
    obtain ⟨document, leads, -⟩ := alone_sound depth _ _ _ accepted
    exact ⟨separator, maximal, key, keyGap, colonGap, inner, rfl, document, leads⟩
  ends := by
    rintro text rest short ⟨key, keyGap, colonGap, inner, rfl, document, leads⟩
    have inside : inner.length < depth := by
      simp only [List.length_append, List.length_cons] at short
      omega
    have begins : BeginsPart inner := determined_item.begins ⟨document, leads⟩
    have accepted := (accepts_alone inside).mpr ⟨document, leads, rfl⟩
    have valued := accepts_pairValue.mpr ⟨colonGap, inner, rfl, begins.stops, accepted⟩
    obtain ⟨separator, last, rfl, maximal⟩ := exists_separator rest
    have separated := accepts_separated.mpr ⟨separator, maximal, valued⟩
    have paired := accepts_pair.mpr ⟨key, keyGap, _, _, rfl, Text.stops_cons.mpr (by decide), rfl,
      separated⟩
    exact paired.not_rejects

theorem Recognizes.steps (recognizes : Recognizes whole p Part length) {values : List Value}
    (rounds : Rounds (meaning whole p) text values rest) :
    ReflTransGen (MaximalStep Part) text rest := by
  induction rounds with
  | done => exact .refl
  | next accepted _ _ ih => exact .head (recognizes.sound _ _ _ accepted) ih

/-- Inside its marks a sequence fails after as many parts as there are. -/
theorem Recognizes.remains (recognizes : Recognizes whole p Part length)
    (determined : Determined Part) {opening closing : Char}
    (failed : Fails (meaning whole (.between p.many (Expr.char opening).token (.char closing)))
      (opening :: text) f) (short : text.length < length) :
    ∃ rest, Remains Part text rest ∧ rest.length ≤ text.length ∧
      f = ⟨rest.failureMessage, rest, []⟩ := by
  rcases fails_bracketed failed with ⟨differs, -⟩ | ⟨gap, inner, values, rest, same, stops, rounds,
    ends, rfl⟩
  · exact absurd rfl differs
  · obtain ⟨-, rfl⟩ := List.cons.inj same
    have le := rounds.length_le
    have within : rest.length ≤ (gap.text ++ inner).length := by
      rw [List.length_append]
      omega
    refine ⟨rest, ?_, within, rfl⟩
    apply determined.remains stops (recognizes.steps rounds)
    intro next part
    exact recognizes.ends rest next (by omega) part ends

/-- A labelled sequence that a text is meant for reports once, whatever failed inside it. -/
theorem Recognizes.fails_labelled (recognizes : Recognizes whole p Part length)
    (determined : Determined Part) {opening closing : Char} {label : String}
    {alternative : Expr Mention × (Char → Bool)}
    {before others : List (Expr Mention × (Char → Bool))}
    (listed : alternatives = before ++ alternative :: others)
    (unlike : ∀ other ∈ before ++ others, other.2 opening = false)
    (labelled : ∀ {text f}, Fails (meaning whole alternative.1) text f →
      ∃ g, Fails (meaning whole (.between p.many (Expr.char opening).token (.char closing)))
        text g ∧ f = g.annotate label text.length)
    (short : text.length < length) (failed : Fails (meaning whole body) (opening :: text) f) :
    ∃ rest, Remains Part text rest ∧
      f = Failure.annotate ⟨rest.failureMessage, rest, []⟩ label (opening :: text).length := by
  have reports (g : Failure) (failed : Fails (meaning whole alternative.1) (opening :: text) g) :
      ∃ rest, Remains Part text rest ∧ rest.length ≤ text.length ∧
        g = Failure.annotate ⟨rest.failureMessage, rest, []⟩ label (opening :: text).length := by
    obtain ⟨h, inner, rfl⟩ := labelled failed
    obtain ⟨rest, remains, le, rfl⟩ := recognizes.remains determined inner short
    exact ⟨rest, remains, le, rfl⟩
  have own := fails_of_meant listed unlike ?_ failed
  · obtain ⟨rest, remains, -, rfl⟩ := reports f own
    exact ⟨rest, remains, rfl⟩
  · intro g failed
    obtain ⟨rest, -, le, rfl⟩ := reports g failed
    exact le

/-! ## Reports -/

/-- The failure that is reported on a text. -/
structure Reported (text : Text) (f : Failure) : Prop where
  array : ∀ after, text = '[' :: after → ∃ rest, Remains Item after rest ∧
    f = ⟨"array: " ++ rest.failureMessage, rest, [⟨text.length, some "array"⟩]⟩
  object : ∀ after, text = '{' :: after → ∃ rest, Remains Pair after rest ∧
    f = ⟨"object: " ++ rest.failureMessage, rest, [⟨text.length, some "object"⟩]⟩
  literal : ∀ after, text = '"' :: after → f = ⟨"Exhausted input", [], []⟩
  number : ∀ c after, text = c :: after → c ∈ Text.decimalDigits →
    (Parser.natural (some (maxNatural : Int)) : Parser (Except Fault) Nat) text
        = .ok (.failure f) ∧
      f.remaining = text.dropWhile Text.decimalDigits.contains ∧ f.notes = []
  other : (∀ c ∈ text.head?, c ≠ '[' ∧ c ≠ '{' ∧ c ≠ '"' ∧ c ∉ Text.decimalDigits) →
    f = ⟨text.failureMessage, text, []⟩

theorem reported_array {after : Text} (short : after.length < depth)
    (failed : Fails (meaning (body.alone depth) body) ('[' :: after) f) :
    ∃ rest, Remains Item after rest ∧
      f = Failure.annotate ⟨rest.failureMessage, rest, []⟩ "array" ('[' :: after).length := by
  have listed : alternatives = alternatives.take 4 ++ (array, (· == '[')) :: alternatives.drop 5 :=
    rfl
  exact (recognizes_item depth).fails_labelled determined_item listed (by decide) fails_array.mp
    short failed

theorem reported_object {after : Text} (short : after.length < depth)
    (failed : Fails (meaning (body.alone depth) body) ('{' :: after) f) :
    ∃ rest, Remains Pair after rest ∧
      f = Failure.annotate ⟨rest.failureMessage, rest, []⟩ "object" ('{' :: after).length := by
  have listed : alternatives = alternatives.take 5 ++ (object, (· == '{')) :: [] := rfl
  exact (recognizes_pair depth).fails_labelled determined_pair listed (by decide) fails_object.mp
    short failed

theorem reported_literal {after : Text}
    (failed : Fails (meaning whole body) (quote :: after) f) : f = ⟨Text.exhausted, [], []⟩ := by
  have listed : alternatives
      = alternatives.take 1 ++ (Json.text, (· == quote)) :: alternatives.drop 2 := rfl
  have own := fails_of_meant listed (by decide) ?_ failed
  · exact fails_text own
  · intro g failed
    rw [fails_text failed]
    exact Nat.zero_le _

theorem reported_number {c : Char} {after : Text} (digit : c ∈ Text.decimalDigits)
    (failed : Fails (meaning whole body) (c :: after) f) :
    Fails (Parser.natural (some (maxNatural : Int))) (c :: after) f ∧
      f.remaining = (c :: after).dropWhile Text.decimalDigits.contains ∧ f.notes = [] := by
  have passes : Text.decimalDigits.contains c = true := by simpa using digit
  have reports (g : Failure) (failed : Fails (meaning whole number) (c :: after) g) :
      g.remaining = after.dropWhile Text.decimalDigits.contains ∧ g.notes = [] := by
    rcases fails_natural (fails_number.mp failed) with ⟨-, stops⟩ | ⟨remaining, notes, -⟩
    · rw [Text.stops_cons.mp stops] at passes
      cases passes
    · rw [List.dropWhile_cons_of_pos passes] at remaining
      exact ⟨remaining, notes⟩
  have listed : alternatives
      = [] ++ (number, Text.decimalDigits.contains) :: alternatives.tail := rfl
  have apart : (Text.decimalDigits.all fun d => alternatives.tail.all fun other => !other.2 d)
      = true := rfl
  have unlike : ∀ other ∈ [] ++ alternatives.tail, other.2 c = false := by
    intro other member
    have digits := List.all_eq_true.mp apart c digit
    have differs := List.all_eq_true.mp digits other member
    simpa using differs
  have own := fails_of_meant listed unlike ?_ failed
  · rw [List.dropWhile_cons_of_pos passes]
    exact ⟨fails_number.mp own, reports f own⟩
  · intro g failed
    rw [(reports g failed).1]
    exact (List.dropWhile_suffix _).length_le

theorem reported_of_fails (deep : text.length < depth) (failed : Fails (body.alone depth) text f) :
    Reported text f := by
  obtain ⟨depth, rfl⟩ := Nat.exists_eq_add_one_of_ne_zero (by omega : depth ≠ 0)
  change Fails (meaning (body.alone depth) body) text f at failed
  constructor
  · rintro after rfl
    exact reported_array (Nat.lt_of_succ_lt_succ deep) failed
  · rintro after rfl
    exact reported_object (Nat.lt_of_succ_lt_succ deep) failed
  · rintro after rfl
    exact reported_literal failed
  · rintro c after rfl digit
    exact reported_number digit failed
  · intro unlike
    apply fails_of_unmeant ?_ failed
    intro c begins
    obtain ⟨notArray, notObject, notQuote, notDigit⟩ := unlike c begins
    simp [opens, notArray, notObject, quote, notQuote, notDigit]

/-- A label of a nested array or object never gets into a report. -/
theorem Reported.notes_length_le (reported : Reported text f) : f.notes.length ≤ 1 := by
  cases text with
  | nil =>
    rw [reported.other nofun]
    exact Nat.zero_le 1
  | cons c after =>
    by_cases array : c = '['
    · obtain ⟨rest, -, rfl⟩ := reported.array after (by rw [array])
      exact Nat.le_refl 1
    by_cases object : c = '{'
    · obtain ⟨rest, -, rfl⟩ := reported.object after (by rw [object])
      exact Nat.le_refl 1
    by_cases literal : c = '"'
    · rw [reported.literal after (by rw [literal])]
      exact Nat.zero_le 1
    by_cases digit : c ∈ Text.decimalDigits
    · rw [(reported.number c after rfl digit).2.2]
      exact Nat.zero_le 1
    have plain : f = ⟨Text.failureMessage (c :: after), c :: after, []⟩ := by
      apply reported.other
      intro d begins
      cases begins
      exact ⟨array, object, literal, digit⟩
    rw [plain]
    exact Nat.zero_le 1

/-- Every run of the parser succeeds or reports as told, with one note at most. -/
theorem value_reports :
    Session.Gives Json.value fun text answer =>
      (∃ value rest, answer = .outcome (.success value rest)) ∨
        ∃ f, answer = .outcome (.failure f) ∧ Reported text f ∧ f.notes.length ≤ 1 := by
  refine Session.gives_of_alone (show body.isSelfContained from rfl) (.inr rfl)
    fun text depth deep => ?_
  obtain ⟨outcome, levels⟩ := Expr.alone_outcome lengthens_noFault text
  have ran := levels depth deep
  rw [ran]
  cases outcome with
  | success value rest => exact .inl ⟨value, rest, rfl⟩
  | failure f =>
    have reported := reported_of_fails deep ran
    exact .inr ⟨f, rfl, reported, reported.notes_length_le⟩

end Descent.Grammar.Json
