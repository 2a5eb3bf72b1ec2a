import Descent.Proofs.Json.Parts

/-!
# The parser of documents

The parser accepts a text exactly if a document stands at its start that takes as much as it can,
and its value is the value of that document.

One level of the parser is compared with one level of documents, for any parser that stands for the
whole one inside it. By induction on the levels, whatever is accepted is a document. For the
converse there must be more levels than characters: the bracket or the brace that opens a level takes
a character of its own.
-/

namespace Descent.Grammar.Json

open Descent.Parser Descent.Expr Lexical

variable {whole : Parser (Except Fault) Value}

/-- A document stands at the start of a text, with nothing left that would still belong to it. -/
structure Document.Leads (document : Document) (text rest : Text) : Prop where
  text_eq : text = document.text ++ rest
  maximal : document.Maximal rest
  stops : rest.Stops Unicode.isBlank

/-! ## What is accepted is a document -/

def Sound (whole : Parser (Except Fault) Value) : Prop :=
  ∀ text value rest, whole.Accepts text value rest →
    ∃ document : Document, document.Leads text rest ∧ document.value = value

theorem items_of_rounds (sound : Sound whole) {text rest : Text} {values : List Value}
    (rounds : Rounds (meaning whole item) text values rest) :
    ∃ items : Items, text = items.text ++ rest ∧ items.Maximal rest ∧ items.values = values := by
  induction rounds with
  | done => exact ⟨.nil, rfl, trivial, rfl⟩
  | next accepted _ _ ih =>
    obtain ⟨items, rfl, maximal, rfl⟩ := ih
    obtain ⟨separator, -, accepted⟩ := accepts_separated.mp accepted
    obtain ⟨document, leads, rfl⟩ := sound _ _ _ accepted
    exact ⟨.cons document separator items, by rw [leads.text_eq]; simp [Items.text],
      ⟨leads.maximal, maximal⟩, rfl⟩

theorem pairs_of_rounds (sound : Sound whole) {text rest : Text} {values : List Value}
    (rounds : Rounds (meaning whole pair) text values rest) :
    ∃ pairs : Pairs, text = pairs.text ++ rest ∧ pairs.Maximal rest ∧
      values = pairs.entries.map fun entry => Value.pair (.str entry.1) entry.2 := by
  induction rounds with
  | done => exact ⟨.nil, rfl, trivial, rfl⟩
  | next accepted _ _ ih =>
    obtain ⟨pairs, rfl, maximal, rfl⟩ := ih
    obtain ⟨key, keyGap, inner, value, rfl, -, rfl, valued⟩ := accepts_pair.mp accepted
    obtain ⟨separator, -, valued⟩ := accepts_separated.mp valued
    obtain ⟨colonGap, inner, rfl, -, found⟩ := accepts_pairValue.mp valued
    obtain ⟨document, leads, rfl⟩ := sound _ _ _ found
    exact ⟨.cons key keyGap colonGap document separator pairs,
      by rw [leads.text_eq]; simp [Pairs.text], ⟨leads.maximal, maximal⟩, rfl⟩

theorem body_of_accepts (sound : Sound whole) {alternative : Expr Mention × (Char → Bool)}
    (listed : alternative ∈ alternatives) {text rest : Text} {value : Value}
    (accepted : Accepts (meaning whole alternative.1) text value rest) :
    ∃ body : Body, text = body.text ++ rest ∧ body.Maximal rest ∧ body.value = value := by
  simp only [alternatives, List.mem_cons, List.not_mem_nil, or_false] at listed
  rcases listed with rfl | rfl | rfl | rfl | rfl | rfl
  · obtain ⟨digits, rfl, rfl, stops⟩ := accepts_number.mp accepted
    exact ⟨.number digits, rfl, stops, rfl⟩
  · obtain ⟨content, rfl, rfl⟩ := accepts_text.mp accepted
    exact ⟨.string content, rfl, trivial, rfl⟩
  · obtain ⟨word, -, rfl, rfl⟩ := accepts_boolean.mp accepted
    exact ⟨.keyword word, rfl, trivial, rfl⟩
  · obtain ⟨rfl, rfl⟩ := accepts_null.mp accepted
    exact ⟨.keyword .null, rfl, trivial, rfl⟩
  · obtain ⟨gap, inner, values, rfl, rfl, -, rounds, -⟩ :=
      accepts_bracketed.mp (accepts_array.mp accepted)
    obtain ⟨items, rfl, maximal, rfl⟩ := items_of_rounds sound rounds
    exact ⟨.array gap items, by simp [Body.text], maximal, rfl⟩
  · obtain ⟨_, bracketed, collected⟩ := accepts_object.mp accepted
    obtain ⟨gap, inner, values, rfl, rfl, -, rounds, -⟩ := accepts_bracketed.mp bracketed
    obtain ⟨pairs, rfl, maximal, rfl⟩ := pairs_of_rounds sound rounds
    rw [Value.toDict_pairs] at collected
    cases collected
    exact ⟨.object gap pairs, by simp [Body.text], maximal, rfl⟩

theorem sound_step (sound : Sound whole) : Sound (meaning whole body) := by
  intro text value rest accepted
  obtain ⟨before, p, after, shape, -, found⟩ := accepts_choice.mp accepted
  have member : p ∈ alternatives.map (·.1.token) := shape ▸ List.mem_append_cons_self
  obtain ⟨alternative, listed, rfl⟩ := List.mem_map.mp member
  obtain ⟨gap, found, stops⟩ := accepts_token.mp found
  obtain ⟨body, rfl, maximal, rfl⟩ := body_of_accepts sound listed found
  exact ⟨.mk body gap, ⟨by simp [Document.text], maximal, stops⟩, rfl⟩

theorem alone_sound (depth : Nat) : Sound (body.alone depth) := by
  induction depth with
  | zero => nofun
  | succ depth ih => exact sound_step ih

/-! ## Documents are accepted -/

/-- A parser accepts all documents in texts below a length, and does not go beyond an array. -/
structure Complete (whole : Parser (Except Fault) Value) (length : Nat) : Prop where
  accepts : ∀ (document : Document) (text rest : Text), document.Leads text rest →
    text.length < length → whole.Accepts text document.value rest
  rejects : ∀ rest : Text, (']' :: rest).length < length → whole.Rejects (']' :: rest)

variable {length : Nat}

theorem Document.length_lt (document : Document) (separator : Separator) (rest : Text) :
    rest.length < (document.text ++ (separator.text ++ rest)).length := by
  obtain ⟨c, tail, begins, -⟩ := document.begins
  rw [begins]
  simp only [List.length_append, List.length_cons]
  omega

/-- Where a separator stands, all blanks before it belong to the item. -/
theorem Separator.stops (separator : Separator) {rest : Text} (begins : BeginsPart rest) :
    (separator.text ++ rest).Stops Unicode.isBlank := by
  cases separator with
  | none => exact begins.stops
  | some gap => exact Text.stops_cons.mpr (by decide)

theorem rounds_of_items (complete : Complete whole length) (rest : Text) :
    ∀ items : Items, items.Maximal (']' :: rest) → (items.text ++ ']' :: rest).length < length →
      Rounds (meaning whole item) (items.text ++ ']' :: rest) items.values (']' :: rest)
  | .nil, _, _ => .done
  | .cons document separator items, maximal, short => by
    have shorter := document.length_lt separator (items.text ++ ']' :: rest)
    have text_eq : (Items.cons document separator items).text ++ ']' :: rest
        = document.text ++ (separator.text ++ (items.text ++ ']' :: rest)) := by
      simp [Items.text]
    rw [text_eq] at short ⊢
    have begins := items.begins rest
    have accepted := complete.accepts document _ _ ⟨rfl, maximal.1, separator.stops begins⟩ short
    exact .next (accepts_separated.mpr ⟨separator, separator.maximal begins, accepted⟩) shorter
      (rounds_of_items complete rest items maximal.2 (by omega))

theorem rounds_of_pairs (complete : Complete whole length) (rest : Text) :
    ∀ pairs : Pairs, pairs.Maximal ('}' :: rest) → (pairs.text ++ '}' :: rest).length < length →
      Rounds (meaning whole pair) (pairs.text ++ '}' :: rest)
        (pairs.entries.map fun entry => Value.pair (.str entry.1) entry.2) ('}' :: rest)
  | .nil, _, _ => .done
  | .cons key keyGap colonGap document separator pairs, maximal, short => by
    have shorter := document.length_lt separator (pairs.text ++ '}' :: rest)
    have text_eq : (Pairs.cons key keyGap colonGap document separator pairs).text ++ '}' :: rest
        = key.text ++ (keyGap.text ++ ':' :: (colonGap.text ++
            (document.text ++ (separator.text ++ (pairs.text ++ '}' :: rest))))) := by
      simp [Pairs.text]
    rw [text_eq] at short ⊢
    simp only [List.length_append, List.length_cons] at short shorter
    have begins := pairs.begins rest
    have inner : (document.text ++ (separator.text ++ (pairs.text ++ '}' :: rest))).length
        < length := by
      simp only [List.length_append, List.length_cons]
      omega
    have accepted := complete.accepts document _ _ ⟨rfl, maximal.1, separator.stops begins⟩ inner
    have found := accepts_pairValue.mpr
      ⟨colonGap, _, rfl, ((document.begins).append _).stops, accepted⟩
    have pair := accepts_pair.mpr
      ⟨key, keyGap, _, _, rfl, Text.stops_cons.mpr (by decide), rfl,
        accepts_separated.mpr ⟨separator, separator.maximal begins, found⟩⟩
    refine .next pair ?_ (rounds_of_pairs complete rest pairs maximal.2 ?_)
    · simp only [List.length_append, List.length_cons]
      omega
    · simp only [List.length_append, List.length_cons]
      omega

/-- All alternatives before the one that accepts a body cannot begin as it does. -/
theorem accepts_of_body (complete : Complete whole length) (body : Body) (rest : Text)
    (maximal : body.Maximal rest) (short : (body.text ++ rest).length < length + 1) :
    ∃ before alternative after, alternatives = before ++ alternative :: after ∧
      (∀ other ∈ before, (body.text ++ rest).Stops other.2) ∧
      Accepts (meaning whole alternative.1) (body.text ++ rest) body.value rest := by
  have stops (c : Char) {before : List (Expr Mention × (Char → Bool))} {tail : Text}
      (unlike : ∀ other ∈ before, other.2 c = false) :
      ∀ other ∈ before, Text.Stops other.2 (c :: tail) :=
    fun other member => Text.stops_cons.mpr (unlike other member)
  cases body with
  | number digits =>
    exact ⟨[], _, _, rfl, nofun, accepts_number.mpr ⟨digits, rfl, rfl, maximal⟩⟩
  | string content =>
    exact ⟨alternatives.take 1, _, _, rfl, stops quote (by decide),
      accepts_text.mpr ⟨content, rfl, rfl⟩⟩
  | keyword word =>
    cases word with
    | true =>
      exact ⟨alternatives.take 2, _, _, rfl, stops 't' (by decide),
        accepts_boolean.mpr ⟨.true, nofun, rfl, rfl⟩⟩
    | false =>
      exact ⟨alternatives.take 2, _, _, rfl, stops 'f' (by decide),
        accepts_boolean.mpr ⟨.false, nofun, rfl, rfl⟩⟩
    | null =>
      exact ⟨alternatives.take 3, _, _, rfl, stops 'n' (by decide), accepts_null.mpr ⟨rfl, rfl⟩⟩
  | array gap items =>
    have text_eq : (Body.array gap items).text ++ rest
        = '[' :: (gap.text ++ (items.text ++ ']' :: rest)) := by
      simp [Body.text]
    rw [text_eq] at short ⊢
    simp only [List.length_append, List.length_cons] at short
    have inner : (items.text ++ ']' :: rest).length < length := by
      simp only [List.length_append, List.length_cons]
      omega
    have closing : (']' :: rest).length < length := by
      simp only [List.length_cons]
      omega
    refine ⟨alternatives.take 4, _, _, rfl, stops '[' (by decide), accepts_array.mpr ?_⟩
    exact accepts_bracketed.mpr ⟨gap, _, _, rfl, rfl, (items.begins rest).stops,
      rounds_of_items complete rest items maximal inner,
      (complete.rejects rest closing).skipOptional _⟩
  | object gap pairs =>
    have text_eq : (Body.object gap pairs).text ++ rest
        = '{' :: (gap.text ++ (pairs.text ++ '}' :: rest)) := by
      simp [Body.text]
    rw [text_eq] at short ⊢
    simp only [List.length_append, List.length_cons] at short
    have inner : (pairs.text ++ '}' :: rest).length < length := by
      simp only [List.length_append, List.length_cons]
      omega
    refine ⟨alternatives.take 5, _, _, rfl, stops '{' (by decide), accepts_object.mpr
      ⟨_, ?_, Value.toDict_pairs pairs.entries⟩⟩
    exact accepts_bracketed.mpr ⟨gap, _, _, rfl, rfl, (pairs.begins rest).stops,
      rounds_of_pairs complete rest pairs maximal inner, rejects_pair nofun⟩

theorem complete_step (complete : Complete whole length) :
    Complete (meaning whole body) (length + 1) where
  accepts := by
    rintro ⟨body, gap⟩ text rest ⟨rfl, maximal, stops⟩ short
    have text_eq : (Document.mk body gap).text ++ rest = body.text ++ (gap.text ++ rest) := by
      simp [Document.text]
    rw [text_eq] at short ⊢
    obtain ⟨before, alternative, after, shape, others, accepted⟩ :=
      accepts_of_body complete body (gap.text ++ rest) maximal short
    refine accepts_choice.mpr ⟨before.map (·.1.token), alternative.1.token,
      after.map (·.1.token), by rw [shape, List.map_append, List.map_cons], ?_,
      accepts_token.mpr ⟨gap, accepted, stops⟩⟩
    rintro _ tried
    obtain ⟨other, member, rfl⟩ := List.mem_map.mp tried
    have listed : other ∈ alternatives := shape ▸ List.mem_append_left _ member
    exact rejects_token (rejects_of_stops listed (others other member))
  rejects := by
    intro rest _
    refine rejects_choice fun p member => ?_
    obtain ⟨other, listed, rfl⟩ := List.mem_map.mp member
    have unlike : ∀ other ∈ alternatives, other.2 ']' = false := by decide
    exact rejects_token (rejects_of_stops listed (Text.stops_cons.mpr (unlike other listed)))

theorem alone_complete (depth : Nat) : Complete (body.alone depth) depth := by
  induction depth with
  | zero => exact ⟨fun _ _ _ _ short => absurd short (Nat.not_lt_zero _),
      fun _ short => absurd short (Nat.not_lt_zero _)⟩
  | succ depth ih => exact complete_step ih

/-! ## The parser -/

theorem accepts_alone {text rest : Text} {value : Value} {depth : Nat}
    (deep : text.length < depth) :
    (body.alone depth).Accepts text value rest
      ↔ ∃ document : Document, document.Leads text rest ∧ document.value = value := by
  constructor
  · exact alone_sound depth text value rest
  · rintro ⟨document, leads, rfl⟩
    exact (alone_complete depth).accepts document text rest leads deep

/-- Every run of the parser succeeds with a value and a rest exactly if the text before the rest is a
document with that value, whose numbers do not go on in what follows them, and no blank follows. -/
theorem value_accepts_documents :
    Session.Gives Json.value fun text answer => ∀ value rest,
      answer = .outcome (.success value rest) ↔
        ∃ word, text = word ++ rest ∧ rest.Stops Unicode.isBlank ∧
          ∃ document : Document, document.text = word ∧ document.value = value ∧
            document.Maximal rest := by
  refine Session.gives_of_alone (show body.isSelfContained from rfl) (.inr rfl) fun text depth deep value rest => ?_
  have answered : Answer.ofRun .parse text (body.alone depth text) = .outcome (.success value rest)
      ↔ (body.alone depth).Accepts text value rest := by
    unfold Accepts
    cases body.alone depth text <;> simp [Answer.ofRun]
  rw [answered, accepts_alone deep]
  constructor
  · rintro ⟨document, leads, rfl⟩
    exact ⟨_, leads.text_eq, leads.stops, document, rfl, rfl, leads.maximal⟩
  · rintro ⟨_, text_eq, stops, document, rfl, rfl, maximal⟩
    exact ⟨document, ⟨text_eq, maximal, stops⟩, rfl⟩

end Descent.Grammar.Json
