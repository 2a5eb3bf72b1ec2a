import Descent.Proofs.Acceptance.Lexical
import Descent.Proofs.Memoryless
import Descent.Proofs.Rewriting
import Descent.Proofs.Sequencing
import Mathlib.Data.List.DropRight

/-!
# Blanks

A repetition of single characters goes as far as their test does: each round leaves one character
less, so it is never endless. Main statement: skipping blanks at once is the same as repeating a
parser of one blank, after every parser, and whatever is left then does not begin with a blank. So
skipping them once more changes nothing.
-/

namespace Descent

namespace Parser

variable {m : Type → Type} [Monad m] {α : Type} {p : Parser m α} {test : Char → Bool}
  {value : Char → α}

/-- A parser of one character that passes a test. -/
structure Single (p : Parser m α) (test : Char → Bool) (value : Char → α) : Prop where
  takes : ∀ c rest, test c → p (c :: rest) = pure (.success (value c) rest)
  stops : ∀ text, Text.Stops test text → ∃ f, p text = pure (.failure f)

theorem single_lift [MonadExceptOf Fault m] {p : Parser (Except Fault) α}
    (single : p.Single test value) : (p.lift : Parser m α).Single test value where
  takes c rest passes := by
    unfold lift
    rw [single.takes c rest passes]
    rfl
  stops text stops := by
    obtain ⟨f, rejected⟩ := single.stops text stops
    refine ⟨f, ?_⟩
    unfold lift
    rw [rejected]
    rfl

variable [LawfulMonad m]

theorem single_satisfy (test : Char → Bool) : (satisfy test : Parser m Char).Single test id where
  takes c rest passes := by simp [satisfy, satisfyM, passes]
  stops text stops := by
    cases text with
    | nil => exact ⟨_, rfl⟩
    | cons c rest =>
      have fails : test c = false := Text.stops_cons.mp stops
      exact ⟨_, by simp [satisfy, satisfyM, fails]; rfl⟩

theorem Single.map {β : Type} (single : p.Single test value) (g : α → β) :
    (p.map g).Single test fun c => g (value c) where
  takes c rest passes := by simp [Parser.map, mapM, single.takes c rest passes, Outcome.mapValue]
  stops text stops := by
    obtain ⟨f, rejected⟩ := single.stops text stops
    exact ⟨f, by simp [Parser.map, mapM, rejected, Outcome.mapValue]⟩

section Repetition

variable [MonadExceptOf Fault m]

theorem Single.manyFrom (single : p.Single test value) (values : List α) (text : Text) :
    p.manyFrom values text
      = pure (.success (values.reverse ++ (text.takeWhile test).map value)
          (text.dropWhile test)) := by
  induction text generalizing values with
  | nil =>
    obtain ⟨f, rejected⟩ := single.stops [] (Text.stops_nil test)
    rw [Parser.manyFrom, rejected]
    simp
  | cons c text ih =>
    rw [Parser.manyFrom]
    cases passes : test c with
    | true =>
      rw [single.takes c text passes]
      simp [ih, passes]
    | false =>
      obtain ⟨f, rejected⟩ := single.stops (c :: text) (Text.stops_cons.mpr passes)
      rw [rejected]
      simp [passes]

theorem Single.many (single : p.Single test value) :
    p.many = fun text =>
      pure (.success ((text.takeWhile test).map value) (text.dropWhile test)) := by
  funext text
  exact single.manyFrom [] text

theorem spaces_eq_skipBlank : (spaces : Parser m Unit) = skipBlank := by
  funext text
  simp [spaces, skipBlank, map, mapM, (single_satisfy _).many, Outcome.mapValue]

end Repetition

theorem precedes_map {β γ : Type} (p : Parser m α) (q : Parser m β) (f : β → γ) :
    p.precedes (q.map f) = p.precedes q := by
  funext text
  unfold precedes
  congr 1
  funext outcome
  cases outcome with
  | failure f => rfl
  | success value rest =>
    simp only [Outcome.flatMapSuccess, map, mapM, bind_assoc]
    congr 1
    funext second
    cases second <;> simp [Outcome.mapValue]

theorem token_eq (p : Parser m α) :
    p.token = p.flatMap fun value text =>
      pure (.success value (text.dropWhile Unicode.isBlank)) := by
  funext text
  unfold token precedes flatMap
  congr 1
  funext outcome
  cases outcome <;> simp [Outcome.flatMapSuccess, skipBlank, Outcome.mapValue]

theorem token_token (p : Parser m α) : p.token.token = p.token := by
  simp only [token_eq]
  rw [flatMap_assoc]
  congr 1
  funext value text
  simp [flatMap, Outcome.flatMapSuccess, List.dropWhile_idempotent]

end Parser

/-- Whatever a token leaves does not begin with a blank. -/
theorem Parser.stops_of_token {σ α : Type} {p : Parser (ExceptT Fault (StateM σ)) α}
    {text rest : Text} {state : σ} {value : α}
    (ended : ((p.token text).run.run state).1 = .ok (.success value rest)) :
    rest.Stops Unicode.isBlank := by
  rw [token_eq] at ended
  unfold flatMap at ended
  rw [Run.run_bind] at ended
  generalize (p text).run.run state = first at ended
  obtain ⟨result, after⟩ := first
  cases result with
  | error fault => cases ended
  | ok outcome =>
    cases outcome with
    | failure f => cases ended
    | success v middle =>
      cases ended
      exact stops_dropWhile _ middle

/-! ## Grammars -/

namespace Expr

variable {m : Type → Type} [Monad m] [MonadExceptOf Fault m] {ι : Type} (host : Host ι m)
  (self p : Expr ι)

def spaces : Expr ι := .prim .spaces

theorem denote_precedes_spaces :
    denote host self (p.precedes spaces) = denote host self p.token := by
  have blanks : Primitive.spaces.parse = Primitive.skipBlank.parse := by
    simp only [Primitive.parse, Parser.spaces_eq_skipBlank]
  change (denote host self p).precedes Primitive.spaces.parse.lift = _
  rw [blanks]
  rfl

variable [LawfulMonad m]

theorem denote_token : denote host self p.token = (denote host self p).token := by
  have blanks : (Primitive.skipBlank.parse.lift : Parser m Value)
      = Parser.skipBlank.map fun _ => .null := by
    funext text
    simp only [Parser.map, Parser.mapM, Parser.skipBlank, pure_bind, Outcome.mapValue]
    rfl
  calc (denote host self p).precedes Primitive.skipBlank.parse.lift
    _ = (denote host self p).precedes (Parser.skipBlank.map fun _ => Value.null) := by rw [blanks]
    _ = (denote host self p).token := Parser.precedes_map _ _ _

theorem denote_token_token :
    denote host self p.token.token = denote host self p.token := by
  simp only [denote_token, Parser.token_token]

/-- The loop over single blanks, as it stands in a grammar. -/
theorem denote_precedes_many_space :
    denote host self (p.precedes (Expr.prim .space).many.void) = denote host self p.token := by
  have single : Primitive.space.parse.Single Unicode.isBlank fun c => .str [c] :=
    (Parser.single_satisfy Unicode.isBlank).map fun c => Value.str [c]
  have blanks : denote host self ((Expr.prim .space).many.void)
      = Parser.skipBlank.map fun _ => .null := by
    change (Primitive.space.parse.lift.many.map Value.list).mapM _ = _
    rw [(Parser.single_lift single).many]
    funext text
    simp only [Parser.map, Parser.mapM, Parser.skipBlank, pure_bind, Outcome.mapValue]
    exact pure_bind Value.null _
  calc (denote host self p).precedes (denote host self (Expr.prim .space).many.void)
    _ = (denote host self p).precedes (Parser.skipBlank.map fun _ => Value.null) := by rw [blanks]
    _ = (denote host self p).token := Parser.precedes_map _ _ _
    _ = denote host self p.token := (denote_token host self p).symm

/-- Grammars that are built of one part mean the same if what is built of it does. -/
theorem sameMeaning_of_part {env : Env} {A B part : Expr Mention}
    {next next' : Expr Link → Expr Link}
    (left : A.buildPart env none = next <$> part.buildPart env none)
    (right : B.buildPart env none = next' <$> part.buildPart env none)
    (alike : ∀ (host : Host Link (Except Fault)) self p,
      denote host self (next p) = denote host self (next' p)) : SameMeaning env A B := by
  unfold SameMeaning
  rw [left, right]
  cases part.buildPart env none with
  | error fault => exact .error trivial
  | ok p => exact .ok fun host _ self => alike host self p

theorem sameMeaning_token (env : Env) (p : Expr Mention) :
    SameMeaning env p.token (p.precedes .spaces) ∧
    SameMeaning env p.token (p.precedes (Expr.prim .space).many.void) ∧
    SameMeaning env p.token.token p.token := by
  have token : p.token.buildPart env none = Expr.token <$> p.buildPart env none := by
    simp only [Expr.token, precedes, buildPart, Option.map_none]
    cases p.buildPart env none <;> rfl
  refine ⟨sameMeaning_of_part token ?_ fun host self p => (denote_precedes_spaces host self p).symm,
    sameMeaning_of_part token ?_ fun host self p => (denote_precedes_many_space host self p).symm,
    sameMeaning_of_part ?_ token fun host self p => denote_token_token host self p⟩
  all_goals
    simp only [Expr.token, precedes, spaces, void, mapTo, map, many, buildPart, Option.map_none]
    cases p.buildPart env none <;> rfl

end Expr

/-- What a token leaves does not begin with a blank. -/
theorem Parser.Accepts.stops_of_token {α : Type} {p : Parser (Except Fault) α} {text rest : Text}
    {value : α} (accepted : p.token.Accepts text value rest) : rest.Stops Unicode.isBlank := by
  obtain ⟨middle, ⟨⟩, -, skipped⟩ := accepts_precedes.mp accepted
  obtain ⟨-, -, -, stops⟩ := accepts_skipBlank.mp skipped
  exact stops

namespace Session

theorem stops_of_answers_token (steps : List Step) (p : Expr Mention) {texts : List Text}
    {answers : List Answer}
    (answered : (empty.after steps).answers p.token .parse texts = .ok answers) {value : Value}
    {rest : Text} (succeeded : .outcome (.success value rest) ∈ answers) :
    rest.Stops Unicode.isBlank := by
  obtain ⟨known, tracks, records⟩ := recorded_history steps
  generalize empty.after steps = session at *
  rw [answers_eq tracks records.within] at answered
  simp only [Expr.token, Expr.precedes, Expr.buildPart] at answered
  generalize Expr.buildPart session.env _ p = built at answered
  cases built with
  | error fault => cases answered
  | ok part =>
    cases answered
    obtain ⟨text, -, ended⟩ := List.mem_map.mp succeeded
    obtain ⟨depth, deep⟩ := { session with builds := session.builds + 1 }.exists_depth text
    have accepted := Answer.ofRun_eq_outcome.mp ended
    change Run.enterLed _ _ (Run.depthFor (session.builds + 1) text) (.fix part.token) text = _
      at accepted
    rw [deep, Run.enterLed, Expr.denote, Expr.denote_token] at accepted
    exact Parser.Accepts.stops_of_token accepted

/-- Where a parser that was built is a token, all ways to skip the blanks after it run alike. -/
theorem ran_token (session : Session) (body : Expr Link) (text : Text) :
    let p := Expr.fix body
    let token := (Run.enter session.env (Run.depthFor session.builds text) p).token
    ∀ A ∈ [p.token, p.precedes .spaces, p.precedes (Expr.prim .space).many.void, p.token.token],
      session.ran A text = (token text).run.run session.memory := by
  intro p token A listed
  obtain ⟨depth, deep⟩ := session.exists_depth text
  let host := Run.host session.env (Run.enter session.env depth)
  have means (self : Expr Link) :
      Expr.denote host self p.token = (Run.enter session.env (depth + 1) p).token :=
    Expr.denote_token host self p
  have same : Expr.denote host A A = (Run.enter session.env (depth + 1) p).token := by
    simp only [List.mem_cons, List.not_mem_nil, or_false] at listed
    obtain rfl | rfl | rfl | rfl := listed
    · exact means _
    · exact (Expr.denote_precedes_spaces host _ p).trans (means _)
    · exact (Expr.denote_precedes_many_space host _ p).trans (means _)
    · exact (Expr.denote_token_token host _ p).trans (means _)
  unfold ran
  rw [deep, Run.enter, same, ← deep]

/-- Skipping the blanks after a parser is the loop over single blanks, in every monad, in all runs of a
session and, for grammars, after any steps of it. What a token leaves does not begin with a blank, and
the token of a token is that token. -/
theorem token_skips_blanks :
    (∀ {m : Type → Type} [Monad m] [LawfulMonad m] [MonadExceptOf Fault m] {α : Type}
      (p : Parser m α), p.token = p.precedes .spaces ∧ p.token.token = p.token) ∧
    (∀ {σ α : Type} (p : Parser (ExceptT Fault (StateM σ)) α) (text : Text) (state : σ) value rest,
      ((p.token text).run.run state).1 = .ok (.success value rest) → rest.Stops Unicode.isBlank) ∧
    (∀ (session : Session) (p : Expr Link), (∃ body, p = .fix body) → ∀ text,
      session.ran p.token text = session.ran (p.precedes .spaces) text ∧
      session.ran p.token text = session.ran (p.precedes (Expr.prim .space).many.void) text ∧
      session.ran p.token.token text = session.ran p.token text ∧
      ∀ value rest, (session.ran p.token text).1 = .ok (.success value rest) →
        rest.Stops Unicode.isBlank) ∧
    ∀ (steps : List Step) (p : Expr Mention),
      let session := empty.after steps
      let same (A B : Expr Mention) :=
        ∀ mode texts, session.answers A mode texts = session.answers B mode texts
      same p.token (p.precedes .spaces) ∧
      same p.token (p.precedes (Expr.prim .space).many.void) ∧
      same p.token.token p.token ∧
      ∀ texts answers, session.answers p.token .parse texts = .ok answers →
        ∀ value rest, .outcome (.success value rest) ∈ answers → rest.Stops Unicode.isBlank := by
  refine ⟨fun p => ⟨?_, p.token_token⟩, fun p text state value rest => Parser.stops_of_token,
    ?_, ?_⟩
  · rw [Parser.token, Parser.spaces_eq_skipBlank]
  · rintro session p ⟨body, rfl⟩ text
    have ran := session.ran_token body text
    simp only [List.forall_mem_cons] at ran
    obtain ⟨token, spaces, loop, twice, -⟩ := ran
    refine ⟨token.trans spaces.symm, token.trans loop.symm, twice.trans token.symm, ?_⟩
    intro value rest ended
    rw [token] at ended
    exact Parser.stops_of_token ended
  · intro steps p session same
    have means {A B : Expr Mention} (meaning : Expr.SameMeaning session.env A B) : same A B :=
      answers_of_sameMeaning steps meaning
    obtain ⟨spaces, loop, twice⟩ := Expr.sameMeaning_token session.env p
    refine ⟨means spaces, means loop, means twice, fun texts answers answered value rest => ?_⟩
    exact stops_of_answers_token steps p answered

/-- All three ways skip a tab, a no-break space and an ideographic space, and leave the letter. -/
theorem token_skips_blanks_marks :
    let text : Text := ['a', '\t', '\u00a0', '\u3000', 'b']
    let a {ι : Type} : Expr ι := .char 'a'
    (empty.ran (Expr.fix a).token text).1 = .ok (.success (.str ['a']) ['b']) ∧
    (empty.ran ((Expr.fix a).precedes (Expr.prim .space).many.void) text).1
      = .ok (.success (.str ['a']) ['b']) ∧
    empty.answers (a.precedes .spaces) .parse [text, ['b']]
      = .ok [.outcome (.success (.str ['a']) ['b']),
        .outcome (.failure ⟨"Failed at char 'b' in \"b\"", ['b'], []⟩)] ∧
    Text.Stops Unicode.isBlank ['b'] := by
  intro text a
  obtain ⟨-, -, runs, grammars⟩ := token_skips_blanks
  obtain ⟨-, loop, -, stops⟩ := runs empty (.fix a) ⟨_, rfl⟩ text
  obtain ⟨spaces, -, -, -⟩ := grammars [] a
  have token : (empty.ran (Expr.fix a).token text).1 = .ok (.success (.str ['a']) ['b']) := rfl
  refine ⟨token, (congrArg Prod.fst loop.symm).trans token, ?_, stops _ _ token⟩
  exact (spaces .parse [text, ['b']]).symm.trans rfl

end Session
end Descent
