import Descent.Proofs.Factoring
import Descent.Proofs.Repetition
import Descent.Proofs.Sequencing

/-!
# Syntactic predicates

Looking ahead for a parser, or for its absence, runs the parser and goes on where it started. Main
statement: the absence of a choice is the absence of each of its alternatives, one after the other; the
absence of an absence succeeds where looking ahead does; and what follows a parser that was only
looked for runs on the same text. Where the parser fails, its own failure is reported.

The failures of the alternatives are discarded in a choice as in the sequence, and the failure of the
absence is a new one at the start of the text. So the two agree although the choice compares failures.
-/

namespace Descent

namespace Parser

variable {m : Type → Type} [Monad m] {α β : Type}

/-- The absence of several parsers, one after the other. -/
def noneFollow : List (Parser m α) → Parser m Unit
  | [] => succeed ()
  | p :: ps => ps.foldl (fun before q => before.andThen q.notFollowedBy) p.notFollowedBy

section Lawful

variable [LawfulMonad m]

theorem andThen_assoc {γ : Type} (p : Parser m α) (q : Parser m β) (r : Parser m γ) :
    (p.andThen q).andThen r = p.andThen (q.andThen r) :=
  flatMap_assoc p (fun _ => q) fun _ => r

theorem andThen_succeed (p : Parser m Unit) : p.andThen (succeed ()) = p :=
  p.flatMap_succeed

theorem notFollowedBy_fail (message : String) :
    (fail message : Parser m α).notFollowedBy = succeed () := by
  funext text
  simp [notFollowedBy, fail, succeed, Outcome.flatMapEither]

theorem notFollowedBy_map (p : Parser m α) (f : α → β) :
    (p.map f).notFollowedBy = p.notFollowedBy := by
  funext text
  simp only [notFollowedBy, map, mapM, bind_assoc]
  congr 1
  funext outcome
  cases outcome <;> simp [Outcome.mapValue, Outcome.flatMapEither]

/-- Where the first alternative matches, the second one does not run on either side. -/
theorem notFollowedBy_alternate (p q : Parser m α) :
    (p.alternate q).notFollowedBy = p.notFollowedBy.andThen q.notFollowedBy := by
  funext text
  simp only [notFollowedBy, alternate, andThen, bind_assoc]
  congr 1
  funext first
  cases first with
  | success value rest => simp [Outcome.flatMapEither, Outcome.flatMapSuccess]
  | failure f =>
    simp only [Outcome.flatMapEither, Outcome.flatMapSuccess, bind_assoc, pure_bind]
    congr 1
    funext second
    cases second <;> simp

theorem andThen_notFollowedBy_choice (before : Parser m Unit) (ps : List (Parser m α)) :
    before.andThen (choice ps).notFollowedBy
      = ps.foldl (fun before q => before.andThen q.notFollowedBy) before := by
  induction ps generalizing before with
  | nil =>
    change before.andThen (fail noAlternative : Parser m α).notFollowedBy = before
    rw [notFollowedBy_fail, andThen_succeed]
  | cons p ps ih =>
    change before.andThen (p.alternate (choice ps)).notFollowedBy = _
    rw [notFollowedBy_alternate, ← andThen_assoc, ih, List.foldl_cons]

theorem notFollowedBy_choice (ps : List (Parser m α)) :
    (choice ps).notFollowedBy = noneFollow ps := by
  cases ps with
  | nil => exact notFollowedBy_fail noAlternative
  | cons p ps =>
    change (p.alternate (choice ps)).notFollowedBy = _
    rw [notFollowedBy_alternate, andThen_notFollowedBy_choice, noneFollow]

end Lawful

/-! ## Runs -/

variable {σ : Type}

/-- How a run goes on after a parser. -/
theorem run_parse_bind (p : Parser (ExceptT Fault (StateM σ)) α)
    (next : Outcome α → ExceptT Fault (StateM σ) β) (text : Text) (state : σ) :
    (p text >>= next).run.run state = match (p text).run.run state with
      | (.ok (.success value rest), after) => (next (.success value rest)).run.run after
      | (.ok (.failure f), after) => (next (.failure f)).run.run after
      | (.error fault, after) => (.error fault, after) := by
  rw [Run.run_bind]
  generalize (p text).run.run state = ended
  obtain ⟨result, after⟩ := ended
  cases result with
  | error fault => rfl
  | ok outcome => cases outcome <;> rfl

theorem run_lookahead (p : Parser (ExceptT Fault (StateM σ)) α) (text : Text) (state : σ) :
    (p.lookahead text).run.run state = match (p text).run.run state with
      | (.ok (.success value _), after) => (.ok (.success value text), after)
      | (.ok (.failure f), after) => (.ok (.failure f), after)
      | (.error fault, after) => (.error fault, after) :=
  p.run_parse_bind _ text state

theorem run_notFollowedBy (p : Parser (ExceptT Fault (StateM σ)) α) (text : Text) (state : σ) :
    (p.notFollowedBy text).run.run state = match (p text).run.run state with
      | (.ok (.success _ _), after) =>
        (.ok (.failure ⟨"Unexpected match at \"" ++ text.snippet ++ "\"", text, []⟩), after)
      | (.ok (.failure _), after) => (.ok (.success () text), after)
      | (.error fault, after) => (.error fault, after) :=
  p.run_parse_bind _ text state

theorem run_andThen (p : Parser (ExceptT Fault (StateM σ)) α)
    (q : Parser (ExceptT Fault (StateM σ)) β) (text : Text) (state : σ) :
    (p.andThen q text).run.run state = match (p text).run.run state with
      | (.ok (.success _ rest), after) => (q rest).run.run after
      | (.ok (.failure f), after) => (.ok (.failure f), after)
      | (.error fault, after) => (.error fault, after) :=
  p.run_parse_bind _ text state

def SucceedsWith (p : Parser (ExceptT Fault (StateM σ)) α) (text : Text) (state : σ) (value : α)
    (rest : Text) : Prop :=
  ((p text).run.run state).1 = .ok (.success value rest)

/-- What looking ahead for a parser does on a text, from a state. -/
structure LooksOn (p : Parser (ExceptT Fault (StateM σ)) α) (text : Text) (state : σ) : Prop where
  twice : (∃ value rest, p.notFollowedBy.notFollowedBy.SucceedsWith text state value rest) ↔
    ∃ value rest, p.lookahead.SucceedsWith text state value rest
  twice_keeps : ∀ value rest, p.notFollowedBy.notFollowedBy.SucceedsWith text state value rest →
    value = () ∧ rest = text
  lookahead_keeps : ∀ value rest, p.lookahead.SucceedsWith text state value rest → rest = text
  notFollowedBy_keeps : ∀ value rest, p.notFollowedBy.SucceedsWith text state value rest →
    rest = text
  /-- The parser's own failure is reported, and a fault of it is passed on; otherwise what follows
  runs on the text itself. -/
  andThen : ∀ {β : Type} (q : Parser (ExceptT Fault (StateM σ)) β),
    (p.lookahead.andThen q text).run.run state = match (p text).run.run state with
      | (.ok (.success _ _), after) => (q text).run.run after
      | (.ok (.failure f), after) => (.ok (.failure f), after)
      | (.error fault, after) => (.error fault, after)

theorem looksOn (p : Parser (ExceptT Fault (StateM σ)) α) (text : Text) (state : σ) :
    p.LooksOn text state := by
  constructor
  all_goals
    simp only [SucceedsWith, run_lookahead, run_notFollowedBy, run_andThen]
    generalize (p text).run.run state = ended
    obtain ⟨result, after⟩ := ended
    cases result with
    | error fault => simp
    | ok outcome => cases outcome <;> simp

end Parser

/-! ## Grammars -/

namespace Expr

variable {ι : Type}

def lookahead (p : Expr ι) : Expr ι := .unary .lookahead p

def notFollowedBy (p : Expr ι) : Expr ι := .unary .notFollowedBy p

def noneFollow : List (Expr ι) → Expr ι
  | [] => .prim (.succeed .null)
  | p :: ps => ps.foldl (fun before q => before.andThen q.notFollowedBy) p.notFollowedBy

theorem denote_foldl_notFollowedBy (host : Host ι (Except Fault)) (self : Expr ι)
    (ps : List (Expr ι)) {before : Expr ι} {first : Parser (Except Fault) Unit}
    (means : denote host self before = first.map fun _ => Value.null) :
    denote host self (ps.foldl (fun before q => before.andThen q.notFollowedBy) before)
      = ((ps.map (denote host self)).foldl (fun before q => before.andThen q.notFollowedBy)
          first).map fun _ => Value.null := by
  induction ps generalizing before first with
  | nil => exact means
  | cons p ps ih =>
    apply ih
    calc denote host self (before.andThen p.notFollowedBy)
      _ = (first.map fun _ => Value.null).andThen
          ((denote host self p).notFollowedBy.map fun _ => Value.null) := by rw [← means]; rfl
      _ = _ := by rw [Parser.map_andThen, Parser.andThen_map]

theorem denote_noneFollow (host : Host ι (Except Fault)) (self : Expr ι) (ps : List (Expr ι)) :
    denote host self (noneFollow ps)
      = (Parser.noneFollow (ps.map (denote host self))).map fun _ => Value.null := by
  cases ps with
  | nil => rfl
  | cons p ps => exact denote_foldl_notFollowedBy host self ps rfl

theorem denote_notFollowedBy_choice (host : Host ι (Except Fault)) (self : Expr ι)
    (ps : List (Expr ι)) :
    denote host self (choice ps).notFollowedBy = denote host self (noneFollow ps) := by
  calc denote host self (choice ps).notFollowedBy
    _ = (Parser.choice (ps.map (denote host self))).notFollowedBy.map fun _ => Value.null := by
      rw [← denote_choice]
      rfl
    _ = _ := by rw [Parser.notFollowedBy_choice, denote_noneFollow]

theorem buildPart_foldl_notFollowedBy (env : Env) (ps : List (Expr Mention))
    (before : Expr Mention) :
    (ps.foldl (fun before q => before.andThen q.notFollowedBy) before).buildPart env none = do
      let first ← before.buildPart env none
      return (← ps.mapM (buildPart env none)).foldl
        (fun before q => before.andThen q.notFollowedBy) first := by
  induction ps generalizing before with
  | nil => simp
  | cons p ps ih =>
    rw [List.foldl_cons, ih, List.mapM_cons]
    simp only [andThen, notFollowedBy, buildPart, Option.map_none, bind_assoc, pure_bind,
      List.foldl_cons]

theorem buildPart_noneFollow (env : Env) (ps : List (Expr Mention)) :
    (noneFollow ps).buildPart env none = do
      return noneFollow (← ps.mapM (buildPart env none)) := by
  cases ps with
  | nil => rfl
  | cons p ps =>
    rw [noneFollow, buildPart_foldl_notFollowedBy, List.mapM_cons]
    simp only [notFollowedBy, buildPart, bind_assoc, pure_bind]
    rfl

theorem sameMeaning_notFollowedBy_choice (env : Env) (ps : List (Expr Mention)) :
    SameMeaning env (choice ps).notFollowedBy (noneFollow ps) := by
  unfold SameMeaning
  rw [buildPart_noneFollow, notFollowedBy, buildPart, buildPart_choice]
  cases ps.mapM (buildPart env none) with
  | error fault => exact .error trivial
  | ok built => exact .ok fun host _ self => denote_notFollowedBy_choice host self built

end Expr

namespace Session

variable {p q : Expr Link}

/-- Every run of a predicate on parsers that were built is the predicate on their runs. -/
theorem ran_predicates (session : Session) (whole : ∃ body, p = .fix body)
    (whole' : ∃ body, q = .fix body) (text : Text) :
    let parser := Run.enter session.env (Run.depthFor session.builds text)
    let runs (A : Expr Link) (P : Parser Run Value) :=
      session.ran A text = (P text).run.run session.memory
    runs p.lookahead (parser p).lookahead ∧
    runs p.notFollowedBy ((parser p).notFollowedBy.map fun _ => .null) ∧
    runs p.notFollowedBy.notFollowedBy
      ((parser p).notFollowedBy.notFollowedBy.map fun _ => .null) ∧
    runs (p.lookahead.andThen q) ((parser p).lookahead.andThen (parser q)) := by
  obtain ⟨body, rfl⟩ := whole
  obtain ⟨body', rfl⟩ := whole'
  obtain ⟨depth, deep⟩ := session.exists_depth text
  simp only [ran, deep]
  refine ⟨rfl, rfl, ?_, rfl⟩
  rw [← Parser.notFollowedBy_map _ fun _ => Value.null]
  rfl

/-- The absence of a choice is the absence of its alternatives in turn, for parsers in every lawful
monad and for grammars after any steps of a session. Looking ahead for a parser with any state does as
`LooksOn` says, and that is what every run of a predicate in a session does. -/
theorem predicates_lawful :
    (∀ {m : Type → Type} [Monad m] [LawfulMonad m] {α : Type} (ps : List (Parser m α)),
      (Parser.choice ps).notFollowedBy = Parser.noneFollow ps) ∧
    (∀ (steps : List Step) (ps : List (Expr Mention)) (mode : Mode) (texts : List Text),
      let session := empty.after steps
      session.answers (Expr.choice ps).notFollowedBy mode texts
        = session.answers (.noneFollow ps) mode texts) ∧
    (∀ {σ α : Type} (p : Parser (ExceptT Fault (StateM σ)) α) (text : Text) (state : σ),
      p.LooksOn text state) ∧
    ∀ (session : Session) (p q : Expr Link), (∃ body, p = .fix body) → (∃ body, q = .fix body) →
      ∀ text : Text,
      let parser := Run.enter session.env (Run.depthFor session.builds text)
      let runs (A : Expr Link) (P : Parser Run Value) :=
        session.ran A text = (P text).run.run session.memory
      runs p.lookahead (parser p).lookahead ∧
      runs p.notFollowedBy ((parser p).notFollowedBy.map fun _ => .null) ∧
      runs p.notFollowedBy.notFollowedBy
        ((parser p).notFollowedBy.notFollowedBy.map fun _ => .null) ∧
      runs (p.lookahead.andThen q) ((parser p).lookahead.andThen (parser q)) := by
  refine ⟨Parser.notFollowedBy_choice, ?_, Parser.looksOn, ?_⟩
  · intro steps ps mode texts session
    exact answers_of_sameMeaning steps (Expr.sameMeaning_notFollowedBy_choice _ ps) mode texts
  · intro session p q whole whole' text
    exact session.ran_predicates whole whole' text

/-- The alternatives fail at different places, but their absence succeeds where it started. And what
is looked for fails where its second half does. -/
theorem predicates_lawful_marks :
    let ab {ι : Type} : Expr ι := .andThen (.char 'a') (.char 'b')
    empty.answers (Expr.choice [ab, .char 'c']).notFollowedBy .parse [['a', 'd'], ['c']]
      = .ok [.outcome (.success .null ['a', 'd']),
        .outcome (.failure ⟨"Unexpected match at \"c\"", ['c'], []⟩)] ∧
    (empty.ran ((Expr.fix ab).lookahead.andThen (.fix (.char 'a'))) ['a', 'd']).1
      = .ok (.failure ⟨"Failed at char 'd' in \"d\"", ['d'], []⟩) := by
  intro ab
  obtain ⟨-, grammars, -, runs⟩ := predicates_lawful
  obtain ⟨-, -, -, ran⟩ := runs empty (.fix ab) (.fix (.char 'a')) ⟨_, rfl⟩ ⟨_, rfl⟩ ['a', 'd']
  refine ⟨(grammars [] [ab, .char 'c'] .parse [['a', 'd'], ['c']]).trans rfl, ?_⟩
  exact (congrArg Prod.fst ran).trans rfl

end Session
end Descent
