import Descent.Proofs.Memoryless

/-!
# Repetition

A repetition runs its parser round after round, as long as a round leaves less than it found. Main
statement: the rounds come to an end, and what the parser does there decides. If it fails, the
repetition succeeds with the values of the rounds and gives nothing back; if it succeeds once more,
then without consuming anything, and the repetition is a fault; if it throws a fault, that is passed
on. So what follows a repetition never finds one more round to match.

This holds of every function that leaves rests of its input, and so of every parser of a session.
-/

namespace Descent

namespace Parser

variable {α β : Type} {p : Parser (Except Fault) α} {text last : Text} {values : List α}

/-- Whatever a parser succeeds with, it leaves a rest of the text. -/
def LeavesRest (p : Parser (Except Fault) α) : Prop :=
  ∀ text value rest, p.Accepts text value rest → rest <:+ text

/-! ## Rounds -/

theorem Rounds.length_le (rounds : Rounds p text values last) :
    values.length + last.length ≤ text.length := by
  induction rounds with
  | done => simp
  | next _ shorter _ ih =>
    rw [List.length_cons]
    omega

/-- The rounds that have been made are the start of the repetition. -/
theorem Rounds.manyFrom_eq (rounds : Rounds p text values last) (before : List α) :
    p.manyFrom before text = p.manyFrom (values.reverse ++ before) last := by
  induction rounds generalizing before with
  | done => rfl
  | next accepted shorter _ ih =>
    rw [manyFrom_of_accepts accepted, if_pos shorter, ih]
    simp

theorem Rounds.many_eq (rounds : Rounds p text values last) :
    p.many text = p.manyFrom values.reverse last := by
  have whole := rounds.manyFrom_eq []
  rwa [List.append_nil] at whole

/-- The rounds come to an end: no further one leaves less. -/
theorem exists_rounds (p : Parser (Except Fault) α) (text : Text) :
    ∃ values last, Rounds p text values last ∧
      ∀ value rest, p.Accepts last value rest → ¬ rest.length < last.length := by
  induction size : text.length using Nat.strongRecOn generalizing text with
  | _ size ih =>
    subst size
    by_cases more : ∃ value rest, p.Accepts text value rest ∧ rest.length < text.length
    · obtain ⟨value, rest, accepted, shorter⟩ := more
      obtain ⟨values, last, rounds, ends⟩ := ih rest.length shorter rest rfl
      exact ⟨value :: values, last, .next accepted shorter rounds, ends⟩
    · refine ⟨[], text, .done, fun value rest accepted shorter => ?_⟩
      exact more ⟨value, rest, accepted, shorter⟩

/-! ## The end of a repetition -/

theorem manyFrom_of_fault {fault : Fault} (thrown : p text = .error fault) (before : List α) :
    p.manyFrom before text = .error fault := by
  rw [manyFrom, thrown]
  rfl

theorem andThen_of_accepts {value : α} {rest : Text} (h : p.Accepts text value rest)
    (q : Parser (Except Fault) β) : p.andThen q text = q rest :=
  flatMap_of_accepts h fun _ => q

theorem andThen_of_fault {fault : Fault} (thrown : p text = .error fault)
    (q : Parser (Except Fault) β) : p.andThen q text = .error fault :=
  flatMap_of_fault thrown fun _ => q

/-- What a repetition of `p` does on a text. -/
structure RepeatsOn (p : Parser (Except Fault) α) (text : Text) : Prop where
  /-- The rounds of `p` go on to a text where `p` decides how the repetition ends. -/
  ends : ∃ values last, Rounds p text values last ∧ values.length ≤ text.length ∧ match p last with
    | .ok (.failure _) => p.many text = .ok (.success values last)
    | .ok (.success _ rest) => rest = last ∧ p.many text = .error (.endlessRepetition last)
    | .error fault => p.many text = .error fault
  never_fails : ∀ f, p.many text ≠ .ok (.failure f)
  /-- Where the repetition succeeds, `p` fails on what it leaves. -/
  greedy : ∀ values last, p.many text = .ok (.success values last) →
    ∃ f, p last = .ok (.failure f) ∧ p.many.andThen p text = .ok (.failure f)
  then_never : ∀ value rest, p.many.andThen p text ≠ .ok (.success value rest)
  again : ∀ values last, p.many text = .ok (.success values last) →
    p.many.andThen p.many text = .ok (.success [] last)

theorem many_of_rejects (rejected : p.Rejects text) : p.many text = .ok (.success [] text) :=
  manyFrom_of_rejects rejected []

theorem LeavesRest.repeatsOn (leaves : p.LeavesRest) (text : Text) : p.RepeatsOn text := by
  obtain ⟨values, last, rounds, stops⟩ := exists_rounds p text
  have length : values.length ≤ text.length := by
    have bound := rounds.length_le
    omega
  have whole := rounds.many_eq
  cases result : p last with
  | error fault =>
    have thrown : p.many text = .error fault := by rw [whole, manyFrom_of_fault result]
    have passed : p.many.andThen p text = .error fault := andThen_of_fault thrown p
    refine ⟨⟨values, last, rounds, length, by rwa [result]⟩, ?_, ?_, ?_, ?_⟩ <;>
      simp [thrown, passed]
  | ok outcome =>
    cases outcome with
    | failure f =>
      have rejected : p.Rejects last := ⟨f, result⟩
      have accepted : p.many.Accepts text values last := accepts_many.mpr ⟨rounds, rejected⟩
      have succeeds : p.many text = .ok (.success values last) := accepted
      have next : p.many.andThen p text = .ok (.failure f) := by
        rw [andThen_of_accepts accepted, result]
      have again : p.many.andThen p.many text = .ok (.success [] last) := by
        rw [andThen_of_accepts accepted, many_of_rejects rejected]
      refine ⟨⟨values, last, rounds, length, by rwa [result]⟩, ?_, ?_, ?_, ?_⟩ <;>
        simp [succeeds, next, again, result]
    | success value rest =>
      have suffix := leaves last value rest result
      have long := stops value rest result
      have same : rest = last := suffix.eq_of_length_le (Nat.le_of_not_lt long)
      have thrown : p.many text = .error (.endlessRepetition last) := by
        rw [whole, manyFrom_of_accepts result, if_neg long]
        rfl
      have passed : p.many.andThen p text = .error (.endlessRepetition last) :=
        andThen_of_fault thrown p
      refine ⟨⟨values, last, rounds, length, by rw [result]; exact ⟨same, thrown⟩⟩, ?_, ?_, ?_, ?_⟩
        <;> simp [thrown, passed]

/-! ## Repetition of what always succeeds -/

theorem Rounds.congr {q : Parser (Except Fault) α} (rounds : Rounds p text values last)
    (same : ∀ rest, rest.length ≤ text.length → p rest = q rest) : Rounds q text values last := by
  induction rounds with
  | done => exact .done
  | next accepted shorter _ ih =>
    have first := (same _ (Nat.le_refl _)).symm.trans accepted
    refine .next first shorter (ih fun rest short => same rest ?_)
    omega

theorem Rounds.endless {value : α} (rounds : Rounds p text values last)
    (accepted : p.Accepts last value last) : p.many text = .error (.endlessRepetition last) := by
  rw [rounds.many_eq, manyFrom_of_accepts accepted, if_neg (Nat.lt_irrefl _)]
  rfl

theorem many1_of_accepts {value : α} {rest : Text} (accepted : p.Accepts text value rest) :
    p.many1 text = (p.many.map fun others => value :: others) rest :=
  flatMap_of_accepts accepted _

/-- The rounds of a parser lead to a text where it succeeds without consuming anything, and there
every repetition of it ends in a fault. -/
def Endless (p : Parser (Except Fault) α) (text : Text) (values : List α) (last : Text) : Prop :=
  Rounds p text values last ∧ values.length ≤ text.length ∧ (∃ value, p.Accepts last value last) ∧
    p.many text = .error (.endlessRepetition last) ∧
    p.many1 text = .error (.endlessRepetition last)

/-- A parser that succeeds on every rest of a text cannot be repeated there. -/
theorem LeavesRest.endless (leaves : p.LeavesRest)
    (succeeds : ∀ rest, rest.length ≤ text.length → ∃ value after, p.Accepts rest value after) :
    ∃ values last, p.Endless text values last := by
  obtain ⟨values, last, rounds, stops⟩ := exists_rounds p text
  have bound := rounds.length_le
  obtain ⟨value, rest, accepted⟩ := succeeds last (by omega)
  have long := stops value rest accepted
  obtain rfl := (leaves last value rest accepted).eq_of_length_le (Nat.le_of_not_lt long)
  refine ⟨values, rest, rounds, by omega, ⟨value, accepted⟩, rounds.endless accepted, ?_⟩
  -- The first round of `many1` is either the one that consumes nothing, or the first of `many`.
  cases rounds with
  | done =>
    rw [many1_of_accepts accepted]
    exact map_of_fault (Rounds.done.endless accepted) _
  | next first shorter others =>
    rw [many1_of_accepts first]
    exact map_of_fault (others.endless accepted) _

end Parser

/-! ## Values of a sequence -/

theorem Parser.map_andThen {α β γ : Type} (p : Parser (Except Fault) α) (f : α → γ)
    (q : Parser (Except Fault) β) : (p.map f).andThen q = p.andThen q := by
  funext text
  unfold andThen map mapM
  cases p text with
  | error fault => rfl
  | ok outcome => cases outcome <;> rfl

theorem Parser.andThen_map {α β γ : Type} (p : Parser (Except Fault) α)
    (q : Parser (Except Fault) β) (f : β → γ) : p.andThen (q.map f) = (p.andThen q).map f := by
  funext text
  show (p text >>= fun outcome => outcome.flatMapSuccess fun _ rest => q.map f rest)
    = (p text >>= fun outcome => outcome.flatMapSuccess fun _ rest => q rest) >>=
        fun outcome => outcome.mapValue fun value => pure (f value)
  cases p text with
  | error fault => rfl
  | ok outcome => cases outcome <;> rfl

/-! ## Parsers of sessions -/

theorem Run.enterAnew_leavesRest (env : Env) (depth : Nat) (p : Expr Link) :
    (enterAnew env depth p).LeavesRest := by
  intro text value rest accepted
  have runs := similar_deeper env depth 0 p text (Nat.lt_succ_self _)
  rw [show enterAnew env depth p text = _ from accepted] at runs
  rcases runs with thrown | results
  · cases thrown
  · generalize enterAnew env (depth + 0) p text = again at results
    cases results with
    | ok agree =>
      cases agree with
      | success suffix => exact suffix

theorem Session.IsNew.functionOf_leavesRest {session : Session} {p : Expr Link}
    (new : session.IsNew p) (whole : Text) : (session.functionOf whole p).LeavesRest := by
  rw [new.functionOf_eq]
  exact Run.enterAnew_leavesRest _ _ _

/-- Every parser that leaves rests of its input is repeated as `RepeatsOn` says. A parser of a session
is such a function, as far as the depth of the runs goes, and its repetition in the session, alone or
before another part, is that of the function. -/
theorem Session.repetition_exact :
    (∀ {α : Type} (p : Parser (Except Fault) α), p.LeavesRest → ∀ text, p.RepeatsOn text) ∧
    (∀ last : Text, (Fault.endlessRepetition last).message = some
      ("Repeated parser matched without consuming input at \"" ++ String.ofList (last.take 20)
        ++ "\"")) ∧
    ∀ (session : Session) (p : Expr Link), session.IsNew p → ∀ text,
      (session.functionOf text p).LeavesRest ∧
      (∀ rest, rest.length ≤ text.length → (session.parse p rest).1 = .error .tooDeep ∨
        session.functionOf text p rest = (session.parse p rest).1) ∧
      (session.parse (.unary .many p) text).1
        = ((session.functionOf text p).many.map .list) text ∧
      (session.parse (.binary .andThen (.unary .many p) p) text).1
        = (session.functionOf text p).many.andThen (session.functionOf text p) text ∧
      (session.parse (.binary .andThen (.unary .many p) (.unary .many p)) text).1
        = ((session.functionOf text p).many.andThen (session.functionOf text p).many).map .list
            text := by
  refine ⟨fun p leaves => leaves.repeatsOn, fun last => rfl, fun session p new text => ?_⟩
  obtain ⟨body, whole⟩ := new.isFix
  have joins (known : Set (Place Link)) (within : p.Within known) :
      (Expr.ref p : Expr (Expr Link)).Over known := ⟨⟨body, whole⟩, within⟩
  have single := new.parse_unary .many text
  have before := new.parse_join (q := .binary .andThen (.unary .many (.ref p)) (.ref p))
    (fun known within => ⟨joins known within, joins known within⟩) text
  have twice := new.parse_join
    (q := .binary .andThen (.unary .many (.ref p)) (.unary .many (.ref p)))
    (fun known within => ⟨joins known within, joins known within⟩) text
  refine ⟨new.functionOf_leavesRest text, fun rest => new.parse_eq_of_short, single, ?_, ?_⟩
  · rw [← Parser.map_andThen _ Value.list]
    exact before
  · rw [← Parser.andThen_map, ← Parser.map_andThen _ Value.list]
    exact twice

end Descent
