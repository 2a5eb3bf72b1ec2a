import Descent.Proofs.Repetition

/-!
# Repetition at least once

`many1` runs its parser once and repeats it then; it does not look at what `many` comes to. Main
statement: it fails exactly where `many` finds nothing, with the very failure of the parser, and agrees
with `many` everywhere else, also in its faults.

The two differ in one thing. A first round that consumes nothing ends `many` at once, but `many1` only in
its second round. That one starts on the same text, so it comes to the same.
-/

namespace Descent

namespace Parser

variable {α β γ : Type} {p : Parser (Except Fault) α} {text rest last : Text} {values : List α}
  {value : α}

theorem map_congr {q : Parser (Except Fault) α} (same : p text = q rest) (f : α → β) :
    p.map f text = q.map f rest := by
  unfold map mapM
  rw [same]

theorem map_map (p : Parser (Except Fault) α) (f : α → β) (g : β → γ) :
    (p.map f).map g = p.map fun value => g (f value) := by
  funext text
  unfold map mapM
  cases p text with
  | error fault => rfl
  | ok outcome => cases outcome <;> rfl

/-- The values of the rounds so far come before those of the rounds to come. -/
theorem manyFrom_eq_map (p : Parser (Except Fault) α) (before : List α) (text : Text) :
    p.manyFrom before text = (p.many.map fun others => before.reverse ++ others) text := by
  induction size : text.length using Nat.strongRecOn generalizing text before with
  | _ size ih =>
    subst size
    cases result : p text with
    | error fault =>
      have thrown : p.many text = .error fault := manyFrom_of_fault result []
      rw [manyFrom_of_fault result, map_of_fault thrown]
    | ok outcome =>
      cases outcome with
      | failure f =>
        have rejected : p.Rejects text := ⟨f, result⟩
        rw [manyFrom_of_rejects rejected, map_of_accepts (many_of_rejects rejected), List.append_nil]
      | success value rest =>
        have first : p.many text = _ := manyFrom_of_accepts result []
        rw [manyFrom_of_accepts result]
        by_cases shorter : rest.length < text.length
        · rw [if_pos shorter, ih _ shorter _ _ rfl] at first ⊢
          rw [map_congr first, map_map]
          simp
        · rw [if_neg shorter] at first ⊢
          exact (map_of_fault first _).symm

/-! ## The first round -/

theorem many1_of_failure {f : Failure} (failed : p text = .ok (.failure f)) :
    p.many1 text = .ok (.failure f) :=
  flatMap_of_failure failed _

theorem many1_of_fault {fault : Fault} (thrown : p text = .error fault) :
    p.many1 text = .error fault :=
  flatMap_of_fault thrown _

/-- Where a parser does not fail, it can as well be repeated at least once. -/
theorem LeavesRest.many1_eq (leaves : p.LeavesRest) (found : ∀ f, p text ≠ .ok (.failure f)) :
    p.many1 text = p.many text := by
  cases result : p text with
  | error fault =>
    have thrown : p.many text = .error fault := manyFrom_of_fault result []
    rw [many1_of_fault result, thrown]
  | ok outcome =>
    cases outcome with
    | failure f => exact absurd result (found f)
    | success value rest =>
      rw [many1_of_accepts result]
      by_cases shorter : rest.length < text.length
      · have first : p.many text = _ := manyFrom_of_accepts result []
        rw [if_pos shorter, manyFrom_eq_map] at first
        exact first.symm
      · have suffix := leaves text value rest result
        obtain rfl := suffix.eq_of_length_le (Nat.le_of_not_lt shorter)
        have endless : p.many rest = .error (.endlessRepetition rest) := Rounds.done.endless result
        rw [endless, map_of_fault endless]

theorem not_many_nil (found : ∀ f, p text ≠ .ok (.failure f)) :
    ¬ p.many.Accepts text [] rest := by
  intro accepted
  obtain ⟨rounds, f, failed⟩ := accepts_many.mp accepted
  cases rounds
  exact found f failed

theorem Rounds.mono {q : Parser (Except Fault) α} (rounds : Rounds p text values last)
    (also : ∀ rest value after, rest.length ≤ text.length → p.Accepts rest value after →
      q.Accepts rest value after) : Rounds q text values last := by
  induction rounds with
  | done => exact .done
  | next accepted shorter _ ih =>
    refine .next (also _ _ _ (Nat.le_refl _) accepted) shorter (ih ?_)
    intro rest value after short
    exact also rest value after (by omega)

end Parser

namespace Session.IsNew

variable {session : Session} {p : Expr Link} {text : Text}

theorem parse_many (new : session.IsNew p) (text : Text) :
    (session.parse (.unary .many p) text).1 = ((session.functionOf text p).many.map .list) text :=
  new.parse_unary .many text

theorem parse_many1 (new : session.IsNew p) (text : Text) :
    (session.parse (.unary .many1 p) text).1 = ((session.functionOf text p).many1.map .list) text :=
  new.parse_unary .many1 text

theorem parse_many1_of_failure (new : session.IsNew p) {f : Failure}
    (failed : (session.parse p text).1 = .ok (.failure f)) :
    (session.parse (.unary .many1 p) text).1 = .ok (.failure f) ∧
      (session.parse (.unary .many p) text).1 = .ok (.success (.list []) text) := by
  rw [new.parse_eq] at failed
  rw [new.parse_many1, new.parse_many]
  have rejected : (session.functionOf text p).Rejects text := ⟨f, failed⟩
  exact ⟨Parser.map_of_failure (Parser.many1_of_failure failed) _,
    Parser.map_of_accepts (Parser.many_of_rejects rejected) _⟩

theorem parse_many1_of_not_failure (new : session.IsNew p)
    (found : ∀ f, (session.parse p text).1 ≠ .ok (.failure f)) :
    (session.parse (.unary .many1 p) text).1 = (session.parse (.unary .many p) text).1 ∧
      ∀ value rest, (session.parse (.unary .many p) text).1 = .ok (.success value rest) →
        ∃ first others, value = .list (first :: others) := by
  simp only [new.parse_eq] at found
  rw [new.parse_many1, new.parse_many]
  constructor
  · exact Parser.map_congr ((new.functionOf_leavesRest text).many1_eq found) _
  · intro value rest accepted
    obtain ⟨values, inner, rfl⟩ := Parser.accepts_map.mp accepted
    cases values with
    | nil => exact absurd inner (Parser.not_many_nil found)
    | cons first others => exact ⟨first, others, rfl⟩

theorem parse_many_not_failure (new : session.IsNew p) (f : Failure) :
    (session.parse (.unary .many p) text).1 ≠ .ok (.failure f) := by
  intro failed
  rw [new.parse_many] at failed
  obtain ⟨g, inner⟩ := Parser.rejects_map.mp ⟨f, failed⟩
  exact ((new.functionOf_leavesRest text).repeatsOn text).never_fails g inner

theorem parse_many1_endless (new : session.IsNew p) {values : List Value} {last : Text}
    {value : Value}
    (rounds : Parser.Rounds (fun text => (session.parse p text).1) text values last)
    (accepted : (session.parse p last).1 = .ok (.success value last)) :
    (session.parse (.unary .many1 p) text).1 = .error (.endlessRepetition last) ∧
      (session.parse (.unary .many p) text).1 = .error (.endlessRepetition last) := by
  have own (rest : Text) (value : Value) (after : Text) (short : rest.length ≤ text.length)
      (result : (session.parse p rest).1 = .ok (.success value after)) :
      (session.functionOf text p).Accepts rest value after := new.functionOf_of_ok short result
  have short : last.length ≤ text.length := by
    have bound := rounds.length_le
    omega
  have endless := (rounds.mono own).endless (own last value last short accepted)
  have found : ∀ f, (session.parse p text).1 ≠ .ok (.failure f) := by
    intro f failed
    cases rounds with
    | done => cases failed.symm.trans accepted
    | next first _ _ => cases failed.symm.trans first
  have many : (session.parse (.unary .many p) text).1 = .error (.endlessRepetition last) := by
    rw [new.parse_many]
    exact Parser.map_of_fault endless _
  rw [(new.parse_many1_of_not_failure found).1]
  exact ⟨many, many⟩

end Session.IsNew

/-- How a repetition at least once and one of any number compare on a text. -/
structure Session.RepeatsAlike (session : Session) (p : Expr Link) (text : Text) : Prop where
  failing : ∀ f, (session.parse p text).1 = .ok (.failure f) →
    (session.parse (.unary .many1 p) text).1 = .ok (.failure f) ∧
      (session.parse (.unary .many p) text).1 = .ok (.success (.list []) text)
  agreeing : (∀ f, (session.parse p text).1 ≠ .ok (.failure f)) →
    (session.parse (.unary .many1 p) text).1 = (session.parse (.unary .many p) text).1 ∧
      ∀ value rest, (session.parse (.unary .many p) text).1 = .ok (.success value rest) →
        ∃ first others, value = .list (first :: others)
  /-- Both end in the same fault where a round consumes nothing, the first one or a later one. -/
  endless : ∀ values last value,
    Parser.Rounds (fun text => (session.parse p text).1) text values last →
    (session.parse p last).1 = .ok (.success value last) →
    (session.parse (.unary .many1 p) text).1 = .error (.endlessRepetition last) ∧
      (session.parse (.unary .many p) text).1 = .error (.endlessRepetition last)
  fails_iff : (∃ f, (session.parse (.unary .many1 p) text).1 = .ok (.failure f)) ↔
    ∃ rest, (session.parse (.unary .many p) text).1 = .ok (.success (.list []) rest)

/-- Every parser that is built can be repeated at least once, or any number of times, as `RepeatsAlike`
says. -/
theorem Session.many1_alike {session : Session} {p : Expr Link} (new : session.IsNew p) (text : Text) :
    session.RepeatsAlike p text := by
  refine ⟨fun f => new.parse_many1_of_failure, new.parse_many1_of_not_failure,
    fun values last value => new.parse_many1_endless, ?_⟩
  by_cases failed : ∃ f, (session.parse p text).1 = .ok (.failure f)
  · obtain ⟨f, failed⟩ := failed
    obtain ⟨once, any⟩ := new.parse_many1_of_failure failed
    exact ⟨fun _ => ⟨text, any⟩, fun _ => ⟨f, once⟩⟩
  · obtain ⟨same, filled⟩ := new.parse_many1_of_not_failure fun f result => failed ⟨f, result⟩
    rw [same]
    constructor
    · intro ⟨f, result⟩
      exact absurd result (new.parse_many_not_failure f)
    · intro ⟨rest, result⟩
      obtain ⟨first, others, values⟩ := filled _ rest result
      cases values

/-- A letter that may be missing: the second round consumes nothing. -/
theorem Session.many1_alike_missing :
    ∃ session p, empty.build ((Expr.char 'a').optional .null) = .ok (p, session) ∧
      (session.parse (.unary .many1 p) ['a', 'b']).1 = .error (.endlessRepetition ['b']) ∧
      (session.parse (.unary .many p) ['a', 'b']).1 = .error (.endlessRepetition ['b']) := by
  have new : IsNew ⟨[], 1, .empty⟩ (.fix ((Expr.char 'a').optional .null)) :=
    ⟨[], (Expr.char 'a').optional .null, rfl⟩
  refine ⟨_, _, rfl, (many1_alike new ['a', 'b']).endless [.str ['a']] ['b'] .null ?_ rfl⟩
  exact .next rfl (by decide) .done

end Descent
