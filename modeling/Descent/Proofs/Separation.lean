import Descent.Proofs.Acceptance.Lexical
import Descent.Proofs.Repetition

/-!
# Items with separators

A separated list is a first item and rounds of a separator and an item. Main statement: it succeeds with
the items of the chain that goes on as long as a round consumes something, and leaves what the last item
left. A separator that no item follows is given back, whatever it consumed. The first item may consume
nothing; a later one may not, together with the separator before it.
-/

namespace Descent

namespace Parser

variable {α β : Type} {p : Parser (Except Fault) α} {s : Parser (Except Fault) β}
  {text middle last : Text} {values : List α} {value : α}

def NeverFaults (p : Parser (Except Fault) α) : Prop := ∀ text, ∃ outcome, p text = .ok outcome

/-- Items with a separator between any two of them. Every item but the first one consumes something,
together with the separator before it. -/
inductive Items (p : Parser (Except Fault) α) (s : Parser (Except Fault) β) (text : Text) :
    List α → Text → Prop where
  | first {value : α} {rest : Text} : p.Accepts text value rest → Items p s text [value] rest
  | next {values : List α} {middle inner rest : Text} {separator : β} {value : α} :
      Items p s text values middle → s.Accepts middle separator inner → p.Accepts inner value rest →
      rest.length < middle.length → Items p s text (values ++ [value]) rest

/-! ## Chains as rounds -/

theorem Rounds.concat {rest : Text} (rounds : Rounds p text values middle)
    (accepted : p.Accepts middle value rest) (shorter : rest.length < middle.length) :
    Rounds p text (values ++ [value]) rest := by
  induction rounds with
  | done => exact .next accepted shorter .done
  | next first less _ ih => exact .next first less (ih accepted shorter)

theorem Items.rounds (items : Items p s text values last) : ∃ first middle others,
    values = first :: others ∧ p.Accepts text first middle ∧
      Rounds (s.andThen p) middle others last := by
  induction items with
  | first accepted => exact ⟨_, _, [], rfl, accepted, .done⟩
  | next _ separated accepted shorter ih =>
    obtain ⟨first, start, others, rfl, begins, rounds⟩ := ih
    have round := accepts_andThen.mpr ⟨_, _, separated, accepted⟩
    exact ⟨first, start, others ++ [_], rfl, begins, rounds.concat round shorter⟩

theorem Items.append {others : List α} (items : Items p s text values middle)
    (rounds : Rounds (s.andThen p) middle others last) : Items p s text (values ++ others) last := by
  induction rounds generalizing values with
  | done => simpa using items
  | next round shorter _ ih =>
    obtain ⟨separator, inner, separated, accepted⟩ := accepts_andThen.mp round
    simpa using ih (items.next separated accepted shorter)

/-! ## Runs -/

theorem LeavesRest.andThen (leaves : p.LeavesRest) (leaves' : s.LeavesRest) :
    (s.andThen p).LeavesRest := by
  intro text value rest accepted
  obtain ⟨_, inner, first, second⟩ := accepts_andThen.mp accepted
  exact (leaves inner value rest second).trans (leaves' text _ inner first)

theorem NeverFaults.andThen (total : p.NeverFaults) (total' : s.NeverFaults) :
    (s.andThen p).NeverFaults := by
  intro text
  obtain ⟨outcome, result⟩ := total' text
  cases outcome with
  | failure f => exact ⟨_, flatMap_of_failure result fun _ => p⟩
  | success separator inner =>
    obtain ⟨outcome, result'⟩ := total inner
    exact ⟨outcome, (andThen_of_accepts result p).trans result'⟩

theorem optional_of_rejects (rejected : p.Rejects text) (default : α) :
    p.optional default text = .ok (.success default text) := by
  obtain ⟨f, failed⟩ := rejected
  unfold optional alternate
  rw [failed]
  rfl

theorem optional_of_accepts {rest : Text} (accepted : p.Accepts text value rest) (default : α) :
    p.optional default text = .ok (.success value rest) := by
  unfold optional alternate
  rw [show p text = _ from accepted]
  rfl

theorem optional_of_fault {fault : Fault} (thrown : p text = .error fault) (default : α) :
    p.optional default text = .error fault := by
  unfold optional alternate
  rw [thrown]
  rfl

theorem sepBy_of_rejects (rejected : p.Rejects text) (s : Parser (Except Fault) β) :
    p.sepBy s text = .ok (.success [] text) :=
  optional_of_rejects (rejected.flatMap _) []

theorem rejects_andThen : (s.andThen p).Rejects last ↔
    s.Rejects last ∨ ∃ separator inner, s.Accepts last separator inner ∧ p.Rejects inner := by
  constructor
  · intro ⟨f, failed⟩
    cases result : s last with
    | error fault =>
      cases failed.symm.trans (andThen_of_fault result p)
    | ok outcome =>
      cases outcome with
      | failure g => exact .inl ⟨g, result⟩
      | success separator inner =>
        exact .inr ⟨separator, inner, result, f, andThen_of_accepts result p ▸ failed⟩
  · intro rejected
    rcases rejected with rejected | ⟨separator, inner, separated, f, failed⟩
    · exact rejected.andThen p
    · exact ⟨f, (andThen_of_accepts separated p).trans failed⟩

theorem Items.sepBy_of_rejects (items : Items p s text values last)
    (ends : (s.andThen p).Rejects last) : p.sepBy s text = .ok (.success values last) := by
  obtain ⟨first, start, others, rfl, accepted, rounds⟩ := items.rounds
  apply optional_of_accepts
  rw [accepts_flatMap]
  exact ⟨first, start, accepted,
    accepts_map.mpr ⟨others, accepts_many.mpr ⟨rounds, ends⟩, rfl⟩⟩

theorem Items.sepBy_of_endless (items : Items p s text values last)
    (ends : (s.andThen p).Accepts last value last) :
    p.sepBy s text = .error (.endlessRepetition last) := by
  obtain ⟨first, start, others, rfl, accepted, rounds⟩ := items.rounds
  apply optional_of_fault
  rw [flatMap_of_accepts accepted]
  exact map_of_fault (rounds.endless ends) _

/-- A chain goes on to where the separator or the item fails, or both consume nothing. -/
theorem exists_items (total : (s.andThen p).NeverFaults) (leaves : (s.andThen p).LeavesRest)
    {start : Text} (accepted : p.Accepts text value start) : ∃ others last,
    Items p s text (value :: others) last ∧
      ((s.andThen p).Rejects last ∨ ∃ next, (s.andThen p).Accepts last next last) := by
  obtain ⟨others, last, rounds, ends⟩ := exists_rounds (s.andThen p) start
  refine ⟨others, last, (Items.first accepted).append rounds, ?_⟩
  obtain ⟨outcome, result⟩ := total last
  cases outcome with
  | failure f => exact .inl ⟨f, result⟩
  | success next rest =>
    have suffix := leaves last next rest result
    have long := ends next rest result
    obtain rfl := suffix.eq_of_length_le (Nat.le_of_not_lt long)
    exact .inr ⟨next, result⟩

/-- What a list of `p` separated by `s` does on a text. -/
structure SeparatesOn (p : Parser (Except Fault) α) (s : Parser (Except Fault) β) (text : Text) :
    Prop where
  empty : ∀ rest, p.sepBy s text = .ok (.success [] rest) ↔ p.Rejects text ∧ rest = text
  items : ∀ first others rest, p.sepBy s text = .ok (.success (first :: others) rest) ↔
    Items p s text (first :: others) rest ∧
      (s.Rejects rest ∨ ∃ separator inner, s.Accepts rest separator inner ∧ p.Rejects inner)
  endless : ∀ last, p.sepBy s text = .error (.endlessRepetition last) ↔ ∃ values separator inner value,
    Items p s text values last ∧ s.Accepts last separator inner ∧ p.Accepts inner value last
  only_endless : ∀ fault, p.sepBy s text = .error fault → ∃ last, fault = .endlessRepetition last
  never_fails : ∀ f, p.sepBy s text ≠ .ok (.failure f)
  /-- A separator that no item follows is left, with all that the two consumed. -/
  trailing : ∀ values rest separator inner, Items p s text values rest →
    s.Accepts rest separator inner → p.Rejects inner → p.sepBy s text = .ok (.success values rest)
  /-- The first item may consume nothing. -/
  empty_first : ∀ value, p.Accepts text value text → s.Rejects text →
    p.sepBy s text = .ok (.success [value] text)

theorem sepBy_ends (total : p.NeverFaults) (total' : s.NeverFaults) (leaves : p.LeavesRest)
    (leaves' : s.LeavesRest) (text : Text) :
    (p.Rejects text ∧ p.sepBy s text = .ok (.success [] text)) ∨
      ∃ first others last, Items p s text (first :: others) last ∧
        (((s.andThen p).Rejects last ∧ p.sepBy s text = .ok (.success (first :: others) last)) ∨
          ((∃ next, (s.andThen p).Accepts last next last) ∧
            p.sepBy s text = .error (.endlessRepetition last))) := by
  obtain ⟨outcome, result⟩ := total text
  cases outcome with
  | failure f => exact .inl ⟨⟨f, result⟩, sepBy_of_rejects ⟨f, result⟩ s⟩
  | success first start =>
    obtain ⟨others, last, items, ends⟩ :=
      exists_items (total.andThen total') (leaves.andThen leaves') result
    refine .inr ⟨first, others, last, items, ?_⟩
    rcases ends with rejected | ⟨next, accepted⟩
    · exact .inl ⟨rejected, items.sepBy_of_rejects rejected⟩
    · exact .inr ⟨⟨next, accepted⟩, items.sepBy_of_endless accepted⟩

theorem separatesOn (total : p.NeverFaults) (total' : s.NeverFaults) (leaves : p.LeavesRest)
    (leaves' : s.LeavesRest) (text : Text) : SeparatesOn p s text := by
  have ends := sepBy_ends total total' leaves leaves' text
  constructor
  · intro rest
    constructor
    · intro result
      rcases ends with ⟨rejected, whole⟩ | ⟨first, others, last, -, ⟨-, whole⟩ | ⟨-, whole⟩⟩ <;>
        cases result.symm.trans whole
      exact ⟨rejected, rfl⟩
    · intro ⟨rejected, here⟩
      rw [here]
      exact sepBy_of_rejects rejected s
  · intro first others rest
    constructor
    · intro result
      rcases ends with ⟨-, whole⟩ | ⟨_, _, last, items, ⟨rejected, whole⟩ | ⟨-, whole⟩⟩ <;>
        cases result.symm.trans whole
      exact ⟨items, rejects_andThen.mp rejected⟩
    · intro ⟨items, rejected⟩
      exact items.sepBy_of_rejects (rejects_andThen.mpr rejected)
  · intro last
    constructor
    · intro result
      rcases ends with ⟨-, whole⟩ | ⟨_, _, _, items, ⟨-, whole⟩ | ⟨⟨next, round⟩, whole⟩⟩ <;>
        cases result.symm.trans whole
      obtain ⟨separator, inner, separated, accepted⟩ := accepts_andThen.mp round
      exact ⟨_, separator, inner, next, items, separated, accepted⟩
    · intro ⟨values, separator, inner, value, items, separated, accepted⟩
      exact items.sepBy_of_endless (accepts_andThen.mpr ⟨separator, inner, separated, accepted⟩)
  · intro fault result
    rcases ends with ⟨-, whole⟩ | ⟨_, _, last, -, ⟨-, whole⟩ | ⟨-, whole⟩⟩ <;>
      cases result.symm.trans whole
    exact ⟨last, rfl⟩
  · intro f result
    rcases ends with ⟨-, whole⟩ | ⟨_, _, _, -, ⟨-, whole⟩ | ⟨-, whole⟩⟩ <;>
      cases result.symm.trans whole
  · intro values rest separator inner items separated rejected
    exact items.sepBy_of_rejects (rejects_andThen.mpr (.inr ⟨separator, inner, separated, rejected⟩))
  · intro value accepted rejected
    exact (Items.first accepted).sepBy_of_rejects (rejects_andThen.mpr (.inl rejected))

/-! ## Parsers of sessions -/

open Comparison in
/-- What a list does on a text depends on its parts only as far as the text goes. -/
theorem sepBy_congr {p' : Parser (Except Fault) α} {s' : Parser (Except Fault) β}
    (total : p.NeverFaults) (total' : s.NeverFaults) (leaves : p.LeavesRest)
    (leaves' : s.LeavesRest) (same : ∀ rest, rest.length ≤ text.length → p' rest = p rest)
    (same' : ∀ rest, rest.length ≤ text.length → s' rest = s rest) :
    p'.sepBy s' text = p.sepBy s text := by
  have similar {γ : Type} {q q' : Parser (Except Fault) γ} (total : q.NeverFaults)
      (leaves : q.LeavesRest) (same : ∀ rest, rest.length ≤ text.length → q' rest = q rest) :
      (Comparison.except fun _ => True).Similar .same (text.length + 1) 0 q' q := by
    intro rest short
    rw [same rest (Nat.le_of_lt_succ short)]
    obtain ⟨outcome, result⟩ := total rest
    rw [result]
    cases outcome with
    | success value after =>
      have suffix := leaves rest value after result
      exact .ok (.success suffix suffix.length_le)
    | failure f => exact .ok (.failure rfl)
  have runs := (similar total leaves same).sepBy (similar total' leaves' same')
    (.inr fun _ => trivial)
  exact (runs text (Nat.lt_succ_self _)).eq_of_same

end Parser

theorem Session.IsUnused.parse_leavesRest {session : Session} {name : String} {p : Expr Link}
    (unused : session.IsUnused) (found : session.env.find? name = some p) :
    Parser.LeavesRest fun text => (session.parse p text).1 := by
  intro text value rest accepted
  have result : (session.parse p text).1 = .ok (.success value rest) := accepted
  rw [unused.parse_eq found, unused.functionOf_eq found] at result
  exact Run.enterAnew_leavesRest _ _ _ text value rest result

theorem Session.IsUnused.parse_sepBy {session : Session} {name other : String} {p s : Expr Link}
    (unused : session.IsUnused) (found : session.env.find? name = some p)
    (found' : session.env.find? other = some s)
    (total : Parser.NeverFaults fun text => (session.parse p text).1)
    (total' : Parser.NeverFaults fun text => (session.parse s text).1) (text : Text) :
    (session.parse (.binary .sepBy p s) text).1
      = ((Parser.sepBy (fun text => (session.parse p text).1)
          fun text => (session.parse s text).1).map .list) text := by
  have same {name : String} {q : Expr Link} (found : session.env.find? name = some q)
      (total : Parser.NeverFaults fun text => (session.parse q text).1) (rest : Text)
      (short : rest.length ≤ text.length) :
      session.functionOf text q rest = (session.parse q rest).1 := by
    obtain ⟨outcome, result⟩ := total rest
    exact (unused.functionOf_of_ok found short result).trans result.symm
  have lists := Parser.sepBy_congr total total' (unused.parse_leavesRest found)
    (unused.parse_leavesRest found') (same found total) (same found' total')
  rw [unused.parse_binary found found']
  exact congrArg (fun result : Except Fault (Outcome (List Value)) =>
    result >>= fun outcome => outcome.mapValue fun values => pure (Value.list values)) lists

/-- Parsers that leave rests of their input and never throw faults are separated as `SeparatesOn` says.
Named parsers of a session leave rests, and if they never throw faults, their list in the session is
that of their functions. -/
theorem Session.separation_exact :
    (∀ {α β : Type} (p : Parser (Except Fault) α) (s : Parser (Except Fault) β), p.NeverFaults →
      s.NeverFaults → p.LeavesRest → s.LeavesRest → ∀ text, Parser.SeparatesOn p s text) ∧
    ∀ (session : Session) (name other : String) (p s : Expr Link), session.IsUnused →
      session.env.find? name = some p → session.env.find? other = some s →
      let item : Parser (Except Fault) Value := fun text => (session.parse p text).1
      let separator : Parser (Except Fault) Value := fun text => (session.parse s text).1
      item.LeavesRest ∧ separator.LeavesRest ∧ (item.NeverFaults → separator.NeverFaults →
        ∀ text, (session.parse (.binary .sepBy p s) text).1
          = ((item.sepBy separator).map .list) text) := by
  refine ⟨fun p s total total' leaves leaves' text => ?_, ?_⟩
  · exact Parser.separatesOn total total' leaves leaves' text
  · intro session name other p s unused found found'
    exact ⟨unused.parse_leavesRest found, unused.parse_leavesRest found',
      unused.parse_sepBy found found'⟩

/-- The last comma is not followed by a letter, so it is left. -/
theorem Session.separation_exact_trailing : ∃ session p s,
    [("letter", Expr.char 'a'), ("comma", Expr.char ',')].foldlM
      (fun session d => session.define d.1 d.2) empty = .ok session ∧
    session.env.find? "letter" = some p ∧ session.env.find? "comma" = some s ∧
    (session.parse (.binary .sepBy p s) "a,a,b".toList).1
      = .ok (.success (.list [.str ['a'], .str ['a']]) ",b".toList) := by
  let session : Session :=
    ⟨[("comma", .fix (.char ',')), ("letter", .fix (.char 'a'))], 2, .empty⟩
  have unused : session.IsUnused := ⟨[("letter", Expr.char 'a'), ("comma", Expr.char ',')], rfl⟩
  have total (c : Char) : Parser.NeverFaults fun text => (session.parse (.fix (.char c)) text).1 := by
    intro text
    have same : (session.parse (.fix (.char c)) text).1
        = ((Parser.char c).map fun d => Value.str [d]) text := session.parse_prim (.char c) text
    show ∃ outcome, (session.parse (.fix (.char c)) text).1 = .ok outcome
    rw [same]
    by_cases begins : text.head? = some c
    · obtain ⟨rest, rfl⟩ := List.head?_eq_some_iff.mp begins
      exact ⟨_, Parser.accepts_map.mpr ⟨c, Parser.accepts_char.mpr ⟨rfl, rfl⟩, rfl⟩⟩
    · exact ⟨_, Parser.map_of_failure (Parser.char_of_head?_ne begins) _⟩
  obtain ⟨leaves, leaves', same⟩ :=
    separation_exact.2 session "letter" "comma" (.fix (.char 'a')) (.fix (.char ',')) unused rfl rfl
  have separates := separation_exact.1 _ _ (total 'a') (total ',') leaves leaves' "a,a,b".toList
  have first : Parser.Accepts (fun text => (session.parse (.fix (.char 'a')) text).1) "a,a,b".toList
      (.str ['a']) ",a,b".toList := rfl
  have comma : Parser.Accepts (fun text => (session.parse (.fix (.char ',')) text).1) ",a,b".toList
      (.str [',']) "a,b".toList := rfl
  have second : Parser.Accepts (fun text => (session.parse (.fix (.char 'a')) text).1) "a,b".toList
      (.str ['a']) ",b".toList := rfl
  have items := (Parser.Items.first first).next comma second (by decide)
  have list := separates.trailing _ _ (.str [',']) ['b'] items rfl ⟨_, rfl⟩
  refine ⟨session, _, _, rfl, rfl, rfl, ?_⟩
  rw [same (total 'a') (total ',')]
  exact Parser.accepts_map.mpr ⟨_, list, rfl⟩

end Descent
