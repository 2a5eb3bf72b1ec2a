import Descent.Proofs.Memoryless
import Descent.Proofs.Position

/-!
# Ordered choice

A choice runs its alternatives one after the other, each from the state that those before it have
left. Main statement: the first alternative that does not fail decides, and none after it runs; if all
of them fail, the choice reports the failure that got furthest into the text, the first one of several,
as it is. And a choice can be cut anywhere but at its start: it is the choice between the choice among
its first alternatives and the choice among the others.

The choice among no alternatives fails where it starts. An alternative fails there or further on, so a
failure of its own comes before that one.
-/

namespace Descent

/-! ## The deepest of several failures -/

namespace Failure

variable {f g : Failure} {fs : List Failure}

/-- Of several failures in order, the one that has the least left, and the first one of those. -/
def DeepestOf (f : Failure) (fs : List Failure) : Prop :=
  ∃ before after, fs = before ++ f :: after ∧
    (∀ g ∈ before, f.remaining.length < g.remaining.length) ∧
    ∀ g ∈ after, f.remaining.length ≤ g.remaining.length

theorem deeper_eq_left (le : f.remaining.length ≤ g.remaining.length) : f.deeper g = f :=
  if_pos le

theorem deeper_eq_right (lt : g.remaining.length < f.remaining.length) : f.deeper g = g :=
  if_neg (Nat.not_le.mpr lt)

theorem deeper_assoc (f g h : Failure) : (f.deeper g).deeper h = f.deeper (g.deeper h) := by
  by_cases first : f.remaining.length ≤ g.remaining.length <;>
    by_cases second : g.remaining.length ≤ h.remaining.length <;>
      simp only [deeper, first, second, ↓reduceIte]
  · simp [first.trans second]
  · have apart : ¬ f.remaining.length ≤ h.remaining.length := by omega
    simp [apart]

theorem deepestOf_singleton (f : Failure) : f.DeepestOf [f] :=
  ⟨[], [], rfl, by simp, by simp⟩

theorem DeepestOf.le (deepest : g.DeepestOf fs) :
    ∀ h ∈ fs, g.remaining.length ≤ h.remaining.length := by
  obtain ⟨before, after, rfl, earlier, later⟩ := deepest
  intro h member
  simp only [List.mem_append, List.mem_cons] at member
  rcases member with member | rfl | member
  · exact Nat.le_of_lt (earlier h member)
  · exact Nat.le_refl _
  · exact later h member

theorem DeepestOf.cons (deepest : g.DeepestOf fs) (f : Failure) :
    (f.deeper g).DeepestOf (f :: fs) := by
  by_cases first : f.remaining.length ≤ g.remaining.length
  · rw [deeper_eq_left first]
    exact ⟨[], fs, rfl, by simp, fun h member => first.trans (deepest.le h member)⟩
  · have behind : g.remaining.length < f.remaining.length := by omega
    rw [deeper_eq_right behind]
    obtain ⟨before, after, rfl, earlier, later⟩ := deepest
    exact ⟨f :: before, after, rfl, List.forall_mem_cons.mpr ⟨behind, earlier⟩, later⟩

/-- Comparing failures from the last one on, with one that nothing is behind of, finds the deepest. -/
theorem deepestOf_foldr {last : Failure} (some : fs ≠ [])
    (inside : ∀ f ∈ fs, f.remaining.length ≤ last.remaining.length) :
    (fs.foldr deeper last).DeepestOf fs := by
  induction fs with
  | nil => exact absurd rfl some
  | cons f fs ih =>
    obtain ⟨first, others⟩ := List.forall_mem_cons.mp inside
    by_cases alone : fs = []
    · subst alone
      rw [List.foldr_cons, List.foldr_nil, deeper_eq_left first]
      exact deepestOf_singleton f
    · exact (ih alone others).cons f

end Failure

namespace Parser

variable {σ α : Type} {p : Parser (ExceptT Fault (StateM σ)) α}
  {ps xs ys : List (Parser (ExceptT Fault (StateM σ)) α)} {text : Text} {state middle last : σ}
  {fs : List Failure}

/-- Whatever a run ends in, it leaves a rest of the text. -/
def EndsInside (p : Parser (ExceptT Fault (StateM σ)) α) : Prop :=
  ∀ text state outcome, ((p text).run.run state).1 = .ok outcome → outcome.remaining <:+ text

/-- All parsers of a list fail on a text, run one after the other. -/
inductive FailInTurn (text : Text) :
    List (Parser (ExceptT Fault (StateM σ)) α) → σ → List Failure → σ → Prop where
  | nil {state : σ} : FailInTurn text [] state [] state
  | cons {p : Parser (ExceptT Fault (StateM σ)) α} {ps : List (Parser (ExceptT Fault (StateM σ)) α)}
      {state middle last : σ} {f : Failure} {fs : List Failure} :
      (p text).run.run state = (.ok (.failure f), middle) → FailInTurn text ps middle fs last →
      FailInTurn text (p :: ps) state (f :: fs) last

/-! ## Two alternatives -/

theorem run_alternate_of_failure {f : Failure}
    (failed : (p text).run.run state = (.ok (.failure f), middle))
    (q : Parser (ExceptT Fault (StateM σ)) α) :
    (p.alternate q text).run.run state = match (q text).run.run middle with
      | (.ok (.failure g), last) => (.ok (.failure (f.deeper g)), last)
      | decided => decided := by
  unfold alternate
  simp only [Run.run_bind, failed]
  generalize (q text).run.run middle = ended
  obtain ⟨result, last⟩ := ended
  cases result with
  | error fault => rfl
  | ok outcome => cases outcome <;> rfl

theorem run_alternate_of_not_failure
    (decided : ∀ f, ((p text).run.run state).1 ≠ .ok (.failure f))
    (q : Parser (ExceptT Fault (StateM σ)) α) :
    (p.alternate q text).run.run state = (p text).run.run state := by
  unfold alternate
  rw [Run.run_bind]
  generalize (p text).run.run state = ended at decided
  obtain ⟨result, last⟩ := ended
  cases result with
  | error fault => rfl
  | ok outcome =>
    cases outcome with
    | success value rest => rfl
    | failure f => exact absurd rfl (decided f)

theorem alternate_assoc (p q r : Parser (ExceptT Fault (StateM σ)) α) :
    (p.alternate q).alternate r = p.alternate (q.alternate r) := by
  funext text
  simp only [alternate, bind_assoc]
  congr 1
  funext first
  cases first with
  | success value rest => simp
  | failure f =>
    simp only [bind_assoc]
    congr 1
    funext second
    cases second with
    | success value rest => simp
    | failure g =>
      simp only [pure_bind, bind_assoc]
      congr 1
      funext third
      cases third <;> simp [Failure.deeper_assoc]

/-- A failure at the start of the text is never reported in place of another one. -/
theorem alternate_fail (inside : p.EndsInside) (message : String) :
    p.alternate (fail message) = p := by
  funext text
  apply ExceptT.ext
  funext state
  change (p.alternate (fail message) text).run.run state = (p text).run.run state
  by_cases failed : ∃ f, ((p text).run.run state).1 = .ok (.failure f)
  · obtain ⟨f, failed⟩ := failed
    have short := (inside text state _ failed).length_le
    have ended : (p text).run.run state = (.ok (.failure f), ((p text).run.run state).2) :=
      Prod.ext failed rfl
    rw [run_alternate_of_failure ended, ended]
    show (Except.ok (Outcome.failure (f.deeper _)), _) = _
    rw [Failure.deeper_eq_left short]
  · exact run_alternate_of_not_failure (fun f => fun eq => failed ⟨f, eq⟩) _

/-! ## Many alternatives -/

theorem choice_cons (p : Parser (ExceptT Fault (StateM σ)) α)
    (ps : List (Parser (ExceptT Fault (StateM σ)) α)) :
    choice (p :: ps) = p.alternate (choice ps) := rfl

theorem FailInTurn.length_le (failed : FailInTurn text ps state fs last)
    (inside : ∀ p ∈ ps, p.EndsInside) : ∀ f ∈ fs, f.remaining.length ≤ text.length := by
  induction failed with
  | nil => simp
  | cons first _ ih =>
    obtain ⟨own, others⟩ := List.forall_mem_cons.mp inside
    have suffix := own text _ _ (congrArg Prod.fst first)
    exact List.forall_mem_cons.mpr ⟨suffix.length_le, ih others⟩

/-- Where all alternatives fail, their failures are compared from the last one on. -/
theorem FailInTurn.run_choice (failed : FailInTurn text ps state fs last) :
    (choice ps text).run.run state
      = (.ok (.failure (fs.foldr Failure.deeper ⟨noAlternative, text, []⟩)), last) := by
  induction failed with
  | nil => rfl
  | cons first _ ih =>
    rw [choice_cons, run_alternate_of_failure first, ih]
    rfl

theorem FailInTurn.run_choice_append (failed : FailInTurn text ps state fs middle)
    (decided : ∀ f, ((p text).run.run middle).1 ≠ .ok (.failure f))
    (after : List (Parser (ExceptT Fault (StateM σ)) α)) :
    (choice (ps ++ p :: after) text).run.run state = (p text).run.run middle := by
  induction failed with
  | nil => exact run_alternate_of_not_failure decided (choice after)
  | cons first _ ih =>
    rw [List.cons_append, choice_cons, run_alternate_of_failure first, ih decided]
    generalize (p text).run.run _ = ended at decided
    obtain ⟨result, last⟩ := ended
    split
    · next g last same =>
      cases same
      exact absurd rfl (decided g)
    · rfl

theorem failInTurn_or_decided (ps : List (Parser (ExceptT Fault (StateM σ)) α)) (text : Text)
    (state : σ) :
    (∃ fs last, FailInTurn text ps state fs last) ∨
      ∃ before p after fs middle, ps = before ++ p :: after ∧ FailInTurn text before state fs middle ∧
        ∀ f, ((p text).run.run middle).1 ≠ .ok (.failure f) := by
  induction ps generalizing state with
  | nil => exact .inl ⟨[], state, .nil⟩
  | cons p ps ih =>
    by_cases failed : ∃ f, ((p text).run.run state).1 = .ok (.failure f)
    · obtain ⟨f, failed⟩ := failed
      have first : (p text).run.run state = (.ok (.failure f), ((p text).run.run state).2) :=
        Prod.ext failed rfl
      rcases ih ((p text).run.run state).2 with ⟨fs, last, others⟩ |
        ⟨before, q, after, fs, middle, rfl, others, decided⟩
      · exact .inl ⟨f :: fs, last, .cons first others⟩
      · exact .inr ⟨p :: before, q, after, f :: fs, middle, rfl, .cons first others, decided⟩
    · exact .inr ⟨[], p, ps, [], state, rfl, .nil, fun f eq => failed ⟨f, eq⟩⟩

theorem choice_append (some : xs ≠ []) (inside : ∀ p ∈ xs, p.EndsInside) :
    choice (xs ++ ys) = (choice xs).alternate (choice ys) := by
  induction xs with
  | nil => exact absurd rfl some
  | cons p xs ih =>
    obtain ⟨first, others⟩ := List.forall_mem_cons.mp inside
    by_cases alone : xs = []
    · subst alone
      have single : choice [p] = p := alternate_fail first noAlternative
      rw [single]
      rfl
    · rw [List.cons_append, choice_cons, choice_cons, ih alone others, alternate_assoc]

/-- What a choice among parsers does on a text, from a state. -/
structure ChoosesOn (ps : List (Parser (ExceptT Fault (StateM σ)) α)) (text : Text) (state : σ) :
    Prop where
  /-- All alternatives fail, or there is a first one that does not. -/
  cases : (∃ fs last, FailInTurn text ps state fs last) ∨
    ∃ before p after fs middle, ps = before ++ p :: after ∧ FailInTurn text before state fs middle ∧
      ∀ f, ((p text).run.run middle).1 ≠ .ok (.failure f)
  /-- The first alternative that does not fail decides: its run is the last one. -/
  first : ∀ before p after fs middle, ps = before ++ p :: after →
    FailInTurn text before state fs middle → (∀ f, ((p text).run.run middle).1 ≠ .ok (.failure f)) →
    (choice ps text).run.run state = (p text).run.run middle
  /-- If all fail, the deepest of their failures is reported. -/
  deepest : ∀ fs last, FailInTurn text ps state fs last → ps ≠ [] →
    ∃ f, f.DeepestOf fs ∧ (choice ps text).run.run state = (.ok (.failure f), last)
  empty : ps = [] →
    (choice ps text).run.run state = (.ok (.failure ⟨"No alternative matched", text, []⟩), state)

theorem choosesOn (inside : ∀ p ∈ ps, p.EndsInside) (text : Text) (state : σ) :
    ChoosesOn ps text state := by
  constructor
  · exact failInTurn_or_decided ps text state
  · intro before p after fs middle split failed decided
    rw [split]
    exact failed.run_choice_append decided after
  · intro fs last failed some
    refine ⟨_, Failure.deepestOf_foldr ?_ ?_, failed.run_choice⟩
    · intro none
      subst none
      cases failed
      exact some rfl
    · exact failed.length_le inside
  · intro none
    rw [none]
    rfl

end Parser

/-! ## Choices in expressions -/

theorem Expr.denote_choice {m : Type → Type} [Monad m] [MonadExceptOf Fault m] {ι : Type}
    (host : Host ι m) (self : Expr ι) (ps : List (Expr ι)) :
    denote host self (.choice ps) = Parser.choice (ps.map (denote host self)) := by
  induction ps with
  | nil => rfl
  | cons p ps ih =>
    show (denote host self p).alternate (denote host self (.choice ps)) = _
    rw [ih]
    rfl

namespace Run

open Comparison

theorem endsInside_of_placed {p : Parser Run Value}
    (placed : ∀ bound, (Comparison.run Eq).Similar .placed bound 0 p p) : p.EndsInside := by
  intro text memory outcome ended
  have inside := placed_of_similar (placed _) ended
  cases outcome with
  | success value rest => exact inside
  | failure f => exact inside.suffix

theorem enter_endsInside (env : Env) (depth : Nat) (p : Expr Link) :
    (enter env depth p).EndsInside :=
  endsInside_of_placed fun _ => enter_placed env depth p

theorem denote_endsInside (env : Env) (depth : Nat) (self p : Expr Link) :
    (Expr.denote (host env (enter env depth)) self p).EndsInside :=
  endsInside_of_placed fun _ => denote_placed (enter_placed env depth) self p

/-- What a choice among whole parsers means does not depend on the recursive parser around it. -/
theorem denote_choice_of_wholes {env : Env} {ps : List (Expr Link)}
    (wholes : ∀ p ∈ ps, ∃ body, p = .fix body) (depth : Nat) (self : Expr Link) :
    Expr.denote (host env (enter env depth)) self (.choice ps)
      = Parser.choice (ps.map (enter env (depth + 1))) := by
  rw [Expr.denote_choice]
  congr 1
  apply List.map_congr_left
  intro p member
  obtain ⟨body, rfl⟩ := wholes p member
  rfl

end Run

namespace Session

variable {ps xs ys : List (Expr Link)}

theorem ran_choice (session : Session) (wholes : ∀ p ∈ ps, ∃ body, p = .fix body) (text : Text) :
    session.ran (.choice ps) text
      = (Parser.choice (ps.map (Run.enter session.env (Run.depthFor session.builds text)))
          text).run.run session.memory := by
  obtain ⟨depth, deep⟩ := session.exists_depth text
  rw [ran, deep, ← Run.denote_choice_of_wholes wholes depth (.choice ps)]
  rfl

theorem ran_alternate_choice (session : Session)
    (wholes : ∀ p ∈ xs ++ ys, ∃ body, p = .fix body) (text : Text) :
    session.ran ((Expr.choice xs).alternate (.choice ys)) text
      = ((Parser.choice (xs.map (Run.enter session.env (Run.depthFor session.builds text)))).alternate
          (Parser.choice (ys.map (Run.enter session.env (Run.depthFor session.builds text))))
          text).run.run session.memory := by
  obtain ⟨wholeX, wholeY⟩ := List.forall_mem_append.mp wholes
  obtain ⟨depth, deep⟩ := session.exists_depth text
  let self := (Expr.choice xs).alternate (.choice ys)
  rw [ran, deep, ← Run.denote_choice_of_wholes wholeX depth self,
    ← Run.denote_choice_of_wholes wholeY depth self]
  rfl

/-- Choices among parsers with any state choose as `ChoosesOn` says, and can be cut into two. A choice
anywhere in a grammar is the choice among what its parts mean there, and every run of a choice among
parsers that were built is one among their runs. -/
theorem choice_first_or_deepest :
    (∀ {σ α : Type} (ps : List (Parser (ExceptT Fault (StateM σ)) α)),
      (∀ p ∈ ps, p.EndsInside) → ∀ text state, Parser.ChoosesOn ps text state) ∧
    (∀ {σ α : Type} (xs ys : List (Parser (ExceptT Fault (StateM σ)) α)), xs ≠ [] →
      (∀ p ∈ xs, p.EndsInside) →
      Parser.choice (xs ++ ys) = (Parser.choice xs).alternate (Parser.choice ys)) ∧
    (∀ (env : Env) (depth : Nat) (self : Expr Link) (ps : List (Expr Link)),
      let meaning := Expr.denote (Run.host env (Run.enter env depth)) self
      meaning (.choice ps) = Parser.choice (ps.map meaning) ∧ ∀ p ∈ ps, (meaning p).EndsInside) ∧
    ∀ (session : Session) (ps : List (Expr Link)), (∀ p ∈ ps, ∃ body, p = .fix body) → ∀ text,
      let parsers := ps.map (Run.enter session.env (Run.depthFor session.builds text))
      session.ran (.choice ps) text = (Parser.choice parsers text).run.run session.memory ∧
      Parser.ChoosesOn parsers text session.memory ∧
      ∀ xs ys, ps = xs ++ ys → xs ≠ [] →
        session.ran (.choice ps) text = session.ran ((Expr.choice xs).alternate (.choice ys)) text := by
  have inside (session : Session) (text : Text) (ps : List (Expr Link)) :
      ∀ p ∈ ps.map (Run.enter session.env (Run.depthFor session.builds text)), p.EndsInside := by
    intro p member
    obtain ⟨whole, -, rfl⟩ := List.mem_map.mp member
    exact Run.enter_endsInside _ _ _
  refine ⟨fun ps inside => Parser.choosesOn inside, fun xs ys => Parser.choice_append, ?_, ?_⟩
  · intro env depth self ps
    exact ⟨Expr.denote_choice _ self ps, fun p _ => Run.denote_endsInside env depth self p⟩
  · intro session ps wholes text
    refine ⟨session.ran_choice wholes text, Parser.choosesOn (inside session text ps) text _, ?_⟩
    intro xs ys split some
    subst split
    have first := inside session text xs
    rw [session.ran_choice wholes text, session.ran_alternate_choice wholes text, List.map_append,
      Parser.choice_append (by simpa using some) first]

/-- Two alternatives fail at the second character, and the earlier one of them is reported. -/
theorem choice_first_or_deepest_tie :
    ∃ f, f.DeepestOf [⟨"Failed at char 'a' in \"ad\"", ['a', 'd'], []⟩,
        ⟨"b: Failed at char 'd' in \"d\"", ['d'], [⟨1, some "b"⟩]⟩,
        ⟨"Failed at char 'd' in \"d\"", ['d'], []⟩] ∧
      (empty.ran (.choice [.fix (.char 'x'), .fix ((Expr.char 'a').andThen ((Expr.char 'b').named "b")),
        .fix ((Expr.char 'a').andThen (.char 'c'))]) ['a', 'd']).1 = .ok (.failure f) := by
  have wholes : ∀ p ∈ [Expr.fix (.char 'x'),
      .fix ((Expr.char 'a').andThen ((Expr.char 'b').named "b")),
      .fix ((Expr.char 'a').andThen (.char 'c'))], ∃ body : Expr Link, p = .fix body := by simp
  obtain ⟨runs, chooses, -⟩ := choice_first_or_deepest.2.2.2 empty _ wholes ['a', 'd']
  obtain ⟨f, deepest, ended⟩ :=
    chooses.deepest _ _ (.cons rfl (.cons rfl (.cons rfl .nil))) (by simp)
  exact ⟨f, deepest, by rw [runs, ended]⟩

end Session
end Descent
