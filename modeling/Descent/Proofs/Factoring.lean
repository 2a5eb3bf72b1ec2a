import Descent.Proofs.Choice
import Descent.Proofs.Rewriting

/-!
# Factoring choices

What all alternatives of a choice begin with can be taken out of it, and a label on a choice can be
put on each of its alternatives. Main statement: parsers that stay inside their texts come to the same
on both sides of such an equation, and after any steps of a session the two grammars have the same
answers.

Each side ends in a parser that fails where the choice starts. On the one side this is behind what was
taken out, on the other side before it. It is never reported, because no alternative fails earlier.
-/

namespace Descent

open Comparison

namespace Failure

variable (f g : Failure)

theorem deeper_self : f.deeper f = f :=
  deeper_eq_left (Nat.le_refl _)

theorem deeper_annotate (label : String) (length : Int) :
    (f.annotate label length).deeper (g.annotate label length)
      = (f.deeper g).annotate label length := by
  by_cases further : f.remaining.length ≤ g.remaining.length
  · rw [deeper_eq_left further]
    exact deeper_eq_left further
  · rw [deeper_eq_right (Nat.lt_of_not_le further)]
    exact deeper_eq_right (Nat.lt_of_not_le further)

end Failure

namespace Parser

variable {α β γ : Type} {p q : Parser (Except Fault) α}

/-! ## Alternatives -/

theorem StaysInside.alternate_fail (inside : p.StaysInside) (message : String) :
    p.alternate (fail message) = p := by
  funext text
  unfold alternate
  cases ran : p text with
  | error fault => rfl
  | ok outcome =>
    cases outcome with
    | success value rest => rfl
    | failure f =>
      have kept : f.deeper ⟨message, text, []⟩ = f :=
        Failure.deeper_eq_left (inside text _ ran).length_le
      simp only [fail, bind, Except.bind, pure, Except.pure, kept]

/-- A prefix that fails does so on both sides, with the same failure. -/
theorem flatMap_alternate (p : Parser (Except Fault) α) (f g : α → Parser (Except Fault) β) :
    p.flatMap (fun value => (f value).alternate (g value))
      = (p.flatMap f).alternate (p.flatMap g) := by
  funext text
  unfold alternate flatMap
  cases p text with
  | error fault => rfl
  | ok outcome =>
    cases outcome with
    | success value rest => rfl
    | failure f =>
      simp only [Outcome.flatMapSuccess, bind, Except.bind, pure, Except.pure, f.deeper_self]

theorem name_alternate (p q : Parser (Except Fault) α) (label : String) :
    (p.alternate q).name label = (p.name label).alternate (q.name label) := by
  funext text
  simp only [alternate, name]
  cases p text with
  | error fault => rfl
  | ok first =>
    cases first with
    | success value rest => rfl
    | failure f =>
      cases q text with
      | error fault => rfl
      | ok second =>
        cases second with
        | success value rest => rfl
        | failure g => simp only [bind, Except.bind, pure, Except.pure, f.deeper_annotate g]

/-! ## Choices -/

/-- What goes through alternatives goes through choices. Parsers may depend on a value here, as those
behind a prefix do. -/
theorem choice_through {F : (γ → Parser (Except Fault) α) → Parser (Except Fault) β}
    (alternates : ∀ f g, F (fun value => (f value).alternate (g value)) = (F f).alternate (F g))
    (insides : ∀ f, (∀ value, (f value).StaysInside) → (F f).StaysInside)
    (fs : List (γ → Parser (Except Fault) α)) (some : fs ≠ [])
    (inside : ∀ f ∈ fs, ∀ value, (f value).StaysInside) :
    F (fun value => choice (fs.map (· value))) = choice (fs.map F) := by
  induction fs with
  | nil => exact absurd rfl some
  | cons f fs ih =>
    obtain ⟨first, others⟩ := List.forall_mem_cons.mp inside
    by_cases alone : fs = []
    · subst alone
      have single (value : γ) : choice [f value] = f value :=
        (first value).alternate_fail noAlternative
      have whole : choice [F f] = F f := (insides f first).alternate_fail noAlternative
      simp only [List.map_cons, List.map_nil, single, whole]
    · calc F (fun value => choice ((f :: fs).map (· value)))
        _ = (F f).alternate (F fun value => choice (fs.map (· value))) := alternates _ _
        _ = (F f).alternate (choice (fs.map F)) := by rw [ih alone others]

theorem flatMap_choice (inside : p.StaysInside) (fs : List (α → Parser (Except Fault) β))
    (some : fs ≠ []) (insides : ∀ f ∈ fs, ∀ value, (f value).StaysInside) :
    p.flatMap (fun value => choice (fs.map (· value))) = choice (fs.map p.flatMap) :=
  choice_through p.flatMap_alternate (fun _ => inside.flatMap) fs some insides

theorem andThen_choice (inside : p.StaysInside) {qs : List (Parser (Except Fault) β)}
    (some : qs ≠ []) (insides : ∀ q ∈ qs, q.StaysInside) :
    p.andThen (choice qs) = choice (qs.map p.andThen) := by
  have through := flatMap_choice inside (qs.map fun q _ => q) (by simpa using some)
    (List.forall_mem_map.mpr fun q member _ => insides q member)
  simp only [List.map_map, Function.comp_def, List.map_id_fun'] at through
  exact through

theorem name_choice {qs : List (Parser (Except Fault) α)} (some : qs ≠ [])
    (insides : ∀ q ∈ qs, q.StaysInside) (label : String) :
    (choice qs).name label = choice (qs.map (·.name label)) := by
  have through := choice_through (γ := Unit) (F := fun f => (f ()).name label)
    (fun f g => name_alternate (f ()) (g ()) label) (fun f inside => (inside ()).name label)
    (qs.map fun q _ => q) (by simpa using some)
    (List.forall_mem_map.mpr fun q member _ => insides q member)
  simpa only [List.map_map, Function.comp_def, List.map_id_fun', id_eq] using through

end Parser

/-! ## Grammars -/

namespace Expr

section Build

variable {π γ δ : Type} {env : Env} {opening : Except Fault π} {part : γ → Except Fault δ}
  {F : γ → Expr Mention} {G : π → δ → Expr Link} {xs : List γ}

theorem buildPart_choice_cons (env : Env) (q : Expr Mention) (qs : List (Expr Mention)) :
    (choice (q :: qs)).buildPart env none = do
      return alternate (← q.buildPart env none) (← (choice qs).buildPart env none) := rfl

theorem buildPart_choice (env : Env) (qs : List (Expr Mention)) :
    (choice qs).buildPart env none = do return choice (← qs.mapM (buildPart env none)) := by
  induction qs with
  | nil => rfl
  | cons q qs ih =>
    rw [buildPart_choice_cons, ih, List.mapM_cons]
    simp only [bind_assoc, pure_bind]
    rfl

theorem buildPart_choice_of_ok {G : γ → Expr Link}
    (built : ∀ x ∈ xs, (F x).buildPart env none = .ok (G x)) :
    (choice (xs.map F)).buildPart env none = .ok (choice (xs.map G)) := by
  induction xs with
  | nil => rfl
  | cons x xs ih =>
    obtain ⟨own, others⟩ := List.forall_mem_cons.mp built
    rw [List.map_cons, buildPart_choice_cons, own, ih others]
    rfl

/-- What all alternatives begin with is built with each of them. Once is enough. -/
theorem buildPart_choice_map (some : xs ≠ [])
    (built : ∀ x ∈ xs, (F x).buildPart env none = do return G (← opening) (← part x)) :
    (choice (xs.map F)).buildPart env none = do
      let first ← opening
      return choice ((← xs.mapM part).map (G first)) := by
  cases opening with
  | error fault =>
    obtain ⟨x, xs, rfl⟩ := List.exists_cons_of_ne_nil some
    rw [List.map_cons, buildPart_choice_cons, built x List.mem_cons_self]
    rfl
  | ok first =>
    clear some
    induction xs with
    | nil => rfl
    | cons x xs ih =>
      obtain ⟨own, others⟩ := List.forall_mem_cons.mp built
      rw [List.map_cons, buildPart_choice_cons, own, ih others, List.mapM_cons]
      cases part x with
      | error fault => rfl
      | ok y => cases xs.mapM part <;> rfl

/-- A choice means the same as a grammar of the same parts if it does so once they are built. -/
theorem SameMeaning.choice_map {A : Expr Mention} (opening : Except Fault π)
    (part : γ → Except Fault δ) (G : π → δ → Expr Link) (H : π → List δ → Expr Link) (some : xs ≠ [])
    (whole : A.buildPart env none = do return H (← opening) (← xs.mapM part))
    (built : ∀ x ∈ xs, (F x).buildPart env none = do return G (← opening) (← part x))
    (means : ∀ first ys, ys ≠ [] → ∀ host : Host Link (Except Fault), host.StaysInside → ∀ self,
      denote host self (H first ys) = Parser.choice (ys.map fun y => denote host self (G first y))) :
    SameMeaning env A (choice (xs.map F)) := by
  unfold SameMeaning
  rw [whole, buildPart_choice_map some built]
  obtain ⟨x, xs, rfl⟩ := List.exists_cons_of_ne_nil some
  rw [List.mapM_cons]
  cases opening with
  | error fault => exact .error trivial
  | ok first =>
    cases part x with
    | error fault => exact .error trivial
    | ok y =>
      cases xs.mapM part with
      | error fault => exact .error trivial
      | ok ys =>
        refine .ok fun host inside self => ?_
        rw [denote_choice, List.map_map]
        exact means first (y :: ys) (List.cons_ne_nil y ys) host inside self

end Build

variable {p : Expr Mention} {qs : List (Expr Mention)} {fs : List (Value → Expr Mention)}

theorem sameMeaning_andThen_choice (env : Env) (p : Expr Mention) (some : qs ≠ []) :
    SameMeaning env (p.andThen (choice qs)) (choice (qs.map p.andThen)) := by
  refine .choice_map (p.buildPart env none) (buildPart env none) andThen
    (fun first ps => first.andThen (choice ps)) some ?_ (fun _ _ => rfl) ?_
  · simp only [andThen, buildPart, Option.map_none, buildPart_choice, bind_assoc, pure_bind]
  · intro first ps some host inside self
    have factored := Parser.andThen_choice (inside.denote self first)
      (mt List.map_eq_nil_iff.mp some) (List.forall_mem_map.mpr fun p _ => inside.denote self p)
    rw [List.map_map, ← denote_choice] at factored
    exact factored

theorem sameMeaning_named_choice (env : Env) (some : qs ≠ []) (label : String) :
    SameMeaning env ((choice qs).named label) (choice (qs.map (·.named label))) := by
  refine .choice_map (pure ()) (buildPart env none) (fun _ p => p.named label)
    (fun _ ps => (choice ps).named label) some ?_ (fun _ _ => rfl) ?_
  · simp only [named, buildPart, buildPart_choice, bind_assoc, pure_bind]
  · intro _ ps some host inside self
    have factored := Parser.name_choice (mt List.map_eq_nil_iff.mp some)
      (List.forall_mem_map.mpr fun p _ => inside.denote self p) label
    rw [List.map_map, ← denote_choice] at factored
    exact factored

/-- A function that raises does so before any alternative runs, so none may. -/
theorem sameMeaning_flatMap_choice (env : Env) (p : Expr Mention) (some : fs ≠ [])
    (builds : ∀ f ∈ fs, ∀ value, ∃ q, (f value).buildPart env none = .ok q) :
    SameMeaning env (.flatMap p fun value => choice (fs.map (· value)))
      (choice (fs.map (.flatMap p))) := by
  let part (f : Value → Expr Mention) (value : Value) := orRaise ((f value).buildPart env none)
  refine .choice_map (p.buildPart env none) (fun f => pure (part f)) .flatMap
    (fun first nexts => .flatMap first fun value => choice (nexts.map (· value))) some ?_
    (fun _ _ => rfl) ?_
  · have made (value : Value) : orRaise ((choice (fs.map (· value))).buildPart env none)
        = choice ((fs.map part).map (· value)) := by
      have built : ∀ f ∈ fs, (f value).buildPart env none = .ok (part f value) := by
        intro f member
        obtain ⟨q, built⟩ := builds f member value
        simp only [part, built, orRaise]
      rw [buildPart_choice_of_ok built, orRaise, List.map_map]
      rfl
    simp only [buildPart, made, List.mapM_pure, pure_bind]
  · intro first nexts some host inside self
    have factored := Parser.flatMap_choice (inside.denote self first)
      (nexts.map fun next value => denote host self (next value)) (mt List.map_eq_nil_iff.mp some)
      (List.forall_mem_map.mpr fun next _ value => inside.denote self (next value))
    simpa only [denote, denote_choice, List.map_map, Function.comp_def] using factored

end Expr

namespace Session

/-- Parsers that stay inside their texts come to the same on both sides. And so do grammars, after any
steps of a session: built anew, they have the same answers on all texts. -/
theorem choice_factored :
    (∀ {α β : Type} (p : Parser (Except Fault) α) (qs : List (Parser (Except Fault) β)),
      p.StaysInside → qs ≠ [] → (∀ q ∈ qs, q.StaysInside) →
      p.andThen (Parser.choice qs) = Parser.choice (qs.map p.andThen)) ∧
    (∀ {α : Type} (qs : List (Parser (Except Fault) α)) (label : String),
      qs ≠ [] → (∀ q ∈ qs, q.StaysInside) →
      (Parser.choice qs).name label = Parser.choice (qs.map (·.name label))) ∧
    (∀ {α β : Type} (p : Parser (Except Fault) α) (fs : List (α → Parser (Except Fault) β)),
      p.StaysInside → fs ≠ [] → (∀ f ∈ fs, ∀ value, (f value).StaysInside) →
      p.flatMap (fun value => Parser.choice (fs.map (· value))) = Parser.choice (fs.map p.flatMap)) ∧
    ∀ (steps : List Step) (mode : Mode) (texts : List Text),
      let session := empty.after steps
      (∀ (p : Expr Mention) (qs : List (Expr Mention)), qs ≠ [] →
        session.answers (p.andThen (.choice qs)) mode texts
          = session.answers (.choice (qs.map p.andThen)) mode texts) ∧
      (∀ (qs : List (Expr Mention)) (label : String), qs ≠ [] →
        session.answers ((Expr.choice qs).named label) mode texts
          = session.answers (.choice (qs.map (·.named label))) mode texts) ∧
      ∀ (p : Expr Mention) (fs : List (Value → Expr Mention)), fs ≠ [] →
        (∀ f ∈ fs, ∀ value, ∃ q, (f value).buildPart session.env none = .ok q) →
        session.answers (.flatMap p fun value => .choice (fs.map (· value))) mode texts
          = session.answers (.choice (fs.map (.flatMap p))) mode texts := by
  refine ⟨fun p qs inside some insides => Parser.andThen_choice inside some insides,
    fun qs label some insides => Parser.name_choice some insides label,
    fun p fs inside some insides => Parser.flatMap_choice inside fs some insides, ?_⟩
  intro steps mode texts session
  refine ⟨fun p qs some => ?_, fun qs label some => ?_, fun p fs some builds => ?_⟩
  · exact answers_of_sameMeaning steps (Expr.sameMeaning_andThen_choice _ p some) mode texts
  · exact answers_of_sameMeaning steps (Expr.sameMeaning_named_choice _ some label) mode texts
  · exact answers_of_sameMeaning steps (Expr.sameMeaning_flatMap_choice _ p some builds) mode texts

theorem staysInside_skipBlank : (Parser.skipBlank (m := Except Fault)).StaysInside := by
  intro text outcome ran
  cases ran
  exact List.dropWhile_suffix _

/-- Here each side is told by running the other one. -/
theorem choice_factored_pairs :
    (Parser.skipBlank.andThen (Parser.choice [.skipBlank, .skipBlank]) [' ', 'a']
      = (.ok (.success () ['a']) : Except Fault _)) ∧
    ((Parser.choice [.skipBlank, .skipBlank]).name "gap" [' ', 'a']
      = (.ok (.success () ['a']) : Except Fault _)) ∧
    (Parser.skipBlank.flatMap (fun _ => Parser.choice [.skipBlank, .skipBlank]) [' ', 'a']
      = (.ok (.success () ['a']) : Except Fault _)) ∧
    empty.answers ((Expr.char 'a').andThen (.choice [.char 'b', .char 'c'])) .parse [['a', 'd']]
      = .ok [.outcome (.failure ⟨"Failed at char 'd' in \"d\"", ['d'], []⟩)] ∧
    empty.answers ((Expr.choice [.char 'b', .char 'c']).named "sign") .parse [['d'], ['c']]
      = .ok [.outcome (.failure ⟨"sign: Failed at char 'd' in \"d\"", ['d'], [⟨1, some "sign"⟩]⟩),
        .outcome (.success (.str ['c']) [])] ∧
    empty.answers (.flatMap (.char 'a') fun first => .choice [.char 'b', .prim (.succeed first)])
      .parse [['a', 'c']] = .ok [.outcome (.success (.str ['a']) ['c'])] := by
  obtain ⟨andThen, name, flatMap, grammars⟩ := choice_factored
  have insides : ∀ q ∈ [Parser.skipBlank (m := Except Fault), .skipBlank], q.StaysInside := by
    simp [staysInside_skipBlank]
  refine ⟨?_, ?_, ?_, ?_, ?_, ?_⟩
  · rw [andThen _ [.skipBlank, .skipBlank] staysInside_skipBlank (by simp) insides]
    rfl
  · rw [name _ "gap" (by simp) insides]
    rfl
  · have factored := flatMap .skipBlank [fun _ => .skipBlank, fun _ => .skipBlank]
      staysInside_skipBlank (by simp) (by simp [staysInside_skipBlank])
    exact (congrFun factored [' ', 'a']).trans rfl
  · exact ((grammars [] .parse _).1 (.char 'a') [.char 'b', .char 'c'] (by simp)).trans rfl
  · exact ((grammars [] .parse _).2.1 [.char 'b', .char 'c'] "sign" (by simp)).trans rfl
  · have builds : ∀ f ∈ [fun _ => Expr.char 'b', fun first => .prim (.succeed first)], ∀ value,
        ∃ q, (f value).buildPart (empty.after []).env none = .ok q := by
      simp [Expr.char, Expr.buildPart]
    exact ((grammars [] .parse _).2.2 (.char 'a') _ (by simp) builds).trans rfl

end Session
end Descent
