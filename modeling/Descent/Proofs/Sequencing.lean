import Descent.Proofs.Rewriting

/-!
# Sequences of parsers

All ways to run one parser after another are sequences that go on with a parser made of the value.
Main statement: such a sequence is associative, a parser that succeeds without consuming anything is
its unit on both sides, and the other ways are the instances of it that one expects. This holds of
parsers in every lawful monad, so also of runs with a memory, and after any steps of a session the two
grammars of such an equation have the same answers.

A function that makes a parser may end in a fault itself. That happens where its parser would run.
-/

namespace Descent

namespace Parser

variable {m : Type → Type} [Monad m] {α β γ : Type}

/-- Run the parser that a function makes, unless making it ends in a fault. -/
def made (parser : m (Parser m α)) : Parser m α := fun text => do (← parser) text

theorem andThen_eq_flatMap (p : Parser m α) (q : Parser m β) :
    p.andThen q = p.flatMap fun _ => q := rfl

theorem precedes_eq_flatMap (p : Parser m α) (q : Parser m β) :
    p.precedes q = p.flatMap fun value => q.map fun _ => value := rfl

variable [LawfulMonad m]

theorem flatMap_assoc (p : Parser m α) (f : α → Parser m β) (g : β → Parser m γ) :
    (p.flatMap f).flatMap g = p.flatMap fun value => (f value).flatMap g := by
  funext text
  simp only [flatMap, bind_assoc]
  congr 1
  funext outcome
  cases outcome with
  | success value rest => rfl
  | failure f => simp [Outcome.flatMapSuccess]

theorem succeed_flatMap (value : α) (f : α → Parser m β) :
    (succeed value).flatMap f = f value := by
  funext text
  simp [flatMap, succeed, Outcome.flatMapSuccess]

theorem flatMap_succeed (p : Parser m α) : p.flatMap succeed = p := by
  funext text
  calc p.flatMap succeed text
    _ = p text >>= pure := by
      unfold flatMap
      congr 1
      funext outcome
      cases outcome <;> rfl
    _ = p text := bind_pure _

theorem made_flatMap (parser : m (Parser m α)) (g : α → Parser m β) :
    (made parser).flatMap g = made do return (← parser).flatMap g := by
  funext text
  simp [made, flatMap]

theorem mapM_eq_flatMap (p : Parser m α) (h : α → m β) :
    p.mapM h = p.flatMap fun value => made do return succeed (← h value) := by
  funext text
  unfold mapM flatMap
  congr 1
  funext outcome
  cases outcome <;> simp [Outcome.mapValue, Outcome.flatMapSuccess, made, succeed]

theorem between_eq_flatMap (p : Parser m α) (left : Parser m β) (right : Parser m γ) :
    p.between left right
      = left.flatMap fun _ => p.flatMap fun value => right.map fun _ => value :=
  flatMap_assoc left (fun _ => p) fun value => right.map fun _ => value

theorem skipOptional_eq_precedes (p : Parser m α) (q : Parser m β) (default : β) :
    p.skipOptional q = p.precedes (q.optional default) := by
  funext text
  unfold skipOptional precedes optional alternate
  congr 1
  funext outcome
  cases outcome with
  | failure f => rfl
  | success value rest =>
    simp only [Outcome.flatMapSuccess, bind_assoc]
    congr 1
    funext tried
    cases tried <;> simp [Outcome.flatMapEither, Outcome.mapValue, succeed]

end Parser

/-! ## Grammars -/

namespace Expr

variable {env : Env} {p q left right : Expr Mention} {f g : Value → Expr Mention}

theorem denote_orRaise_flatMap (host : Host Link (Except Fault)) (self : Expr Link)
    (built : Except Fault (Expr Link)) (next : Value → Expr Link) :
    denote host self (orRaise do return .flatMap (← built) next)
      = (denote host self (orRaise built)).flatMap fun value => denote host self (next value) := by
  cases built <;> rfl

theorem sameMeaning_flatMap_assoc (env : Env) (p : Expr Mention) (f g : Value → Expr Mention) :
    SameMeaning env (.flatMap (.flatMap p f) g) (.flatMap p fun value => .flatMap (f value) g) := by
  unfold SameMeaning
  simp only [buildPart]
  cases p.buildPart env none with
  | error fault => exact .error trivial
  | ok built =>
    refine .ok fun host _ self => ?_
    simp only [denote, denote_orRaise_flatMap]
    exact Parser.flatMap_assoc _ _ _

theorem sameMeaning_succeed_flatMap {value : Value}
    (builds : ∃ built, (f value).buildPart env none = .ok built) :
    SameMeaning env (.flatMap (.prim (.succeed value)) f) (f value) := by
  obtain ⟨built, done⟩ := builds
  unfold SameMeaning
  simp only [buildPart]
  rw [done]
  refine .ok fun host _ self => ?_
  calc denote host self (.flatMap (.prim (.succeed value)) _)
    _ = denote host self (orRaise ((f value).buildPart env none)) :=
      Parser.succeed_flatMap value fun value =>
        denote host self (orRaise ((f value).buildPart env none))
    _ = denote host self built := by rw [done]; rfl

theorem sameMeaning_flatMap_succeed (env : Env) (p : Expr Mention) :
    SameMeaning env (.flatMap p fun value => .prim (.succeed value)) p := by
  unfold SameMeaning
  simp only [buildPart]
  cases p.buildPart env none with
  | error fault => exact .error trivial
  | ok built => exact .ok fun host _ self => Parser.flatMap_succeed (denote host self built)

theorem sameMeaning_map (env : Env) (p : Expr Mention) (h : Value → Except Fault Value) :
    SameMeaning env (p.map h) (.flatMap p fun value => ofExcept ((h value).map .succeed)) := by
  unfold SameMeaning map
  simp only [buildPart]
  cases p.buildPart env none with
  | error fault => exact .error trivial
  | ok built =>
    refine .ok fun host _ self => ?_
    calc denote host self (.unary (.map h) built)
      _ = (denote host self built).flatMap fun value =>
          Parser.made do return Parser.succeed (← MonadExcept.ofExcept (h value)) :=
        Parser.mapM_eq_flatMap _ _
      _ = _ := by
        simp only [denote]
        congr 1
        funext value
        cases h value <;> rfl

theorem sameMeaning_andThen (env : Env) (p : Expr Mention)
    (builds : ∃ built, q.buildPart env none = .ok built) :
    SameMeaning env (p.andThen q) (.flatMap p fun _ => q) := by
  obtain ⟨after, done⟩ := builds
  unfold SameMeaning andThen
  simp only [buildPart, Option.map_none, done]
  cases p.buildPart env none with
  | error fault => exact .error trivial
  | ok built => exact .ok fun host _ self => Parser.andThen_eq_flatMap _ _

theorem sameMeaning_precedes (env : Env) (p : Expr Mention)
    (builds : ∃ built, q.buildPart env none = .ok built) :
    SameMeaning env (p.precedes q) (.flatMap p fun value => q.mapTo fun _ => value) := by
  obtain ⟨after, done⟩ := builds
  unfold SameMeaning precedes mapTo map
  simp only [buildPart, Option.map_none, done]
  cases p.buildPart env none with
  | error fault => exact .error trivial
  | ok built => exact .ok fun host _ self => Parser.precedes_eq_flatMap _ _

theorem sameMeaning_between (env : Env) (left : Expr Mention)
    (builds : ∃ built, p.buildPart env none = .ok built)
    (builds' : ∃ built, right.buildPart env none = .ok built) :
    SameMeaning env (.between p left right)
      (.flatMap left fun _ => .flatMap p fun value => right.mapTo fun _ => value) := by
  obtain ⟨inner, done⟩ := builds
  obtain ⟨closing, done'⟩ := builds'
  unfold SameMeaning mapTo map
  simp only [buildPart, Option.map_none, done, done']
  cases left.buildPart env none with
  | error fault => exact .error trivial
  | ok built => exact .ok fun host _ self => Parser.between_eq_flatMap _ _ _

theorem sameMeaning_skipOptional (env : Env) (p q : Expr Mention) :
    SameMeaning env (p.skipOptional q) (p.precedes (q.optional .null)) := by
  unfold SameMeaning skipOptional precedes optional alternate
  simp only [buildPart, Option.map_none]
  cases p.buildPart env none with
  | error fault => exact .error trivial
  | ok built =>
    cases q.buildPart env none with
    | error fault => exact .error trivial
    | ok after => exact .ok fun host _ self => Parser.skipOptional_eq_precedes _ _ _

end Expr

namespace Session

variable {fault : Fault}

theorem answers_of_fault (steps : List Step) {grammar : Expr Mention}
    (refused : grammar.buildPart (empty.after steps).env none = .error fault) (mode : Mode)
    (texts : List Text) : (empty.after steps).answers grammar mode texts = .error fault := by
  obtain ⟨known, tracks, records⟩ := recorded_history steps
  have built := Memory.Resembles.buildPart (empty.after steps).env
    (unused_of_recorded tracks records) grammar
  rw [answers_eq tracks records.within]
  rw [refused] at built
  generalize grammar.buildPart _ _ = result at built
  cases built
  rfl

theorem answers_raise (steps : List Step) (fault : Fault) (mode : Mode) (texts : List Text) :
    (empty.after steps).answers (.prim (.raise fault)) mode texts
      = .ok (texts.map fun _ => .fault fault) := by
  obtain ⟨known, tracks, records⟩ := recorded_history steps
  rw [answers_eq tracks records.within]
  rfl

/-- A function that cannot make its parser ends each run in its fault. -/
theorem answers_succeed_flatMap_of_fault (steps : List Step) {f : Value → Expr Mention}
    {value : Value} (refused : (f value).buildPart (empty.after steps).env none = .error fault)
    (mode : Mode) (texts : List Text) :
    (empty.after steps).answers (.flatMap (.prim (.succeed value)) f) mode texts
      = .ok (texts.map fun _ => .fault fault) := by
  have same : Expr.SameMeaning (empty.after steps).env (.flatMap (.prim (.succeed value)) f)
      (.prim (.raise fault)) := by
    refine .ok fun host _ self => ?_
    calc Expr.denote host self (.flatMap (.prim (.succeed value)) _)
      _ = Expr.denote host self (Expr.orRaise ((f value).buildPart (empty.after steps).env none)) :=
        Parser.succeed_flatMap value fun value =>
          Expr.denote host self (Expr.orRaise ((f value).buildPart (empty.after steps).env none))
      _ = Expr.denote host self (.prim (.raise fault)) := by rw [refused]; rfl
  rw [answers_of_sameMeaning steps same, answers_raise]

/-- The laws of sequences hold of parsers in every lawful monad and of functions that may end in
faults. And they hold of grammars, after any steps of a session: where the parts can be built, both
sides have the same answers on all texts. -/
theorem flatMap_lawful :
    (∀ {m : Type → Type} [Monad m] [LawfulMonad m] {α β γ : Type} (p : Parser m α) (q : Parser m β)
      (right : Parser m γ) (f : α → m (Parser m β)) (g : β → m (Parser m γ)) (h : α → m β)
      (value : α) (default : β),
      ((p.flatMap fun v => .made (f v)).flatMap fun w => .made (g w))
        = (p.flatMap fun v => .made do return (← f v).flatMap fun w => .made (g w)) ∧
      ((Parser.succeed value).flatMap fun v => .made (f v)) = .made (f value) ∧
      p.flatMap .succeed = p ∧
      p.mapM h = (p.flatMap fun v => .made do return .succeed (← h v)) ∧
      p.andThen q = (p.flatMap fun _ => q) ∧
      p.precedes q = (p.flatMap fun v => q.map fun _ => v) ∧
      p.between q right = (q.flatMap fun _ => p.flatMap fun v => right.map fun _ => v) ∧
      p.skipOptional q = p.precedes (q.optional default)) ∧
    ∀ steps : List Step,
      let session := empty.after steps
      let builds (p : Expr Mention) := ∃ built, p.buildPart session.env none = .ok built
      let same (A B : Expr Mention) :=
        ∀ mode texts, session.answers A mode texts = session.answers B mode texts
      ∀ (p q left right : Expr Mention) (f g : Value → Expr Mention)
        (h : Value → Except Fault Value) (value : Value),
        same (.flatMap (.flatMap p f) g) (.flatMap p fun v => .flatMap (f v) g) ∧
        (builds (f value) → same (.flatMap (.prim (.succeed value)) f) (f value)) ∧
        (∀ fault, (f value).buildPart session.env none = .error fault → ∀ mode texts,
          session.answers (f value) mode texts = .error fault ∧
          session.answers (.flatMap (.prim (.succeed value)) f) mode texts
            = .ok (texts.map fun _ => .fault fault)) ∧
        same (.flatMap p fun v => .prim (.succeed v)) p ∧
        same (p.map h) (.flatMap p fun v => .ofExcept ((h v).map .succeed)) ∧
        (builds q → same (p.andThen q) (.flatMap p fun _ => q)) ∧
        (builds q → same (p.precedes q) (.flatMap p fun v => q.mapTo fun _ => v)) ∧
        (builds p → builds right → same (.between p left right)
          (.flatMap left fun _ => .flatMap p fun v => right.mapTo fun _ => v)) ∧
        same (p.skipOptional q) (p.precedes (q.optional .null)) := by
  constructor
  · intro m _ _ α β γ p q right f g h value default
    refine ⟨?_, Parser.succeed_flatMap _ _, p.flatMap_succeed, p.mapM_eq_flatMap h,
      p.andThen_eq_flatMap q, p.precedes_eq_flatMap q, p.between_eq_flatMap q right,
      p.skipOptional_eq_precedes q default⟩
    rw [Parser.flatMap_assoc]
    congr 1
    funext v
    exact Parser.made_flatMap (f v) _
  · intro steps session builds same p q left right f g h value
    have means {A B : Expr Mention} (meaning : Expr.SameMeaning session.env A B) : same A B :=
      answers_of_sameMeaning steps meaning
    refine ⟨means (Expr.sameMeaning_flatMap_assoc _ p f g),
      fun done => means (Expr.sameMeaning_succeed_flatMap done), ?_,
      means (Expr.sameMeaning_flatMap_succeed _ p), means (Expr.sameMeaning_map _ p h),
      fun done => means (Expr.sameMeaning_andThen _ p done),
      fun done => means (Expr.sameMeaning_precedes _ p done),
      fun done done' => means (Expr.sameMeaning_between _ left done done'),
      means (Expr.sameMeaning_skipOptional _ p q)⟩
    intro fault refused mode texts
    exact ⟨answers_of_fault steps refused mode texts,
      answers_succeed_flatMap_of_fault steps refused mode texts⟩

/-- Each sequence is told by running the other side. The empty string has no parser. -/
theorem flatMap_lawful_marks :
    (((Parser.char 'a').flatMap fun _ => .made (throw .emptyString)).flatMap
        (fun c : Char => .made (pure (.succeed c))) ['a', 'b']
      = (.error .emptyString : Except Fault (Outcome Char))) ∧
    empty.answers (.flatMap (.prim (.succeed .null)) fun _ => .char 'a') .parse [['b']]
      = .ok [.outcome (.failure ⟨"Failed at char 'b' in \"b\"", ['b'], []⟩)] ∧
    empty.answers (.flatMap (.prim (.succeed .null)) fun _ => .ofExcept (Primitive.stringOf []))
      .parse [['b'], []] = .ok [.fault .emptyString, .fault .emptyString] ∧
    empty.answers ((Expr.char 'b').andThen (.char 'c')) .parse [['b', 'd']]
      = .ok [.outcome (.failure ⟨"Failed at char 'd' in \"d\"", ['d'], []⟩)] ∧
    empty.answers ((Expr.char 'b').precedes (.char 'c')) .parse [['b', 'c']]
      = .ok [.outcome (.success (.str ['b']) [])] ∧
    empty.answers (.between (.char 'b') (.char 'a') (.char 'c')) .parse [['a', 'b', 'c']]
      = .ok [.outcome (.success (.str ['b']) [])] := by
  obtain ⟨parsers, grammars⟩ := flatMap_lawful
  have builds (c : Char) : ∃ built, (Expr.char c).buildPart (empty.after []).env none = .ok built :=
    ⟨_, rfl⟩
  obtain ⟨-, succeeds, -, -, -, andThen, precedes, between, -⟩ :=
    grammars [] (.char 'b') (.char 'c') (.char 'a') (.char 'c') (fun _ => .char 'a')
      (fun _ => .char 'a') .ok .null
  obtain ⟨-, -, refuses, -⟩ :=
    grammars [] (.char 'b') (.char 'c') (.char 'a') (.char 'c')
      (fun _ => .ofExcept (Primitive.stringOf [])) (fun _ => .char 'a') .ok .null
  refine ⟨?_, ?_, ?_, ?_, ?_, ?_⟩
  · obtain ⟨assoc, -⟩ := parsers (m := Except Fault) (.char 'a') (.char 'a') (.char 'a')
      (fun _ => throw .emptyString) (fun c => pure (.succeed c)) pure 'a' 'a'
    exact (congrFun assoc ['a', 'b']).trans rfl
  · exact (succeeds (builds 'a') .parse [['b']]).trans rfl
  · exact (refuses .emptyString rfl .parse [['b'], []]).2
  · exact (andThen (builds 'c') .parse [['b', 'd']]).trans rfl
  · exact (precedes (builds 'c') .parse [['b', 'c']]).trans rfl
  · exact (between (builds 'b') (builds 'c') .parse [['a', 'b', 'c']]).trans rfl

end Session
end Descent
