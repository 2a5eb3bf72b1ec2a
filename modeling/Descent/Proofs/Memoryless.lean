import Descent.Proofs.Leading

/-!
# Runs without a memory

While no parser is built, what a reference keeps is what looking it up once more would find. So a run
can as well do without a memory: it looks up every reference anew, keeps nothing and reports nothing.
Main statements: from every memory of a session, a run of a parser has the outcome or the fault of
that run without a memory, so a parser of a session is a function of the text alone; and the result
does not depend on how many references may be entered inside one another, as long as they are enough.
-/

namespace Descent

namespace Run

/-- What a parser gives from an empty memory. -/
def fresh {α : Type} (p : Parser Run α) : Parser (Except Fault) α := fun text =>
  ((p text).run.run .empty).1

def hostAnew (env : Env) (enter : Expr Link → Parser (Except Fault) Value) :
    Host Link (Except Fault) where
  follow self link text := do enter (← link.target.find env self) text
  find := named env enter
  emit _ := pure ()

/-- Run an expression without a memory, entering at most `depth` expressions inside one another. -/
def enterAnew (env : Env) : Nat → Expr Link → Parser (Except Fault) Value
  | 0, _ => fun _ => throw .tooDeep
  | depth + 1, p => Expr.denote (hostAnew env (enterAnew env depth)) p p

theorem hostAnew_eq (env : Env) (enter : Expr Link → Parser (Except Fault) Value) :
    hostAnew env enter = hostLed env (Memory.empty.leads env) enter := by
  simp only [hostAnew, hostLed, Memory.leads_empty]

theorem enterAnew_eq (env : Env) (depth : Nat) (p : Expr Link) :
    enterAnew env depth p = enterLed env (Memory.empty.leads env) depth p := by
  induction depth generalizing p with
  | zero => rfl
  | succ depth ih => rw [enterAnew, enterLed, hostAnew_eq, funext ih]

end Run

/-! ## From any memory of a session -/

namespace Memory

variable {env : Env} {known : Set (Place Link)} {memory : Memory}

theorem faithful_iff : memory.Faithful env known ↔ empty.LeadsLike env known memory := by
  constructor
  · intro faithful place inside
    rw [leads_empty, ← faithful.result inside, resolve_leads]
  · intro like place inside slot here p kept
    have led := like place inside
    rw [leads_empty, leads, here, Option.bind_some, kept] at led
    exact led.symm

end Memory

namespace Session.Tracks

variable {session : Session} {known : Set (Place Link)}

theorem run_anew (tracks : session.Tracks known) (depth : Nat) {p : Expr Link}
    (within : p.Within known) {memory : Memory} (faithful : memory.Faithful session.env known)
    (text : Text) :
    ((Run.enter session.env depth p text).run.run memory).1 = Run.enterAnew session.env depth p text ∧
      ((Run.enter session.env depth p text).run.run memory).2.Faithful session.env known := by
  rw [Run.enterAnew_eq, Memory.faithful_iff]
  exact tracks.run_led (Memory.keepsWithin_empty _) depth within (Memory.faithful_iff.mp faithful) text

theorem fresh_enter (tracks : session.Tracks known) (depth : Nat) {p : Expr Link}
    (within : p.Within known) :
    Run.fresh (Run.enter session.env depth p) = Run.enterAnew session.env depth p := by
  funext text
  exact (tracks.run_anew depth within (Memory.faithful_empty _ _) text).1

/-- A part of a parser gives the same from an empty memory as without one. -/
theorem fresh_denote (tracks : session.Tracks known) (depth : Nat) {self p : Expr Link}
    (within : Expr.places self p ⊆ known) :
    Run.fresh (Expr.denote (Run.host session.env (Run.enter session.env depth)) self p)
      = Expr.denote (Run.hostAnew session.env (Run.enterAnew session.env depth)) self p := by
  have kept := Memory.keepsWithin_empty known
  rw [Run.hostAnew_eq, funext (Run.enterAnew_eq session.env depth)]
  funext text
  have runs := tracks.similar_denote_led kept (fun p => tracks.similar_led kept depth) within text
    (Nat.lt_succ_self _) .empty (Memory.leadsLike_refl _ _ _)
  exact runs.1.eq_of_same

theorem answers_anew (tracks : session.Tracks known) {p : Expr Link} (within : p.Within known)
    (faithful : session.memory.Faithful session.env known) (mode : Mode) (texts : List Text) :
    (session.reports mode p texts).map Report.answer = texts.map fun text =>
      .ofRun mode text (Run.enterAnew session.env (Run.depthFor session.builds text) p text) := by
  simp only [Run.enterAnew_eq]
  exact tracks.answers_led (Memory.keepsWithin_empty _) within (Memory.faithful_iff.mp faithful) mode
    texts

end Session.Tracks

/-! ## The depth of a run -/

/-- The first of two computations throws the fault, or the second has the same result. -/
def Comparison.exempting (boom : Fault) : Comparison (Except Fault) (Except Fault) where
  Rel V x y := x = .error boom ∨ Results (fun _ => True) V x y
  Admits _ := True
  rel_pure h := .inr (.ok h)
  rel_bind := by
    rintro α β V W x y f g (rfl | results) next
    · exact .inl rfl
    · cases results with
      | ok related => exact next _ _ related
      | error admitted => exact .inr (.error admitted)
  rel_mono weaken h := h.imp_right fun results => results.mono weaken
  rel_throw admitted := .inr (.error admitted)

namespace Run

open Comparison

variable {env : Env} {bound : Nat}

/-- A run has the same result at a greater depth, unless it was not deep enough. -/
theorem similar_deeper (env : Env) (depth more : Nat) (p : Expr Link) :
    (exempting .tooDeep).Similar .same bound 0 (enterAnew env depth p)
      (enterAnew env (depth + more) p) := by
  induction depth generalizing p with
  | zero => exact fun text _ => .inl rfl
  | succ depth ih =>
    rw [Nat.succ_add]
    refine Similar.denote_same (fun _ => trivial) ?_ ?_ ?_ (Set.subset_univ _)
    · exact Similar.named_same (fun _ => trivial) fun _ p _ => ih p
    · exact fun event => (exempting _).rel_pure rfl
    · intro place _ text short
      have found : (exempting .tooDeep).Rel Eq (place.ref.target.find env place.self)
          (place.ref.target.find env place.self) := by
        cases place.ref.target.find env place.self with
        | error fault => exact (exempting _).rel_throw trivial
        | ok p => exact (exempting _).rel_pure rfl
      apply (exempting _).rel_bind found
      rintro p _ rfl
      exact ih p text short

theorem enterAnew_deeper {depth depth' : Nat} (deeper : depth ≤ depth') (p : Expr Link)
    (text : Text) :
    enterAnew env depth p text = .error .tooDeep ∨
      enterAnew env depth' p text = enterAnew env depth p text := by
  obtain ⟨more, rfl⟩ := Nat.exists_eq_add_of_le deeper
  have runs := similar_deeper env depth more p text (Nat.lt_succ_self _)
  exact runs.imp_right fun same => same.eq_of_same.symm

theorem depthFor_mono (builds : Nat) {text longer : Text} (short : text.length ≤ longer.length) :
    depthFor builds text ≤ depthFor builds longer := by
  unfold depthFor
  apply Nat.mul_le_mul_left
  omega

end Run

/-! ## New parsers -/

/-- A parser that was just built, after some definitions, in a session of its own. -/
def Session.IsNew (session : Session) (p : Expr Link) : Prop :=
  ∃ (definitions : List (String × Expr Mention)) (grammar : Expr Mention),
    (definitions.foldlM (fun session d => session.define d.1 d.2) empty >>= fun session =>
      session.build grammar) = .ok (p, session)

namespace Session.IsNew

variable {session : Session} {p : Expr Link}

theorem tracks (new : session.IsNew p) :
    ∃ known, session.Tracks known ∧ p.Within known := by
  obtain ⟨definitions, grammar, done⟩ := new
  obtain ⟨start, defined, built⟩ := Parser.bind_eq_ok.mp done
  obtain ⟨⟨known, tracks⟩, -⟩ := tracks_empty.definitions defined
  obtain ⟨more, -, tracks, within⟩ := tracks.build built
  exact ⟨more, tracks, within⟩

theorem memory (new : session.IsNew p) : session.memory = .empty := by
  obtain ⟨definitions, grammar, done⟩ := new
  obtain ⟨start, defined, built⟩ := Parser.bind_eq_ok.mp done
  obtain ⟨-, empty⟩ := tracks_empty.definitions defined
  rw [build_memory built, empty]
  rfl

theorem isFix (new : session.IsNew p) : ∃ body, p = .fix body := by
  obtain ⟨definitions, grammar, done⟩ := new
  obtain ⟨start, defined, built⟩ := Parser.bind_eq_ok.mp done
  obtain ⟨body, -, whole, -⟩ := build_eq_ok built
  exact ⟨body, whole⟩

end Session.IsNew

/-! ## Functions of parsers -/

namespace Session

/-- A parser of a session as a function of the text: what a run of its own gives, where references are
entered as deep as for the text `whole`. -/
def functionOf (session : Session) (whole : Text) (p : Expr Link) : Parser (Except Fault) Value :=
  Run.fresh (Run.enter session.env (Run.depthFor session.builds whole) p)

/-- A host in which a reference to a parser of the session means its function. -/
def functions (session : Session) (whole : Text) : Host (Expr Link) (Except Fault) where
  follow _ p := session.functionOf whole p
  find := Run.named session.env
    (Run.enterAnew session.env (Run.depthFor session.builds whole - 1))
  emit _ := pure ()

end Session

/-- An expression over parsers as one parser. -/
def Expr.join {ι : Type} : Expr (Expr ι) → Expr ι
  | .prim p => .prim p
  | .unary op p => .unary op p.join
  | .binary op p q => .binary op p.join q.join
  | .between p left right => .between p.join left.join right.join
  | .flatMap p next => .flatMap p.join fun value => (next value).join
  | .fix body => .fix body.join
  | .ref p => p

/-- All parsers in an expression are whole ones, with known places. -/
def Expr.Over (known : Set (Place Link)) : Expr (Expr Link) → Prop
  | .prim _ => True
  | .unary _ p => p.Over known
  | .binary _ p q => p.Over known ∧ q.Over known
  | .between p left right => p.Over known ∧ left.Over known ∧ right.Over known
  | .flatMap p next => p.Over known ∧ ∀ value, (next value).Over known
  | .fix body => body.Over known
  | .ref p => (∃ body, p = .fix body) ∧ p.Within known

theorem Expr.Over.within {known : Set (Place Link)} {p : Expr (Expr Link)} (joins : p.Over known) :
    p.join.Within known := by
  induction p with
  | prim p => exact fun self => Set.empty_subset _
  | unary op p ih => exact ih joins
  | binary op p q ihp ihq =>
    exact fun self => Set.union_subset (ihp joins.1 self) (ihq joins.2 self)
  | between p left right ihp ihl ihr =>
    exact fun self => Set.union_subset
      (Set.union_subset (ihp joins.1 self) (ihl joins.2.1 self)) (ihr joins.2.2 self)
  | flatMap p next ihp ihn =>
    intro self
    apply Set.union_subset (ihp joins.1 self)
    rintro place ⟨value, inside⟩
    exact ihn value (joins.2 value) self inside
  | fix body ih => exact fun self => ih joins _
  | ref p => exact joins.2

theorem Expr.denoteUnary_congr {ι κ : Type} {host : Host ι (Except Fault)}
    {host' : Host κ (Except Fault)} (find : host.find = host'.find) (emit : host.emit = host'.emit)
    (op : Unary) (p : Parser (Except Fault) Value) :
    denoteUnary host op p = denoteUnary host' op p := by
  cases op with
  | dispatch => simp only [denoteUnary, find]
  | trace label => simp only [denoteUnary, emit]
  | _ => rfl

namespace Session

variable {session : Session} {known : Set (Place Link)} {p : Expr Link}

theorem exists_depth (session : Session) (text : Text) :
    ∃ depth, Run.depthFor session.builds text = depth + 1 := by
  have deep := lt_depthFor session.builds text
  apply Nat.exists_eq_add_one_of_ne_zero
  omega

/-- A primitive parser is the same function in every session. -/
theorem parse_prim (session : Session) (p : Primitive) (text : Text) :
    (session.parse (.fix (.prim p)) text).1 = p.parse text := by
  obtain ⟨depth, deep⟩ := session.exists_depth text
  rw [parse_fst, ran, deep]
  exact congrArg Prod.fst (Run.run_lift p.parse text session.memory)

theorem Tracks.denote_join (tracks : session.Tracks known) {whole : Text} {depth : Nat}
    (deep : Run.depthFor session.builds whole = depth + 1) {p : Expr (Expr Link)}
    (joins : p.Over known) (self : Expr Link) (self' : Expr (Expr Link)) :
    Expr.denote (Run.hostAnew session.env (Run.enterAnew session.env depth)) self p.join
      = Expr.denote (session.functions whole) self' p := by
  induction p generalizing self self' with
  | prim p => rfl
  | unary op p ih =>
    simp only [Expr.join, Expr.denote, ih joins self self']
    apply Expr.denoteUnary_congr
    · simp only [Run.hostAnew, functions, deep, Nat.add_sub_cancel]
    · rfl
  | binary op p q ihp ihq =>
    simp only [Expr.join, Expr.denote, ihp joins.1 self self', ihq joins.2 self self']
  | between p left right ihp ihl ihr =>
    simp only [Expr.join, Expr.denote, ihp joins.1 self self', ihl joins.2.1 self self',
      ihr joins.2.2 self self']
  | flatMap p next ihp ihn =>
    simp only [Expr.join, Expr.denote, ihp joins.1 self self', ihn _ (joins.2 _) self self']
  | fix body ih => exact ih joins _ _
  | ref p =>
    obtain ⟨⟨body, rfl⟩, within⟩ := joins
    show _ = session.functionOf whole (.fix body)
    rw [functionOf, tracks.fresh_enter _ within, deep]
    rfl

/-- An expression over parsers of a session stands for the same combination of their functions. -/
theorem Tracks.parse_join (tracks : session.Tracks known)
    (faithful : session.memory.Faithful session.env known) {p : Expr (Expr Link)}
    (joins : p.Over known) (text : Text) :
    (session.parse p.join text).1 = Expr.denote (session.functions text) p p text := by
  obtain ⟨depth, deep⟩ := session.exists_depth text
  rw [parse_fst, ran, (tracks.run_anew _ joins.within faithful text).1, deep, Run.enterAnew,
    tracks.denote_join deep joins p.join p]

namespace Tracks

theorem functionOf_eq (tracks : session.Tracks known) (within : p.Within known) (whole : Text) :
    session.functionOf whole p
      = Run.enterAnew session.env (Run.depthFor session.builds whole) p :=
  tracks.fresh_enter _ within

theorem parse_eq (tracks : session.Tracks known)
    (faithful : session.memory.Faithful session.env known) (within : p.Within known) (text : Text) :
    (session.parse p text).1 = session.functionOf text p text := by
  rw [tracks.functionOf_eq within, parse_fst, ran, (tracks.run_anew _ within faithful text).1]

/-- On shorter texts too, a parser of a session is its function, unless the run is given up. -/
theorem parse_eq_of_short (tracks : session.Tracks known)
    (faithful : session.memory.Faithful session.env known) (within : p.Within known)
    {whole text : Text} (short : text.length ≤ whole.length) :
    (session.parse p text).1 = .error .tooDeep ∨
      session.functionOf whole p text = (session.parse p text).1 := by
  rw [tracks.parse_eq faithful within, tracks.functionOf_eq within, tracks.functionOf_eq within]
  exact Run.enterAnew_deeper (Run.depthFor_mono session.builds short) p text

theorem functionOf_of_ok (tracks : session.Tracks known)
    (faithful : session.memory.Faithful session.env known) (within : p.Within known)
    {whole text : Text} (short : text.length ≤ whole.length) {outcome : Outcome Value}
    (result : (session.parse p text).1 = .ok outcome) :
    session.functionOf whole p text = .ok outcome := by
  have same := tracks.parse_eq_of_short faithful within short
  rw [result] at same
  exact same.resolve_left nofun

end Tracks

namespace IsNew

theorem faithful (new : session.IsNew p) : session.memory.Faithful session.env known := by
  rw [new.memory]
  exact Memory.faithful_empty _ _

theorem functionOf_eq (new : session.IsNew p) (whole : Text) :
    session.functionOf whole p
      = Run.enterAnew session.env (Run.depthFor session.builds whole) p := by
  obtain ⟨known, tracks, within⟩ := new.tracks
  exact tracks.functionOf_eq within whole

theorem parse_eq (new : session.IsNew p) (text : Text) :
    (session.parse p text).1 = session.functionOf text p text := by
  obtain ⟨known, tracks, within⟩ := new.tracks
  exact tracks.parse_eq new.faithful within text

theorem parse_eq_of_short (new : session.IsNew p) {whole text : Text}
    (short : text.length ≤ whole.length) :
    (session.parse p text).1 = .error .tooDeep ∨
      session.functionOf whole p text = (session.parse p text).1 := by
  obtain ⟨known, tracks, within⟩ := new.tracks
  exact tracks.parse_eq_of_short new.faithful within short

theorem functionOf_of_ok (new : session.IsNew p) {whole text : Text}
    (short : text.length ≤ whole.length) {outcome : Outcome Value}
    (result : (session.parse p text).1 = .ok outcome) :
    session.functionOf whole p text = .ok outcome := by
  obtain ⟨known, tracks, within⟩ := new.tracks
  exact tracks.functionOf_of_ok new.faithful within short result

theorem parse_join (new : session.IsNew p) {q : Expr (Expr Link)}
    (joins : ∀ known, p.Within known → q.Over known) (text : Text) :
    (session.parse q.join text).1 = Expr.denote (session.functions text) q q text := by
  obtain ⟨known, tracks, within⟩ := new.tracks
  exact tracks.parse_join new.faithful (joins known within) text

/-- An operation on a parser of a session is that operation on its function. -/
theorem parse_unary (new : session.IsNew p) (op : Unary) (text : Text) :
    (session.parse (.unary op p) text).1
      = Expr.denoteUnary (session.functions text) op (session.functionOf text p) text := by
  obtain ⟨body, whole⟩ := new.isFix
  exact new.parse_join (q := .unary op (.ref p)) (fun _ within => ⟨⟨body, whole⟩, within⟩) text

end IsNew

/-! ## Named parsers -/

/-- A session in which parsers were built and named, and none has run. -/
def IsUnused (session : Session) : Prop :=
  ∃ definitions : List (String × Expr Mention),
    definitions.foldlM (fun session d => session.define d.1 d.2) empty = .ok session

theorem wholes_of_define {after : Session} {name : String} {grammar : Expr Mention}
    (done : session.define name grammar = .ok after)
    (wholes : ∀ name p, session.env.find? name = some p → ∃ body, p = .fix body) :
    ∀ name p, after.env.find? name = some p → ∃ body, p = .fix body := by
  obtain ⟨q, middle, built, rfl⟩ := define_eq_ok done
  obtain ⟨body, -, whole, rfl⟩ := build_eq_ok built
  intro other p found
  simp only [Env.find?, Env.define, List.lookup_cons] at found
  split at found
  · exact ⟨body, (Option.some.inj found).symm.trans whole⟩
  · exact wholes other p found

theorem wholes_of_definitions {after : Session} {definitions : List (String × Expr Mention)}
    (done : definitions.foldlM (fun session d => session.define d.1 d.2) session = .ok after)
    (wholes : ∀ name p, session.env.find? name = some p → ∃ body, p = .fix body) :
    ∀ name p, after.env.find? name = some p → ∃ body, p = .fix body := by
  induction definitions generalizing session with
  | nil =>
    cases done
    exact wholes
  | cons definition definitions ih =>
    obtain ⟨middle, defined, done⟩ := Parser.bind_eq_ok.mp done
    exact ih done (wholes_of_define defined wholes)

namespace IsUnused

variable {name : String} {q : Expr Link}

theorem tracks (unused : session.IsUnused) : ∃ known, session.Tracks known := by
  obtain ⟨definitions, done⟩ := unused
  exact (tracks_empty.definitions done).1

theorem faithful (unused : session.IsUnused) : session.memory.Faithful session.env known := by
  obtain ⟨definitions, done⟩ := unused
  rw [(tracks_empty.definitions done).2]
  exact Memory.faithful_empty _ _

theorem isFix (unused : session.IsUnused) (found : session.env.find? name = some p) :
    ∃ body, p = .fix body := by
  obtain ⟨definitions, done⟩ := unused
  exact wholes_of_definitions done (fun _ _ none => by cases none) name p found

theorem functionOf_eq (unused : session.IsUnused) (found : session.env.find? name = some p)
    (whole : Text) : session.functionOf whole p
      = Run.enterAnew session.env (Run.depthFor session.builds whole) p := by
  obtain ⟨known, tracks⟩ := unused.tracks
  exact tracks.functionOf_eq (tracks.named name p found) whole

theorem parse_eq (unused : session.IsUnused) (found : session.env.find? name = some p)
    (text : Text) : (session.parse p text).1 = session.functionOf text p text := by
  obtain ⟨known, tracks⟩ := unused.tracks
  exact tracks.parse_eq unused.faithful (tracks.named name p found) text

theorem functionOf_of_ok (unused : session.IsUnused) (found : session.env.find? name = some p)
    {whole text : Text} (short : text.length ≤ whole.length) {outcome : Outcome Value}
    (result : (session.parse p text).1 = .ok outcome) :
    session.functionOf whole p text = .ok outcome := by
  obtain ⟨known, tracks⟩ := unused.tracks
  exact tracks.functionOf_of_ok unused.faithful (tracks.named name p found) short result

/-- An operation on two named parsers is that operation on their functions. -/
theorem parse_binary {other : String} (unused : session.IsUnused)
    (found : session.env.find? name = some p) (found' : session.env.find? other = some q)
    (op : Binary) (text : Text) :
    (session.parse (.binary op p q) text).1
      = Expr.denoteBinary op (session.functionOf text p) (session.functionOf text q) text := by
  obtain ⟨known, tracks⟩ := unused.tracks
  exact tracks.parse_join unused.faithful (p := .binary op (.ref p) (.ref q))
    ⟨⟨unused.isFix found, tracks.named name p found⟩,
      unused.isFix found', tracks.named other q found'⟩ text

end IsUnused
end Session
end Descent
