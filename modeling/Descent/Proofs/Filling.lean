import Descent.Proofs.Acceptance.Basic
import Descent.Proofs.Comparison.Hosts
import Descent.Proofs.SelfContained
import Mathlib.Control.Monad.Basic

/-!
# Parts that are not run

An expression with holes is an expression with a further reference among its references. Here its
holes are filled twice, once with a parser that only throws a fault and once with any other part.
Main statement: until a run of the first ends in that fault, the two give the same reports, run by
run. So a part that is not run does not matter, and the fault of a part that is run is never lost.

The two sessions hold parsers that differ in what was filled in and nowhere else. A step of the first
session either throws the fault, and then nothing more is said, or it is also the step of the second.
-/

namespace Descent

variable {ι : Type}

/-! ## Holes -/

/-- The expression that is made by filling all holes with a part. -/
def Expr.plug (part : Expr ι) : Expr (Option ι) → Expr ι
  | .prim p => .prim p
  | .unary op p => .unary op (plug part p)
  | .binary op p q => .binary op (plug part p) (plug part q)
  | .between p left right => .between (plug part p) (plug part left) (plug part right)
  | .flatMap p next => .flatMap (plug part p) fun value => plug part (next value)
  | .fix body => .fix (plug part body)
  | .ref (some r) => .ref r
  | .ref none => part

def Expr.plugEntries {κ : Type} (part : Expr ι) (entries : List (κ × Expr (Option ι))) :
    List (κ × Expr ι) :=
  entries.map fun entry => (entry.1, plug part entry.2)

/-- The second expression is the first one with anything in place of some parts that only throw a
fault. -/
inductive Expr.Fills (boom : Fault) : Expr ι → Expr ι → Prop where
  | hole (p : Expr ι) : Fills boom (.prim (.raise boom)) p
  | prim (p : Primitive) : Fills boom (.prim p) (.prim p)
  | unary (op : Unary) {p p' : Expr ι} : Fills boom p p' → Fills boom (.unary op p) (.unary op p')
  | binary (op : Binary) {p p' q q' : Expr ι} :
      Fills boom p p' → Fills boom q q' → Fills boom (.binary op p q) (.binary op p' q')
  | between {p p' left left' right right' : Expr ι} :
      Fills boom p p' → Fills boom left left' → Fills boom right right' →
      Fills boom (.between p left right) (.between p' left' right')
  | flatMap {p p' : Expr ι} {next next' : Value → Expr ι} :
      Fills boom p p' → (∀ value, Fills boom (next value) (next' value)) →
      Fills boom (.flatMap p next) (.flatMap p' next')
  | fix {body body' : Expr ι} : Fills boom body body' → Fills boom (.fix body) (.fix body')
  | ref (r : ι) : Fills boom (.ref r) (.ref r)

namespace Expr

variable {boom : Fault}

theorem Fills.refl (p : Expr ι) : Fills boom p p := by
  induction p with
  | prim p => exact .prim p
  | unary op p ih => exact .unary op ih
  | binary op p q ihp ihq => exact .binary op ihp ihq
  | between p left right ihp ihl ihr => exact .between ihp ihl ihr
  | flatMap p next ihp ihn => exact .flatMap ihp ihn
  | fix body ih => exact .fix ih
  | ref r => exact .ref r

/-- Entries with the same keys, whose expressions differ in what was filled in. -/
def FillEntries {κ : Type} (boom : Fault) : List (κ × Expr ι) → List (κ × Expr ι) → Prop :=
  List.Forall₂ fun entry entry' => entry.1 = entry'.1 ∧ Fills boom entry.2 entry'.2

theorem FillEntries.refl {κ : Type} (entries : List (κ × Expr ι)) :
    FillEntries boom entries entries :=
  List.forall₂_same.mpr fun entry _ => ⟨rfl, .refl entry.2⟩

theorem FillEntries.lookup {κ : Type} [BEq κ] {entries entries' : List (κ × Expr ι)}
    (fills : FillEntries boom entries entries') (key : κ) :
    Option.Rel (Fills boom) (entries.lookup key) (entries'.lookup key) := by
  induction fills with
  | nil => exact .none
  | @cons entry entry' entries entries' first _ ih =>
    obtain ⟨name, p⟩ := entry
    obtain ⟨_, p'⟩ := entry'
    obtain ⟨rfl, first⟩ := first
    simp only [List.lookup_cons]
    cases key == name with
    | true => exact .some first
    | false => exact ih

/-! ## Building -/

/-- What can be built with some names can be built where they and others are known. -/
theorem buildPart_mono {env env' : Env}
    (names : ∀ name p, env.find? name = some p → ∃ p', env'.find? name = some p')
    {part : Expr Mention} {address : Option Address} {built : Expr Link}
    (done : part.buildPart env address = .ok built) (address' : Option Address) :
    ∃ built', part.buildPart env' address' = .ok built' := by
  induction part generalizing address built address' with
  | prim p => exact ⟨_, rfl⟩
  | unary op p ih =>
    simp only [buildPart, Parser.bind_eq_ok] at done ⊢
    obtain ⟨p', doneP, -⟩ := done
    obtain ⟨p', doneP⟩ := ih doneP address'
    exact ⟨_, p', doneP, rfl⟩
  | binary op p q ihp ihq =>
    simp only [buildPart, Parser.bind_eq_ok] at done ⊢
    obtain ⟨p', doneP, q', doneQ, -⟩ := done
    obtain ⟨p', doneP⟩ := ihp doneP (address'.map (0 :: ·))
    obtain ⟨q', doneQ⟩ := ihq doneQ (address'.map (1 :: ·))
    exact ⟨_, p', doneP, q', doneQ, rfl⟩
  | between p left right ihp ihl ihr =>
    simp only [buildPart, Parser.bind_eq_ok] at done ⊢
    obtain ⟨p', doneP, l', doneL, r', doneR, -⟩ := done
    obtain ⟨p', doneP⟩ := ihp doneP (address'.map (0 :: ·))
    obtain ⟨l', doneL⟩ := ihl doneL (address'.map (1 :: ·))
    obtain ⟨r', doneR⟩ := ihr doneR (address'.map (2 :: ·))
    exact ⟨_, p', doneP, l', doneL, r', doneR, rfl⟩
  | flatMap p next ihp _ =>
    simp only [buildPart, Parser.bind_eq_ok] at done ⊢
    obtain ⟨p', doneP, -⟩ := done
    obtain ⟨p', doneP⟩ := ihp doneP address'
    exact ⟨_, p', doneP, rfl⟩
  | fix body ih =>
    simp only [buildPart, Parser.bind_eq_ok] at done ⊢
    obtain ⟨p', doneP, -⟩ := done
    obtain ⟨p', doneP⟩ := ih doneP address'
    exact ⟨_, p', doneP, rfl⟩
  | ref r =>
    cases r with
    | use name =>
      simp only [buildPart] at done ⊢
      cases found : env.find? name with
      | none =>
        rw [found] at done
        cases done
      | some p =>
        obtain ⟨p', known⟩ := names name p found
        exact ⟨p', by rw [known]⟩
    | delayed target => exact ⟨_, rfl⟩
    | anew target => exact ⟨_, rfl⟩
    | refused fault => cases done

theorem orRaise_fills {x y : Except Fault (Expr Link)}
    (built : Results (fun _ => True) (Fills boom) x y) : Fills boom (orRaise x) (orRaise y) := by
  cases built with
  | ok fills => exact fills
  | error => exact .refl _

/-- Building an expression that is filled in two ways, the second time with a part that can be
built. -/
theorem buildPart_plug {env env' : Env} (fills : FillEntries boom env env') {part : Expr Mention}
    (builds : ∀ address, ∃ built, part.buildPart env' address = .ok built)
    (context : Expr (Option Mention)) (address : Option Address) :
    Results (fun _ => True) (Fills boom)
      ((plug (.prim (.raise boom)) context).buildPart env address)
      ((plug part context).buildPart env' address) := by
  induction context generalizing address with
  | prim p => exact .ok (.prim p)
  | unary op p ih =>
    exact (Comparison.except _).rel_bind (ih address) fun _ _ p => .ok (.unary op p)
  | binary op p q ihp ihq =>
    exact (Comparison.except _).rel_bind (ihp _) fun _ _ p =>
      (Comparison.except _).rel_bind (ihq _) fun _ _ q => .ok (.binary op p q)
  | between p left right ihp ihl ihr =>
    exact (Comparison.except _).rel_bind (ihp _) fun _ _ p =>
      (Comparison.except _).rel_bind (ihl _) fun _ _ left =>
      (Comparison.except _).rel_bind (ihr _) fun _ _ right => .ok (.between p left right)
  | flatMap p next ihp ihn =>
    exact (Comparison.except _).rel_bind (ihp address) fun _ _ p =>
      .ok (.flatMap p fun value => orRaise_fills (ihn value none))
  | fix body ih =>
    exact (Comparison.except _).rel_bind (ih address) fun _ _ body => .ok (.fix body)
  | ref r =>
    cases r with
    | none =>
      obtain ⟨built, done⟩ := builds address
      simp only [plug, done]
      exact .ok (.hole built)
    | some mention =>
      cases mention with
      | use name =>
        have found := fills.lookup name
        simp only [plug, buildPart, Env.find?]
        generalize env.lookup name = p at found
        generalize env'.lookup name = p' at found
        cases found with
        | none => exact .error trivial
        | some fills => exact .ok fills
      | delayed target => exact .ok (.ref _)
      | anew target => exact .ok (.ref _)
      | refused fault => exact .error trivial

end Expr

/-! ## Runs -/

structure Memory.Fills (boom : Fault) (memory memory' : Memory) : Prop where
  bound : Expr.FillEntries boom memory.bound memory'.bound
  log : memory.log = memory'.log

/-- The first of two computations throws the fault, or the second does what the first one does. -/
def Comparison.untilFault (boom : Fault) : Comparison Run Run where
  Rel V x y := ∀ memory memory', Memory.Fills boom memory memory' →
    (x.run.run memory).1 = .error boom ∨
      Results (fun _ => True) V (x.run.run memory).1 (y.run.run memory').1 ∧
        Memory.Fills boom (x.run.run memory).2 (y.run.run memory').2
  Admits _ := True
  rel_pure h _ _ fills := .inr ⟨.ok h, fills⟩
  rel_bind := by
    intro α β V W x y f g h next memory memory' fills
    rw [Run.run_bind, Run.run_bind]
    rcases h memory memory' fills with thrown | ⟨results, fills⟩
    · exact .inl (by rw [thrown])
    · generalize (x.run.run memory).1 = result at results
      generalize (y.run.run memory').1 = result' at results
      cases results with
      | ok values => exact next _ _ values _ _ fills
      | error admitted => exact .inr ⟨.error admitted, fills⟩
  rel_mono weaken h memory memory' fills :=
    (h memory memory' fills).imp_right fun same => ⟨same.1.mono weaken, same.2⟩
  rel_throw admitted _ _ fills := .inr ⟨.error admitted, fills⟩

namespace Filling

open Comparison

variable {boom : Fault} {env env' : Env} {bound : Nat}

theorem rel_modify {f f' : Memory → Memory}
    (h : ∀ memory memory', Memory.Fills boom memory memory' →
      Memory.Fills boom (f memory) (f' memory')) :
    (untilFault boom).Rel Eq (modify f : Run Unit) (modify f') :=
  fun _ _ fills => .inr ⟨.ok rfl, h _ _ fills⟩

theorem rel_emit (event : Event) : (untilFault boom).Rel Eq (Run.emit event) (Run.emit event) :=
  rel_modify fun _ _ fills => ⟨fills.bound, congrArg (event :: ·) fills.log⟩

theorem rel_lookup (envs : Expr.FillEntries boom env env') {self self' : Expr Link}
    (selves : Expr.Fills boom self self') (target : Target) :
    (untilFault boom).Rel (Expr.Fills boom) (Run.lookup env self target)
      (Run.lookup env' self' target) := by
  cases target with
  | recursive origin => exact (untilFault boom).rel_pure selves
  | named name =>
    have found := envs.lookup name
    simp only [Run.lookup, Env.find?]
    generalize env.lookup name = p at found
    generalize env'.lookup name = p' at found
    cases found with
    | none => exact (untilFault boom).rel_throw trivial
    | some fills => exact (untilFault boom).rel_pure fills

theorem rel_resolve (envs : Expr.FillEntries boom env env') {self self' : Expr Link}
    (selves : Expr.Fills boom self self') (link : Link) :
    (untilFault boom).Rel (Expr.Fills boom) (Run.resolve env self link)
      (Run.resolve env' self' link) := by
  unfold Run.resolve
  have read : (untilFault boom).Rel (Memory.Fills boom) (get : Run Memory) get :=
    fun _ _ fills => .inr ⟨.ok fills, fills⟩
  refine (untilFault boom).rel_bind read fun memory memory' fills => ?_
  have found : Option.Rel (Expr.Fills boom) (link.slot.bind memory.find?)
      (link.slot.bind memory'.find?) := by
    cases link.slot with
    | none => exact .none
    | some slot => exact fills.bound.lookup slot
  generalize link.slot.bind memory.find? = kept at found
  generalize link.slot.bind memory'.find? = kept' at found
  cases found with
  | some fills => exact (untilFault boom).rel_pure fills
  | none =>
    refine (untilFault boom).rel_bind (rel_lookup envs selves link.target) fun p p' fills => ?_
    have report : (untilFault boom).Rel Eq (Run.emit (.resolved link.target.origin))
        (Run.emit (.resolved link.target.origin)) := rel_emit _
    cases link.slot with
    | none => exact (untilFault boom).rel_bind report fun _ _ _ => (untilFault boom).rel_pure fills
    | some slot =>
      have keep : (untilFault boom).Rel Eq (modify fun memory => memory.bind slot p : Run Unit)
          (modify fun memory => memory.bind slot p') :=
        rel_modify fun _ _ memories => ⟨.cons ⟨rfl, fills⟩ memories.bound, memories.log⟩
      exact (untilFault boom).rel_bind keep fun _ _ _ =>
        (untilFault boom).rel_bind report fun _ _ _ => (untilFault boom).rel_pure fills

variable {enter enter' : Expr Link → Parser Run Value}

theorem similar_denote (envs : Expr.FillEntries boom env env')
    (entered : ∀ p p', Expr.Fills boom p p' →
      (untilFault boom).Similar .same bound 0 (enter p) (enter' p'))
    {self self' p p' : Expr Link} (selves : Expr.Fills boom self self')
    (fills : Expr.Fills boom p p') :
    (untilFault boom).Similar .same bound 0 (Expr.denote (Run.host env enter) self p)
      (Expr.denote (Run.host env' enter') self' p') := by
  induction fills generalizing self self' with
  | hole p' => exact fun text _ memory memory' _ => .inl rfl
  | prim p => exact Similar.prim (fun _ => trivial) p
  | unary op _ ih =>
    have named := Similar.named_of_lookup (fun _ => trivial) envs.lookup entered
    exact Similar.denoteUnary_same (fun _ => trivial) named rel_emit op (ih selves)
  | binary op _ _ ihp ihq => exact (ihp selves).denoteBinary (fun _ => trivial) op (ihq selves)
  | between _ _ _ ihp ihl ihr => exact (ihp selves).enclosed (ihl selves) (ihr selves)
  | flatMap _ _ ihp ihn => exact (ihp selves).flatMap fun value => ihn value selves
  | fix body ih => exact ih (.fix body)
  | ref link =>
    intro text inside
    exact (untilFault boom).rel_bind (rel_resolve envs selves link) fun p p' fills =>
      entered p p' fills text inside

theorem similar_enter (envs : Expr.FillEntries boom env env') (depth : Nat) {p p' : Expr Link}
    (fills : Expr.Fills boom p p') :
    (untilFault boom).Similar .same bound 0 (Run.enter env depth p) (Run.enter env' depth p') := by
  induction depth generalizing p p' with
  | zero => exact fun text _ => (untilFault boom).rel_throw trivial
  | succ depth ih => exact similar_denote envs (fun _ _ fills => ih fills) fills fills

/-! ## Sessions -/

/-- The second session holds the parsers of the first one, with something filled in, and knows the
names that the part needs. -/
structure Sessions (boom : Fault) (part : Expr Mention) (session session' : Session) : Prop where
  env : Expr.FillEntries boom session.env session'.env
  builds : session'.builds = session.builds
  memory : session.memory.Fills boom session'.memory
  builds_part : ∀ address, ∃ built, part.buildPart session'.env address = .ok built

variable {part : Expr Mention} {session session' : Session}

theorem build_plug (fills : Sessions boom part session session') (context : Expr (Option Mention)) :
    Results (fun _ => True)
      (fun built built' => Expr.Fills boom built.1 built'.1 ∧ Sessions boom part built.2 built'.2)
      (session.build (.plug (.prim (.raise boom)) context)) (session'.build (.plug part context)) := by
  have built := Expr.buildPart_plug fills.env fills.builds_part context (some [session.builds])
  unfold Session.build Expr.build
  rw [fills.builds]
  refine (Comparison.except _).rel_bind (V := Expr.Fills boom) ?_ fun p p' same =>
    .ok ⟨same, fills.env, rfl, fills.memory, fills.builds_part⟩
  exact (Comparison.except _).rel_bind built fun _ _ body => .ok (.fix body)

theorem define_plug (fills : Sessions boom part session session') (name : String)
    (context : Expr (Option Mention)) :
    Results (fun _ => True) (Sessions boom part)
      (session.define name (.plug (.prim (.raise boom)) context))
      (session'.define name (.plug part context)) := by
  refine (Comparison.except _).rel_bind (build_plug fills context) ?_
  rintro ⟨p, after⟩ ⟨p', after'⟩ ⟨same, fills⟩
  refine .ok ⟨.cons ⟨rfl, same⟩ fills.env, fills.builds, fills.memory, fun address => ?_⟩
  -- the new name may hide an older one, but takes no name away
  have names (other : String) (q : Expr Link) (found : after'.env.find? other = some q) :
      ∃ q', (after'.env.define name p').find? other = some q' := by
    simp only [Env.find?, Env.define, List.lookup_cons]
    cases other == name with
    | true => exact ⟨p', rfl⟩
    | false => exact ⟨q, found⟩
  obtain ⟨built, done⟩ := fills.builds_part address
  exact Expr.buildPart_mono names done address

theorem definitions_plug (fills : Sessions boom part session session')
    (definitions : List (String × Expr (Option Mention))) :
    Results (fun _ => True) (Sessions boom part)
      ((Expr.plugEntries (.prim (.raise boom)) definitions).foldlM
        (fun session d => session.define d.1 d.2) session)
      ((Expr.plugEntries part definitions).foldlM (fun session d => session.define d.1 d.2)
        session') := by
  induction definitions generalizing session session' with
  | nil => exact .ok fills
  | cons definition definitions ih =>
    exact (Comparison.except _).rel_bind (define_plug fills definition.1 definition.2)
      fun _ _ fills => ih fills

theorem report_plug (fills : Sessions boom part session session') (mode : Mode) {p p' : Expr Link}
    (same : Expr.Fills boom p p') (text : Text) :
    (session.report mode p text).1.answer = .fault boom ∨
      (session'.report mode p' text).1 = (session.report mode p text).1 ∧
        Sessions boom part (session.report mode p text).2 (session'.report mode p' text).2 := by
  have runs := similar_enter fills.env (Run.depthFor session.builds text) same text
    (Nat.lt_succ_self _) session.memory session'.memory fills.memory
  rw [Session.report_eq, Session.report_eq]
  unfold Session.ran
  rw [fills.builds]
  rcases runs with thrown | ⟨results, memories⟩
  · exact .inl (by rw [thrown]; rfl)
  · refine .inr ⟨?_, fills.env, rfl, ⟨memories.bound, rfl⟩, fills.builds_part⟩
    rw [results.eq_of_same, memories.log]

end Filling

/-- The same reports, one after the other, until one is that the fault was thrown. -/
inductive AgreeUntil (boom : Fault) : List Report → List Report → Prop where
  | done : AgreeUntil boom [] []
  | next (report : Report) {reports reports' : List Report} :
      AgreeUntil boom reports reports' → AgreeUntil boom (report :: reports) (report :: reports')
  | thrown {report : Report} {reports reports' : List Report} :
      report.answer = .fault boom → AgreeUntil boom (report :: reports) reports'

namespace Session

theorem reports_plug {boom : Fault} {part : Expr Mention} {session session' : Session}
    (fills : Filling.Sessions boom part session session') (mode : Mode) {p p' : Expr Link}
    (same : Expr.Fills boom p p') (texts : List Text) :
    AgreeUntil boom (session.reports mode p texts) (session'.reports mode p' texts) := by
  induction texts generalizing session session' with
  | nil => exact .done
  | cons text texts ih =>
    simp only [reports]
    rcases Filling.report_plug fills mode same text with thrown | ⟨agree, after⟩
    · exact .thrown thrown
    · rw [agree]
      exact .next _ (ih after)

/-- Build definitions and a parser in a session, and run the parser on several texts. -/
def batchIn (session : Session) (definitions : List (String × Expr Mention))
    (grammar : Expr Mention) (mode : Mode) (texts : List Text) : Except Fault (List Report) := do
  let session ← definitions.foldlM (fun session d => session.define d.1 d.2) session
  let (p, session) ← session.build grammar
  return session.reports mode p texts

example : batch = empty.batchIn := rfl

/-- Fill the holes of definitions and of a parser with a part that only throws a fault, and with any
part that can be built. Building both ends in the same fault, or the runs give the same reports up to
the first one that ends in the fault of the first part. -/
theorem unrun_part (session : Session) (boom : Fault) {part : Expr Mention} {built : Expr Link}
    (builds : part.build session.env session.builds = .ok built)
    (definitions : List (String × Expr (Option Mention))) (context : Expr (Option Mention))
    (mode : Mode) (texts : List Text) :
    Results (fun _ => True) (AgreeUntil boom)
      (session.batchIn (Expr.plugEntries (.prim (.raise boom)) definitions)
        (.plug (.prim (.raise boom)) context) mode texts)
      (session.batchIn (Expr.plugEntries part definitions) (.plug part context) mode texts) := by
  obtain ⟨body, done, -⟩ := Parser.bind_eq_ok.mp builds
  have start : Filling.Sessions boom part session session :=
    ⟨.refl _, rfl, ⟨.refl _, rfl⟩, Expr.buildPart_mono (fun _ p found => ⟨p, found⟩) done⟩
  refine (Comparison.except _).rel_bind (Filling.definitions_plug start definitions)
    fun after after' fills => ?_
  refine (Comparison.except _).rel_bind (Filling.build_plug fills context) ?_
  rintro ⟨p, last⟩ ⟨p', last'⟩ ⟨same, fills⟩
  exact .ok (reports_plug fills mode same texts)

/-- A second alternative is run on the second text only. -/
theorem unrun_part_second_alternative :
    (Expr.prim .letters).build empty.env empty.builds = .ok (.fix (.prim .letters)) ∧
    empty.batchIn [] (.plug (.prim (.raise (.raised "boom"))) (.alternate (.char 'a') (.ref none)))
        .parse [['a'], ['b']]
      = .ok [⟨.outcome (.success (.str ['a']) []), []⟩, ⟨.fault (.raised "boom"), []⟩] ∧
    Results (fun _ => True) (AgreeUntil (.raised "boom"))
      (empty.batchIn [] (.plug (.prim (.raise (.raised "boom")))
        (.alternate (.char 'a') (.ref none))) .parse [['a'], ['b']])
      (empty.batchIn [] (.plug (.prim .letters) (.alternate (.char 'a') (.ref none)))
        .parse [['a'], ['b']]) :=
  ⟨rfl, by decide +kernel, unrun_part empty (.raised "boom") rfl [] _ .parse _⟩

end Session
end Descent
