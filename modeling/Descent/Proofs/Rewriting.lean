import Descent.Proofs.LateBinding
import Descent.Proofs.Leading

/-!
# Grammars that mean the same

Two grammars mean the same if building them ends in the same fault, or in expressions that stand for
the same parser wherever parsers stay inside their texts. Main statement: after any steps of a session
such grammars have the same answers, run after run. What they report on references may differ.

A slot is named by its place in a grammar, so a part has other slots in another grammar. That makes no
difference, because nothing is kept yet in the slots of a new build.
-/

namespace Descent

open Comparison

/-! ## Parsers that stay inside their texts -/

def Tolerance.inside : Tolerance where
  Rel text f g := f = g ∧ f.remaining <:+ text
  rel_plain suffix := ⟨rfl, suffix⟩
  rel_widen suffix related := ⟨related.1, related.2.trans suffix⟩
  length_eq related := by rw [related.1]

theorem Tolerance.exact_inside : Tolerance.inside.Exact where
  eq related := related.1
  annotate _ related := ⟨rfl, related.2⟩

namespace Parser

variable {α β : Type} {p q : Parser (Except Fault) α}

/-- Whatever a parser ends in, it leaves a rest of the text. -/
def StaysInside (p : Parser (Except Fault) α) : Prop :=
  ∀ text outcome, p text = .ok outcome → outcome.remaining <:+ text

theorem staysInside_iff :
    p.StaysInside ↔ ∀ bound, (except fun _ => True).Similar .inside bound 0 p p := by
  constructor
  · intro inside bound text _
    have own := inside text
    generalize p text = result at own
    cases result with
    | error fault => exact .error trivial
    | ok outcome =>
      have suffix := own outcome rfl
      cases outcome with
      | success value rest => exact .ok (.success suffix suffix.length_le)
      | failure f => exact .ok (.failure ⟨rfl, suffix⟩)
  · intro similar text outcome ran
    have own := similar _ text (Nat.lt_succ_self _)
    rw [ran] at own
    cases own with
    | ok agree =>
      cases agree with
      | success suffix => exact suffix
      | failure related => exact related.2

theorem StaysInside.flatMap {next : α → Parser (Except Fault) β} (inside : p.StaysInside)
    (nexts : ∀ value, (next value).StaysInside) : (p.flatMap next).StaysInside := by
  rw [staysInside_iff] at inside ⊢
  intro bound
  exact (inside bound).flatMap fun value => staysInside_iff.mp (nexts value) _

theorem StaysInside.name (inside : p.StaysInside) (label : String) : (p.name label).StaysInside := by
  rw [staysInside_iff] at inside ⊢
  refine fun bound => (inside bound).name fun related => ?_
  exact ⟨by rw [related.1], related.2⟩

end Parser

/-- What references and names lead to stays inside its texts. -/
structure Host.StaysInside {ι : Type} (host : Host ι (Except Fault)) : Prop where
  follow : ∀ self r, (host.follow self r).StaysInside
  find : ∀ name, (host.find name).StaysInside

theorem Host.StaysInside.denote {ι : Type} {host : Host ι (Except Fault)} (inside : host.StaysInside)
    (self p : Expr ι) : (Expr.denote host self p).StaysInside := by
  rw [Parser.staysInside_iff]
  intro bound
  refine Similar.denote_exact Tolerance.exact_inside (fun _ => trivial)
    (fun name => Parser.staysInside_iff.mp (inside.find name) bound) ?_
    (fun place _ => Parser.staysInside_iff.mp (inside.follow place.self place.ref) bound)
    (Set.subset_univ _)
  intro event
  generalize host.emit event = emitted
  cases emitted with
  | error fault => exact .error trivial
  | ok done => exact .ok rfl

theorem Run.hostLed_staysInside {env : Env} {leads : Place Link → Except Fault (Expr Link)}
    {enter : Expr Link → Parser (Except Fault) Value} (entered : ∀ p, (enter p).StaysInside) :
    (hostLed env leads enter).StaysInside where
  follow := by
    intro self link text outcome ran
    obtain ⟨p, -, ran⟩ := Parser.bind_eq_ok.mp ran
    exact entered p text outcome ran
  find := by
    intro name
    rw [Parser.staysInside_iff]
    intro bound
    exact Similar.named_same (fun _ => trivial)
      (fun _ p _ => Parser.staysInside_iff.mp (entered p) bound) name

theorem Run.enterLed_staysInside (env : Env) (leads : Place Link → Except Fault (Expr Link))
    (depth : Nat) (p : Expr Link) : (enterLed env leads depth p).StaysInside := by
  induction depth generalizing p with
  | zero => exact nofun
  | succ depth ih => exact (hostLed_staysInside ih).denote p p

/-! ## Slots of a new build -/

/-- Expressions that differ only in slots for which a memory keeps the same. -/
inductive Memory.Resembles (memory : Memory) : Expr Link → Expr Link → Prop where
  | prim (p : Primitive) : memory.Resembles (.prim p) (.prim p)
  | unary (op : Unary) {p p' : Expr Link} : memory.Resembles p p' →
      memory.Resembles (.unary op p) (.unary op p')
  | binary (op : Binary) {p p' q q' : Expr Link} : memory.Resembles p p' → memory.Resembles q q' →
      memory.Resembles (.binary op p q) (.binary op p' q')
  | between {p p' left left' right right' : Expr Link} : memory.Resembles p p' →
      memory.Resembles left left' → memory.Resembles right right' →
      memory.Resembles (.between p left right) (.between p' left' right')
  | flatMap {p p' : Expr Link} {next next' : Value → Expr Link} : memory.Resembles p p' →
      (∀ value, memory.Resembles (next value) (next' value)) →
      memory.Resembles (.flatMap p next) (.flatMap p' next')
  | fix {body body' : Expr Link} : memory.Resembles body body' →
      memory.Resembles (.fix body) (.fix body')
  | ref {link link' : Link} (target : link.target = link'.target)
      (kept : link.slot.bind memory.find? = link'.slot.bind memory.find?) :
      memory.Resembles (.ref link) (.ref link')

namespace Memory.Resembles

variable {memory : Memory} {env : Env} {p q : Expr Link}

theorem refl (memory : Memory) (p : Expr Link) : memory.Resembles p p := by
  induction p with
  | prim p => exact .prim p
  | unary op p ih => exact .unary op ih
  | binary op p q ihp ihq => exact .binary op ihp ihq
  | between p left right ihp ihl ihr => exact .between ihp ihl ihr
  | flatMap p next ihp ihn => exact .flatMap ihp ihn
  | fix body ih => exact .fix ih
  | ref link => exact .ref rfl rfl

theorem symm (h : memory.Resembles p q) : memory.Resembles q p := by
  induction h with
  | prim p => exact .prim p
  | unary op _ ih => exact .unary op ih
  | binary op _ _ ihp ihq => exact .binary op ihp ihq
  | between _ _ _ ihp ihl ihr => exact .between ihp ihl ihr
  | flatMap _ _ ihp ihn => exact .flatMap ihp ihn
  | fix _ ih => exact .fix ih
  | ref target kept => exact .ref target.symm kept.symm

theorem denote {enter : Expr Link → Parser (Except Fault) Value}
    (entered : ∀ p q, memory.Resembles p q → enter p = enter q) (h : memory.Resembles p q)
    {self self' : Expr Link} (selves : enter self = enter self') :
    Expr.denote (Run.hostLed env (memory.leads env) enter) self p
      = Expr.denote (Run.hostLed env (memory.leads env) enter) self' q := by
  induction h generalizing self self' with
  | prim p => rfl
  | unary op _ ih => simp only [Expr.denote, ih selves]
  | binary op _ _ ihp ihq => simp only [Expr.denote, ihp selves, ihq selves]
  | between _ _ _ ihp ihl ihr => simp only [Expr.denote, ihp selves, ihl selves, ihr selves]
  | flatMap _ _ ihp ihn => simp only [Expr.denote, ihp selves, ihn _ selves]
  | fix same ih => exact ih (entered _ _ (.fix same))
  | @ref link link' target kept =>
    funext text
    simp only [Expr.denote, Run.hostLed, leads, target, kept]
    cases link'.slot.bind memory.find? with
    | some p => rfl
    | none =>
      cases link'.target with
      | named name => rfl
      | recursive origin => exact congrFun selves text

theorem enterLed (h : memory.Resembles p q) (env : Env) (depth : Nat) :
    Run.enterLed env (memory.leads env) depth p = Run.enterLed env (memory.leads env) depth q := by
  induction depth generalizing p q with
  | zero => rfl
  | succ depth ih => exact h.denote (fun _ _ same => ih same) (ih h)

/-- Whole parsers are the same where their parts are, inside either of them. -/
theorem enterLed_fix {p' q' : Expr Link} (likeP : memory.Resembles p p')
    (likeQ : memory.Resembles q q')
    (means : ∀ host : Host Link (Except Fault), host.StaysInside → ∀ self,
      Expr.denote host self p' = Expr.denote host self q') (env : Env) (depth : Nat) :
    Run.enterLed env (memory.leads env) depth (.fix p)
      = Run.enterLed env (memory.leads env) depth (.fix q) := by
  induction depth with
  | zero => rfl
  | succ depth ih =>
    let enter := Run.enterLed env (memory.leads env) depth
    let host := Run.hostLed env (memory.leads env) enter
    have entered (p q : Expr Link) (same : memory.Resembles p q) : enter p = enter q :=
      same.enterLed env depth
    have inside : host.StaysInside := Run.hostLed_staysInside (Run.enterLed_staysInside _ _ depth)
    calc Expr.denote host (.fix p) p
      _ = Expr.denote host (.fix q) p' := likeP.denote entered ih
      _ = Expr.denote host (.fix q) q' := means host inside _
      _ = Expr.denote host (.fix q) q := likeQ.symm.denote entered rfl

/-- Where nothing is kept below an address, a part that is built there is as one without slots. -/
theorem buildPart (env : Env) {address : Option Address}
    (unused : ∀ base ∈ address, ∀ slot, base <:+ slot → memory.find? slot = none)
    (grammar : Expr Mention) :
    Results (fun _ => True) memory.Resembles (grammar.buildPart env address)
      (grammar.buildPart env none) := by
  have below {address : Option Address} (i : Nat)
      (unused : ∀ base ∈ address, ∀ slot, base <:+ slot → memory.find? slot = none) :
      ∀ base ∈ address.map (i :: ·), ∀ slot, base <:+ slot → memory.find? slot = none := by
    intro _ under slot suffix
    obtain ⟨base, here, rfl⟩ := Option.map_eq_some_iff.mp under
    exact unused base here slot ((List.suffix_cons i base).trans suffix)
  induction grammar generalizing address with
  | prim p => exact .ok (.prim p)
  | unary op p ih =>
    refine (except _).rel_bind (ih unused) fun _ _ same => .ok (.unary op same)
  | binary op p q ihp ihq =>
    refine (except _).rel_bind (ihp (below 0 unused)) fun _ _ first => ?_
    exact (except _).rel_bind (ihq (below 1 unused)) fun _ _ second => .ok (.binary op first second)
  | between p left right ihp ihl ihr =>
    refine (except _).rel_bind (ihp (below 0 unused)) fun _ _ inner => ?_
    refine (except _).rel_bind (ihl (below 1 unused)) fun _ _ opening => ?_
    exact (except _).rel_bind (ihr (below 2 unused)) fun _ _ closing =>
      .ok (.between inner opening closing)
  | flatMap p next ihp _ =>
    exact (except _).rel_bind (ihp unused) fun _ _ same => .ok (.flatMap same fun _ => .refl memory _)
  | fix body ih => exact (except _).rel_bind (ih unused) fun _ _ same => .ok (.fix same)
  | ref r =>
    cases r with
    | use name =>
      simp only [Expr.buildPart]
      cases env.find? name with
      | none => exact .error trivial
      | some p => exact .ok (.refl memory p)
    | delayed target =>
      refine .ok (.ref rfl ?_)
      cases address with
      | none => rfl
      | some base => exact unused base rfl base (List.suffix_refl _)
    | anew target => exact .ok (.ref rfl rfl)
    | refused fault => exact .error trivial

end Memory.Resembles

/-! ## The same meaning -/

/-- Building two grammars ends in the same fault, or in expressions that stand for the same parser in
every host that stays inside its texts. -/
def Expr.SameMeaning (env : Env) (A B : Expr Mention) : Prop :=
  Results (fun _ => True)
    (fun p q => ∀ host : Host Link (Except Fault), host.StaysInside → ∀ self,
      Expr.denote host self p = Expr.denote host self q)
    (A.buildPart env none) (B.buildPart env none)

namespace Session

variable {session : Session} {known : Set (Place Link)}

/-- Build a grammar, and answer to texts with it, one after the other. -/
def answers (session : Session) (grammar : Expr Mention) (mode : Mode) (texts : List Text) :
    Except Fault (List Answer) := do
  let (p, session) ← session.build grammar
  return (session.reports mode p texts).map Report.answer

/-- All slots for which anything is kept were made by the builds so far. -/
theorem kept_of_recorded {visits : List Visit} (tracks : session.Tracks known)
    (records : Watch.Records known session.memory visits) {slot : Address} {p : Expr Link}
    (kept : session.memory.find? slot = some p) : ∃ n < session.builds, slot.getLast? = some n := by
  rw [records.recalls slot] at kept
  obtain ⟨visit, listed, found⟩ := List.exists_of_findSome?_eq_some kept
  split at found
  · next here => exact tracks.numbered visit.place (records.places visit listed) slot here
  · cases found

theorem unused_of_recorded {visits : List Visit} (tracks : session.Tracks known)
    (records : Watch.Records known session.memory visits) :
    ∀ base ∈ some [session.builds], ∀ slot, base <:+ slot → session.memory.find? slot = none := by
  rintro base here slot ⟨before, rfl⟩
  obtain rfl := Option.mem_some_iff.mp here
  rw [Option.eq_none_iff_forall_ne_some]
  intro p kept
  obtain ⟨n, less, last⟩ := kept_of_recorded tracks records kept
  simp only [List.getLast?_concat, Option.some.injEq] at last
  omega

theorem answers_eq {grammar : Expr Mention} (tracks : session.Tracks known)
    (kept : session.memory.KeepsWithin known) (mode : Mode) (texts : List Text) :
    session.answers grammar mode texts
      = (grammar.buildPart session.env (some [session.builds])).map fun body =>
        texts.map fun text => .ofRun mode text
          (Run.enterLed session.env (session.memory.leads session.env)
            (Run.depthFor (session.builds + 1) text) (.fix body) text) := by
  cases done : grammar.buildPart session.env (some [session.builds]) with
  | error fault => simp only [answers, build, Expr.build, done]; rfl
  | ok body =>
    have built : session.build grammar
        = .ok (.fix body, { session with builds := session.builds + 1 }) := by
      simp only [build, Expr.build, done]
      rfl
    obtain ⟨more, sub, tracks, within⟩ := tracks.build built
    have keeps : session.memory.KeepsWithin more := fun slot p found => (kept slot p found).mono sub
    simp only [answers, built]
    have led := tracks.answers_led keeps within (Memory.leadsLike_refl _ _ _) mode texts
    exact congrArg Except.ok led

/-- After any steps, grammars of the same meaning have the same answers. -/
theorem answers_of_sameMeaning (steps : List Step) {A B : Expr Mention}
    (same : Expr.SameMeaning (empty.after steps).env A B) (mode : Mode) (texts : List Text) :
    (empty.after steps).answers A mode texts = (empty.after steps).answers B mode texts := by
  obtain ⟨known, tracks, records⟩ := recorded_history steps
  generalize empty.after steps = session at *
  have unused := unused_of_recorded tracks records
  rw [answers_eq tracks records.within, answers_eq tracks records.within]
  have left := Memory.Resembles.buildPart session.env unused A
  have right := Memory.Resembles.buildPart session.env unused B
  unfold Expr.SameMeaning at same
  generalize A.buildPart session.env (some [session.builds]) = a at left
  generalize B.buildPart session.env (some [session.builds]) = b at right
  generalize A.buildPart session.env none = a' at left same
  generalize B.buildPart session.env none = b' at right same
  cases left with
  | error => cases same with | error => cases right with | error => rfl
  | @ok p p' likeP =>
    cases same with
    | @ok _ q' means =>
      cases right with
      | @ok q _ likeQ =>
        have whole := likeP.enterLed_fix likeQ means session.env
        simp only [Except.map, whole]

end Session
end Descent
