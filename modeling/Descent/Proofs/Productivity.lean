import Descent.Proofs.Acceptance.Forms
import Descent.Proofs.Repetition
import Mathlib.Logic.Relation

/-!
# Productive repetition

A repetition can only be endless by a mistake in the grammar. What a run can come to is told by the
nodes of a parser: its parts, the parts of the parsers that its references and names lead to, and
those of the parsers that its functions make of the values that are really found. Main statement: if
at each of these nodes a repetition has something productive to repeat, no run on any text ends in
the fault of an endless repetition; and a parser that succeeds on every text cannot be repeated on
any text.
-/

namespace Descent

/-- A part of a parser, and the innermost recursive parser around it. -/
structure Node where
  self : Expr Link
  part : Expr Link

namespace Node

def parser (env : Env) (depth : Nat) (node : Node) : Parser Run Value :=
  Expr.denote (Run.host env (Run.enter env depth)) node.self node.part

/-- A run of a node, which starts with an empty memory, ends in a success. -/
def Yields (env : Env) (node : Node) (text : Text) (value : Value) (rest : Text) : Prop :=
  ∃ depth, (Run.fresh (node.parser env depth)).Accepts text value rest

def Productive (env : Env) (node : Node) : Prop :=
  ∀ text value rest, node.Yields env text value rest → rest.length < text.length

/-- One node leads to another: to a part of its own, to what its reference or the name that it finds
means, or to what its function makes of a value that it finds. -/
inductive Leads (env : Env) : Node → Node → Prop where
  | unary {self p : Expr Link} {op : Unary} : Leads env ⟨self, .unary op p⟩ ⟨self, p⟩
  | left {self p q : Expr Link} {op : Binary} : Leads env ⟨self, .binary op p q⟩ ⟨self, p⟩
  | right {self p q : Expr Link} {op : Binary} : Leads env ⟨self, .binary op p q⟩ ⟨self, q⟩
  | middle {self p left right : Expr Link} : Leads env ⟨self, .between p left right⟩ ⟨self, p⟩
  | opening {self p left right : Expr Link} : Leads env ⟨self, .between p left right⟩ ⟨self, left⟩
  | closing {self p left right : Expr Link} : Leads env ⟨self, .between p left right⟩ ⟨self, right⟩
  | first {self p : Expr Link} {next : Value → Expr Link} :
      Leads env ⟨self, .flatMap p next⟩ ⟨self, p⟩
  | next {self p : Expr Link} {next : Value → Expr Link} {text rest : Text} {value : Value} :
      Yields env ⟨self, p⟩ text value rest → Leads env ⟨self, .flatMap p next⟩ ⟨self, next value⟩
  | fix {self body : Expr Link} : Leads env ⟨self, .fix body⟩ ⟨.fix body, body⟩
  | ref {self p : Expr Link} {link : Link} :
      link.target.find env self = .ok p → Leads env ⟨self, .ref link⟩ ⟨p, p⟩
  | dispatch {self p q : Expr Link} {text rest name : Text} :
      Yields env ⟨self, p⟩ text (.str name) rest → env.find? (String.ofList name) = some q →
      Leads env ⟨self, .unary .dispatch p⟩ ⟨q, q⟩

/-- What a node repeats is productive. -/
def Progresses (env : Env) : Node → Prop
  | ⟨self, .unary .many p⟩ | ⟨self, .unary .many1 p⟩ => Productive env ⟨self, p⟩
  | ⟨self, .binary .sepBy p separator⟩ => Productive env ⟨self, p⟩ ∨ Productive env ⟨self, separator⟩
  | _ => True

/-- The faults that a node is given: those of the functions that were handed in with it. -/
def Throws : Node → Fault → Prop
  | ⟨_, .prim p⟩, fault => p.Throws fault
  | ⟨_, .unary (.map f) _⟩, fault => ∃ value, f value = .error fault
  | ⟨_, .unary (.bind next) _⟩, fault => ∃ value, (next value).Throws fault
  | _, _ => False

/-- At every node that a node leads to, what is repeated is productive, and no function of the caller
throws the fault of an endless repetition itself. -/
def Sound (env : Env) (node : Node) : Prop :=
  ∀ other, Relation.ReflTransGen (Leads env) node other →
    other.Progresses env ∧ ∀ rest, ¬ other.Throws (.endlessRepetition rest)

variable {env : Env} {node : Node}

theorem Sound.progresses (sound : node.Sound env) : node.Progresses env :=
  (sound node .refl).1

theorem Sound.not_throws (sound : node.Sound env) (rest : Text) :
    ¬ node.Throws (.endlessRepetition rest) :=
  (sound node .refl).2 rest

theorem Sound.step {other : Node} (sound : node.Sound env) (leads : node.Leads env other) :
    other.Sound env := by
  intro last reached
  exact sound last (reached.head leads)

theorem Sound.of_parts (progresses : node.Progresses env)
    (quiet : ∀ rest, ¬ node.Throws (.endlessRepetition rest))
    (parts : ∀ part, node.Leads env part → part.Sound env) : node.Sound env := by
  intro other reached
  rcases reached.cases_head with rfl | ⟨part, leads, reached⟩
  · exact ⟨progresses, quiet⟩
  · exact parts part leads other reached

end Node

/-! ## Runs of sound nodes -/

def Fault.NotEndless (fault : Fault) : Prop :=
  ∀ rest, fault ≠ .endlessRepetition rest

/-- On texts shorter than `bound`, a parser leaves rests of its input, and does not end in the fault
of an endless repetition. -/
def Parser.Ends {α : Type} (bound : Nat) (p : Parser (Except Fault) α) : Prop :=
  (Comparison.except Fault.NotEndless).Similar .same bound 0 p p

namespace Parser.Ends

open Comparison

variable {α β : Type} {bound : Nat} {p : Parser (Except Fault) α}

theorem cases (h : p.Ends bound) {text : Text} (short : text.length < bound) :
    (∃ fault, p text = .error fault ∧ fault.NotEndless) ∨ (∃ f, p text = .ok (.failure f)) ∨
      ∃ value rest, p text = .ok (.success value rest) ∧ rest <:+ text := by
  have runs := h text short
  cases result : p text with
  | error fault =>
    rw [result] at runs
    cases runs with
    | error admitted => exact .inl ⟨fault, rfl, admitted⟩
  | ok outcome =>
    rw [result] at runs
    cases runs with
    | ok agree =>
      cases agree with
      | failure related => exact .inr (.inl ⟨_, rfl⟩)
      | success suffix consumed => exact .inr (.inr ⟨_, _, rfl, suffix⟩)

theorem not_endless (h : p.Ends bound) {text : Text} (short : text.length < bound) (rest : Text) :
    p text ≠ .error (.endlessRepetition rest) := by
  intro endless
  rcases h.cases short with ⟨fault, thrown, other⟩ | ⟨f, failed⟩ | ⟨value, after, accepted, -⟩
  · cases endless.symm.trans thrown
    exact other rest rfl
  · cases endless.symm.trans failed
  · cases endless.symm.trans accepted

/-- What comes second matters only after the values that the first parser really gives. -/
theorem flatMap_of_accepts (h : p.Ends bound) {f : α → Parser (Except Fault) β}
    (next : ∀ text value rest, p.Accepts text value rest → (f value).Ends bound) :
    (p.flatMap f).Ends bound := by
  intro text short
  unfold flatMap
  rcases h.cases short with ⟨fault, thrown, other⟩ | ⟨f, failed⟩ | ⟨value, rest, accepted, suffix⟩
  · rw [thrown]
    exact .error other
  · rw [failed]
    exact .ok (.failure rfl)
  · rw [accepted]
    have less := suffix.length_le
    have further := next text value rest accepted rest (by omega)
    exact further.mono fun _ _ agree => agree_widen suffix less agree

theorem progress (h : p.Ends bound)
    (productive : ∀ text value rest, p.Accepts text value rest → rest.length < text.length) :
    (except Fault.NotEndless).Similar .same bound 1 p p := by
  intro text short
  rcases h.cases short with ⟨fault, thrown, other⟩ | ⟨f, failed⟩ | ⟨value, rest, accepted, suffix⟩
  · rw [thrown]
    exact .error other
  · rw [failed]
    exact .ok (.failure rfl)
  · have shorter := productive text value rest accepted
    rw [accepted]
    exact .ok (.success suffix shorter)

theorem prim {p : Primitive} (quiet : ∀ rest, ¬ p.Throws (.endlessRepetition rest)) :
    (p.parse.lift (m := Except Fault)).Ends bound := by
  have plain : p.parse.Plain Fault.NotEndless 0 := by
    apply p.plain_parse_of nofun
    rintro fault thrown rest rfl
    exact quiet rest thrown
  exact plain.lift fun _ => id

/-- What a name or a reference adds to the faults of what it leads to are other faults. -/
theorem named {enter : Expr Link → Parser (Except Fault) Value} {env : Env} {name : Value}
    (entered : ∀ text p, name = .str text → env.find? (String.ofList text) = some p →
      (enter p).Ends bound) : (Run.named env enter name).Ends bound := by
  unfold Run.named
  split
  · cases name with
    | str text =>
      simp only [Value.toText?, Option.bind_some]
      split
      · next p found => exact entered text p rfl found
      · exact Similar.fail _
    | _ => exact Similar.fail _
  · exact fun text _ => .error nofun

theorem follow {enter : Expr Link → Parser (Except Fault) Value} {env : Env} {self : Expr Link}
    {link : Link} (entered : ∀ p, link.target.find env self = .ok p → (enter p).Ends bound) :
    ((Run.hostAnew env enter).follow self link).Ends bound := by
  intro text short
  show Results _ _ (link.target.find env self >>= _) (link.target.find env self >>= _)
  cases found : link.target.find env self with
  | ok p => exact entered p found text short
  | error fault =>
    apply Results.error
    rintro rest rfl
    unfold Target.find at found
    split at found
    · split at found <;> cases found
    · cases found

end Parser.Ends

namespace Node

variable {session : Session} {known : Set (Place Link)} {bound depth : Nat} {self p : Expr Link}

def parserAnew (env : Env) (depth : Nat) (node : Node) : Parser (Except Fault) Value :=
  Expr.denote (Run.hostAnew env (Run.enterAnew env depth)) node.self node.part

def Within (known : Set (Place Link)) (node : Node) : Prop :=
  Expr.places node.self node.part ⊆ known

/-- Runs without a memory find what runs from an empty memory find. -/
theorem Within.yields {node : Node} (within : node.Within known) (tracks : session.Tracks known)
    {text rest : Text} {value : Value}
    (accepted : (node.parserAnew session.env depth).Accepts text value rest) :
    node.Yields session.env text value rest := by
  refine ⟨depth, ?_⟩
  unfold parser
  rwa [tracks.fresh_denote depth within]

theorem Within.progress {node : Node} (within : node.Within known) (tracks : session.Tracks known)
    (ends : (node.parserAnew session.env depth).Ends bound)
    (productive : node.Productive session.env) :
    (Comparison.except Fault.NotEndless).Similar .same bound 1 (node.parserAnew session.env depth)
      (node.parserAnew session.env depth) := by
  apply ends.progress
  intro text value rest accepted
  exact productive text value rest (within.yields tracks accepted)

theorem Sound.unary_ends {op : Unary} (tracks : session.Tracks known)
    (within : Within known ⟨self, p⟩) (sound : Sound session.env ⟨self, .unary op p⟩)
    (entered : ∀ p : Expr Link, p.Within known → Sound session.env ⟨p, p⟩ →
      (Run.enterAnew session.env depth p).Ends bound)
    (ends : (parserAnew session.env depth ⟨self, p⟩).Ends bound) :
    (parserAnew session.env depth ⟨self, .unary op p⟩).Ends bound := by
  have progress := within.progress tracks ends
  cases op with
  | map f =>
    apply ends.mapM
    intro value
    rw [Parser.ofExcept_eq]
    apply Primitive.results_refl
    rintro fault thrown rest rfl
    exact sound.not_throws rest ⟨value, thrown⟩
  | bind next =>
    apply ends.flatMap_of_accepts
    intro _ value _ _
    apply Parser.Ends.prim
    intro rest thrown
    exact sound.not_throws rest ⟨value, thrown⟩
  | dispatch =>
    apply ends.flatMap_of_accepts
    intro text value rest accepted
    apply Parser.Ends.named
    rintro name q rfl found
    have leads := Leads.dispatch (within.yields tracks accepted) found
    exact entered q (tracks.named _ q found) (sound.step leads)
  -- Every round consumes something, so the fault cannot come from the repetition itself.
  | many => exact ((progress sound.progresses).many (.inl Nat.one_pos)).map _
  | many1 =>
    have rounds := (progress sound.progresses).many1 (.inl Nat.one_pos)
    exact (rounds.mono (Nat.zero_le _) (Nat.le_refl _)).map _
  | lookahead => exact ends.lookahead
  | notFollowedBy => exact ends.notFollowedBy.map _
  | name label =>
    exact ends.name fun {text _ _} related =>
      congrArg (fun f : Failure => f.annotate label text.length) related
  | trace label => exact ends.traced (fun _ _ => .ok rfl) fun _ => .ok rfl

theorem Sound.ends (tracks : session.Tracks known)
    (entered : ∀ p : Expr Link, p.Within known → Sound session.env ⟨p, p⟩ →
      (Run.enterAnew session.env depth p).Ends bound)
    (within : Within known ⟨self, p⟩) (sound : Sound session.env ⟨self, p⟩) :
    (parserAnew session.env depth ⟨self, p⟩).Ends bound := by
  induction p generalizing self with
  | prim p => exact .prim sound.not_throws
  | unary op p ih =>
    have inP : Within known ⟨self, p⟩ := within
    exact sound.unary_ends tracks inP entered (ih inP (sound.step .unary))
  | binary op p q ihp ihq =>
    have mismatch : Fault.NotEndless .typeMismatch := nofun
    have inP : Within known ⟨self, p⟩ := (Set.union_subset_iff.mp within).1
    have inQ : Within known ⟨self, q⟩ := (Set.union_subset_iff.mp within).2
    have hp := ihp inP (sound.step .left)
    have hq := ihq inQ (sound.step .right)
    apply Comparison.Similar.denoteBinary_of mismatch op hp hq
    -- A round of `sepBy` is a separator and an item, so it consumes something if either does.
    rintro rfl
    rcases sound.progresses with productive | productive
    · exact (inP.progress tracks hp productive).sepBy hq (.inl Nat.one_pos)
    · exact hp.sepBy (inQ.progress tracks hq productive) (.inl Nat.one_pos)
  | between p left right ihp ihl ihr =>
    obtain ⟨inPL, inR⟩ := Set.union_subset_iff.mp within
    obtain ⟨inP, inL⟩ := Set.union_subset_iff.mp inPL
    have hp := ihp inP (sound.step .middle)
    have hl := ihl inL (sound.step .opening)
    exact hp.enclosed hl (ihr inR (sound.step .closing))
  | flatMap p next ihp ihn =>
    have inP : Within known ⟨self, p⟩ := (Set.union_subset_iff.mp within).1
    have inNext (value : Value) : Within known ⟨self, next value⟩ := fun place inside =>
      (Set.union_subset_iff.mp within).2 ⟨value, inside⟩
    apply (ihp inP (sound.step .first)).flatMap_of_accepts
    intro text value rest accepted
    have leads : Leads session.env _ ⟨self, next value⟩ := .next (inP.yields tracks accepted)
    exact ihn value (inNext value) (sound.step leads)
  | fix body ih => exact ih within (sound.step .fix)
  | ref link =>
    have inside : ⟨link, self⟩ ∈ known := within rfl
    apply Parser.Ends.follow
    intro p found
    exact entered p (tracks.find_within inside found) (sound.step (.ref found))

/-- From sound nodes a run of any depth ends otherwise. -/
theorem Sound.enter_ends (tracks : session.Tracks known) (depth : Nat) (within : p.Within known)
    (sound : Sound session.env ⟨p, p⟩) : (Run.enterAnew session.env depth p).Ends bound := by
  induction depth generalizing p with
  | zero => exact fun text _ => .error nofun
  | succ depth ih => exact sound.ends tracks (fun p within sound => ih within sound) (within p)

/-! ## Sound nodes from sound parts -/

variable {env : Env}

theorem productive_prim {p : Primitive} {admits : Fault → Prop} (plain : p.parse.Plain admits 1) :
    Productive env ⟨self, .prim p⟩ := by
  rintro text value rest ⟨depth, accepted⟩
  have result : p.parse text = .ok (.success value rest) := by
    have run : Run.fresh (p.parse.lift (m := Run)) text = p.parse text :=
      congrArg Prod.fst (Run.run_lift p.parse text .empty)
    exact run.symm.trans accepted
  have consumes := plain (text.length + 1) text (Nat.lt_succ_self _)
  rw [result] at consumes
  cases consumes with
  | ok agree =>
    cases agree with
    | success suffix consumed => exact consumed

theorem Sound.char (c : Char) : Sound env ⟨self, .char c⟩ := by
  apply of_parts
  · trivial
  · rintro rest ⟨d, thrown⟩
    cases thrown
  · rintro _ ⟨⟩

theorem Sound.fix (sound : Sound env ⟨.fix p, p⟩) : Sound env ⟨self, .fix p⟩ := by
  apply of_parts
  · trivial
  · exact fun _ => id
  · rintro _ ⟨⟩
    exact sound

theorem Sound.many (sound : Sound env ⟨self, p⟩) (productive : Productive env ⟨self, p⟩) :
    Sound env ⟨self, p.many⟩ := by
  apply of_parts
  · exact productive
  · exact fun _ => id
  · rintro _ ⟨⟩
    exact sound

theorem Sound.sepBy {separator : Expr Link} (sound : Sound env ⟨self, p⟩)
    (sound' : Sound env ⟨self, separator⟩) (productive : Productive env ⟨self, separator⟩) :
    Sound env ⟨self, .binary .sepBy p separator⟩ := by
  apply of_parts
  · exact .inr productive
  · exact fun _ => id
  · rintro _ ⟨⟩
    · exact sound
    · exact sound'

theorem Sound.ref {link : Link} {p : Expr Link} (found : link.target.find env self = .ok p)
    (sound : Sound env ⟨p, p⟩) : Sound env ⟨self, .ref link⟩ := by
  apply of_parts
  · trivial
  · exact fun _ => id
  · rintro _ ⟨⟩
    next q again =>
      cases found.symm.trans again
      exact sound

end Node

/-! ## Parsers of sessions -/

namespace Session.IsNew

variable {session : Session} {p : Expr Link}

theorem reports_ends (new : session.IsNew p) (sound : Node.Sound session.env ⟨p, p⟩) (mode : Mode)
    (texts : List Text) {report : Report} (member : report ∈ session.reports mode p texts)
    (rest : Text) : report.answer ≠ .fault (.endlessRepetition rest) := by
  intro endless
  obtain ⟨known, tracks, within⟩ := new.tracks
  have answers := tracks.answers_anew within new.faithful mode texts
  have answer := List.mem_map_of_mem (f := Report.answer) member
  rw [answers] at answer
  obtain ⟨text, -, ran⟩ := List.mem_map.mp answer
  have ends : (Run.enterAnew session.env (Run.depthFor session.builds text) p).Ends
      (text.length + 1) := sound.enter_ends tracks _ within
  exact ends.not_endless (Nat.lt_succ_self _) rest (Answer.ofRun_eq_fault (ran.trans endless))

theorem functionOf_of_succeeds (new : session.IsNew p)
    (succeeds : ∀ text, ∃ value rest, (session.parse p text).1 = .ok (.success value rest))
    {whole text : Text} (short : text.length ≤ whole.length) :
    session.functionOf whole p text = (session.parse p text).1 := by
  obtain ⟨value, rest, result⟩ := succeeds text
  rw [result]
  exact new.functionOf_of_ok short result

theorem endless (new : session.IsNew p)
    (succeeds : ∀ text, ∃ value rest, (session.parse p text).1 = .ok (.success value rest))
    (text : Text) : ∃ values last, (session.functionOf text p).Endless text values last := by
  apply (new.functionOf_leavesRest text).endless
  intro rest short
  unfold Parser.Accepts
  rw [new.functionOf_of_succeeds succeeds short]
  exact succeeds rest

end Session.IsNew

/-- If what is repeated is productive at every node of a parser, no run of it is an endless
repetition. Whatever succeeds on every text cannot be repeated on any: after at most as many rounds
as there are characters it consumes nothing. -/
theorem Session.endless_only_unproductive {session : Session} {p : Expr Link}
    (new : session.IsNew p) :
    (Node.Sound session.env ⟨p, p⟩ → ∀ mode texts, ∀ report ∈ session.reports mode p texts,
      ∀ rest, report.answer ≠ .fault (.endlessRepetition rest)) ∧
    ((∀ text, ∃ value rest, (session.parse p text).1 = .ok (.success value rest)) →
      ∀ text, ∃ values last,
        Parser.Rounds (fun text => (session.parse p text).1) text values last ∧
        values.length ≤ text.length ∧
        (∃ value, (session.parse p last).1 = .ok (.success value last)) ∧
        (session.parse (.unary .many p) text).1 = .error (.endlessRepetition last) ∧
        (session.parse (.unary .many1 p) text).1 = .error (.endlessRepetition last)) ∧
    ∀ {α : Type} (q : Parser (Except Fault) α), q.LeavesRest →
      (∀ text, ∃ value rest, q.Accepts text value rest) →
      ∀ text, ∃ values last, q.Endless text values last := by
  refine ⟨fun sound mode texts report => new.reports_ends sound mode texts, ?_, ?_⟩
  · intro succeeds text
    obtain ⟨values, last, rounds, length, ⟨value, accepted⟩, many, many1⟩ :=
      new.endless succeeds text
    have same (rest : Text) (short : rest.length ≤ text.length) :=
      new.functionOf_of_succeeds succeeds short
    have short : last.length ≤ text.length := by
      have bound := rounds.length_le
      omega
    refine ⟨values, last, rounds.congr same, length, ⟨value, ?_⟩, ?_, ?_⟩
    · rw [← same last short]
      exact accepted
    · rw [new.parse_unary]
      exact Parser.map_of_fault many _
    · rw [new.parse_unary]
      exact Parser.map_of_fault many1 _
  · intro α q leaves succeeds text
    exact leaves.endless fun rest _ => succeeds rest

open Node in
/-- Rows of letters between commas, and a letter that may be missing. A row may be empty, so only its
letters and the commas are productive. -/
theorem Session.endless_only_unproductive_rows :
    (∃ session p, ([("row", (Expr.char 'a').many)].foldlM (fun session d => session.define d.1 d.2)
        empty >>= fun session =>
          session.build (.binary .sepBy (.ref (.delayed (.named "row"))) (.char ',')))
          = .ok (p, session) ∧
      Sound session.env ⟨p, p⟩ ∧ ∀ mode texts, ∀ report ∈ session.reports mode p texts,
        ∀ rest, report.answer ≠ .fault (.endlessRepetition rest)) ∧
    ∃ session p, empty.build ((Expr.char 'a').optional .null) = .ok (p, session) ∧
      (∀ text, ∃ value rest, (session.parse p text).1 = .ok (.success value rest)) ∧
      ∀ text, ∃ last,
        (session.parse (.unary .many p) text).1 = .error (.endlessRepetition last) := by
  constructor
  · have comma (env : Env) (self : Expr Link) : Productive env ⟨self, .char ','⟩ :=
      productive_prim (Primitive.plain_char ',')
    have letter (env : Env) (self : Expr Link) : Productive env ⟨self, .char 'a'⟩ :=
      productive_prim (Primitive.plain_char 'a')
    have sound : Sound [("row", .fix (Expr.char 'a').many)]
        ⟨.fix (.binary .sepBy (.ref ⟨.named "row", some [0, 1]⟩) (.char ',')),
          .fix (.binary .sepBy (.ref ⟨.named "row", some [0, 1]⟩) (.char ','))⟩ := by
      apply Sound.fix
      apply Sound.sepBy
      · apply Sound.ref rfl
        exact .fix (.many (.char 'a') (letter _ _))
      · exact .char ','
      · exact comma _ _
    have new : IsNew _ _ := ⟨[("row", (Expr.char 'a').many)],
      .binary .sepBy (.ref (.delayed (.named "row"))) (.char ','), rfl⟩
    exact ⟨_, _, rfl, sound, (endless_only_unproductive new).1 sound⟩
  · have new : IsNew ⟨[], 1, .empty⟩ (.fix ((Expr.char 'a').optional .null)) :=
      ⟨[], (Expr.char 'a').optional .null, rfl⟩
    have succeeds (text : Text) : ∃ value rest, (Session.parse ⟨[], 1, .empty⟩
        (.fix ((Expr.char 'a').optional .null)) text).1 = .ok (.success value rest) := by
      rw [new.parse_eq, new.functionOf_eq]
      by_cases here : text.head? = some 'a'
      · obtain ⟨rest, rfl⟩ := List.head?_eq_some_iff.mp here
        exact ⟨_, _, Parser.accepts_alternate.mpr (.inl (Expr.accepts_mark.mpr ⟨rfl, rfl⟩))⟩
      · exact ⟨_, _, Parser.accepts_alternate.mpr (.inr ⟨Expr.rejects_mark here, rfl⟩)⟩
    refine ⟨_, _, rfl, succeeds, fun text => ?_⟩
    obtain ⟨-, last, -, -, -, endless, -⟩ := (endless_only_unproductive new).2.1 succeeds text
    exact ⟨last, endless⟩

end Descent
