import Descent.Expr.Primitive
import Descent.Proofs.Comparison.Lexical

/-!
# Primitive parsers leave a rest of the input

A primitive parser has no state: its run is a result or a fault. Main statement: every primitive is
`Plain`, that is, whatever it leaves is a rest of the input, and its failures carry no notes. From
that a primitive is similar to itself in any two monads, under every tolerance.
-/

namespace Descent

/-- Two results are both faults, the same admitted one, or both values, which are related. -/
inductive Results (admits : Fault → Prop) {α : Type} (V : α → α → Prop) :
    Except Fault α → Except Fault α → Prop where
  | ok {a b : α} (related : V a b) : Results admits V (.ok a) (.ok b)
  | error {fault : Fault} (admitted : admits fault) : Results admits V (.error fault) (.error fault)

theorem Results.mono {admits : Fault → Prop} {α : Type} {V W : α → α → Prop}
    {x y : Except Fault α} (weaken : ∀ a b, V a b → W a b) (h : Results admits V x y) :
    Results admits W x y := by
  cases h with
  | ok related => exact .ok (weaken _ _ related)
  | error admitted => exact .error admitted

def Comparison.except (admits : Fault → Prop) : Comparison (Except Fault) (Except Fault) where
  Rel := Results admits
  Admits := admits
  rel_pure := .ok
  rel_bind := by
    intro α β V W x y f g h next
    cases h with
    | ok related => exact next _ _ related
    | error admitted => exact .error admitted
  rel_mono := Results.mono
  rel_throw := .error

def Tolerance.plain : Tolerance where
  Rel text f g := f = g ∧ f.remaining <:+ text ∧ f.notes = []
  rel_plain suffix := ⟨rfl, suffix, rfl⟩
  rel_widen suffix h := ⟨h.1, h.2.1.trans suffix, h.2.2⟩
  length_eq h := by rw [h.1]

/-! ## Patterns -/

namespace Regex

theorem orElse_eq_some {first : Option Cursor} {second : Unit → Option Cursor} {last : Cursor}
    (h : first.orElse second = some last) : first = some last ∨ second () = some last := by
  cases first with
  | none => exact .inr h
  | some found => exact .inl h

/-- A step goes on only from positions further on in the same text. -/
def Step.Forward (step : Step) : Prop :=
  ∀ cursor next last, step cursor next = some last →
    ∃ middle : Cursor, middle.after <:+ cursor.after ∧ next middle = some last

namespace Step

theorem forward_guard (condition : Cursor → Bool) : (Step.guard condition).Forward := by
  intro cursor next last h
  unfold Step.guard at h
  split at h
  · exact ⟨cursor, List.suffix_refl _, h⟩
  · cases h

theorem Forward.exactly {step : Step} (forward : step.Forward) (count : Nat) :
    Step.Forward fun cursor next => step.exactly count cursor next := by
  induction count with
  | zero => exact fun cursor next last h => ⟨cursor, List.suffix_refl _, h⟩
  | succ count ih =>
    intro cursor next last h
    obtain ⟨first, suffix, h⟩ := forward _ _ _ h
    obtain ⟨middle, further, h⟩ := ih _ _ _ h
    exact ⟨middle, further.trans suffix, h⟩

theorem Forward.upTo {step : Step} (forward : step.Forward) (greedy : Bool) (count : Nat) :
    Step.Forward fun cursor next => step.upTo greedy count cursor next := by
  induction count with
  | zero => exact fun cursor next last h => ⟨cursor, List.suffix_refl _, h⟩
  | succ count ih =>
    intro cursor next last h
    -- One more round, whichever of it and stopping here is tried first.
    have round : ∀ {last}, (step cursor fun after =>
        if after.after.length < cursor.after.length then step.upTo greedy count after next
        else next after) = some last →
        ∃ middle : Cursor, middle.after <:+ cursor.after ∧ next middle = some last := by
      intro last h
      obtain ⟨first, suffix, h⟩ := forward _ _ _ h
      split at h
      · obtain ⟨middle, further, h⟩ := ih _ _ _ h
        exact ⟨middle, further.trans suffix, h⟩
      · exact ⟨first, suffix, h⟩
    simp only [Step.upTo] at h
    split at h
    · rcases orElse_eq_some h with h | h
      · exact round h
      · exact ⟨cursor, List.suffix_refl _, h⟩
    · rcases orElse_eq_some h with h | h
      · exact ⟨cursor, List.suffix_refl _, h⟩
      · exact round h

end Step

theorem forward_run (flags : Flags) (regex : Regex) :
    Step.Forward fun cursor next => regex.run flags cursor next := by
  induction regex with
  | empty => exact fun cursor next last h => ⟨cursor, List.suffix_refl _, h⟩
  | chars set =>
    intro cursor next last h
    simp only [run] at h
    split at h
    · cases h
    · rename_i ch rest here
      split at h
      · exact ⟨⟨some ch, rest⟩, here ▸ List.suffix_cons ch rest, h⟩
      · cases h
  | seq first second ihFirst ihSecond =>
    intro cursor next last h
    obtain ⟨between, suffix, h⟩ := ihFirst _ _ _ h
    obtain ⟨middle, further, h⟩ := ihSecond _ _ _ h
    exact ⟨middle, further.trans suffix, h⟩
  | alt first second ihFirst ihSecond =>
    intro cursor next last h
    rcases orElse_eq_some h with h | h
    · exact ihFirst _ _ _ h
    · exact ihSecond _ _ _ h
  | loop body least extra greedy ih =>
    intro cursor next last h
    obtain ⟨between, suffix, h⟩ := Step.Forward.exactly ih least _ _ _ h
    obtain ⟨middle, further, h⟩ := Step.Forward.upTo ih greedy _ _ _ _ h
    exact ⟨middle, further.trans suffix, h⟩
  | start => exact Step.forward_guard _
  | stop => exact Step.forward_guard _
  | boundary => exact Step.forward_guard _
  | ahead expected body _ =>
    intro cursor next last h
    simp only [run] at h
    split at h
    · exact ⟨cursor, List.suffix_refl _, h⟩
    · cases h
  | atomic body ih =>
    intro cursor next last h
    obtain ⟨found, matched, h⟩ := Option.bind_eq_some_iff.mp h
    obtain ⟨middle, suffix, same⟩ := ih _ _ _ matched
    cases same
    exact ⟨found, suffix, h⟩

theorem suffix_of_matchStart {regex : Regex} {flags : Flags} {text matched rest : Text}
    (h : regex.matchStart? flags text = some (matched, rest)) : rest <:+ text := by
  obtain ⟨last, ran, pair⟩ := Option.map_eq_some_iff.mp h
  obtain ⟨middle, suffix, found⟩ := forward_run flags regex _ _ _ ran
  cases found
  cases pair
  exact suffix

end Regex

/-! ## Primitives -/

/-- A parser without state throws only faults of one kind, leaves a rest of the input of which it
consumes at least `least` characters, and its failures carry no notes. -/
def Parser.Plain {α : Type} (admits : Fault → Prop) (least : Nat) (p : Parser (Except Fault) α) :
    Prop :=
  ∀ bound, (Comparison.except admits).Similar .plain bound least p p

namespace Primitive

open Comparison

/-- The faults that a primitive parser is given: what its test throws, or what it is to raise. -/
def Throws : Primitive → Fault → Prop
  | .satisfy accepts, fault => ∃ c, accepts c = .error fault
  | .raise own, fault => own = fault
  | _, _ => False

variable {admits : Fault → Prop}

theorem plain_matchPattern (pattern : Regex.Pattern) : (matchPattern pattern).Plain admits 0 := by
  intro bound text _
  unfold matchPattern
  split
  · rename_i matched rest h
    have suffix := Regex.suffix_of_matchStart h
    exact .ok (.success suffix suffix.length_le)
  · exact .ok (.failure (Tolerance.plain.rel_plain (List.suffix_refl text)))

theorem startsWithAny_fault {text : Text} {texts : List Value} {fault : Fault}
    (thrown : startsWithAny text texts = .error fault) : fault = .typeMismatch := by
  induction texts with
  | nil => cases thrown
  | cons value texts ih =>
    unfold startsWithAny at thrown
    split at thrown
    · cases thrown
      rfl
    · split at thrown
      · cases thrown
      · exact ih thrown

theorem plain_matchAmong (mismatch : admits .typeMismatch) (texts : List Value) :
    (matchAmong texts).Plain admits 0 := by
  intro bound text _
  unfold matchAmong
  cases tested : startsWithAny text texts with
  | error fault =>
    rw [startsWithAny_fault tested]
    exact .error mismatch
  | ok here =>
    cases here with
    | true => exact .ok (.success (List.drop_suffix _ _) (List.drop_suffix _ _).length_le)
    | false => exact .ok (.failure (Tolerance.plain.rel_plain (List.suffix_refl text)))

theorem results_refl {α : Type} (x : Except Fault α)
    (faults : ∀ fault, x = .error fault → admits fault) : Results admits Eq x x := by
  cases x with
  | ok a => exact .ok rfl
  | error fault => exact .error (faults fault rfl)

theorem exceeded?_fault {limit : Value} {number : Nat} {fault : Fault}
    (thrown : limit.exceeded? number = .error fault) : fault = .typeMismatch := by
  unfold Value.exceeded? at thrown
  split at thrown
  · cases thrown
  · cases thrown
  · cases thrown
    rfl

/-- A primitive throws what it is given to throw, and a mismatch where its argument is unfit. -/
theorem plain_parse_of (p : Primitive) (mismatch : admits .typeMismatch)
    (given : ∀ fault, p.Throws fault → admits fault) : p.parse.Plain admits 0 := by
  intro bound
  cases p with
  | succeed value => exact .succeed value
  | fail message => exact .fail message
  | eof => exact Similar.eof.map _
  | satisfy accepts =>
    have tests (c : Char) : Results admits Eq (accepts c) (accepts c) :=
      results_refl _ fun fault thrown => given fault ⟨c, thrown⟩
    exact ((Similar.satisfyM tests).map _).mono (Nat.zero_le _) (Nat.le_refl _)
  | string text => exact ((Similar.string text).map _).mono (Nat.zero_le _) (Nat.le_refl _)
  | stringAmong texts => exact plain_matchAmong mismatch texts bound
  | regex pattern => exact (plain_matchPattern pattern bound).map _
  | letters => exact (Similar.letters.map _).mono (Nat.zero_le _) (Nat.le_refl _)
  | spaces => exact Similar.spaces.map _
  | skipBlank => exact Similar.skipBlank.map _
  | natural limit =>
    have limits (number : Nat) :
        Results admits Eq (limit.exceeded? number) (limit.exceeded? number) :=
      results_refl _ fun fault thrown => exceeded?_fault thrown ▸ mismatch
    exact ((Similar.naturalUnless limits).map _).mono (Nat.zero_le _) (Nat.le_refl _)
  | stringLiteral => exact (Similar.stringLiteral.map _).mono (Nat.zero_le _) (Nat.le_refl _)
  | raise fault => exact fun text _ => .error (given fault rfl)
  | take cut =>
    exact fun text _ => .ok (.success (List.drop_suffix _ _) (List.drop_suffix _ _).length_le)
  | failAfter cut message =>
    exact fun text _ => .ok (.failure (Tolerance.plain.rel_plain (List.drop_suffix _ _)))
  | failBare message =>
    exact fun text _ => .ok (.failure (Tolerance.plain.rel_plain (List.nil_suffix)))

theorem plain_parse (p : Primitive) : p.parse.Plain (fun _ => True) 0 :=
  p.plain_parse_of trivial fun _ _ => trivial

/-! ## Primitives without faults -/

def noFault : Fault → Prop := fun _ => False

theorem plain_fail (message : String) (least : Nat) :
    (Primitive.fail message).parse.Plain noFault least :=
  fun _ => Similar.fail message

theorem plain_char (c : Char) : (char c).parse.Plain noFault 1 :=
  fun _ => Similar.map (Similar.satisfyM fun _ => Results.ok rfl) _

theorem plain_string (text : Text) : (Primitive.string text).parse.Plain noFault text.length :=
  fun _ => (Similar.string text).map _

theorem plain_natural {limit : Value} (sound : ∀ number, ∃ r, limit.exceeded? number = .ok r) :
    (natural limit).parse.Plain noFault 1 := by
  intro bound
  refine (Similar.naturalUnless fun number => ?_).map _
  obtain ⟨r, known⟩ := sound number
  rw [known]
  exact .ok rfl

theorem plain_stringLiteral : stringLiteral.parse.Plain noFault 2 :=
  fun _ => Similar.stringLiteral.map _

theorem plain_letters : letters.parse.Plain noFault 1 :=
  fun _ => Similar.letters.map _

theorem plain_spaces : spaces.parse.Plain noFault 0 :=
  fun _ => Similar.spaces.map _

theorem plain_skipBlank : skipBlank.parse.Plain noFault 0 :=
  fun _ => Similar.skipBlank.map _

end Primitive

theorem Parser.Plain.lift {m n : Type → Type} [Monad m] [Monad n] [MonadExceptOf Fault m]
    [MonadExceptOf Fault n] {c : Comparison m n} {t : Tolerance} {α : Type} {bound least : Nat}
    {admits : Fault → Prop} {p : Parser (Except Fault) α} (plain : p.Plain admits least)
    (faults : ∀ fault, admits fault → c.Admits fault) :
    c.Similar t bound least (p.lift (m := m)) (p.lift (m := n)) := by
  intro text inside
  have own := plain bound text inside
  unfold Parser.lift
  generalize p text = result at own
  cases own with
  | error admitted => exact c.rel_throw (faults _ admitted)
  | ok agree =>
    refine c.rel_pure ?_
    cases agree with
    | success suffix consumed => exact .success suffix consumed
    | @failure f g related =>
      obtain ⟨-, suffix, bare⟩ := related
      obtain ⟨message, rest, notes⟩ := f
      cases bare
      exact .failure (t.rel_plain suffix)

end Descent
