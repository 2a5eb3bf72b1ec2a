import Descent.Proofs.Acceptance.Forms
import Descent.Proofs.Choice

/-!
# What parsers report

Where a parser rejects a text, it reports one failure. What a combinator reports is told by what its
parts report and accept: a sequence reports what its first failing part does, a name adds itself to
the report, a repetition reports nothing, and a choice reports the deepest of all the failures.
-/

namespace Descent

open Lexical

namespace Parser

variable {α β γ : Type} {p : Parser (Except Fault) α} {text : Text} {f : Failure}

/-- A parser reports a failure on a text. -/
def Fails (p : Parser (Except Fault) α) (text : Text) (f : Failure) : Prop :=
  p text = .ok (.failure f)

theorem Fails.rejects (failed : p.Fails text f) : p.Rejects text := ⟨f, failed⟩

theorem Fails.unique {g : Failure} (failed : p.Fails text f) (again : p.Fails text g) : f = g := by
  cases failed.symm.trans again
  rfl

/-! ## Sequences -/

theorem fails_flatMap {next : α → Parser (Except Fault) β} :
    (p.flatMap next).Fails text f
      ↔ p.Fails text f ∨ ∃ v middle, p.Accepts text v middle ∧ (next v).Fails middle f := by
  unfold Fails Accepts flatMap
  rw [bind_eq_ok]
  constructor
  · rintro ⟨o, ran, done⟩
    cases o with
    | failure g =>
      cases done
      exact .inl ran
    | success v middle => exact .inr ⟨v, middle, ran, done⟩
  · rintro (ran | ⟨v, middle, ran, done⟩)
    · exact ⟨_, ran, rfl⟩
    · exact ⟨_, ran, done⟩

theorem fails_mapM {g : α → Except Fault β} : (p.mapM g).Fails text f ↔ p.Fails text f := by
  unfold Fails mapM
  rw [bind_eq_ok]
  constructor
  · rintro ⟨o, ran, done⟩
    cases o with
    | failure h =>
      cases done
      exact ran
    | success v middle =>
      obtain ⟨w, -, done⟩ := bind_eq_ok.mp done
      cases done
  · intro ran
    exact ⟨_, ran, rfl⟩

theorem fails_map {g : α → β} : (p.map g).Fails text f ↔ p.Fails text f :=
  fails_mapM

theorem fails_precedes {q : Parser (Except Fault) β} :
    (p.precedes q).Fails text f
      ↔ p.Fails text f ∨ ∃ v middle, p.Accepts text v middle ∧ q.Fails middle f := by
  change (p.flatMap fun v => q.map fun _ => v).Fails text f ↔ _
  simp only [fails_flatMap, fails_map]

theorem fails_between {left : Parser (Except Fault) β} {right : Parser (Except Fault) γ} :
    (p.between left right).Fails text f
      ↔ left.Fails text f ∨ (∃ v inner, left.Accepts text v inner ∧ p.Fails inner f) ∨
        ∃ v inner w outer, left.Accepts text v inner ∧ p.Accepts inner w outer ∧
          right.Fails outer f := by
  change ((left.flatMap fun _ => p).precedes right).Fails text f ↔ _
  simp only [fails_precedes, fails_flatMap, accepts_flatMap, or_assoc]
  refine or_congr_right (or_congr_right ?_)
  constructor
  · rintro ⟨w, outer, ⟨v, inner, opened, middle⟩, closed⟩
    exact ⟨v, inner, w, outer, opened, middle, closed⟩
  · rintro ⟨v, inner, w, outer, opened, middle, closed⟩
    exact ⟨w, outer, ⟨v, inner, opened, middle⟩, closed⟩

/-! ## Names, repetition and choice -/

theorem fails_name {label : String} :
    (p.name label).Fails text f ↔ ∃ g, p.Fails text g ∧ f = g.annotate label text.length := by
  unfold Fails name
  rw [bind_eq_ok]
  constructor
  · rintro ⟨o, ran, done⟩
    cases o with
    | failure g =>
      cases done
      exact ⟨g, ran, rfl⟩
    | success v middle => cases done
  · rintro ⟨g, ran, rfl⟩
    exact ⟨_, ran, rfl⟩

theorem not_fails_manyFrom (values : List α) : ¬ Fails (p.manyFrom values) text f := by
  intro failed
  induction size : text.length using Nat.strongRecOn generalizing text values with
  | ind n ih =>
    subst size
    rw [Fails, manyFrom] at failed
    obtain ⟨o, ran, done⟩ := bind_eq_ok.mp failed
    cases o with
    | failure g => cases done
    | success v middle =>
      dsimp only at done
      split at done
      · next shorter => exact ih _ shorter _ done rfl
      · cases done

theorem not_fails_many : ¬ p.many.Fails text f :=
  not_fails_manyFrom []

theorem fails_alternate {q : Parser (Except Fault) α} :
    (p.alternate q).Fails text f
      ↔ ∃ g h, p.Fails text g ∧ q.Fails text h ∧ f = g.deeper h := by
  unfold Fails alternate
  rw [bind_eq_ok]
  constructor
  · rintro ⟨o, first, done⟩
    cases o with
    | success v r => cases done
    | failure g =>
      obtain ⟨o, second, done⟩ := bind_eq_ok.mp done
      cases o with
      | success v r => cases done
      | failure h =>
        cases done
        exact ⟨g, h, first, second, rfl⟩
  · rintro ⟨g, h, first, second, rfl⟩
    exact ⟨_, first, bind_eq_ok.mpr ⟨_, second, rfl⟩⟩

/-- A choice reports what the alternative does that got furthest, and the first one of several. -/
theorem fails_choice {ps : List (Parser (Except Fault) α)} (some : ps ≠ [])
    (inside : ∀ p ∈ ps, ∀ g, p.Fails text g → g.remaining.length ≤ text.length)
    (failed : (choice ps).Fails text f) :
    ∃ before p after, ps = before ++ p :: after ∧ p.Fails text f ∧
      (∀ q ∈ before, ∃ g, q.Fails text g ∧ f.remaining.length < g.remaining.length) ∧
      ∀ q ∈ after, ∃ g, q.Fails text g ∧ f.remaining.length ≤ g.remaining.length := by
  induction ps generalizing f with
  | nil => exact absurd rfl some
  | cons p ps ih =>
    obtain ⟨g, h, first, second, rfl⟩ := fails_alternate.mp failed
    obtain ⟨own, others⟩ := List.forall_mem_cons.mp inside
    by_cases alone : ps = []
    · subst alone
      cases second
      rw [Failure.deeper_eq_left (own g first)]
      exact ⟨[], p, [], rfl, first, nofun, nofun⟩
    · obtain ⟨before, q, after, rfl, deepest, earlier, later⟩ := ih alone others second
      by_cases le : g.remaining.length ≤ h.remaining.length
      · rw [Failure.deeper_eq_left le]
        refine ⟨[], p, _, rfl, first, nofun, fun r member => ?_⟩
        rcases List.mem_append.mp member with member | member
        · obtain ⟨k, reported, lt⟩ := earlier r member
          exact ⟨k, reported, by omega⟩
        · rcases List.mem_cons.mp member with rfl | member
          · exact ⟨h, deepest, le⟩
          · obtain ⟨k, reported, more⟩ := later r member
            exact ⟨k, reported, by omega⟩
      · have lt := Nat.not_le.mp le
        rw [Failure.deeper_eq_right lt]
        exact ⟨p :: before, q, after, rfl, deepest,
          List.forall_mem_cons.mpr ⟨⟨g, first, lt⟩, earlier⟩, later⟩

/-! ## Characters and words -/

variable {test : Char → Bool} {c : Char} {word : Text}

theorem fails_satisfy :
    Fails (satisfy test) text f ↔ text.Stops test ∧ f = ⟨text.failureMessage, text, []⟩ := by
  constructor
  · intro failed
    have stops := rejects_satisfy.mp failed.rejects
    exact ⟨stops, failed.unique (satisfy_of_stops stops)⟩
  · rintro ⟨stops, rfl⟩
    exact satisfy_of_stops stops

theorem fails_char :
    Fails (char c) text f ↔ text.head? ≠ some c ∧ f = ⟨text.failureMessage, text, []⟩ := by
  constructor
  · intro failed
    have differs := rejects_char.mp failed.rejects
    exact ⟨differs, failed.unique (char_of_head?_ne differs)⟩
  · rintro ⟨differs, rfl⟩
    exact char_of_head?_ne differs

/-- A run of characters is missing if the first one is. -/
theorem fails_many1_satisfy :
    Fails (satisfy test).many1 text f ↔ text.Stops test ∧ f = ⟨text.failureMessage, text, []⟩ := by
  unfold many1
  simp only [fails_flatMap, fails_map, not_fails_many, and_false, exists_false, or_false,
    fails_satisfy]

/-- A fixed text is matched as a whole or not at all. -/
theorem fails_string :
    Fails (Parser.string word) text f
      ↔ ¬ word <+: text ∧
        f = ⟨"Expected \"" ++ String.ofList word ++ "\" at \"" ++ text.snippet ++ "\"", text, []⟩ := by
  unfold Fails Parser.string
  rw [← List.isPrefixOf_iff_prefix]
  cases word.isPrefixOf text <;> simp [pure, Except.pure, eq_comm]

theorem Fails.string (failed : Fails (Parser.string word) text f) : f.remaining = text := by
  obtain ⟨-, rfl⟩ := fails_string.mp failed
  rfl

/-! ## Numbers -/

theorem fails_naturalOf {limit : Option Int} {digits rest : Text}
    (failed : Fails (naturalOf (fun number => pure (exceededLimit? limit number)) digits) rest f) :
    f.remaining = rest ∧ f.notes = [] := by
  unfold Fails naturalOf at failed
  split at failed
  · cases failed
    exact ⟨rfl, rfl⟩
  · obtain ⟨exceeded, -, done⟩ := bind_eq_ok.mp failed
    cases exceeded <;> cases done
    exact ⟨rfl, rfl⟩

/-- A number that is not one within the limits fails after all of its digits. -/
theorem fails_natural {limit : Option Int} (failed : Fails (natural limit) text f) :
    f = ⟨text.failureMessage, text, []⟩ ∧ text.Stops Text.decimalDigits.contains ∨
      f.remaining = text.dropWhile Text.decimalDigits.contains ∧ f.notes = [] ∧
        ¬ text.Stops Text.decimalDigits.contains := by
  change Fails ((satisfy Text.decimalDigits.contains).many1.flatMap
    (naturalOf fun number => pure (exceededLimit? limit number))) text f at failed
  rcases fails_flatMap.mp failed with none | ⟨digits, rest, accepted, exceeds⟩
  · left
    obtain ⟨stops, rfl⟩ := fails_many1_satisfy.mp none
    exact ⟨rfl, stops⟩
  · right
    obtain ⟨some, rfl, decimal, stops⟩ := accepts_many1_satisfy.mp accepted
    obtain ⟨remaining, notes⟩ := fails_naturalOf exceeds
    refine ⟨?_, notes, ?_⟩
    · rw [remaining, dropWhile_eq_of_stops decimal stops]
    · intro never
      obtain ⟨c, others, rfl⟩ := List.exists_cons_of_ne_nil some
      have unlike := never c rfl
      rw [decimal c List.mem_cons_self] at unlike
      cases unlike

end Parser

/-! ## Forms of expressions -/

namespace Expr

open Descent.Parser

variable {ι : Type} {host : Host ι (Except Fault)} {self p : Expr ι} {text : Text} {f : Failure}

theorem fails_token :
    Fails (denote host self p.token) text f ↔ Fails (denote host self p) text f := by
  change Fails ((denote host self p).precedes (skipBlank.map fun _ => Value.null).lift) _ _ ↔ _
  rw [lift_eq, fails_precedes]
  simp only [fails_map]
  constructor
  · rintro (failed | ⟨v, middle, -, skipped⟩)
    · exact failed
    · cases skipped
  · exact .inl

theorem fails_mark {c : Char} :
    Fails (denote host self (.char c)) text f
      ↔ text.head? ≠ some c ∧ f = ⟨text.failureMessage, text, []⟩ := by
  change Fails ((Parser.char c).map fun c => Value.str [c]).lift _ _ ↔ _
  rw [lift_eq, fails_map, fails_char]

theorem fails_word {word : String} {value : Value}
    (failed : Fails (denote host self ((Expr.string word).mapTo fun _ => value)) text f) :
    f.remaining = text := by
  change Fails (Parser.mapM (denote host self (.string word)) _) _ _ at failed
  have fixed : Fails ((Parser.string word.toList).map Value.str).lift text f :=
    fails_mapM.mp failed
  rw [lift_eq, fails_map] at fixed
  exact fixed.string

end Expr
end Descent
