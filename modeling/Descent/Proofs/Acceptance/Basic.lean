import Descent.Parser.Basic
import Mathlib.Logic.Basic

/-!
# What parsers accept

A parser without state accepts a text with a value and a rest, or rejects it, or throws a fault.
What a combinator accepts is told by what its parts accept and reject. For a repetition this is a
chain of rounds, which ends where the repeated parser rejects what is left.
-/

namespace Descent.Parser

variable {α β γ : Type} {p : Parser (Except Fault) α} {text rest : Text} {value : α}

def Accepts (p : Parser (Except Fault) α) (text : Text) (value : α) (rest : Text) : Prop :=
  p text = .ok (.success value rest)

def Rejects (p : Parser (Except Fault) α) (text : Text) : Prop :=
  ∃ f, p text = .ok (.failure f)

/-- A text is accepted in one way. -/
theorem Accepts.unique {other : α} {next : Text} (first : p.Accepts text value rest)
    (second : p.Accepts text other next) : value = other ∧ rest = next := by
  have same := first.symm.trans second
  exact Outcome.success.inj (Except.ok.inj same)

theorem Accepts.not_rejects (accepted : p.Accepts text value rest) : ¬ p.Rejects text := by
  rintro ⟨f, failed⟩
  cases failed.symm.trans accepted

theorem ofExcept_eq (x : Except Fault α) : (MonadExcept.ofExcept x : Except Fault α) = x := by
  cases x <;> rfl

theorem lift_eq (p : Parser (Except Fault) α) : (p.lift : Parser (Except Fault) α) = p := by
  funext text
  exact ofExcept_eq (p text)

theorem bind_eq_ok {x : Except Fault α} {next : α → Except Fault β} {result : β} :
    (x >>= next) = .ok result ↔ ∃ a, x = .ok a ∧ next a = .ok result := by
  cases x <;> simp [bind, Except.bind]

/-! ## Sequences -/

theorem accepts_mapM {f : α → Except Fault β} {w : β} :
    (p.mapM f).Accepts text w rest ↔ ∃ v, p.Accepts text v rest ∧ f v = .ok w := by
  unfold Accepts mapM
  rw [bind_eq_ok]
  constructor
  · rintro ⟨o, ran, done⟩
    cases o with
    | failure f => cases done
    | success v middle =>
      obtain ⟨w, made, done⟩ := bind_eq_ok.mp done
      cases done
      exact ⟨v, ran, made⟩
  · rintro ⟨v, ran, made⟩
    exact ⟨_, ran, bind_eq_ok.mpr ⟨w, made, rfl⟩⟩

theorem accepts_map {f : α → β} {w : β} :
    (p.map f).Accepts text w rest ↔ ∃ v, p.Accepts text v rest ∧ f v = w := by
  unfold map
  simp [accepts_mapM, pure, Except.pure]

theorem map_of_accepts (accepted : p.Accepts text value rest) (f : α → β) :
    p.map f text = .ok (.success (f value) rest) :=
  accepts_map.mpr ⟨value, accepted, rfl⟩

theorem map_of_failure {failure : Failure} (failed : p text = .ok (.failure failure)) (f : α → β) :
    p.map f text = .ok (.failure failure) := by
  unfold map mapM
  rw [failed]
  rfl

theorem map_of_fault {fault : Fault} (thrown : p text = .error fault) (f : α → β) :
    p.map f text = .error fault := by
  unfold map mapM
  rw [thrown]
  rfl

theorem rejects_mapM {f : α → Except Fault β} : (p.mapM f).Rejects text ↔ p.Rejects text := by
  unfold Rejects mapM
  constructor
  · rintro ⟨failure, done⟩
    obtain ⟨o, ran, done⟩ := bind_eq_ok.mp done
    cases o with
    | failure f => exact ⟨f, ran⟩
    | success v middle =>
      obtain ⟨w, -, done⟩ := bind_eq_ok.mp done
      cases done
  · rintro ⟨f, ran⟩
    exact ⟨f, bind_eq_ok.mpr ⟨_, ran, rfl⟩⟩

theorem rejects_map {f : α → β} : (p.map f).Rejects text ↔ p.Rejects text :=
  rejects_mapM

theorem accepts_flatMap {next : α → Parser (Except Fault) β} {w : β} :
    (p.flatMap next).Accepts text w rest
      ↔ ∃ v middle, p.Accepts text v middle ∧ (next v).Accepts middle w rest := by
  unfold Accepts flatMap
  rw [bind_eq_ok]
  constructor
  · rintro ⟨o, ran, done⟩
    cases o with
    | failure f => cases done
    | success v middle => exact ⟨v, middle, ran, done⟩
  · rintro ⟨v, middle, ran, done⟩
    exact ⟨_, ran, done⟩

theorem Rejects.flatMap (h : p.Rejects text) (next : α → Parser (Except Fault) β) :
    (p.flatMap next).Rejects text := by
  obtain ⟨f, failed⟩ := h
  exact ⟨f, bind_eq_ok.mpr ⟨_, failed, rfl⟩⟩

theorem flatMap_of_accepts (h : p.Accepts text value rest) (next : α → Parser (Except Fault) β) :
    p.flatMap next text = next value rest := by
  unfold flatMap
  rw [show p text = _ from h]
  rfl

theorem flatMap_of_failure {f : Failure} (failed : p text = .ok (.failure f))
    (next : α → Parser (Except Fault) β) : p.flatMap next text = .ok (.failure f) := by
  unfold flatMap
  rw [failed]
  rfl

theorem flatMap_of_fault {fault : Fault} (thrown : p text = .error fault)
    (next : α → Parser (Except Fault) β) : p.flatMap next text = .error fault := by
  unfold flatMap
  rw [thrown]
  rfl

theorem accepts_andThen {q : Parser (Except Fault) β} {w : β} :
    (p.andThen q).Accepts text w rest
      ↔ ∃ v middle, p.Accepts text v middle ∧ q.Accepts middle w rest := by
  change (p.flatMap fun _ => q).Accepts text w rest ↔ _
  exact accepts_flatMap

theorem Rejects.andThen (h : p.Rejects text) (q : Parser (Except Fault) β) :
    (p.andThen q).Rejects text :=
  h.flatMap fun _ => q

theorem accepts_precedes {q : Parser (Except Fault) β} :
    (p.precedes q).Accepts text value rest
      ↔ ∃ middle w, p.Accepts text value middle ∧ q.Accepts middle w rest := by
  have unfolded : p.precedes q = p.flatMap fun v => q.map fun _ => v := rfl
  rw [unfolded, accepts_flatMap]
  simp only [accepts_map]
  constructor
  · rintro ⟨_, middle, first, w, second, rfl⟩
    exact ⟨middle, w, first, second⟩
  · rintro ⟨middle, w, first, second⟩
    exact ⟨value, middle, first, w, second, rfl⟩

theorem Rejects.precedes (h : p.Rejects text) (q : Parser (Except Fault) β) :
    (p.precedes q).Rejects text :=
  h.flatMap fun v => q.map fun _ => v

theorem accepts_between {left : Parser (Except Fault) β} {right : Parser (Except Fault) γ} :
    (p.between left right).Accepts text value rest
      ↔ ∃ inner outer v w, left.Accepts text v inner ∧ p.Accepts inner value outer ∧
          right.Accepts outer w rest := by
  simp only [between, accepts_precedes, accepts_andThen]
  constructor
  · rintro ⟨outer, w, ⟨v, inner, opened, middle⟩, closed⟩
    exact ⟨inner, outer, v, w, opened, middle, closed⟩
  · rintro ⟨inner, outer, v, w, opened, middle, closed⟩
    exact ⟨outer, w, ⟨v, inner, opened, middle⟩, closed⟩

theorem Rejects.between {left : Parser (Except Fault) β} (h : left.Rejects text)
    (p : Parser (Except Fault) α) (right : Parser (Except Fault) γ) :
    (p.between left right).Rejects text :=
  (h.andThen p).precedes right

/-- What is left after the optional part: its rest, or all where it rejects. -/
theorem accepts_skipOptional {q : Parser (Except Fault) β} :
    (p.skipOptional q).Accepts text value rest
      ↔ ∃ middle, p.Accepts text value middle ∧
          ((∃ w, q.Accepts middle w rest) ∨ q.Rejects middle ∧ rest = middle) := by
  unfold Accepts skipOptional
  rw [bind_eq_ok]
  constructor
  · rintro ⟨o, ran, done⟩
    cases o with
    | failure f => cases done
    | success v middle =>
      obtain ⟨o, tried, done⟩ := bind_eq_ok.mp done
      cases o with
      | success w after =>
        cases done
        exact ⟨_, ran, .inl ⟨w, tried⟩⟩
      | failure f =>
        cases done
        exact ⟨_, ran, .inr ⟨⟨f, tried⟩, rfl⟩⟩
  · rintro ⟨middle, ran, ⟨w, tried⟩ | ⟨⟨f, tried⟩, rfl⟩⟩
    · exact ⟨_, ran, bind_eq_ok.mpr ⟨_, tried, rfl⟩⟩
    · exact ⟨_, ran, bind_eq_ok.mpr ⟨_, tried, rfl⟩⟩

theorem Rejects.skipOptional (h : p.Rejects text) (q : Parser (Except Fault) β) :
    (p.skipOptional q).Rejects text := by
  obtain ⟨f, failed⟩ := h
  exact ⟨f, bind_eq_ok.mpr ⟨_, failed, rfl⟩⟩

/-! ## Choice -/

theorem accepts_alternate {q : Parser (Except Fault) α} :
    (p.alternate q).Accepts text value rest
      ↔ p.Accepts text value rest ∨ p.Rejects text ∧ q.Accepts text value rest := by
  unfold Accepts alternate
  rw [bind_eq_ok]
  constructor
  · rintro ⟨o, first, done⟩
    cases o with
    | success v r =>
      cases done
      exact .inl first
    | failure f =>
      obtain ⟨o, second, done⟩ := bind_eq_ok.mp done
      cases o with
      | success v r =>
        cases done
        exact .inr ⟨⟨f, first⟩, second⟩
      | failure g => cases done
  · rintro (first | ⟨⟨f, first⟩, second⟩)
    · exact ⟨_, first, rfl⟩
    · exact ⟨_, first, bind_eq_ok.mpr ⟨_, second, rfl⟩⟩

theorem rejects_alternate {q : Parser (Except Fault) α} :
    (p.alternate q).Rejects text ↔ p.Rejects text ∧ q.Rejects text := by
  unfold Rejects alternate
  constructor
  · rintro ⟨failure, done⟩
    obtain ⟨o, first, done⟩ := bind_eq_ok.mp done
    cases o with
    | success v r => cases done
    | failure f =>
      obtain ⟨o, second, done⟩ := bind_eq_ok.mp done
      cases o with
      | success v r => cases done
      | failure g => exact ⟨⟨f, first⟩, g, second⟩
  · rintro ⟨⟨f, first⟩, g, second⟩
    exact ⟨_, bind_eq_ok.mpr ⟨_, first, bind_eq_ok.mpr ⟨_, second, rfl⟩⟩⟩

/-! ## Names -/

theorem accepts_name {label : String} :
    (p.name label).Accepts text value rest ↔ p.Accepts text value rest := by
  unfold Accepts name
  rw [bind_eq_ok]
  constructor
  · rintro ⟨o, ran, done⟩
    cases o with
    | success v r =>
      cases done
      exact ran
    | failure f => cases done
  · intro ran
    exact ⟨_, ran, rfl⟩

theorem Rejects.name (h : p.Rejects text) (label : String) : (p.name label).Rejects text := by
  obtain ⟨f, failed⟩ := h
  exact ⟨_, bind_eq_ok.mpr ⟨_, failed, rfl⟩⟩

/-! ## Repetition -/

/-- A chain of rounds of a parser, each of which leaves less than it found. -/
inductive Rounds (p : Parser (Except Fault) α) : Text → List α → Text → Prop
  | done {text : Text} : Rounds p text [] text
  | next {text middle rest : Text} {value : α} {values : List α} :
      Accepts p text value middle → middle.length < text.length →
      Rounds p middle values rest → Rounds p text (value :: values) rest

theorem Rounds.forall {property : α → Prop} {values : List α} (rounds : Rounds p text values rest)
    (each : ∀ text value rest, p.Accepts text value rest → property value) :
    ∀ value ∈ values, property value := by
  induction rounds with
  | done => nofun
  | next accepted _ _ ih => exact List.forall_mem_cons.mpr ⟨each _ _ _ accepted, ih⟩

theorem manyFrom_of_accepts (h : p.Accepts text value rest) (before : List α) :
    p.manyFrom before text = if rest.length < text.length then p.manyFrom (value :: before) rest
      else throw (.endlessRepetition text) := by
  rw [manyFrom, show p text = _ from h]
  rfl

theorem manyFrom_of_rejects (h : p.Rejects text) (before : List α) :
    p.manyFrom before text = .ok (.success before.reverse text) := by
  obtain ⟨f, failed⟩ := h
  rw [manyFrom, failed]
  rfl

theorem accepts_manyFrom {before values : List α} :
    Accepts (p.manyFrom before) text values rest
      ↔ ∃ after, values = before.reverse ++ after ∧ Rounds p text after rest ∧ p.Rejects rest := by
  constructor
  · intro accepted
    -- The rounds still to come start on less text, and add to the values of those before.
    induction size : text.length using Nat.strongRecOn generalizing text before with
    | ind n ih =>
      subst size
      cases found : p text with
      | error fault =>
        rw [Accepts, manyFrom, found] at accepted
        cases accepted
      | ok o =>
        cases o with
        | failure f =>
          rw [Accepts, manyFrom_of_rejects ⟨f, found⟩] at accepted
          cases accepted
          exact ⟨[], by simp, .done, f, found⟩
        | success v middle =>
          rw [Accepts, manyFrom_of_accepts found] at accepted
          split at accepted
          · next shorter =>
            obtain ⟨after, rfl, rounds, stops⟩ := ih _ shorter accepted rfl
            exact ⟨v :: after, by simp, .next found shorter rounds, stops⟩
          · cases accepted
  · rintro ⟨after, rfl, rounds, stops⟩
    induction rounds generalizing before with
    | done =>
      rw [Accepts, manyFrom_of_rejects stops, List.append_nil]
    | next accepted shorter rounds ih =>
      rw [Accepts, manyFrom_of_accepts accepted, if_pos shorter, ih stops]
      simp

theorem accepts_many {values : List α} :
    p.many.Accepts text values rest ↔ Rounds p text values rest ∧ p.Rejects rest := by
  simp [many, accepts_manyFrom]

end Descent.Parser
