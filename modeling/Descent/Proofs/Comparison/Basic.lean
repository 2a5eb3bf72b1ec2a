import Descent.Parser.Basic
import Mathlib.Data.List.Forall2

/-!
# Comparing parsers

Two parsers are compared by what their runs amount to on every text. What is compared, and how, is
left open in two places:

* a `Comparison` says when two computations, possibly of different kinds, have related results; it
  passes through sequences of steps, and through the faults that it admits;
* a `Tolerance` says how far the two failures may differ that the parsers report on a text.

Main statement, one lemma for each combinator: combinators of `Similar` parsers are similar. Besides
the two outcomes `Similar` keeps track of the length of the texts for which the comparison is known
and of the number of characters that a success consumes, so that recursion through a parser that
consumes something needs to know less than it concludes.
-/

namespace Descent

/-- A way to compare computations of two kinds by a relation between their results. -/
structure Comparison (m n : Type → Type) [Monad m] [Monad n] [MonadExceptOf Fault m]
    [MonadExceptOf Fault n] where
  Rel : {α : Type} → (α → α → Prop) → m α → n α → Prop
  Admits : Fault → Prop
  rel_pure : ∀ {α : Type} {V : α → α → Prop} {a b : α}, V a b → Rel V (pure a) (pure b)
  rel_bind : ∀ {α β : Type} {V : α → α → Prop} {W : β → β → Prop} {x : m α} {y : n α}
    {f : α → m β} {g : α → n β},
    Rel V x y → (∀ a b, V a b → Rel W (f a) (g b)) → Rel W (x >>= f) (y >>= g)
  rel_mono : ∀ {α : Type} {V W : α → α → Prop} {x : m α} {y : n α},
    (∀ a b, V a b → W a b) → Rel V x y → Rel W x y
  rel_throw : ∀ {α : Type} {V : α → α → Prop} {fault : Fault},
    Admits fault → Rel V (throw fault) (throw fault)

/-- How far two failures on a text may differ. -/
structure Tolerance where
  Rel : Text → Failure → Failure → Prop
  /-- Failures that no name was added to are the same. -/
  rel_plain : ∀ {text rest : Text} {message : String},
    rest <:+ text → Rel text ⟨message, rest, []⟩ ⟨message, rest, []⟩
  /-- Where a failure on a rest of the input is passed on, it counts as one on the whole. -/
  rel_widen : ∀ {text rest : Text} {f g : Failure}, rest <:+ text → Rel rest f g → Rel text f g
  length_eq : ∀ {text : Text} {f g : Failure},
    Rel text f g → f.remaining.length = g.remaining.length

def Tolerance.same : Tolerance where
  Rel _ f g := f = g
  rel_plain _ := rfl
  rel_widen _ h := h
  length_eq h := by rw [h]

/-- Two outcomes on a text agree: both are the same success, which leaves a rest of the text and
consumes at least `least` characters, or both are failures within the tolerance. -/
inductive Tolerance.Agree (t : Tolerance) {α : Type} (least : Nat) (text : Text) :
    Outcome α → Outcome α → Prop where
  | success {value : α} {rest : Text} (suffix : rest <:+ text)
      (consumed : rest.length + least ≤ text.length) :
      t.Agree least text (.success value rest) (.success value rest)
  | failure {f g : Failure} (related : t.Rel text f g) :
      t.Agree least text (.failure f) (.failure g)

namespace Comparison

variable {m n : Type → Type} [Monad m] [Monad n] [MonadExceptOf Fault m] [MonadExceptOf Fault n]
variable (c : Comparison m n) (t : Tolerance) {α β γ : Type} {bound least more : Nat}

/-- On texts shorter than `bound`, two parsers have outcomes that agree, and every success consumes
at least `least` characters. -/
def Similar (bound least : Nat) (p : Parser m α) (q : Parser n α) : Prop :=
  ∀ text : Text, text.length < bound → c.Rel (t.Agree least text) (p text) (q text)

variable {c t}

/-! ## Outcomes -/

theorem agree_mono {text : Text} {o o' : Outcome α} (h : t.Agree more text o o')
    (le : least ≤ more) : t.Agree least text o o' := by
  cases h with
  | success suffix consumed => exact .success suffix (by omega)
  | failure related => exact .failure related

theorem agree_widen {text rest : Text} {o o' : Outcome α} (suffix : rest <:+ text)
    (consumed : rest.length + least ≤ text.length) (h : t.Agree more rest o o') :
    t.Agree (least + more) text o o' := by
  cases h with
  | success further less => exact .success (further.trans suffix) (by omega)
  | failure related => exact .failure (t.rel_widen suffix related)

theorem agree_deeper {text : Text} {f f' g g' : Failure} (first : t.Rel text f f')
    (second : t.Rel text g g') :
    t.Agree least text (.failure (f.deeper g) : Outcome α) (.failure (f'.deeper g')) := by
  unfold Failure.deeper
  rw [t.length_eq first, t.length_eq second]
  split
  · exact .failure first
  · exact .failure second

namespace Similar

theorem mono {bound' : Nat} {p : Parser m α} {q : Parser n α} (h : c.Similar t bound more p q)
    (le : least ≤ more) (short : bound' ≤ bound) : c.Similar t bound' least p q :=
  fun text inside => c.rel_mono (fun _ _ agree => agree_mono agree le) (h text (by omega))

/-! ## Single steps -/

theorem succeed (value : α) :
    c.Similar t bound 0 (Parser.succeed (m := m) value) (Parser.succeed (m := n) value) :=
  fun text _ => c.rel_pure (.success (List.suffix_refl text) (by omega))

theorem fail (message : String) :
    c.Similar t bound least (Parser.fail (m := m) (α := α) message)
      (Parser.fail (m := n) message) :=
  fun text _ => c.rel_pure (.failure (t.rel_plain (List.suffix_refl text)))

theorem eof : c.Similar t bound 0 (Parser.eof (m := m)) (Parser.eof (m := n)) := by
  intro text _
  unfold Parser.eof
  split
  · exact c.rel_pure (.success (List.suffix_refl text) (by omega))
  · exact c.rel_pure (.failure (t.rel_plain (List.suffix_refl text)))

theorem skipBlank :
    c.Similar t bound 0 (Parser.skipBlank (m := m)) (Parser.skipBlank (m := n)) := by
  intro text _
  have suffix := List.dropWhile_suffix Unicode.isBlank (l := text)
  exact c.rel_pure (.success suffix suffix.length_le)

/-! ## Sequences -/

theorem mapM {p : Parser m α} {q : Parser n α} {f : α → m β} {g : α → n β}
    (h : c.Similar t bound least p q) (functions : ∀ value, c.Rel Eq (f value) (g value)) :
    c.Similar t bound least (p.mapM f) (q.mapM g) := by
  intro text inside
  refine c.rel_bind (h text inside) fun o o' agree => ?_
  cases agree with
  | failure related => exact c.rel_pure (.failure related)
  | success suffix consumed =>
    refine c.rel_bind (functions _) fun w w' equal => ?_
    subst equal
    exact c.rel_pure (.success suffix consumed)

theorem map {p : Parser m α} {q : Parser n α} (h : c.Similar t bound least p q) (f : α → β) :
    c.Similar t bound least (p.map f) (q.map f) :=
  h.mapM fun _ => c.rel_pure rfl

/-- The second of two parsers in a row needs to be known only on what the first one leaves. -/
theorem flatMap {p : Parser m α} {q : Parser n α} {f : α → Parser m β} {g : α → Parser n β}
    (h : c.Similar t bound least p q)
    (next : ∀ value, c.Similar t (bound - least) more (f value) (g value)) :
    c.Similar t bound (least + more) (p.flatMap f) (q.flatMap g) := by
  intro text inside
  refine c.rel_bind (h text inside) fun o o' agree => ?_
  cases agree with
  | failure related => exact c.rel_pure (.failure related)
  | @success value rest suffix consumed =>
    exact c.rel_mono (fun _ _ agree => agree_widen suffix consumed agree)
      (next value rest (by omega))

theorem andThen {p : Parser m α} {q : Parser n α} {p' : Parser m β} {q' : Parser n β}
    (h : c.Similar t bound least p q) (h' : c.Similar t (bound - least) more p' q') :
    c.Similar t bound (least + more) (p.andThen p') (q.andThen q') :=
  h.flatMap fun _ => h'

theorem precedes {p : Parser m α} {q : Parser n α} {p' : Parser m β} {q' : Parser n β}
    (h : c.Similar t bound least p q) (h' : c.Similar t (bound - least) more p' q') :
    c.Similar t bound (least + more) (p.precedes p') (q.precedes q') :=
  h.flatMap fun value => h'.map fun _ => value

theorem between {last : Nat} {p : Parser m α} {q : Parser n α} {left : Parser m β}
    {left' : Parser n β} {right : Parser m γ} {right' : Parser n γ}
    (h : c.Similar t (bound - least) more p q) (hl : c.Similar t bound least left left')
    (hr : c.Similar t (bound - (least + more)) last right right') :
    c.Similar t bound (least + more + last) (p.between left right) (q.between left' right') :=
  (hl.andThen h).precedes hr

theorem enclosed {p : Parser m α} {q : Parser n α} {left : Parser m β} {left' : Parser n β}
    {right : Parser m γ} {right' : Parser n γ} (h : c.Similar t bound 0 p q)
    (hl : c.Similar t bound 0 left left') (hr : c.Similar t bound 0 right right') :
    c.Similar t bound 0 (p.between left right) (q.between left' right') := by
  have inner : c.Similar t (bound - 0) 0 p q := h
  exact inner.between hl hr

theorem token {p : Parser m α} {q : Parser n α} (h : c.Similar t bound least p q) :
    c.Similar t bound least p.token q.token :=
  h.precedes skipBlank

theorem skipOptional {p : Parser m α} {q : Parser n α} {p' : Parser m β} {q' : Parser n β}
    (h : c.Similar t bound least p q) (h' : c.Similar t (bound - least) 0 p' q') :
    c.Similar t bound least (p.skipOptional p') (q.skipOptional q') := by
  intro text inside
  refine c.rel_bind (h text inside) fun o o' agree => ?_
  cases agree with
  | failure related => exact c.rel_pure (.failure related)
  | @success value rest suffix consumed =>
    refine c.rel_bind (h' rest (by omega)) fun o o' agree => ?_
    cases agree with
    | failure => exact c.rel_pure (.success suffix consumed)
    | success further less => exact c.rel_pure (.success (further.trans suffix) (by omega))

/-! ## Choice -/

theorem alternate {p p' : Parser m α} {q q' : Parser n α} (h : c.Similar t bound least p q)
    (h' : c.Similar t bound least p' q') :
    c.Similar t bound least (p.alternate p') (q.alternate q') := by
  intro text inside
  refine c.rel_bind (h text inside) fun o o' agree => ?_
  cases agree with
  | success suffix consumed => exact c.rel_pure (.success suffix consumed)
  | failure first =>
    refine c.rel_bind (h' text inside) fun o o' agree => ?_
    cases agree with
    | success suffix consumed => exact c.rel_pure (.success suffix consumed)
    | failure second => exact c.rel_pure (agree_deeper first second)

theorem choice {ps : List (Parser m α)} {qs : List (Parser n α)}
    (h : List.Forall₂ (c.Similar t bound least) ps qs) :
    c.Similar t bound least (Parser.choice ps) (Parser.choice qs) := by
  induction h with
  | nil => exact fail _
  | cons first _ rest => exact first.alternate rest

theorem optional {p : Parser m α} {q : Parser n α} (h : c.Similar t bound 0 p q)
    (default : α) : c.Similar t bound 0 (p.optional default) (q.optional default) :=
  h.alternate (succeed default)

/-! ## Looking without consuming -/

theorem lookahead {p : Parser m α} {q : Parser n α} (h : c.Similar t bound least p q) :
    c.Similar t bound 0 p.lookahead q.lookahead := by
  intro text inside
  refine c.rel_bind (h text inside) fun o o' agree => ?_
  cases agree with
  | failure related => exact c.rel_pure (.failure related)
  | success => exact c.rel_pure (.success (List.suffix_refl text) (by omega))

theorem notFollowedBy {p : Parser m α} {q : Parser n α} (h : c.Similar t bound least p q) :
    c.Similar t bound 0 p.notFollowedBy q.notFollowedBy := by
  intro text inside
  refine c.rel_bind (h text inside) fun o o' agree => ?_
  cases agree with
  | failure => exact c.rel_pure (.success (List.suffix_refl text) (by omega))
  | success => exact c.rel_pure (.failure (t.rel_plain (List.suffix_refl text)))

/-! ## Repetition -/

theorem manyFrom {p : Parser m α} {q : Parser n α} (h : c.Similar t bound least p q)
    (progress : 0 < least ∨ ∀ text, c.Admits (.endlessRepetition text)) (values : List α) :
    c.Similar t bound 0 (p.manyFrom values) (q.manyFrom values) := by
  intro text
  induction size : text.length using Nat.strongRecOn generalizing text values with
  | _ size ih =>
    subst size
    intro inside
    unfold Parser.manyFrom
    refine c.rel_bind (h text inside) fun o o' agree => ?_
    cases agree with
    | failure => exact c.rel_pure (.success (List.suffix_refl text) (by omega))
    | @success value rest suffix consumed =>
      by_cases shorter : rest.length < text.length
      · simp only [shorter, ↓reduceIte]
        have further : rest.length + 1 ≤ text.length := shorter
        exact c.rel_mono (fun _ _ agree => agree_mono (agree_widen suffix further agree) (by omega))
          (ih rest.length shorter (value :: values) rest rfl (by omega))
      · simp only [shorter, ↓reduceIte]
        refine c.rel_throw (progress.resolve_left ?_ text)
        omega

theorem many {p : Parser m α} {q : Parser n α} (h : c.Similar t bound least p q)
    (progress : 0 < least ∨ ∀ text, c.Admits (.endlessRepetition text)) :
    c.Similar t bound 0 p.many q.many :=
  h.manyFrom progress []

theorem many1 {p : Parser m α} {q : Parser n α} (h : c.Similar t bound least p q)
    (progress : 0 < least ∨ ∀ text, c.Admits (.endlessRepetition text)) :
    c.Similar t bound least p.many1 q.many1 :=
  h.flatMap fun _ => ((h.mono (Nat.le_refl _) (Nat.sub_le _ _)).many progress).map _

theorem sepBy {p : Parser m α} {q : Parser n α} {p' : Parser m β} {q' : Parser n β}
    (h : c.Similar t bound least p q) (h' : c.Similar t bound more p' q')
    (progress : 0 < more + least ∨ ∀ text, c.Admits (.endlessRepetition text)) :
    c.Similar t bound 0 (p.sepBy p') (q.sepBy q') := by
  have round : c.Similar t bound (more + least) (p'.andThen p) (q'.andThen q) :=
    h'.andThen (h.mono (Nat.le_refl _) (Nat.sub_le _ _))
  have items : c.Similar t bound least
      (p.flatMap fun first => (p'.andThen p).many.map fun others => first :: others)
      (q.flatMap fun first => (q'.andThen q).many.map fun others => first :: others) :=
    h.flatMap fun _ => ((round.mono (Nat.le_refl _) (Nat.sub_le _ _)).many progress).map _
  exact (items.mono (Nat.zero_le _) (Nat.le_refl _)).optional []

theorem timesFrom {p : Parser m α} {q : Parser n α} (h : c.Similar t bound 0 p q)
    (values : List α) (count : Nat) :
    c.Similar t bound 0 (p.timesFrom values count) (q.timesFrom values count) := by
  induction count generalizing values with
  | zero => exact succeed _
  | succ count ih => exact h.flatMap fun value => ih (value :: values)

theorem times {p : Parser m α} {q : Parser n α} (h : c.Similar t bound 0 p q) (count : Nat) :
    c.Similar t bound 0 (p.times count) (q.times count) :=
  h.timesFrom [] count

/-! ## Names -/

theorem name {p : Parser m α} {q : Parser n α} {label : String} (h : c.Similar t bound least p q)
    (annotated : ∀ {text f g}, t.Rel text f g →
      t.Rel text (f.annotate label text.length) (g.annotate label text.length)) :
    c.Similar t bound least (p.name label) (q.name label) := by
  intro text inside
  refine c.rel_bind (h text inside) fun o o' agree => ?_
  cases agree with
  | success suffix consumed => exact c.rel_pure (.success suffix consumed)
  | failure related => exact c.rel_pure (.failure (annotated related))

end Similar
end Comparison
end Descent
