import Descent.Proofs.Acceptance.Forms
import Descent.Proofs.Choice

/-!
# Acceptance with a state

What a run takes from a text or refuses, with the state that it starts from and the state that it
leaves. Combinators hand the state on from part to part, in the order in which the parts run; what is
tried in vain may have changed it too.

A parser that has no use for the state takes and refuses what the parser without a state accepts and
rejects.
-/

namespace Descent

namespace Parser

variable {σ α β γ : Type} {p : Parser (ExceptT Fault (StateM σ)) α}
  {q : Parser (ExceptT Fault (StateM σ)) β} {text middle rest : Text} {s s' s'' : σ} {value : α}

def Takes (p : Parser (ExceptT Fault (StateM σ)) α) (text : Text) (s : σ) (value : α) (rest : Text)
    (s' : σ) : Prop :=
  (p text).run.run s = (.ok (.success value rest), s')

def Refuses (p : Parser (ExceptT Fault (StateM σ)) α) (text : Text) (s s' : σ) : Prop :=
  ∃ f, (p text).run.run s = (.ok (.failure f), s')

/-! ## Sequences -/

theorem Takes.flatMap {next : α → Parser (ExceptT Fault (StateM σ)) β} {w : β}
    (first : p.Takes text s value middle s') (second : (next value).Takes middle s' w rest s'') :
    (p.flatMap next).Takes text s w rest s'' := by
  unfold Takes Parser.flatMap
  rw [Run.run_bind, first]
  exact second

theorem Takes.mapM {f : α → ExceptT Fault (StateM σ) β} {w : β}
    (taken : p.Takes text s value rest s') (maps : f value = pure w) :
    (p.mapM f).Takes text s w rest s' := by
  unfold Takes Parser.mapM
  rw [Run.run_bind, taken]
  simp only [Outcome.mapValue, maps]
  rfl

theorem Takes.map (taken : p.Takes text s value rest s') (f : α → β) :
    (p.map f).Takes text s (f value) rest s' :=
  taken.mapM rfl

theorem Takes.andThen {w : β} (first : p.Takes text s value middle s')
    (second : q.Takes middle s' w rest s'') : (p.andThen q).Takes text s w rest s'' := by
  show (p.flatMap fun _ => q).Takes text s w rest s''
  exact first.flatMap second

theorem Takes.precedes {w : β} (first : p.Takes text s value middle s')
    (second : q.Takes middle s' w rest s'') : (p.precedes q).Takes text s value rest s'' := by
  show (p.flatMap fun v => q.map fun _ => v).Takes text s value rest s''
  exact first.flatMap (second.map fun _ => value)

theorem Takes.between {left : Parser (ExceptT Fault (StateM σ)) β}
    {right : Parser (ExceptT Fault (StateM σ)) γ} {inner : Text} {v : β} {w : γ} {last : σ}
    (opened : left.Takes text s v inner s') (taken : p.Takes inner s' value middle s'')
    (closed : right.Takes middle s'' w rest last) :
    (p.between left right).Takes text s value rest last :=
  (opened.andThen taken).precedes closed

theorem Refuses.flatMap (refused : p.Refuses text s s')
    (next : α → Parser (ExceptT Fault (StateM σ)) β) : (p.flatMap next).Refuses text s s' := by
  obtain ⟨f, failed⟩ := refused
  refine ⟨f, ?_⟩
  unfold Parser.flatMap
  rw [Run.run_bind, failed]
  rfl

theorem Refuses.mapM (refused : p.Refuses text s s') (f : α → ExceptT Fault (StateM σ) β) :
    (p.mapM f).Refuses text s s' := by
  obtain ⟨failure, failed⟩ := refused
  refine ⟨failure, ?_⟩
  unfold Parser.mapM
  rw [Run.run_bind, failed]
  rfl

theorem Refuses.precedes (refused : p.Refuses text s s') (q : Parser (ExceptT Fault (StateM σ)) β) :
    (p.precedes q).Refuses text s s' :=
  refused.flatMap fun v => q.map fun _ => v

theorem Refuses.between {left : Parser (ExceptT Fault (StateM σ)) β}
    (refused : left.Refuses text s s') (p : Parser (ExceptT Fault (StateM σ)) α)
    (right : Parser (ExceptT Fault (StateM σ)) γ) : (p.between left right).Refuses text s s' :=
  Refuses.precedes (p := left.andThen p) (refused.flatMap fun _ => p) right

/-! ## Optional parts and names -/

theorem Takes.skipOptional {w : β} (first : p.Takes text s value middle s')
    (second : q.Takes middle s' w rest s'') : (p.skipOptional q).Takes text s value rest s'' := by
  unfold Takes Parser.skipOptional
  rw [Run.run_bind, first]
  dsimp only [Outcome.flatMapSuccess]
  rw [Run.run_bind, second]
  rfl

theorem Takes.skipOptional_of_refuses (first : p.Takes text s value rest s')
    (second : q.Refuses rest s' s'') : (p.skipOptional q).Takes text s value rest s'' := by
  obtain ⟨f, failed⟩ := second
  unfold Takes Parser.skipOptional
  rw [Run.run_bind, first]
  dsimp only [Outcome.flatMapSuccess]
  rw [Run.run_bind, failed]
  rfl

theorem Refuses.skipOptional (refused : p.Refuses text s s')
    (q : Parser (ExceptT Fault (StateM σ)) β) : (p.skipOptional q).Refuses text s s' := by
  obtain ⟨f, failed⟩ := refused
  refine ⟨f, ?_⟩
  unfold Parser.skipOptional
  rw [Run.run_bind, failed]
  rfl

theorem Takes.name (taken : p.Takes text s value rest s') (label : String) :
    (p.name label).Takes text s value rest s' := by
  unfold Takes Parser.name
  rw [Run.run_bind, taken]
  rfl

theorem Refuses.name (refused : p.Refuses text s s') (label : String) :
    (p.name label).Refuses text s s' := by
  obtain ⟨f, failed⟩ := refused
  refine ⟨f.annotate label text.length, ?_⟩
  unfold Parser.name
  rw [Run.run_bind, failed]
  rfl

/-! ## Repetition -/

theorem Refuses.manyFrom (refused : p.Refuses text s s') (values : List α) :
    Takes (p.manyFrom values) text s values.reverse text s' := by
  obtain ⟨f, failed⟩ := refused
  unfold Takes
  rw [Parser.manyFrom, Run.run_bind, failed]
  rfl

/-- One more round, which leaves less than it found. -/
theorem Takes.manyFrom {values all : List α} {last : Text}
    (taken : p.Takes text s value rest s') (shorter : rest.length < text.length)
    (others : Takes (p.manyFrom (value :: values)) rest s' all last s'') :
    Takes (p.manyFrom values) text s all last s'' := by
  unfold Takes
  rw [Parser.manyFrom, Run.run_bind, taken]
  simp only [shorter, ↓reduceIte]
  exact others

/-! ## Choice -/

variable {ps before after : List (Parser (ExceptT Fault (StateM σ)) α)}

theorem failInTurn_of_refuses (all : ∀ p ∈ ps, p.Refuses text s s) :
    ∃ fs, FailInTurn text ps s fs s := by
  induction ps with
  | nil => exact ⟨[], .nil⟩
  | cons p ps ih =>
    obtain ⟨⟨f, failed⟩, others⟩ := List.forall_mem_cons.mp all
    obtain ⟨fs, failed'⟩ := ih others
    exact ⟨f :: fs, .cons failed failed'⟩

/-- Alternatives that are refused without a trace do not count. -/
theorem Takes.choice (taken : p.Takes text s value rest s')
    (others : ∀ q ∈ before, q.Refuses text s s)
    (after : List (Parser (ExceptT Fault (StateM σ)) α)) :
    (choice (before ++ p :: after)).Takes text s value rest s' := by
  obtain ⟨fs, failed⟩ := failInTurn_of_refuses others
  unfold Takes
  rw [failed.run_choice_append (by rw [taken]; nofun) after, taken]

theorem refuses_choice (all : ∀ p ∈ ps, p.Refuses text s s) : (choice ps).Refuses text s s := by
  obtain ⟨fs, failed⟩ := failInTurn_of_refuses all
  exact ⟨_, failed.run_choice⟩

/-! ## Parsers without a state -/

/-- A parser does what another one does without a state, and leaves its own state as it is. -/
def Ignores (p : Parser (ExceptT Fault (StateM σ)) α) (plain : Parser (Except Fault) α) : Prop :=
  ∀ text s, (p text).run.run s = (plain text, s)

variable {plain : Parser (Except Fault) α}

theorem ignores_of_similar {least : Nat}
    (similar : ∀ s bound, (Comparison.stateless (· = s)).Similar .same bound least p plain) :
    p.Ignores plain := by
  intro text s
  obtain ⟨results, same⟩ := similar s (text.length + 1) text (Nat.lt_succ_self _) s rfl
  exact Prod.ext results.eq_of_same same

theorem Ignores.takes (ignores : p.Ignores plain) (accepted : plain.Accepts text value rest)
    (s : σ) : p.Takes text s value rest s := by
  unfold Takes
  rw [ignores, show plain text = _ from accepted]

theorem Ignores.refuses (ignores : p.Ignores plain) (rejected : plain.Rejects text) (s : σ) :
    p.Refuses text s s := by
  obtain ⟨f, failed⟩ := rejected
  exact ⟨f, by rw [ignores, failed]⟩

end Parser

/-! ## Blanks after a part -/

namespace Expr

open Descent.Parser

variable {ι : Type} {host : Host ι Run} {self p : Expr ι} {text rest : Text} {value : Value}
  {memory memory' : Memory}

theorem takes_token {gap : Gap} (stops : rest.Stops Unicode.isBlank)
    (taken : (denote host self p).Takes text memory value (gap.text ++ rest) memory') :
    (denote host self p.token).Takes text memory value rest memory' := by
  have skipped : (skipBlank.map fun _ => Value.null).Accepts (gap.text ++ rest) .null rest :=
    accepts_map.mpr ⟨(), accepts_skipBlank.mpr ⟨gap.text, rfl, gap.blank, stops⟩, rfl⟩
  exact taken.precedes (Ignores.takes (Run.run_lift _) skipped memory')

theorem refuses_token (refused : (denote host self p).Refuses text memory memory') :
    (denote host self p.token).Refuses text memory memory' :=
  refused.precedes _

end Expr
end Descent
