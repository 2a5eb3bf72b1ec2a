import Descent.Proofs.Acceptance.State
import Descent.Proofs.Json.Acceptance
import Descent.Proofs.Json.Level

/-!
# What reading a document leaves in the memory

The grammar refers to the whole of itself in two places. The reference in an array keeps what it finds,
so only the first array that a parser ever reads resolves it; the reference in a pair is a new one for
each pair. Main statement: reading a document changes the memory by the number of its pairs, and by
whether it has an array.

One level of the parser is run with any two parsers for the references. Parts that are read one after
the other add up. What is tried in vain is refused at its first character, before any reference, but
for the item that an array does not have at its end.
-/

namespace Descent.Grammar.Json

open Descent.Parser Descent.Expr Lexical

/-! ## Pairs and arrays of a document -/

mutual

/-- The pairs of a document at all depths, those with the same key counted apart. -/
def Document.pairCount : Document → Nat
  | .mk body _ => body.pairCount

def Body.pairCount : Body → Nat
  | .number _ | .string _ | .keyword _ => 0
  | .array _ items => items.pairCount
  | .object _ pairs => pairs.pairCount

def Items.pairCount : Items → Nat
  | .nil => 0
  | .cons item _ rest => item.pairCount + rest.pairCount

def Pairs.pairCount : Pairs → Nat
  | .nil => 0
  | .cons _ _ _ item _ rest => 1 + item.pairCount + rest.pairCount

end

mutual

/-- Whether a document is an array or has one inside. -/
def Document.hasArray : Document → Bool
  | .mk body _ => body.hasArray

def Body.hasArray : Body → Bool
  | .number _ | .string _ | .keyword _ => false
  | .array _ _ => true
  | .object _ pairs => pairs.hasArray

def Pairs.hasArray : Pairs → Bool
  | .nil => false
  | .cons _ _ _ item _ rest => item.hasArray || rest.hasArray

end

/-! ## The references of a parser that was built -/

/-- Where the reference in an array keeps what it finds. -/
def slot (number : Nat) : Address := [0, 0, 0, 0, 1, 1, 1, 1, number]

def built (number : Nat) : Expr Link :=
  orRaise (body.buildPart [] (some [number]))

def root (number : Nat) : Expr Link := .fix (built number)

def resolutions (count : Nat) : List Event := List.replicate count (.resolved valueOrigin)

theorem resolutions_append (m n : Nat) : resolutions m ++ resolutions n = resolutions (m + n) :=
  List.replicate_append_replicate

/-- The memory after some pairs, and after arrays if there were any. -/
def resolved (number pairs : Nat) (array : Bool) (memory : Memory) : Memory :=
  let first := array && (memory.find? (slot number)).isNone
  { bound := if first then (slot number, root number) :: memory.bound else memory.bound
    log := resolutions (pairs + first.toNat) ++ memory.log }

/-- Nothing but the parser itself is kept for the arrays. -/
def Ready (number : Nat) (memory : Memory) : Prop :=
  ∀ p, memory.find? (slot number) = some p → p = root number

variable {number : Nat} {memory : Memory}

theorem find?_resolved (pairs : Nat) (array : Bool) (memory : Memory) :
    (resolved number pairs array memory).find? (slot number)
      = (memory.find? (slot number)).or (if array then some (root number) else none) := by
  cases kept : memory.find? (slot number) with
  | some p =>
    have bound : (resolved number pairs array memory).bound = memory.bound := by
      simp [resolved, kept]
    rw [Memory.find?, bound]
    exact kept
  | none =>
    cases array with
    | false => exact kept
    | true =>
      have bound : (resolved number pairs true memory).bound
          = (slot number, root number) :: memory.bound := by
        simp [resolved, kept]
      rw [Memory.find?, bound]
      exact List.lookup_cons_self

theorem Ready.resolved (ready : Ready number memory) (pairs : Nat) (array : Bool) :
    Ready number (resolved number pairs array memory) := by
  intro p found
  rw [find?_resolved] at found
  cases kept : memory.find? (slot number) with
  | some q =>
    rw [kept] at found
    exact ready p (kept.trans found)
  | none =>
    rw [kept, Option.none_or] at found
    split at found
    · exact (Option.some.inj found).symm
    · cases found

/-- Parts that are read one after the other add up. -/
theorem resolved_resolved (pairs pairs' : Nat) (array array' : Bool) (memory : Memory) :
    resolved number pairs' array' (resolved number pairs array memory)
      = resolved number (pairs + pairs') (array || array') memory := by
  rw [resolved, find?_resolved]
  simp only [resolved, ← List.append_assoc, resolutions_append]
  cases memory.find? (slot number) <;> cases array <;> cases array' <;>
    simp [resolutions] <;> omega

/-! ## A level with any two references -/

/-- A host where the two references of the grammar are given. -/
def references (shared own : Parser Run Value) : Host Mention Run where
  follow _ r := match r with
    | .delayed _ => shared
    | _ => own
  find _ := fun _ => throw .typeMismatch
  emit _ := pure ()

/-- Both references run the whole parser, after the memory has changed. -/
structure Refers (number : Nat) (whole shared own : Parser Run Value) : Prop where
  shared : ∀ text memory, Ready number memory →
    (shared text).run.run memory = (whole text).run.run (resolved number 0 true memory)
  own : ∀ text memory,
    (own text).run.run memory = (whole text).run.run (resolved number 1 false memory)

/-- What a parser that stands for the whole does with documents in texts below a length. -/
structure Resolves (number : Nat) (whole : Parser Run Value) (length : Nat) : Prop where
  takes : ∀ (document : Document) (text rest : Text), document.Leads text rest →
    text.length < length → ∀ memory, Ready number memory →
      whole.Takes text memory document.value rest
        (resolved number document.pairCount document.hasArray memory)
  refuses : ∀ rest : Text, (']' :: rest).length < length → ∀ memory, Ready number memory →
    whole.Refuses (']' :: rest) memory memory

section Level

variable {whole shared own : Parser Run Value} {length : Nat} {text rest : Text} {value : Value}
  {p : Expr Mention}

/-- What a part of the grammar stands for between two references. -/
abbrev level (shared own : Parser Run Value) (p : Expr Mention) : Parser Run Value :=
  Expr.denote (references shared own) body p

/-- What a part without references stands for. -/
abbrev plain (p : Expr Mention) : Parser (Except Fault) Value :=
  meaning (body.alone 0) p

theorem ignores_mark (c : Char) : (level shared own (.char c)).Ignores (plain (.char c)) :=
  ignores_of_similar fun _ _ => Comparison.Similar.mark c

theorem ignores_comma : (level shared own comma).Ignores (plain comma) :=
  ignores_of_similar fun _ _ => (Comparison.Similar.mark ',').token_expr

theorem ignores_of_listed {alternative : Expr Mention × (Char → Bool)}
    (listed : alternative ∈ alternatives.take 4) :
    (level shared own alternative.1).Ignores (plain alternative.1) := by
  simp only [alternatives, List.take_succ_cons, List.take_zero, List.mem_cons, List.not_mem_nil,
    or_false] at listed
  rcases listed with rfl | rfl | rfl | rfl
  · exact ignores_of_similar (p := meaning shared number) fun _ _ => similar_number
  · exact ignores_of_similar (p := meaning shared Json.text) fun _ _ => similar_text
  · exact ignores_of_similar (p := meaning shared boolean) fun _ _ => similar_boolean
  · exact ignores_of_similar (p := meaning shared null) fun _ _ => similar_null

theorem takes_mark (c : Char) (gap : Gap) (stops : rest.Stops Unicode.isBlank) :
    (level shared own (Expr.char c).token).Takes (c :: (gap.text ++ rest)) memory (.str [c]) rest
      memory :=
  takes_token stops ((ignores_mark c).takes (accepts_mark.mpr ⟨rfl, rfl⟩) memory)

theorem takes_key (key : Content) (gap : Gap) (stops : rest.Stops Unicode.isBlank) :
    (level shared own Json.text.token).Takes (key.text ++ (gap.text ++ rest)) memory
      (.str key.content) rest memory := by
  have listed : (Json.text, (· == quote)) ∈ alternatives.take 4 := .tail _ (.head _)
  exact takes_token stops
    ((ignores_of_listed listed).takes (accepts_text.mpr ⟨key, rfl, rfl⟩) memory)

theorem refuses_bracketed {opening closing : Char} (differs : text.head? ≠ some opening) :
    (level shared own (.between p (Expr.char opening).token (.char closing))).Refuses text memory
      memory :=
  Refuses.between (refuses_token ((ignores_mark opening).refuses (rejects_mark differs) memory)) _ _

/-- An alternative that cannot begin as the text does is refused before any reference. -/
theorem refuses_of_stops {alternative : Expr Mention × (Char → Bool)}
    (listed : alternative ∈ alternatives) (stops : text.Stops alternative.2) :
    (level shared own alternative.1).Refuses text memory memory := by
  have differs {c : Char} (stops : text.Stops (· == c)) : text.head? ≠ some c := by
    intro begins
    simpa using stops c begins
  have split : alternatives
      = alternatives.take 4 ++ [(array, (· == '[')), (object, (· == '{'))] := rfl
  rw [split, List.mem_append] at listed
  rcases listed with plain | other
  · exact (ignores_of_listed plain).refuses
      (rejects_of_stops (List.mem_of_mem_take plain) stops) memory
  · simp only [List.mem_cons, List.not_mem_nil, or_false] at other
    rcases other with rfl | rfl
    · exact (refuses_bracketed (differs stops)).name _
    · exact ((refuses_bracketed (differs stops)).mapM _).name _

theorem takes_separated {separator : Separator} {memory' : Memory}
    (maximal : separator.Maximal rest)
    (taken : (level shared own p).Takes text memory value (separator.text ++ rest) memory') :
    (level shared own (p.skipOptional comma)).Takes text memory value rest memory' := by
  cases separator with
  | none =>
    exact taken.skipOptional_of_refuses (ignores_comma.refuses (rejects_comma.mpr maximal) memory')
  | some gap =>
    have comma : (plain comma).Accepts (',' :: (gap.text ++ rest)) (.str [',']) rest :=
      accepts_comma.mpr ⟨gap, rfl, rfl, maximal⟩
    exact taken.skipOptional (ignores_comma.takes comma memory')

/-- What is repeated between two marks changes the memory, the marks do not. -/
theorem takes_bracketed {opening closing : Char} {gap : Gap} {values : List Value}
    {memory' : Memory} (stops : text.Stops Unicode.isBlank)
    (rounds : (level shared own p).many.Takes text memory values (closing :: rest) memory') :
    (level shared own (.between p.many (Expr.char opening).token (.char closing))).Takes
      (opening :: (gap.text ++ text)) memory (.list values) rest memory' := by
  have closed : (level shared own (.char closing)).Takes (closing :: rest) memory' (.str [closing])
      rest memory' :=
    (ignores_mark closing).takes (accepts_mark.mpr ⟨rfl, rfl⟩) memory'
  exact Takes.between (takes_mark opening gap stops) (rounds.map Value.list) closed

variable (refers : Refers number whole shared own) (resolves : Resolves number whole length)
include refers resolves

/-- The items of an array, and the one that is tried in vain at its end. -/
theorem takes_items (rest : Text) :
    ∀ (items : Items) (memory : Memory) (values : List Value), Ready number memory →
      items.Maximal (']' :: rest) → (items.text ++ ']' :: rest).length < length →
      Takes ((level shared own item).manyFrom values) (items.text ++ ']' :: rest) memory
        (values.reverse ++ items.values) (']' :: rest) (resolved number items.pairCount true memory)
  | .nil, memory, values, ready, _, short => by
    obtain ⟨f, failed⟩ := resolves.refuses rest short _ (ready.resolved 0 true)
    have refused : shared.Refuses (']' :: rest) memory (resolved number 0 true memory) :=
      ⟨f, (refers.shared _ _ ready).trans failed⟩
    have ended := (refused.skipOptional (level shared own comma)).manyFrom values
    rwa [← List.append_nil values.reverse] at ended
  | .cons document separator items, memory, values, ready, maximal, short => by
    have shorter := document.length_lt separator (items.text ++ ']' :: rest)
    have text_eq : (Items.cons document separator items).text ++ ']' :: rest
        = document.text ++ (separator.text ++ (items.text ++ ']' :: rest)) := by
      simp [Items.text]
    rw [text_eq] at short ⊢
    have begins := items.begins rest
    let first := resolved number document.pairCount true memory
    have ready' : Ready number first := ready.resolved _ _
    have entered := resolves.takes document _ _ ⟨rfl, maximal.1, separator.stops begins⟩ short _
      (ready.resolved 0 true)
    rw [resolved_resolved, Nat.zero_add, Bool.true_or] at entered
    have taken : shared.Takes _ memory document.value _ first :=
      (refers.shared _ _ ready).trans entered
    have others := takes_items rest items first (document.value :: values) ready' maximal.2
      (by omega)
    rw [resolved_resolved, Bool.true_or, List.reverse_cons, List.append_assoc] at others
    exact Takes.manyFrom (takes_separated (separator.maximal begins) taken) shorter others

/-- A pair adds itself to what its value changes. -/
theorem takes_pair (key : Content) (keyGap colonGap : Gap) {document : Document}
    {separator : Separator} (begins : BeginsPart rest)
    (maximal : document.Maximal (separator.text ++ rest))
    (short : (document.text ++ (separator.text ++ rest)).length < length)
    (ready : Ready number memory) :
    (level shared own pair).Takes
      (key.text ++ (keyGap.text ++ ':' :: (colonGap.text ++
        (document.text ++ (separator.text ++ rest)))))
      memory (.pair (.str key.content) document.value) rest
      (resolved number (1 + document.pairCount) document.hasArray memory) := by
  have inner := resolves.takes document _ _ ⟨rfl, maximal, separator.stops begins⟩ short _
    (ready.resolved 1 false)
  rw [resolved_resolved, Bool.false_or] at inner
  have entered : own.Takes _ memory document.value _ _ := (refers.own _ _).trans inner
  have blanks := (document.begins.append (separator.text ++ rest)).stops
  have valued : (level shared own ((Expr.char ':').token.andThen
      (.ref (.anew (.recursive valueOrigin))))).Takes _ memory _ _ _ :=
    Takes.andThen (takes_mark ':' colonGap blanks) entered
  have separated := takes_separated (separator.maximal begins) valued
  exact (takes_key key keyGap (Text.stops_cons.mpr (by decide))).flatMap
    (separated.map fun second => Value.pair (.str key.content) second)

/-- The pairs of an object; at its end there is no key, so no reference is tried. -/
theorem takes_pairs (rest : Text) :
    ∀ (pairs : Pairs) (memory : Memory) (values : List Value), Ready number memory →
      pairs.Maximal ('}' :: rest) → (pairs.text ++ '}' :: rest).length < length →
      Takes ((level shared own pair).manyFrom values) (pairs.text ++ '}' :: rest) memory
        (values.reverse ++ pairs.entries.map fun entry => Value.pair (.str entry.1) entry.2)
        ('}' :: rest) (resolved number pairs.pairCount pairs.hasArray memory)
  | .nil, memory, values, _, _, _ => by
    have listed : (Json.text, (· == quote)) ∈ alternatives := .tail _ (.head _)
    have keyless : (level shared own Json.text.token).Refuses ('}' :: rest) memory memory :=
      refuses_token (refuses_of_stops listed (Text.stops_cons.mpr (by decide)))
    have refused : (level shared own pair).Refuses ('}' :: rest) memory memory :=
      keyless.flatMap _
    have ended := refused.manyFrom values
    rwa [← List.append_nil values.reverse] at ended
  | .cons key keyGap colonGap document separator pairs, memory, values, ready, maximal, short => by
    have shorter := document.length_lt separator (pairs.text ++ '}' :: rest)
    have text_eq : (Pairs.cons key keyGap colonGap document separator pairs).text ++ '}' :: rest
        = key.text ++ (keyGap.text ++ ':' :: (colonGap.text ++
            (document.text ++ (separator.text ++ (pairs.text ++ '}' :: rest))))) := by
      simp [Pairs.text]
    rw [text_eq] at short ⊢
    simp only [List.length_append, List.length_cons] at short shorter
    have inner : (document.text ++ (separator.text ++ (pairs.text ++ '}' :: rest))).length
        < length := by
      simp only [List.length_append, List.length_cons]
      omega
    have first := takes_pair refers resolves key keyGap colonGap (pairs.begins rest) maximal.1 inner
      ready
    have others := takes_pairs rest pairs _ (.pair (.str key.content) document.value :: values)
      (ready.resolved (1 + document.pairCount) document.hasArray) maximal.2 (by
        simp only [List.length_append, List.length_cons]
        omega)
    rw [resolved_resolved, List.reverse_cons, List.append_assoc] at others
    refine first.manyFrom ?_ others
    simp only [List.length_append, List.length_cons]
    omega

/-- All alternatives before the one that takes a body cannot begin as it does. -/
theorem takes_of_body (body : Body) (rest : Text) (maximal : body.Maximal rest)
    (short : (body.text ++ rest).length < length + 1) (ready : Ready number memory) :
    ∃ before alternative after, alternatives = before ++ alternative :: after ∧
      (∀ other ∈ before, (body.text ++ rest).Stops other.2) ∧
      (level shared own alternative.1).Takes (body.text ++ rest) memory body.value rest
        (resolved number body.pairCount body.hasArray memory) := by
  have stops (c : Char) {before : List (Expr Mention × (Char → Bool))} {tail : Text}
      (unlike : ∀ other ∈ before, other.2 c = false) :
      ∀ other ∈ before, Text.Stops other.2 (c :: tail) :=
    fun other member => Text.stops_cons.mpr (unlike other member)
  have simple {alternative : Expr Mention × (Char → Bool)} {text : Text} {value : Value}
      (listed : alternative ∈ alternatives.take 4)
      (accepted : (plain alternative.1).Accepts text value rest) :
      (level shared own alternative.1).Takes text memory value rest memory :=
    (ignores_of_listed listed).takes accepted memory
  cases body with
  | number digits =>
    refine ⟨[], _, _, rfl, nofun, simple (.head _) ?_⟩
    exact accepts_number.mpr ⟨digits, rfl, rfl, maximal⟩
  | string content =>
    refine ⟨alternatives.take 1, _, _, rfl, stops quote (by decide), simple (.tail _ (.head _)) ?_⟩
    exact accepts_text.mpr ⟨content, rfl, rfl⟩
  | keyword word =>
    cases word with
    | true =>
      refine ⟨alternatives.take 2, _, _, rfl, stops 't' (by decide),
        simple (.tail _ (.tail _ (.head _))) ?_⟩
      exact accepts_boolean.mpr ⟨.true, nofun, rfl, rfl⟩
    | false =>
      refine ⟨alternatives.take 2, _, _, rfl, stops 'f' (by decide),
        simple (.tail _ (.tail _ (.head _))) ?_⟩
      exact accepts_boolean.mpr ⟨.false, nofun, rfl, rfl⟩
    | null =>
      refine ⟨alternatives.take 3, _, _, rfl, stops 'n' (by decide),
        simple (.tail _ (.tail _ (.tail _ (.head _)))) ?_⟩
      exact accepts_null.mpr ⟨rfl, rfl⟩
  | array gap items =>
    have text_eq : (Body.array gap items).text ++ rest
        = '[' :: (gap.text ++ (items.text ++ ']' :: rest)) := by
      simp [Body.text]
    rw [text_eq] at short ⊢
    simp only [List.length_append, List.length_cons] at short
    have rounds := takes_items refers resolves rest items memory [] ready maximal (by
      simp only [List.length_append, List.length_cons]
      omega)
    refine ⟨alternatives.take 4, _, _, rfl, stops '[' (by decide), ?_⟩
    exact (takes_bracketed (items.begins rest).stops rounds).name _
  | object gap pairs =>
    have text_eq : (Body.object gap pairs).text ++ rest
        = '{' :: (gap.text ++ (pairs.text ++ '}' :: rest)) := by
      simp [Body.text]
    rw [text_eq] at short ⊢
    simp only [List.length_append, List.length_cons] at short
    have rounds := takes_pairs refers resolves rest pairs memory [] ready maximal (by
      simp only [List.length_append, List.length_cons]
      omega)
    refine ⟨alternatives.take 5, _, _, rfl, stops '{' (by decide), ?_⟩
    have collected := Value.toDict_pairs pairs.entries
    refine ((takes_bracketed (pairs.begins rest).stops rounds).mapM ?_).name _
    show MonadExcept.ofExcept (Value.toDict (.list (pairs.entries.map _))) = _
    rw [collected]
    rfl

omit refers resolves in
theorem level_body : level shared own body
    = Parser.choice (alternatives.map fun alternative => level shared own alternative.1.token) := by
  have means := denote_choice (references shared own) body (alternatives.map (·.1.token))
  rw [List.map_map] at means
  exact means

theorem level_resolves : Resolves number (level shared own body) (length + 1) where
  takes := by
    rintro ⟨part, gap⟩ text rest ⟨rfl, maximal, stops⟩ short memory ready
    have text_eq : (Document.mk part gap).text ++ rest = part.text ++ (gap.text ++ rest) := by
      simp [Document.text]
    rw [text_eq] at short ⊢
    obtain ⟨before, alternative, after, shape, others, taken⟩ :=
      takes_of_body refers resolves part (gap.text ++ rest) maximal short ready
    rw [level_body, shape, List.map_append, List.map_cons]
    refine Takes.choice (takes_token stops taken) ?_ _
    simp only [List.forall_mem_map]
    intro other member
    have listed : other ∈ alternatives := shape ▸ List.mem_append_left _ member
    exact refuses_token (refuses_of_stops listed (others other member))
  refuses := by
    intro rest _ memory _
    rw [level_body]
    apply refuses_choice
    simp only [List.forall_mem_map]
    intro other listed
    have unlike : ∀ other ∈ alternatives, other.2 ']' = false := by decide
    exact refuses_token (refuses_of_stops listed (Text.stops_cons.mpr (unlike other listed)))

end Level

/-! ## Runs of the parser -/

/-- The two references of a parser that was built, where parsers are entered in a given way. -/
def reference (env : Env) (number : Nat) (enter : Expr Link → Parser Run Value)
    (slot : Option Address) : Parser Run Value := fun text => do
  enter (← Run.resolve env (root number) ⟨.recursive valueOrigin, slot⟩) text

theorem resolve_shared (env : Env) (ready : Ready number memory) :
    (Run.resolve env (root number) ⟨.recursive valueOrigin, some (slot number)⟩).run.run memory
      = (.ok (root number), resolved number 0 true memory) := by
  cases kept : memory.find? (slot number) with
  | some p =>
    obtain rfl := ready p kept
    have unchanged : resolved number 0 true memory = memory := by
      simp [resolved, resolutions, kept]
    rw [unchanged]
    exact Run.resolve_found kept
  | none =>
    have changed : resolved number 0 true memory
        = (memory.bind (slot number) (root number)).report (.resolved valueOrigin) := by
      simp [resolved, resolutions, kept, Memory.bind, Memory.report]
    rw [changed]
    exact Run.resolve_recursive kept rfl

theorem reference_refers (env : Env) (number : Nat) (enter : Expr Link → Parser Run Value) :
    Refers number (enter (root number)) (reference env number enter (some (slot number)))
      (reference env number enter none) where
  shared text memory ready := by
    unfold reference
    rw [Run.run_bind, resolve_shared env ready]
  own text memory := by
    unfold reference
    rw [Run.run_bind, Run.resolve_recursive rfl rfl]
    rfl

theorem enter_root (env : Env) (depth : Nat) :
    Run.enter env (depth + 1) (root number)
      = level (reference env number (Run.enter env depth) (some (slot number)))
          (reference env number (Run.enter env depth) none) body := rfl

theorem enter_resolves (env : Env) (depth : Nat) :
    Resolves number (Run.enter env depth (root number)) depth := by
  induction depth with
  | zero => exact ⟨fun _ _ _ _ short => absurd short (Nat.not_lt_zero _),
      fun _ short => absurd short (Nat.not_lt_zero _)⟩
  | succ depth ih =>
    rw [enter_root]
    exact level_resolves (reference_refers env number _) ih

end Descent.Grammar.Json
