import Descent.Proofs.Position
import Descent.Proofs.Runs

/-!
# Errors of runs

A run that is asked for its value alone agrees with the one that is asked for its outcome: it gives
the value of a success, throws the same faults, and turns a failure into an error. Main statement:
the error points into the text, at the very rest where the failure happened, and shows the notes of
the failure from the outermost to the innermost one. The places of the notes come in this order, and
all of them lie in the text at or before the place of the error. So no position is ever moved into
the text.
-/

namespace Descent

theorem Text.clamp_of_inside {text : Text} {position : Int} (start : 0 ≤ position)
    (inside : position ≤ text.length) : (text.clamp position : Int) = position := by
  unfold clamp
  omega

namespace ParseError

theorem foldl_appendNote (error : ParseError) (notes : List Note) :
    notes.foldl appendNote error = { error with
      notes := error.notes ++ notes.map fun note =>
        .ofPosition error.source (error.source.length - note.left) note.message } := by
  induction notes generalizing error with
  | nil => simp
  | cons note notes ih =>
    rw [List.foldl_cons, ih]
    simp [appendNote, appendAt]

theorem create_eq (source : Text) (position : Int) (message : Option String) (notes : List Note) :
    create source position message notes = ⟨source, position, message,
      .ofPosition source position none :: notes.reverse.map fun note =>
        .ofPosition source (source.length - note.left) note.message⟩ := by
  unfold create
  rw [foldl_appendNote]
  rfl

/-- An error tells of a failure on a text: where it happened, and the notes from the outermost to the
innermost one, each with its own position. -/
structure Tells (error : ParseError) (f : Failure) (text : Text) : Prop where
  source : error.source = text
  message : error.message = some f.message
  inside : 0 ≤ error.position ∧ error.position ≤ text.length
  rest : text.drop error.position.toNat = f.remaining
  count : error.notes.length = 1 + f.notes.length
  notes : error.notes.map (fun note => (note.label, (note.place.offset : Int)))
    = (none, error.position) ::
      f.notes.reverse.map fun note => (note.message, (text.length : Int) - note.left)
  ordered : (error.notes.tail.map fun note => note.place.offset).Pairwise (· ≤ ·)
  before : ∀ note ∈ error.notes.tail, (note.place.offset : Int) ≤ error.position

end ParseError

/-! ## Positions of notes -/

namespace Failure.PlacedIn

variable {f : Failure} {text : Text}

theorem lefts (h : f.PlacedIn text) :
    ∀ note ∈ f.notes, (f.remaining.length : Int) ≤ note.left ∧ note.left ≤ text.length := by
  intro note member
  have ordered := h.ordered
  rw [List.isChain_iff_pairwise, List.pairwise_append, List.pairwise_cons] at ordered
  obtain ⟨⟨above, -⟩, -, below⟩ := ordered
  have listed : note.left ∈ f.notes.map Note.left := List.mem_map_of_mem member
  constructor
  · exact above _ listed
  · exact below _ (List.mem_cons_of_mem _ listed) _ (List.mem_singleton_self _)

theorem lefts_pairwise (h : f.PlacedIn text) :
    f.notes.Pairwise fun inner outer => inner.left ≤ outer.left := by
  have ordered := h.ordered
  rw [List.isChain_iff_pairwise, List.pairwise_append, List.pairwise_cons] at ordered
  exact List.pairwise_map.mp ordered.1.2

/-- The position of a note, counted from the start of the text. -/
theorem offset_eq (h : f.PlacedIn text) {note : Note} (member : note ∈ f.notes) :
    (text.clamp (text.length - note.left) : Int) = text.length - note.left := by
  have bounds := h.lefts note member
  apply Text.clamp_of_inside <;> omega

theorem tells (h : f.PlacedIn text) : (f.error text).Tells f text := by
  have short := h.suffix.length_le
  have position : ((text.length : Int) - f.remaining.length).toNat
      = text.length - f.remaining.length := by omega
  unfold Failure.error
  rw [ParseError.create_eq]
  refine ⟨rfl, rfl, ?_, ?_, ?_, ?_, ?_, ?_⟩
  · dsimp only
    omega
  · rw [position]
    exact (List.suffix_iff_eq_drop.mp h.suffix).symm
  · simp [Nat.add_comm]
  · have here : (text.clamp ((text.length : Int) - f.remaining.length) : Int)
        = text.length - f.remaining.length := by
      apply Text.clamp_of_inside <;> omega
    simp only [List.map_cons, List.map_map]
    congr 1
    · exact Prod.ext rfl here
    · apply List.map_congr_left
      intro note member
      exact Prod.ext rfl (h.offset_eq (List.mem_reverse.mp member))
  · rw [List.tail_cons, List.map_map, List.pairwise_map, List.pairwise_reverse]
    refine h.lefts_pairwise.imp_of_mem fun {inner outer} memberI memberO less => ?_
    have offsetI := h.offset_eq memberI
    have offsetO := h.offset_eq memberO
    show text.clamp _ ≤ text.clamp _
    omega
  · intro note member
    obtain ⟨own, listed, rfl⟩ := List.mem_map.mp member
    have bounds := h.lefts own (List.mem_reverse.mp listed)
    have offset := h.offset_eq (List.mem_reverse.mp listed)
    show (text.clamp _ : Int) ≤ (text.length : Int) - f.remaining.length
    omega

end Failure.PlacedIn

/-! ## Runs -/

namespace Session

variable (session : Session) (p : Expr Link) (text : Text)

def answer (mode : Mode) : Answer := (session.report mode p text).1.answer

theorem answer_eq (mode : Mode) :
    session.answer p text mode = .ofRun mode text (session.parse p text).1 := rfl

theorem failure_placed {f : Failure} (failed : (session.parse p text).1 = .ok (.failure f)) :
    f.PlacedIn text := by
  rw [parse_fst, ran] at failed
  exact Run.placed_of_similar (Run.enter_placed session.env _ p) failed

/-- Asked for the value alone, a run gives that of the success, throws the same faults, and gives an
error exactly for a failure. The error tells of that failure. -/
theorem run_tells_failure :
    (∀ value, session.answer p text .run = .value value ↔
      ∃ rest, session.answer p text .parse = .outcome (.success value rest)) ∧
    (∀ fault, session.answer p text .run = .fault fault ↔
      session.answer p text .parse = .fault fault) ∧
    ((∃ error, session.answer p text .run = .parseError error) ↔
      ∃ f, session.answer p text .parse = .outcome (.failure f)) ∧
    ∀ f, session.answer p text .parse = .outcome (.failure f) →
      ∃ error, session.answer p text .run = .parseError error ∧ error.Tells f text := by
  have placed (f : Failure) (failed : (session.parse p text).1 = .ok (.failure f)) :=
    session.failure_placed p text failed
  simp only [answer_eq]
  cases result : (session.parse p text).1 with
  | error fault => simp [Answer.ofRun]
  | ok outcome =>
    cases outcome with
    | success value rest => simp [Answer.ofRun, Outcome.toExcept]
    | failure f => simpa [Answer.ofRun, Outcome.toExcept] using (placed f result).tells

end Session
end Descent
