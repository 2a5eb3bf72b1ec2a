import Descent.Proofs.Json.Memory
import Descent.Proofs.Rewriting

/-!
# What the parser of documents resolves

Main statement: a parser that is newly built in any session, and reads documents one after the other,
reports on each of them one reference for each of its pairs, and one more if it is the first with an
array. So the reference in an array is resolved once for each parser that is built, and a pair resolves
one of its own whenever it is read.
-/

namespace Descent

namespace Session

theorem log_after (session : Session) (clear : session.memory.log = [])
    (steps : List Step) : (session.after steps).memory.log = [] := by
  induction steps generalizing session with
  | nil => exact clear
  | cons step steps ih =>
    apply ih
    cases step with
    | build name grammar =>
      rw [step]
      cases defined : session.define name grammar with
      | error fault => exact clear
      | ok defined' => exact (congrArg Memory.log (define_memory defined)).trans clear
    | run mode name text =>
      rw [step]
      cases session.env.find? name with
      | none => exact clear
      | some p => rfl

/-- Nothing is kept yet for the references of the next build. -/
theorem unused_after (steps : List Step) {slot : Address}
    (own : slot.getLast? = some (empty.after steps).builds) :
    (empty.after steps).memory.find? slot = none := by
  obtain ⟨known, tracks, records⟩ := recorded_history steps
  rw [Option.eq_none_iff_forall_ne_some]
  intro p kept
  obtain ⟨earlier, less, last⟩ := kept_of_recorded tracks records kept
  rw [own] at last
  cases last
  exact Nat.lt_irrefl _ less

end Session

namespace Grammar.Json

open Descent.Parser Descent.Expr

/-! ## Documents one after the other -/

variable {number : Nat} {session : Session} {text rest : Text} {document : Document}

theorem report_of_leads (ready : Ready number session.memory) (clear : session.memory.log = [])
    (leads : document.Leads text rest) :
    let after := resolved number document.pairCount document.hasArray session.memory
    let first := document.hasArray && (session.memory.find? (slot number)).isNone
    session.report .parse (.fix (root number)) text
      = (⟨.outcome (.success document.value rest), resolutions (document.pairCount + first.toNat)⟩,
        { session with memory := { after with log := [] } }) := by
  intro after first
  have deep := Session.lt_depthFor session.builds text
  have taken := (enter_resolves session.env (Run.depthFor session.builds text)).takes document text
    rest leads deep session.memory ready
  have ran : session.ran (.fix (root number)) text
      = (.ok (.success document.value rest), after) := by
    rw [← taken, Session.ran]
    cases Run.depthFor session.builds text <;> rfl
  rw [Session.report_eq, ran]
  have log : after.log.reverse = resolutions (document.pairCount + first.toNat) := by
    simp [after, resolved, clear, resolutions, first]
  rw [log]
  rfl

/-- The texts begin with these documents. -/
abbrev Reads (texts : List Text) (documents : List Document) : Prop :=
  List.Forall₂ (fun text document => ∃ rest, document.Leads text rest) texts documents

theorem reports_of_reads {texts : List Text} {documents : List Document}
    (reads : Reads texts documents) (session : Session) (ready : Ready number session.memory)
    (clear : session.memory.log = []) :
    ∀ i document, documents[i]? = some document →
      let first := document.hasArray && !(documents.take i).any Document.hasArray &&
        (session.memory.find? (slot number)).isNone
      ∃ rest, texts[i]? = some (document.text ++ rest) ∧
        (session.reports .parse (.fix (root number)) texts)[i]?
          = some ⟨.outcome (.success document.value rest),
            resolutions (document.pairCount + first.toNat)⟩ := by
  induction reads generalizing session with
  | nil => nofun
  | @cons text earlier texts documents lead reads ih =>
    obtain ⟨rest, leads⟩ := lead
    intro i document here
    have reported := report_of_leads ready clear leads
    rw [Session.reports, reported]
    cases i with
    | zero =>
      cases here
      exact ⟨rest, by rw [← leads.text_eq]; rfl, by simp⟩
    | succ i =>
      let after := resolved number earlier.pairCount earlier.hasArray session.memory
      have ready' : Ready number after := ready.resolved _ _
      have found : after.find? (slot number) = (session.memory.find? (slot number)).or
          (if earlier.hasArray then some (root number) else none) := find?_resolved _ _ _
      obtain ⟨rest, text_eq, listed⟩ :=
        ih { session with memory := { after with log := [] } } ready' rfl i document here
      refine ⟨rest, text_eq, ?_⟩
      have first : (!(documents.take i).any Document.hasArray && (after.find? (slot number)).isNone)
          = (!((earlier :: documents).take (i + 1)).any Document.hasArray &&
            (session.memory.find? (slot number)).isNone) := by
        rw [found, List.take_succ_cons, List.any_cons]
        cases earlier.hasArray <;> cases session.memory.find? (slot number) <;>
          cases (documents.take i).any Document.hasArray <;> rfl
      have rewritten := congrArg (document.hasArray && ·) first
      simp only [← Bool.and_assoc] at rewritten
      rwa [← rewritten]

theorem succeeds_of_reads {texts : List Text} {documents : List Document}
    (reads : Reads texts documents) (session : Session) (ready : Ready number session.memory)
    (clear : session.memory.log = []) :
    ∀ report ∈ session.reports .parse (.fix (root number)) texts,
      ∃ value rest, report.answer = .outcome (.success value rest) := by
  induction reads generalizing session with
  | nil => nofun
  | @cons text document texts documents lead reads ih =>
    obtain ⟨rest, leads⟩ := lead
    rw [Session.reports, report_of_leads ready clear leads]
    refine List.forall_mem_cons.mpr ⟨⟨document.value, rest, rfl⟩, ih _ ?_ rfl⟩
    exact ready.resolved document.pairCount document.hasArray

theorem closed_built (number : Nat) :
    (built number).Closed number ∧ ∀ depth, (built number).alone depth = body.alone depth := by
  obtain ⟨expr, done, closed, same⟩ :=
    buildPart_selfContained (show body.isSelfContained from rfl) [] (rfl : [number].getLast? = _)
  have whole : built number = expr := by
    rw [built, done]
    rfl
  rw [whole]
  exact ⟨closed, alone_congr fun _ => same _ _ _⟩

/-- Where all texts are read with success, they begin with documents. -/
theorem reads_of_succeeds {texts : List Text} {session : Session}
    (keeps : session.memory.Keeps number (built number))
    (succeeds : ∀ report ∈ session.reports .parse (.fix (root number)) texts,
      ∃ value rest, report.answer = .outcome (.success value rest)) :
    ∃ documents, Reads texts documents := by
  obtain ⟨closed, alone⟩ := closed_built number
  let property (text : Text) (answer : Answer) : Prop := ∀ value rest,
    answer = .outcome (.success value rest) → ∃ document : Document, document.Leads text rest
  have holds (text : Text) (depth : Nat) (deep : text.length < depth) :
      property text (.ofRun .parse text ((built number).alone depth text)) := by
    intro value rest answered
    rw [alone] at answered
    obtain ⟨document, leads, -⟩ := (accepts_alone deep).mp (Answer.ofRun_eq_outcome.mp answered)
    exact ⟨document, leads⟩
  have sound := Session.reports_alone (p := .fix (root number)) closed (fun _ _ => rfl) keeps holds
    texts
  generalize session.reports .parse (.fix (root number)) texts = reports at sound succeeds
  induction sound with
  | nil => exact ⟨[], .nil⟩
  | cons leads _ ih =>
    obtain ⟨⟨value, rest, answer⟩, others⟩ := List.forall_mem_cons.mp succeeds
    obtain ⟨document, first⟩ := leads value rest answer
    obtain ⟨documents, reads⟩ := ih others
    exact ⟨document :: documents, .cons ⟨rest, first⟩ reads⟩

/-! ## Sessions -/

/-- A parser that is built after any steps reads texts with success, one after the other, exactly if
they begin with documents. On each it reports as many references as the document has pairs, one more
for the first document with an array, and nothing else. -/
theorem value_resolutions (steps : List Session.Step) :
    let session := Session.empty.after steps
    ∃ p later, session.build value = .ok (p, later) ∧ ∀ texts : List Text,
      let reports := later.reports .parse p texts
      ((∀ report ∈ reports, ∃ value rest, report.answer = .outcome (.success value rest)) ↔
        ∃ documents, Reads texts documents) ∧
      ∀ documents, Reads texts documents → ∀ i document, documents[i]? = some document →
        let first := document.hasArray && !(documents.take i).any Document.hasArray
        ∃ rest, texts[i]? = some (document.text ++ rest) ∧
          reports[i]? = some ⟨.outcome (.success document.value rest),
            List.replicate (document.pairCount + first.toNat) (.resolved valueOrigin)⟩ := by
  intro session
  let number := session.builds
  have ready : Ready number session.memory := by
    intro p found
    rw [Session.unused_after steps rfl] at found
    cases found
  have keeps : session.memory.Keeps number (built number) := by
    intro slot p own found
    rw [Session.unused_after steps own] at found
    cases found
  have clear : session.memory.log = [] := Session.log_after _ rfl steps
  refine ⟨.fix (root number), { session with builds := number + 1 }, rfl, fun texts => ⟨?_, ?_⟩⟩
  · constructor
    · exact reads_of_succeeds keeps
    · rintro ⟨documents, reads⟩
      exact succeeds_of_reads reads { session with builds := number + 1 } ready clear
  · intro documents reads i document here
    have reported := reports_of_reads reads { session with builds := number + 1 } ready clear i
      document here
    have unused : session.memory.find? (slot number) = none := Session.unused_after steps rfl
    simp only [unused, Option.isNone_none, Bool.and_true] at reported
    exact reported

/-- The pair of the first text and its array are resolved; the array of the second text is not, and
each of two equal keys is. -/
theorem value_resolutions_marks :
    ∃ reports, Session.batch [] value .parse
        [['{', '"', 'a', '"', ':', '[', ']', '}'], ['[', ']'],
          ['{', '"', 'a', '"', ':', '[', ']', '"', 'a', '"', ':', '[', ']', '}']] = .ok reports ∧
      reports[0]?.map Report.log = some [.resolved valueOrigin, .resolved valueOrigin] ∧
      reports[1]?.map Report.log = some [] ∧
      reports[2]?.map Report.log = some [.resolved valueOrigin, .resolved valueOrigin] := by
  obtain ⟨p, later, done, reads⟩ := value_resolutions []
  let gap : Gap := ⟨[], List.forall_mem_nil _⟩
  let key : Content := ⟨['a'], by decide⟩
  let list : Document := .mk (.array gap .nil) gap
  let once : Document := .mk (.object gap (.cons key gap gap list none .nil)) gap
  let twice : Document :=
    .mk (.object gap (.cons key gap gap list none (.cons key gap gap list none .nil))) gap
  have leads {document : Document} (maximal : document.Maximal []) :
      ∃ rest, document.Leads (document.text) rest :=
    ⟨[], (List.append_nil _).symm, maximal, Text.stops_nil _⟩
  obtain ⟨-, resolves⟩ := reads [once.text, list.text, twice.text]
  have reported := resolves [once, list, twice] (.cons (leads ⟨trivial, trivial⟩)
    (.cons (leads trivial) (.cons (leads ⟨trivial, trivial, trivial⟩) .nil)))
  obtain ⟨_, -, first⟩ := reported 0 once rfl
  obtain ⟨_, -, second⟩ := reported 1 list rfl
  obtain ⟨_, -, third⟩ := reported 2 twice rfl
  refine ⟨later.reports .parse p [once.text, list.text, twice.text], ?_, ?_, ?_, ?_⟩
  · change (Session.empty.build value >>= fun built =>
      pure (built.2.reports .parse built.1 [once.text, list.text, twice.text])) = _
    rw [show Session.empty.build value = .ok (p, later) from done]
    rfl
  · rw [first]
    rfl
  · rw [second]
    rfl
  · rw [third]
    rfl

end Grammar.Json
end Descent
