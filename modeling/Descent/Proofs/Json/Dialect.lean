import Descent.Proofs.Json.Document
import Mathlib.Data.List.Nodup

/-!
# Values of the dialect and how they are written

The values that documents can stand for, and the shortest text for each of them: no blanks, a comma
between two items and nowhere else. Main statements: every value of the dialect is the value of a
document with that text, and the value of every document is in the dialect.

What follows the text of a value matters only to a number. Inside a list or a dictionary a number is
followed by a comma or by the closing mark, so only a number by itself asks something of what comes
after it.
-/

namespace Descent.Grammar.Json

open Lexical

/-! ## Values -/

mutual

/-- Whether a value is in the dialect: numbers within the bound, texts that can stand between quotes,
and lists and dictionaries of such values, where every key is such a text and stands once. -/
def inDialect : Value → Bool
  | .null | .bool _ => true
  | .int n => 0 ≤ n && n ≤ maxNatural
  | .str content => content.getLast? ≠ some escape
  | .list items => allInDialect items
  | .tuple _ => false
  | .dict entries => entriesInDialect entries && (entries.map (·.1)).Nodup

def allInDialect : List Value → Bool
  | [] => true
  | value :: rest => inDialect value && allInDialect rest

def entriesInDialect : List (Value × Value) → Bool
  | [] => true
  | (key, value) :: rest =>
    key.toText?.any (·.getLast? ≠ some escape) && inDialect value && entriesInDialect rest

end

mutual

/-- The text of a value, without blanks. A tuple, which no document stands for, is written as a
list. -/
def print : Value → Text
  | .null => ['n', 'u', 'l', 'l']
  | .bool true => ['t', 'r', 'u', 'e']
  | .bool false => ['f', 'a', 'l', 's', 'e']
  | .int n => (toString n).toList
  | .str content => quote :: (escaped content ++ [quote])
  | .list items | .tuple items => '[' :: ([','].intercalate (printItems items) ++ [']'])
  | .dict entries => '{' :: ([','].intercalate (printEntries entries) ++ ['}'])

def printItems : List Value → List Text
  | [] => []
  | value :: rest => print value :: printItems rest

def printEntries : List (Value × Value) → List Text
  | [] => []
  | (key, value) :: rest => (print key ++ ':' :: print value) :: printEntries rest

end

example : print (.dict [(.str ['k'], .list [.int 10, .bool true]), (.str [], .null)])
    = "\x7b\"k\":[10,true],\"\":null\x7d".toList := by decide

theorem allInDialect_iff {items : List Value} :
    allInDialect items ↔ ∀ item ∈ items, inDialect item := by
  induction items with
  | nil => simp [allInDialect]
  | cons item items ih => simp [allInDialect, ih]

theorem entriesInDialect_iff {entries : List (Value × Value)} :
    entriesInDialect entries ↔ ∀ entry ∈ entries,
      (∃ content : Content, entry.1 = .str content.content) ∧ inDialect entry.2 := by
  induction entries with
  | nil => simp [entriesInDialect]
  | cons entry entries ih =>
    obtain ⟨key, value⟩ := entry
    have closed : key.toText?.any (·.getLast? ≠ some escape)
        ↔ ∃ content : Content, key = .str content.content := by
      constructor
      · intro h
        cases key <;> simp [Value.toText?] at h
        exact ⟨⟨_, h⟩, rfl⟩
      · rintro ⟨content, rfl⟩
        simpa [Value.toText?] using content.closed
    simp only [entriesInDialect, Bool.and_eq_true, closed, ih, List.forall_mem_cons]

/-! ## Documents of values -/

theorem decimal_of_mem_toDigits {n : Nat} {c : Char} (member : c ∈ Nat.toDigits 10 n) :
    Text.decimalDigits.contains c := by
  have single : ∀ d < 10, Text.decimalDigits.contains (Nat.digitChar d) := by decide
  induction n using Nat.strongRecOn with
  | ind n ih =>
    rw [Nat.toDigits_eq_if (by decide)] at member
    split at member
    · next small =>
      rw [List.mem_singleton.mp member]
      exact single n small
    · next large =>
      rcases List.mem_append.mp member with before | last
      · exact ih (n / 10) (by omega) before
      · rw [List.mem_singleton.mp last]
        exact single _ (Nat.mod_lt n (by decide))

/-- The digits of a number within the bound. -/
def Digits.ofNat (n : Nat) (small : n ≤ maxNatural) : Digits where
  text := Nat.toDigits 10 n
  nonempty := Nat.toDigits_ne_nil
  decimal := fun _ => decimal_of_mem_toDigits
  short := by
    have large : maxNatural < 10 ^ 19 := by decide
    have few : (Nat.toDigits 10 n).length ≤ 19 :=
      (Nat.length_toDigits_le_iff (by decide) (by decide)).mpr (Nat.lt_of_le_of_lt small large)
    exact few.trans (by decide)
  small := by
    have worth : Text.decimalValue (Nat.toDigits 10 n) = n :=
      Nat.ofDigitChars_toDigits (by decide) (by decide)
    rw [worth]
    exact small

theorem Digits.value_ofNat (n : Nat) (small : n ≤ maxNatural) :
    Text.decimalValue (Digits.ofNat n small).text = n :=
  Nat.ofDigitChars_toDigits (by decide) (by decide)

/-- A number that nothing follows, or something that is no digit. -/
def Ends (value : Value) (after : Text) : Prop :=
  ∀ n, value = .int n → after.Stops Text.decimalDigits.contains

theorem Ends.of_stops {after : Text} (stops : after.Stops Text.decimalDigits.contains)
    (value : Value) : Ends value after := fun _ _ => stops

def Gap.empty : Gap := ⟨[], nofun⟩

theorem stops_comma (after : Text) : Text.Stops Text.decimalDigits.contains (',' :: after) :=
  Text.stops_cons.mpr (by decide)

mutual

/-- A value of the dialect is the value of a body with its text. -/
theorem body_of_inDialect : ∀ v : Value, inDialect v →
    ∃ body : Body, body.text = print v ∧ body.value = v ∧
      ∀ after, Ends v after → body.Maximal after
  | .null, _ => ⟨.keyword .null, rfl, rfl, fun _ _ => trivial⟩
  | .bool true, _ => ⟨.keyword .true, rfl, rfl, fun _ _ => trivial⟩
  | .bool false, _ => ⟨.keyword .false, rfl, rfl, fun _ _ => trivial⟩
  | .int n, h => by
    simp only [inDialect, Bool.and_eq_true, decide_eq_true_eq] at h
    obtain ⟨n, rfl⟩ := Int.eq_ofNat_of_zero_le h.1
    have small : n ≤ maxNatural := by exact_mod_cast h.2
    refine ⟨.number (.ofNat n small), Nat.toList_repr.symm, ?_, fun after ends => ends n rfl⟩
    rw [Body.value, Digits.value_ofNat]
  | .str content, h =>
    ⟨.string ⟨content, by simpa [inDialect] using h⟩, rfl, rfl, fun _ _ => trivial⟩
  | .list vs, h => by
    obtain ⟨items, text, values, maximal⟩ := items_of_inDialect vs h
    refine ⟨.array Gap.empty items, ?_, congrArg Value.list values, fun after _ => maximal _ ?_⟩
    · show '[' :: (items.text ++ [']']) = '[' :: _
      rw [text]
    · exact Text.stops_cons.mpr (by decide)
  | .tuple _, h => by cases h
  | .dict entries, h => by
    simp only [inDialect, Bool.and_eq_true, decide_eq_true_eq] at h
    obtain ⟨pairs, text, rfl, maximal⟩ := pairs_of_inDialect entries h.1
    have nodup : (pairs.entries.map (·.1)).Nodup := by
      have keys := h.2
      rw [List.map_map] at keys
      exact List.Nodup.of_map Value.str (by rwa [List.map_map])
    refine ⟨.object Gap.empty pairs, ?_, ?_, fun after _ => maximal _ ?_⟩
    · show '{' :: (pairs.text ++ ['}']) = '{' :: _
      rw [text]
    · rw [Body.value, Value.Entries.ofTexts_of_nodup nodup]
    · exact Text.stops_cons.mpr (by decide)

/-- The items of a list, with a comma after each but the last. -/
theorem items_of_inDialect : ∀ vs : List Value, allInDialect vs →
    ∃ items : Items, items.text = [','].intercalate (printItems vs) ∧ items.values = vs ∧
      ∀ after, after.Stops Text.decimalDigits.contains → items.Maximal after
  | [], _ => ⟨.nil, rfl, rfl, fun _ _ => trivial⟩
  | v :: vs, h => by
    simp only [allInDialect, Bool.and_eq_true] at h
    obtain ⟨body, text, value, maximal⟩ := body_of_inDialect v h.1
    obtain ⟨items, texts, values, others⟩ := items_of_inDialect vs h.2
    cases vs with
    | nil =>
      refine ⟨.cons (.mk body Gap.empty) none .nil, ?_, congrArg (· :: []) value,
        fun after stops => ⟨maximal _ (.of_stops stops v), trivial⟩⟩
      simp [Items.text, Document.text, Separator.text, Gap.empty, text, printItems]
    | cons w ws =>
      refine ⟨.cons (.mk body Gap.empty) (some Gap.empty) items, ?_,
        congrArg₂ (· :: ·) value values,
        fun after stops => ⟨maximal _ (.of_stops (stops_comma _) v), others after stops⟩⟩
      simp [Items.text, Document.text, Separator.text, Gap.empty, text, texts, printItems]

/-- The entries of a dictionary, with a comma after each but the last. -/
theorem pairs_of_inDialect : ∀ entries : List (Value × Value), entriesInDialect entries →
    ∃ pairs : Pairs, pairs.text = [','].intercalate (printEntries entries) ∧
      entries = pairs.entries.map (fun entry => (.str entry.1, entry.2)) ∧
      ∀ after, after.Stops Text.decimalDigits.contains → pairs.Maximal after
  | [], _ => ⟨.nil, rfl, rfl, fun _ _ => trivial⟩
  | (key, v) :: entries, h => by
    obtain ⟨⟨⟨key, rfl⟩, -⟩, -⟩ := List.forall_mem_cons.mp (entriesInDialect_iff.mp h)
    simp only [entriesInDialect, Bool.and_eq_true] at h
    obtain ⟨body, text, value, maximal⟩ := body_of_inDialect v h.1.2
    obtain ⟨pairs, texts, values, others⟩ := pairs_of_inDialect entries h.2
    cases entries with
    | nil =>
      refine ⟨.cons key Gap.empty Gap.empty (.mk body Gap.empty) none .nil, ?_,
        congrArg (fun v => [(Value.str key.content, v)]) value.symm,
        fun after stops => ⟨maximal _ (.of_stops stops v), trivial⟩⟩
      simp [Pairs.text, Document.text, Separator.text, Gap.empty, text, print, printEntries,
        Content.text]
    | cons entry entries =>
      refine ⟨.cons key Gap.empty Gap.empty (.mk body Gap.empty) (some Gap.empty) pairs, ?_,
        congrArg₂ (fun v rest => (Value.str key.content, v) :: rest) value.symm values,
        fun after stops => ⟨maximal _ (.of_stops (stops_comma _) v), others after stops⟩⟩
      simp [Pairs.text, Document.text, Separator.text, Gap.empty, text, texts, print,
        printEntries, Content.text]

end

/-! ## Values of documents -/

mutual

theorem Document.inDialect_value : ∀ document : Document, inDialect document.value
  | .mk body _ => body.inDialect_value

theorem Body.inDialect_value : ∀ body : Body, inDialect body.value
  | .number digits => by
    have small := digits.small
    simp only [Body.value, inDialect, Bool.and_eq_true, decide_eq_true_eq]
    exact ⟨Int.natCast_nonneg _, by exact_mod_cast small⟩
  | .string content => by simpa [Body.value, inDialect] using content.closed
  | .keyword word => by cases word <;> rfl
  | .array _ items => allInDialect_iff.mpr items.inDialect_values
  | .object _ pairs => by
    have keys := Value.Entries.nodup_keys_ofTexts pairs.entries
    simp only [Body.value, inDialect, Bool.and_eq_true, decide_eq_true_eq]
    refine ⟨entriesInDialect_iff.mpr fun entry member => ?_, keys⟩
    obtain ⟨pair, listed, rfl⟩ := Value.Entries.mem_ofTexts member
    exact pairs.inDialect_entries pair listed

theorem Items.inDialect_values : ∀ items : Items, ∀ value ∈ items.values, inDialect value
  | .nil => nofun
  | .cons item _ rest => List.forall_mem_cons.mpr ⟨item.inDialect_value, rest.inDialect_values⟩

theorem Pairs.inDialect_entries : ∀ pairs : Pairs, ∀ entry ∈ pairs.entries,
    (∃ content : Content, Value.str entry.1 = .str content.content) ∧ inDialect entry.2
  | .nil => nofun
  | .cons key _ _ item _ rest =>
    List.forall_mem_cons.mpr ⟨⟨⟨key, rfl⟩, item.inDialect_value⟩, rest.inDialect_entries⟩

end

end Descent.Grammar.Json
