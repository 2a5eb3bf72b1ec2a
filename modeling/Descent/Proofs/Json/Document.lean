import Descent.Grammar.Json
import Descent.Proofs.Acceptance.Forms
import Descent.Proofs.Entries

/-!
# Documents

The dialect by itself, without a parser: a document holds every character of a text, so it tells both
the text and the value. Its parts can only be built from characters that may stand there.

Two things about a document depend on what follows it. A number ends where the digits end, and a
document takes all blanks after its body.
-/

namespace Descent.Grammar.Json

open Lexical

/-- The digits of a number within the limits. -/
structure Digits where
  text : Text
  nonempty : text ≠ []
  decimal : ∀ c ∈ text, Text.decimalDigits.contains c
  short : text.length ≤ maxDigits
  small : Text.decimalValue text ≤ maxNatural

/-- A text that can stand between quotes. -/
structure Content where
  content : Text
  closed : content.getLast? ≠ some escape

inductive Keyword where
  | true
  | false
  | null

/-- A comma and a gap, which may both be missing. -/
abbrev Separator := Option Gap

mutual

/-- A body and the blanks after it. -/
inductive Document where
  | mk (body : Body) (gap : Gap)

inductive Body where
  | number (digits : Digits)
  | string (content : Content)
  | keyword (word : Keyword)
  | array (gap : Gap) (items : Items)
  | object (gap : Gap) (pairs : Pairs)

inductive Items where
  | nil
  | cons (item : Document) (separator : Separator) (rest : Items)

inductive Pairs where
  | nil
  | cons (key : Content) (keyGap colonGap : Gap) (item : Document) (separator : Separator)
      (rest : Pairs)

end

/-! ## Texts -/

def Content.text (s : Content) : Text := quote :: (escaped s.content ++ [quote])

def Keyword.text : Keyword → Text
  | .true => ['t', 'r', 'u', 'e']
  | .false => ['f', 'a', 'l', 's', 'e']
  | .null => ['n', 'u', 'l', 'l']

def Separator.text : Separator → Text
  | none => []
  | some gap => ',' :: gap.text

mutual

def Document.text : Document → Text
  | .mk body gap => body.text ++ gap.text

def Body.text : Body → Text
  | .number digits => digits.text
  | .string content => content.text
  | .keyword word => word.text
  | .array gap items => '[' :: (gap.text ++ (items.text ++ [']']))
  | .object gap pairs => '{' :: (gap.text ++ (pairs.text ++ ['}']))

def Items.text : Items → Text
  | .nil => []
  | .cons item separator rest => item.text ++ (Separator.text separator ++ rest.text)

def Pairs.text : Pairs → Text
  | .nil => []
  | .cons key keyGap colonGap item separator rest =>
    key.text ++ (keyGap.text ++ ':' :: (colonGap.text ++
      (item.text ++ (Separator.text separator ++ rest.text))))

end

/-! ## Values -/

def Keyword.value : Keyword → Value
  | .true => .bool Bool.true
  | .false => .bool Bool.false
  | .null => .null

mutual

def Document.value : Document → Value
  | .mk body _ => body.value

def Body.value : Body → Value
  | .number digits => .int (Text.decimalValue digits.text)
  | .string content => .str content.content
  | .keyword word => word.value
  | .array _ items => .list items.values
  | .object _ pairs => .dict (Value.Entries.ofTexts pairs.entries)

def Items.values : Items → List Value
  | .nil => []
  | .cons item _ rest => item.value :: rest.values

def Pairs.entries : Pairs → List (Text × Value)
  | .nil => []
  | .cons key _ _ item _ rest => (key.content, item.value) :: rest.entries

end

/-! ## What follows -/

/-- A separator takes as much as it can: all blanks after its comma, and a comma if there is one. -/
def Separator.Maximal (after : Text) : Separator → Prop
  | none => after.head? ≠ some ','
  | some _ => after.Stops Unicode.isBlank

mutual

/-- No number of a document goes on in what follows it. -/
def Document.Maximal (after : Text) : Document → Prop
  | .mk body gap => body.Maximal (gap.text ++ after)

def Body.Maximal (after : Text) : Body → Prop
  | .number _ => after.Stops Text.decimalDigits.contains
  | .string _ | .keyword _ => True
  | .array _ items => items.Maximal (']' :: after)
  | .object _ pairs => pairs.Maximal ('}' :: after)

def Items.Maximal (after : Text) : Items → Prop
  | .nil => True
  | .cons item separator rest =>
    item.Maximal (Separator.text separator ++ (rest.text ++ after)) ∧ rest.Maximal after

def Pairs.Maximal (after : Text) : Pairs → Prop
  | .nil => True
  | .cons _ _ _ item separator rest =>
    item.Maximal (Separator.text separator ++ (rest.text ++ after)) ∧ rest.Maximal after

end

/-! ## Beginnings -/

/-- A text begins with a character that is neither a blank nor a comma. -/
def BeginsPart (text : Text) : Prop :=
  ∃ c rest, text = c :: rest ∧ Unicode.isBlank c = false ∧ c ≠ ','

theorem BeginsPart.append {text : Text} (h : BeginsPart text) (after : Text) :
    BeginsPart (text ++ after) := by
  obtain ⟨c, rest, rfl, unlike⟩ := h
  exact ⟨c, rest ++ after, rfl, unlike⟩

theorem BeginsPart.stops {text : Text} (h : BeginsPart text) : text.Stops Unicode.isBlank := by
  obtain ⟨c, rest, rfl, unlike⟩ := h
  exact Text.stops_cons.mpr unlike.1

theorem BeginsPart.head?_ne {text : Text} (h : BeginsPart text) : text.head? ≠ some ',' := by
  obtain ⟨c, rest, rfl, unlike⟩ := h
  simpa using unlike.2

theorem Separator.maximal (separator : Separator) {after : Text} (begins : BeginsPart after) :
    separator.Maximal after := by
  cases separator with
  | none => exact begins.head?_ne
  | some gap => exact begins.stops

theorem Digits.begins (digits : Digits) : BeginsPart digits.text := by
  obtain ⟨c, rest, shape⟩ := List.exists_cons_of_ne_nil digits.nonempty
  have decimal : c ∈ Text.decimalDigits := by
    have all := digits.decimal c (by simp [shape])
    simpa using all
  have unlike : (Text.decimalDigits.all fun c => !Unicode.isBlank c && c != ',') = true := rfl
  exact ⟨c, rest, shape, by simpa using List.all_eq_true.mp unlike c decimal⟩

theorem Content.begins (content : Content) : BeginsPart content.text :=
  ⟨quote, _, rfl, by decide⟩

theorem Body.begins (body : Body) : BeginsPart body.text := by
  cases body with
  | number digits => exact digits.begins
  | string content => exact content.begins
  | keyword word => cases word <;> exact ⟨_, _, rfl, by decide⟩
  | array gap items => exact ⟨_, _, rfl, by decide⟩
  | object gap pairs => exact ⟨_, _, rfl, by decide⟩

theorem Document.begins (document : Document) : BeginsPart document.text := by
  obtain ⟨body, gap⟩ := document
  exact body.begins.append gap.text

theorem Items.begins (items : Items) (after : Text) :
    BeginsPart (items.text ++ ']' :: after) := by
  cases items with
  | nil => exact ⟨_, _, rfl, by decide⟩
  | cons item separator rest => exact (item.begins.append _).append _

theorem Pairs.begins (pairs : Pairs) (after : Text) :
    BeginsPart (pairs.text ++ '}' :: after) := by
  cases pairs with
  | nil => exact ⟨_, _, rfl, by decide⟩
  | cons key keyGap colonGap item separator rest => exact (key.begins.append _).append _

end Descent.Grammar.Json
