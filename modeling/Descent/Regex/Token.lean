import Descent.Regex.Basic
import Descent.Text.Decimal

/-!
# Tokens of a pattern

The text of a pattern is cut into tokens, each of them a set of characters, a parenthesis, a bar,
an anchor or a quantifier. A brace that does not begin a quantifier stands for itself, and so does
a closing bracket or brace outside a set. Escapes are those of the classes `\d`, `\w` and `\s` and
of what is not in them, of control characters, of the word boundary `\b`, which in a set is the
backspace, and of every character that is neither a letter nor a digit of ASCII.
-/

namespace Descent.Regex

inductive Group where
  | plain
  | ahead (expected : Bool)
  deriving DecidableEq, Inhabited

/-- Which rounds a quantifier tries first, and whether it tries others. -/
inductive Manner where
  | greedy
  | lazy
  | possessive
  deriving DecidableEq, Inhabited

/-- The rounds that a quantifier asks for: at least `least`, and up to `extra` more. -/
structure Quantifier where
  least : Nat
  extra : Option Nat
  manner : Manner
  deriving DecidableEq, Inhabited

/-- A tree, repeated as a quantifier asks for. -/
def Quantifier.apply (q : Quantifier) (body : Regex) : Regex :=
  match q.manner with
  | .greedy => .loop body q.least q.extra true
  | .lazy => .loop body q.least q.extra false
  | .possessive => .atomic (.loop body q.least q.extra true)

inductive Token where
  | chars (set : CharSet)
  | opening (group : Group)
  | closing
  | bar
  | start
  | stop
  | boundary
  | quantifier (q : Quantifier)
  deriving Inhabited

namespace Token

/-- The set that a character after a backslash stands for; none if the escape is unknown. -/
def escapedSet? (c : Char) : Option CharSet :=
  if c = 'd' then some .digit
  else if c = 'w' then some .word
  else if c = 's' then some .blank
  else if c = 'D' then some (.complement .digit)
  else if c = 'W' then some (.complement .word)
  else if c = 'S' then some (.complement .blank)
  else if c = 'n' then some (.one '\n')
  else if c = 'r' then some (.one '\r')
  else if c = 't' then some (.one '\t')
  else if c = 'a' then some (.one '\x07')
  else if c = 'v' then some (.one '\x0b')
  else if c = 'f' then some (.one '\x0c')
  else if c.isAlphanum then none
  else some (.one c)

/-! ## Sets in brackets -/

/-- The first member of a set in brackets, and what follows it. -/
def setMember? : Text → Option (CharSet × Text)
  | [] => none
  | '\\' :: 'b' :: rest => some (.one '\x08', rest)
  | '\\' :: c :: rest => (escapedSet? c).map (·, rest)
  | ['\\'] => none
  | c :: rest => some (.one c, rest)

/-- The set from one member to another: only single characters in order have one. -/
def rangeSet? : CharSet → CharSet → Option CharSet
  | .one low, .one high => if low ≤ high then some (.range low high) else none
  | _, _ => none

/-- The members of a set up to its closing bracket, last one first, and what follows the bracket.
A closing bracket that comes first is a member. A hyphen stands for itself before the closing
bracket. Each member takes one unit of `fuel`, for which the length of the text is enough. -/
def setMembers? (fuel : Nat) (members : List CharSet) (text : Text) :
    Option (List CharSet × Text) :=
  match fuel with
  | 0 => none
  | fuel + 1 => match text, members.isEmpty with
    | ']' :: rest, false => some (members, rest)
    | _, _ => do
      let (low, rest) ← setMember? text
      match rest with
      | '-' :: ']' :: rest => return (.one '-' :: low :: members, rest)
      | '-' :: rest =>
        let (high, rest) ← setMember? rest
        setMembers? fuel ((← rangeSet? low high) :: members) rest
      | _ => setMembers? fuel (low :: members) rest

/-- The set after an opening bracket, and what follows its closing bracket. -/
def bracketSet? (text : Text) : Option (CharSet × Text) :=
  match text with
  | '^' :: rest => (setMembers? (rest.length + 1) [] rest).map fun (members, rest) =>
    (.complement (.union members.reverse), rest)
  | _ => (setMembers? (text.length + 1) [] text).map fun (members, rest) =>
    (.union members.reverse, rest)

/-! ## Quantifiers -/

/-- The number that a run of digits writes, if there are any. -/
def number? (digits : Text) : Option Nat :=
  if digits.isEmpty then none else some (Text.decimalValue digits)

/-- The bounds after an opening brace, and what follows the closing one: `{m}`, `{m,}`, `{,n}` or
`{m,n}`. Without a lower bound it is zero, without an upper bound there is none. -/
def braceBounds? (text : Text) : Option ((Nat × Option Nat) × Text) :=
  let low := text.takeWhile Char.isDigit
  match text.dropWhile Char.isDigit with
  | '}' :: rest => (number? low).map fun n => ((n, some n), rest)
  | ',' :: afterComma =>
    let high := afterComma.takeWhile Char.isDigit
    match afterComma.dropWhile Char.isDigit with
    | '}' :: rest => some (((number? low).getD 0, number? high), rest)
    | _ => none
  | _ => none

/-- The quantifier with given bounds, and what follows. A question mark after it makes it lazy, a
plus sign possessive. The upper bound must not be below the lower one. -/
def bounded? (least : Nat) (most : Option Nat) (text : Text) : Option (Token × Text) :=
  if most.any (· < least) then none
  else
    let extra := most.map (· - least)
    match text with
    | '?' :: rest => some (.quantifier ⟨least, extra, .lazy⟩, rest)
    | '+' :: rest => some (.quantifier ⟨least, extra, .possessive⟩, rest)
    | _ => some (.quantifier ⟨least, extra, .greedy⟩, text)

/-! ## Tokens -/

/-- The token that a parenthesis begins, and what follows it. -/
def opening? : Text → Option (Token × Text)
  | '?' :: ':' :: rest => some (.opening .plain, rest)
  | '?' :: '=' :: rest => some (.opening (.ahead true), rest)
  | '?' :: '!' :: rest => some (.opening (.ahead false), rest)
  | '?' :: _ => none
  | rest => some (.opening .plain, rest)

/-- The token that begins with a character, and what follows it. -/
def next? (c : Char) (rest : Text) : Option (Token × Text) :=
  match c with
  | '.' => some (.chars .dot, rest)
  | '^' => some (.start, rest)
  | '$' => some (.stop, rest)
  | '|' => some (.bar, rest)
  | '(' => opening? rest
  | ')' => some (.closing, rest)
  | '*' => bounded? 0 none rest
  | '+' => bounded? 1 none rest
  | '?' => bounded? 0 (some 1) rest
  | '{' => match braceBounds? rest with
    | some ((least, most), rest) => bounded? least most rest
    | none => some (.chars (.one c), rest)
  | '[' => (bracketSet? rest).map fun (set, rest) => (.chars set, rest)
  | '\\' => match rest with
    | [] => none
    | 'b' :: rest => some (.boundary, rest)
    | d :: rest => (escapedSet? d).map fun set => (.chars set, rest)
  | _ => some (.chars (.one c), rest)

/-- The tokens of a text; each takes one unit of `fuel`, for which its length is enough. -/
def scanFrom? : Nat → Text → Option (List Token)
  | _, [] => some []
  | 0, _ :: _ => none
  | fuel + 1, c :: rest => do
    let (token, rest) ← next? c rest
    return token :: (← scanFrom? fuel rest)

def scan? (text : Text) : Option (List Token) :=
  scanFrom? text.length text

end Token
end Descent.Regex
