import Descent.Text.Basic
import Descent.Unicode.Printable

/-!
# Quoted text

A text in quotes, on one line and made of printable characters only. The quote is `'`, or `"` when
the text holds a `'` and no `"`. A backslash and the quote in use are written after a backslash,
the line feed, the carriage return and the tab by their letters, and every other character that is
not printable by its code point in the shortest of the forms `\xhh`, `\uhhhh` and `\Uhhhhhhhh`.
-/

namespace Descent.Text

/-- The last `width` hexadecimal digits of a number, in lower case. -/
def hexDigits (width n : Nat) : Text :=
  match width with
  | 0 => []
  | width + 1 => hexDigits width (n / 16) ++ [Nat.digitChar (n % 16)]

/-- The form of a character that names its code point. -/
def codePointEscape (n : Nat) : Text :=
  if n < 0x100 then ['\\', 'x'] ++ hexDigits 2 n
  else if n < 0x10000 then ['\\', 'u'] ++ hexDigits 4 n
  else ['\\', 'U'] ++ hexDigits 8 n

/-- The quote for a text: the single one, unless only that one occurs in the text. -/
def quoteFor (text : Text) : Char :=
  if text.contains '\'' && !text.contains '"' then '"' else '\''

def quotedChar (quote c : Char) : Text :=
  if c = '\\' || c = quote then ['\\', c]
  else if c = '\n' then ['\\', 'n']
  else if c = '\r' then ['\\', 'r']
  else if c = '\t' then ['\\', 't']
  else if Unicode.isPrintable c then [c]
  else codePointEscape c.toNat

def quoted (text : Text) : String :=
  let quote := text.quoteFor
  String.ofList (quote :: text.flatMap (quotedChar quote) ++ [quote])

end Descent.Text
