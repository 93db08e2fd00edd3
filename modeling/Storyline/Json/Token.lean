import Storyline.Number.Reading

/-!
# Tokens of JSON text

`Token.scan?` splits a document into its tokens: punctuation, words, numbers and strings with
their escapes resolved. White space between tokens is a space, a tab, or a line break.
-/

set_option autoImplicit false

namespace Storyline.Json

/-- A token of a document. -/
inductive Token where
  | openBracket
  | closeBracket
  | openBrace
  | closeBrace
  | colon
  | comma
  | null
  | bool (value : Bool)
  | number (value : Number)
  | string (value : String)

/-- The value of a hexadecimal digit. -/
def hexDigit? (c : Char) : Option Nat :=
  if c.isDigit then some (digitValue c)
  else if 'a' ≤ c && c ≤ 'f' then some (c.toNat - 'a'.toNat + 10)
  else if 'A' ≤ c && c ≤ 'F' then some (c.toNat - 'A'.toNat + 10)
  else none

/-- The value of four hexadecimal digits. -/
def hexQuad? (a b c d : Char) : Option Nat := do
  some (((← hexDigit? a) * 16 + (← hexDigit? b)) * 256 + (← hexDigit? c) * 16 + (← hexDigit? d))

/-- The character that a letter after a backslash stands for. -/
def unescape? : Char → Option Char
  | '"' => some '"'
  | '\\' => some '\\'
  | '/' => some '/'
  | 'b' => some '\x08'
  | 'f' => some '\x0c'
  | 'n' => some '\n'
  | 'r' => some '\r'
  | 't' => some '\t'
  | _ => none

/-- The characters of a string up to its closing quote, in reverse order after `read`, and what
follows the quote. A pair of escaped surrogates is one character; a lone surrogate and an
unescaped control character are errors. -/
def stringTail? (read : List Char) : List Char → Option (List Char × List Char)
  | [] => none
  | '"' :: rest => some (read, rest)
  | '\\' :: 'u' :: a :: b :: c :: d :: rest =>
    match hexQuad? a b c d with
    | none => none
    | some n =>
      if 0xDC00 ≤ n && n < 0xE000 then none
      else if 0xD800 ≤ n && n < 0xDC00 then
        match rest with
        | '\\' :: 'u' :: e :: f :: g :: h :: rest =>
          match hexQuad? e f g h with
          | none => none
          | some m =>
            if 0xDC00 ≤ m && m < 0xE000 then
              let code := 0x10000 + (n - 0xD800) * 0x400 + (m - 0xDC00)
              stringTail? (Char.ofNat code :: read) rest
            else none
        | _ => none
      else stringTail? (Char.ofNat n :: read) rest
  | '\\' :: c :: rest =>
    match unescape? c with
    | none => none
    | some c => stringTail? (c :: read) rest
  | c :: rest => if c.toNat < 32 || c == '\\' then none else stringTail? (c :: read) rest

/-- The exponent of a literal and what follows it; a letter `e` needs digits. -/
def literalExponent? : List Char → Option (Option (Bool × List Char) × List Char)
  | letter :: rest =>
    if letter == 'e' || letter == 'E' then
      let (negative, digits) := splitSign rest
      let exponent := digits.takeWhile Char.isDigit
      if exponent.isEmpty then none
      else some (some (negative, exponent), digits.dropWhile Char.isDigit)
    else some (none, letter :: rest)
  | [] => some (none, [])

/-- The digits behind the point of a literal and what follows them; a point needs digits. -/
def literalFraction? : List Char → Option (List Char × List Char)
  | '.' :: rest =>
    let digits := rest.takeWhile Char.isDigit
    if digits.isEmpty then none else some (digits, rest.dropWhile Char.isDigit)
  | rest => some ([], rest)

/-- A number at the start of a text and what follows it. A literal starts with a digit after an
optional minus sign, and with a zero only if no digit follows. -/
def number? (text : List Char) : Option (Number × List Char) := do
  let (negative, unsigned) := match text with
    | '-' :: rest => (true, rest)
    | rest => (false, rest)
  let whole := unsigned.takeWhile Char.isDigit
  if whole.isEmpty || (whole.head? == some '0' && whole.length != 1) then none
  let (fraction, rest) ← literalFraction? (unsigned.dropWhile Char.isDigit)
  let (exponent, rest) ← literalExponent? rest
  some (← (NumberLiteral.mk negative whole fraction exponent).value?, rest)

/-- The token at the start of a text that does not start with white space, and what follows. -/
def token? : List Char → Option (Token × List Char)
  | '[' :: rest => some (.openBracket, rest)
  | ']' :: rest => some (.closeBracket, rest)
  | '\x7b' :: rest => some (.openBrace, rest)
  | '\x7d' :: rest => some (.closeBrace, rest)
  | ':' :: rest => some (.colon, rest)
  | ',' :: rest => some (.comma, rest)
  | 'n' :: 'u' :: 'l' :: 'l' :: rest => some (.null, rest)
  | 't' :: 'r' :: 'u' :: 'e' :: rest => some (.bool true, rest)
  | 'f' :: 'a' :: 'l' :: 's' :: 'e' :: rest => some (.bool false, rest)
  | '"' :: rest => (stringTail? [] rest).map fun (read, rest) =>
      (.string (String.ofList read.reverse), rest)
  | text => (number? text).map fun (n, rest) => (.number n, rest)

/-- Whether a character may stand between tokens. -/
def isGap (c : Char) : Bool := c == ' ' || c == '\t' || c == '\n' || c == '\r'

/-- The tokens of a text of at most `fuel` characters; every token takes at least one. -/
def scanWithin? : Nat → List Char → Option (List Token)
  | 0, text => if text.isEmpty then some [] else none
  | fuel + 1, text =>
    match text.dropWhile isGap with
    | [] => some []
    | text => do
      let (token, rest) ← token? text
      some (token :: (← scanWithin? fuel rest))

/-- The tokens of a document. -/
def scan? (text : String) : Option (List Token) :=
  scanWithin? text.length text.toList

end Storyline.Json
