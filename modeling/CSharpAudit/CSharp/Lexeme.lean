import CSharpAudit.CSharp.Token
import CSharpAudit.Text.NameChar

/-!
How far lexemes reach. Each function tells how many characters of a text belong to one lexeme at
its head, zero meaning that none is there.
-/

namespace CSharpAudit.CSharp

/-- What may stand between tokens. -/
def isSpace (c : Char) : Bool :=
  ('\t' ≤ c && c ≤ '\r') || [' ', '\u00A0', '\u3000', '\uFEFF'].contains c

def runLength (c : Char) (text : List Char) : Nat :=
  (text.takeWhile (· == c)).length

def lineLength (text : List Char) : Nat :=
  (text.takeWhile (· != '\n')).length

def isHexDigit (c : Char) : Bool :=
  c.isDigit || ('a' ≤ c && c ≤ 'f') || ('A' ≤ c && c ≤ 'F')

def hexLength (count : Nat) (text : List Char) : Nat :=
  if (text.take count).length = count && (text.take count).all isHexDigit then count else 0

/-- A character of a name: itself, or its number behind a backslash. -/
def nameCharLength (isNameChar : Char → Bool) (text : List Char) : Nat :=
  match text with
  | '\\' :: 'u' :: rest => if hexLength 4 rest = 0 then 0 else 6
  | '\\' :: 'U' :: rest => if hexLength 8 rest = 0 then 0 else 10
  | c :: _ => if isNameChar c then 1 else 0
  | [] => 0

/-- The characters of a name behind its first. Each step takes at least one. -/
def nameRestLength : Nat → List Char → Nat
  | 0, _ => 0
  | steps + 1, text =>
    match nameCharLength Text.isNameChar text with
    | 0 => 0
    | n => n + nameRestLength steps (text.drop n)

def nameLength (text : List Char) : Nat :=
  match nameCharLength Text.isNameStart text with
  | 0 => 0
  | n => n + nameRestLength text.length (text.drop n)

/-- Characters up to and with the end of a comment between marks, if it ends. -/
def commentRest : List Char → Option Nat
  | [] => none
  | '*' :: '/' :: _ => some 2
  | _ :: rest => (commentRest rest).map (· + 1)

def commentLength (text : List Char) : Nat :=
  match text with
  | '/' :: '/' :: _ => (text.takeWhile (fun c => c != '\n' && c != '\r')).length
  | '/' :: '*' :: rest =>
    match commentRest rest with
    | some n => n + 2
    | none => 0
  | _ => 0

/-- The suffix of an integer: one letter for unsigned, one for long, or both in either order. -/
def integerSuffix : List Char → Nat
  | a :: b :: _ =>
    match a.toLower, b.toLower with
    | 'u', 'l' => 2
    | 'l', 'u' => 2
    | 'u', _ => 1
    | 'l', _ => 1
    | _, _ => 0
  | [a] => if a.toLower == 'u' || a.toLower == 'l' then 1 else 0
  | [] => 0

def realSuffix : List Char → Nat
  | c :: _ => if ['f', 'd', 'm'].contains c.toLower then 1 else 0
  | [] => 0

/-- Digits and the low lines between them, up to the last digit. -/
def digitsLength (isDigit : Char → Bool) (text : List Char) : Nat :=
  ((text.takeWhile (fun c => isDigit c || c == '_')).reverse.dropWhile (· == '_')).length

def fractionLength : List Char → Nat
  | '.' :: d :: rest => if d.isDigit then 1 + digitsLength Char.isDigit (d :: rest) else 0
  | _ => 0

/-- Digits of an exponent, which may end with low lines. -/
def exponentDigits : List Char → Nat
  | [] => 0
  | d :: rest => if d.isDigit then 1 + (rest.takeWhile (fun c => c.isDigit || c == '_')).length else 0

def exponentLength : List Char → Nat
  | e :: s :: rest =>
    let sign := if s == '+' || s == '-' then 1 else 0
    let digits := exponentDigits ((s :: rest).drop sign)
    if (e == 'e' || e == 'E') && 0 < digits then 1 + sign + digits else 0
  | _ => 0

def decimalLength (text : List Char) : TokenKind × Nat :=
  let whole := if text.head?.any Char.isDigit then digitsLength Char.isDigit text else 0
  let fraction := fractionLength (text.drop whole)
  let exponent := exponentLength (text.drop (whole + fraction))
  let length := whole + fraction + exponent
  let suffix := realSuffix (text.drop length)
  if fraction = 0 ∧ exponent = 0 ∧ suffix = 0 then
    (.integer, length + integerSuffix (text.drop length))
  else (.real, length + suffix)

def numberLength (text : List Char) : TokenKind × Nat :=
  match text with
  | '0' :: x :: rest =>
    let based (isDigit : Char → Bool) : TokenKind × Nat :=
      match digitsLength isDigit rest with
      | 0 => decimalLength text
      | n => (.integer, 2 + n + integerSuffix (text.drop (2 + n)))
    if x == 'x' || x == 'X' then based isHexDigit
    else if x == 'b' || x == 'B' then based (fun c => c == '0' || c == '1')
    else decimalLength text
  | _ => decimalLength text

def escapeLength : List Char → Nat
  | 'x' :: rest =>
    match ((rest.take 4).takeWhile isHexDigit).length with
    | 0 => 0
    | n => 1 + n
  | 'u' :: rest => if hexLength 4 rest = 0 then 0 else 5
  | 'U' :: rest => if hexLength 8 rest = 0 then 0 else 9
  | c :: _ => if "abefnrtv'\"\\?0".toList.contains c then 1 else 0
  | [] => 0

def characterLength (text : List Char) : Nat :=
  match text with
  | '\x27' :: '\\' :: rest =>
    let n := escapeLength rest
    if 0 < n && (rest.drop n).head? == some '\x27' then n + 3 else 0
  | '\x27' :: c :: '\x27' :: _ => if c == '\x27' then 0 else 3
  | _ => 0

/-- Characters of a string up to and with its closing quote, if it closes on its line and all its
escapes are sound. Each step takes at least one character. -/
def stringRest : Nat → List Char → Option Nat
  | 0, _ => none
  | _, [] => none
  | _ + 1, '\x22' :: _ => some 1
  | steps + 1, '\\' :: rest =>
    match escapeLength rest with
    | 0 => none
    | n => (stringRest steps (rest.drop n)).map (· + (n + 1))
  | steps + 1, c :: rest => if c == '\n' then none else (stringRest steps rest).map (· + 1)

/-- Characters of a verbatim string up to and with its closing quote. Two quotes are one of its
characters. -/
def verbatimRest : List Char → Option Nat
  | [] => none
  | '\x22' :: '\x22' :: rest => (verbatimRest rest).map (· + 2)
  | '\x22' :: _ => some 1
  | _ :: rest => (verbatimRest rest).map (· + 1)

/-- Characters of a raw string up to and with its closing quotes, as many as opened it. -/
def rawRest (quotes : Nat) : List Char → Option Nat
  | [] => none
  | c :: rest =>
    if quotes ≤ runLength '\x22' (c :: rest) then some quotes
    else (rawRest quotes rest).map (· + 1)

def encodingSuffix : List Char → Nat
  | u :: '8' :: _ => if u == 'u' || u == 'U' then 2 else 0
  | _ => 0

/-- A whole string without interpolation, `opening` characters of which open it. -/
def closedString (kind : TokenKind) (opening : Nat) (rest : Option Nat) (text : List Char) :
    TokenKind × Nat :=
  match rest with
  | some n => (kind, opening + n + encodingSuffix (text.drop (opening + n)))
  | none => (.stray, 1)

def stringLength (text : List Char) : TokenKind × Nat :=
  let quotes := runLength '\x22' text
  if 3 ≤ quotes then closedString .rawString quotes (rawRest quotes (text.drop quotes)) text
  else closedString .string 1 (stringRest text.length (text.drop 1)) text

/-- Punctuation and operators, longer ones before their beginnings. Marks that start with two
closing angles are left apart, since such angles may close lists of types one by one. -/
def marks : List String :=
  ["??=", "<<=", "=>", "==", "!=", "<=", "<<", ">=", "+=", "++", "-=", "--", "->", "*=", "/=", "%=",
    "&=", "&&", "|=", "||", "^=", "??", "..", "::", "=", "!", "<", ">", "+", "-", "*", "/", "%", "&",
    "|", "^", "?", ".", ":", ";", ",", "(", ")", "[", "]", "\x7b", "\x7d", "~"]

def markLength (text : List Char) : Nat :=
  match marks.find? (fun m => m.toList.isPrefixOf text) with
  | some m => m.length
  | none => 0

end CSharpAudit.CSharp
