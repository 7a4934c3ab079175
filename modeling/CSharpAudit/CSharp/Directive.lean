import CSharpAudit.CSharp.Lexeme

/-!
Directives. Those that open, divide and close a conditional section belong to the grammar; the others
may stand between any two tokens, and fill a line up to and with its end.
-/

namespace CSharpAudit.CSharp

def plainLexeme (text : List Char) : TokenKind × Nat :=
  match text with
  | [] => (.finish, 0)
  | c :: rest =>
    if 0 < nameLength text then (.word, nameLength text)
    else if c == '@' && 0 < nameLength rest then (.verbatimWord, 1 + nameLength rest)
    else if c == '@' && rest.head? == some '\x22' then
      closedString .verbatimString 2 (verbatimRest (rest.drop 1)) text
    else if c == '\x22' then stringLength text
    else if c == '\x27' then
      match characterLength text with
      | 0 => (.stray, 1)
      | n => (.character, n)
    else if c.isDigit || (c == '.' && rest.head?.any Char.isDigit) then numberLength text
    else
      match markLength text with
      | 0 => (.stray, 1)
      | n => (.mark, n)

def sectionCommands : List String := ["if", "elif", "else", "endif"]

def looseCommands : List String :=
  ["region", "endregion", "define", "undef", "nullable", "pragma", "line", "error", "warning"]

def command? (commands : List String) (text : List Char) : Option (String × Nat) :=
  match text with
  | '#' :: rest =>
    let space := (rest.takeWhile (fun c => c == ' ' || c == '\t')).length
    (commands.find? (fun c => c.toList.isPrefixOf (rest.drop space))).map
      (fun c => (c, 1 + space + c.length))
  | _ => none

def sectionDirective? (text : List Char) : Option (String × Nat) :=
  (command? sectionCommands text).map (fun c => ("#" ++ c.1, c.2))

/-- The tokens of a line, comments left out. Each step takes at least one character. -/
def lineTokens : Nat → List Char → List (TokenKind × String)
  | 0, _ => []
  | steps + 1, text =>
    match text with
    | [] => []
    | c :: rest =>
      if isSpace c then lineTokens steps rest
      else
        match commentLength text with
        | 0 =>
          let (kind, n) := plainLexeme text
          (kind, String.ofList (text.take (max n 1))) :: lineTokens steps (text.drop (max n 1))
        | n => lineTokens steps (text.drop n)

def isWarningList : List (TokenKind × String) → Bool
  | [] => true
  | [(kind, _)] => kind == .word || kind == .integer
  | (kind, _) :: (_, comma) :: rest =>
    (kind == .word || kind == .integer) && comma == "," && !rest.isEmpty && isWarningList rest

def isSoundDirective (command : String) (line : List Char) : Bool :=
  let tokens := lineTokens line.length line
  let kinds := tokens.map Prod.fst
  let texts := tokens.map Prod.snd
  match command with
  | "region" | "endregion" => true
  | "nullable" =>
    (texts.head?.any ["enable", "disable", "restore"].contains) &&
      ((texts.drop 1).isEmpty || texts.drop 1 == ["annotations"] || texts.drop 1 == ["warnings"])
  | "pragma" =>
    (texts.head? == some "warning" && ((texts.drop 1).head?.any ["disable", "restore"].contains) &&
        isWarningList (tokens.drop 2)) ||
      (texts.head? == some "checksum" && kinds.drop 1 == [.string, .string, .string])
  | "line" =>
    let pair : List TokenKind := [.mark, .integer, .mark, .integer, .mark]
    texts == ["default"] || texts == ["hidden"] || kinds == [.integer] ||
      kinds == [.integer, .string] || kinds == pair ++ [.mark] ++ pair ++ [.string] ||
      kinds == pair ++ [.mark] ++ pair ++ [.integer, .string]
  | _ => !(line.dropWhile isSpace).isEmpty

/-- A directive that may stand anywhere: the type of its node, and its length with the end of its
line. -/
def looseDirective? (text : List Char) : Option (String × Nat) :=
  match command? looseCommands text with
  | none => none
  | some (command, n) =>
    let length := lineLength text
    if (text.drop length).isEmpty then none
    else if isSoundDirective command ((text.take length).drop n) then
      some ("preproc_" ++ command, length + 1)
    else none

/-- The first line of a script may name the program that runs it. -/
def isScriptHead (text : List Char) : Bool :=
  ['#', '!'].isPrefixOf text

end CSharpAudit.CSharp
