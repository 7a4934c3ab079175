import CSharpAudit.CSharp.Directive

/-!
From text to tokens. Inside an interpolated text the lexer alternates between characters and
expressions; a stack of frames tells which of the two it is in and how to get out.
-/

namespace CSharpAudit.CSharp

/-- How an interpolated text is written: verbatim or not, with how many quotes at each end and how
many braces around its expressions. Raw texts have three quotes or more. -/
structure TextStyle where
  verbatim : Bool
  quotes : Nat
  braces : Nat

def TextStyle.isRaw (s : TextStyle) : Bool :=
  3 ≤ s.quotes

inductive Frame
  | text (style : TextStyle)
  /-- In an expression of a text, inside that many brackets, with that many choices between values
  begun outside of them. -/
  | hole (style : TextStyle) (depth : Nat) (choices : Nat)

def textHead? (text : List Char) : Option (TextStyle × Nat) :=
  match text with
  | '$' :: '@' :: '\x22' :: _ => some (⟨true, 1, 1⟩, 3)
  | '@' :: '$' :: '\x22' :: _ => some (⟨true, 1, 1⟩, 3)
  | '$' :: _ =>
    let dollars := runLength '$' text
    let quotes := runLength '\x22' (text.drop dollars)
    if 3 ≤ quotes then some (⟨false, quotes, dollars⟩, dollars + quotes)
    else if dollars = 1 ∧ 1 ≤ quotes then some (⟨false, 1, 1⟩, 2)
    else none
  | _ => none

/-- Characters up to the next expression or the end of the text. A brace that is written twice is
one of the characters. Each step takes at least one. -/
def textPartLength (verbatim : Bool) : Nat → List Char → Nat
  | 0, _ => 0
  | steps + 1, text =>
    match text with
    | [] => 0
    | '\x7b' :: '\x7b' :: rest => textPartLength verbatim steps rest + 2
    | '\x7b' :: _ => 0
    | '\x22' :: '\x22' :: rest => if verbatim then textPartLength verbatim steps rest + 2 else 0
    | '\x22' :: _ => 0
    | c :: rest =>
      if verbatim then textPartLength verbatim steps rest + 1
      else if c == '\n' then 0
      else if c == '\\' then
        match escapeLength rest with
        | 0 => 0
        | n => textPartLength verbatim steps (rest.drop n) + (n + 1)
      else textPartLength verbatim steps rest + 1

/-- The same for raw texts, where fewer braces and quotes than the style asks for are characters. -/
def rawPartLength (style : TextStyle) : List Char → Nat
  | [] => 0
  | c :: rest =>
    if style.quotes ≤ runLength '\x22' (c :: rest) then 0
    else if runLength '\x7b' (c :: rest) = style.braces then 0
    else rawPartLength style rest + 1

def textLexeme (style : TextStyle) (below : List Frame) (text : List Char) :
    TokenKind × Nat × List Frame :=
  let part :=
    if style.isRaw then rawPartLength style text
    else textPartLength style.verbatim text.length text
  if 0 < part then (.textPart, part, .text style :: below)
  else if style.quotes ≤ runLength '\x22' text then
    (.textClose, style.quotes + encodingSuffix (text.drop style.quotes), below)
  else if style.braces ≤ runLength '\x7b' text then
    (.holeOpen, style.braces, .hole style 0 0 :: .text style :: below)
  else (.stray, 1, .text style :: below)

/-- Whether a question mark asks for a choice, and not for a member or an element. -/
def asksForChoice (text : List Char) : Bool :=
  match (text.drop 1).dropWhile isSpace with
  | c :: _ => c != '.' && c != '['
  | [] => false

def framesAfter (text : List Char) (length : Nat) (frames : List Frame) : List Frame :=
  match frames with
  | .hole style depth choices :: below =>
    match text.take length with
    | [c] =>
      if ['(', '[', '\x7b'].contains c then .hole style (depth + 1) choices :: below
      else if [')', ']', '\x7d'].contains c then .hole style (depth - 1) choices :: below
      else if depth = 0 && c == '?' && asksForChoice text then
        .hole style depth (choices + 1) :: below
      else if depth = 0 && c == ':' then .hole style depth (choices - 1) :: below
      else frames
    | _ => frames
  | _ => frames

/-- The format behind an interpolated expression: a colon and all up to the closing brace, but not
nothing. -/
def formatLength (text : List Char) : Nat :=
  match text with
  | ':' :: ':' :: _ => 0
  | ':' :: rest =>
    match (rest.takeWhile (fun c => c != '\x7d' && c != '\x22')).length with
    | 0 => 0
    | n => n + 1
  | _ => 0

def codeLexeme (frames : List Frame) (text : List Char) : TokenKind × Nat × List Frame :=
  let plain : TokenKind × Nat × List Frame :=
    match textHead? text with
    | some (style, n) => (.textOpen, n, .text style :: frames)
    | none =>
      let (kind, n) := plainLexeme text
      (kind, n, if kind == .mark then framesAfter text n frames else frames)
  match frames with
  | .hole style 0 choices :: below =>
    if style.braces ≤ runLength '\x7d' text then (.holeClose, style.braces, below)
    else if choices = 0 && 0 < formatLength text then (.format, formatLength text, frames)
    else plain
  | _ => plain

structure Scan where
  rest : List Char
  offset : Nat
  /-- Whether the end of the line ends a condition, and so is a token. -/
  inCondition : Bool
  frames : List Frame
  joined : Bool
  trivia : List Concrete.Node

namespace Scan

def width (text : List Char) : Nat :=
  text.foldl (fun n c => n + c.utf8Size) 0

def spanOf (s : Scan) (n : Nat) : Span :=
  ⟨s.offset, s.offset + width (s.rest.take n)⟩

def skip (s : Scan) (n : Nat) : Scan :=
  { s with rest := s.rest.drop n, offset := s.offset + width (s.rest.take n), joined := false }

def addTrivia (s : Scan) (type : String) (n : Nat) : Scan :=
  { s.skip n with trivia := s.trivia ++ [Concrete.Node.branch type (s.spanOf n) []] }

/-- Past what stands between tokens, if something does. -/
def skipTrivia? (s : Scan) : Option Scan :=
  match s.frames with
  | .text _ :: _ => none
  | _ =>
    match s.rest with
    | [] => none
    | c :: _ =>
      if isSpace c && !(s.inCondition && c == '\n') then some (s.skip 1)
      else if c == '#' then
        if s.offset = 0 && isScriptHead s.rest then
          some (s.addTrivia "shebang_directive" (lineLength s.rest))
        else (looseDirective? s.rest).map (fun d => s.addTrivia d.1 d.2)
      else
        match commentLength s.rest with
        | 0 => none
        | n => some (s.addTrivia "comment" n)

def next (s : Scan) : Token × Scan :=
  let (kind, text, n, frames) : TokenKind × String × Nat × List Frame :=
    match s.frames with
    | .text style :: below =>
      let (kind, n, frames) := textLexeme style below s.rest
      (kind, "", n, frames)
    | _ =>
      match s.inCondition && s.rest.head? == some '\n', sectionDirective? s.rest with
      | true, _ => (.mark, "\n", 1, s.frames)
      | false, some (text, n) => (.mark, text, n, s.frames)
      | false, none =>
        let (kind, n, frames) := codeLexeme s.frames s.rest
        let text := String.ofList (s.rest.take (max n 1))
        (if kind == .word && keywords.contains text then .keyword else kind, text, n, frames)
  let n := max n 1
  ({ kind, text, span := s.spanOf n, joined := s.joined, trivia := s.trivia },
    { s.skip n with
      inCondition := text == "#if" || text == "#elif" || (s.inCondition && text != "\n")
      frames, joined := true, trivia := [] })

def finish (s : Scan) : Token :=
  { kind := .finish, text := "", span := ⟨s.offset, s.offset⟩, joined := s.joined,
    trivia := s.trivia }

/-- The tokens from here on, the last of which is the end of the source. Every step takes at least
one character, so as many steps as there are characters are enough. -/
def tokens : Nat → Scan → List Token
  | 0, s => [s.finish]
  | steps + 1, s =>
    if s.rest.isEmpty then [s.finish]
    else
      match s.skipTrivia? with
      | some after => tokens steps after
      | none =>
        let (token, after) := s.next
        token :: tokens steps after

end Scan

def tokenize (text : List Char) : List Token :=
  Scan.tokens (text.length + 1)
    { rest := text, offset := 0, inCondition := false, frames := [], joined := false, trivia := [] }

end CSharpAudit.CSharp
