import CSharpAudit.CSharp.Token

/-!
Grammars as data. A pattern says which tokens may come next and which nodes they form. What a pattern
can make of an input is a list of readings, the preferred one first and at most one for each length:
alternatives are preferred in their order, and more is preferred to less. So no choice is final until
all that follows fits too.

Patterns refer to each other by the names of rules. A chart holds, for one place in the input, what
every rule reads there, and is made from the charts of the places behind it. Its entries are lazy, so
each is worked out once, and only if it is asked for.
-/

namespace CSharpAudit.CSharp

mutual

inductive Pattern (Rule : Type)
  /-- One of some words with their own meaning here; an anonymous node. -/
  | words (texts : List String)
  | marks (texts : List String)
  /-- A word or mark of a list, as a named node. -/
  | oneOf (texts : List String) (type : String)
  | leaf (kind : TokenKind) (type : String)
  | tokenOf (kind : TokenKind)
  /-- A name, which may be any word but those that have another meaning here, as a named node. -/
  | name (excluded : List String) (type : String)
  /-- Nothing stands between the tokens before and behind. -/
  | glued
  | seq (parts : List (Pattern Rule))
  | any (alternatives : List (Pattern Rule))
  | many (part : Pattern Rule)
  /-- As many times as the part fits. -/
  | most (part : Pattern Rule)
  | opt (part : Pattern Rule)
  | ahead (part : Pattern Rule)
  | notAhead (part : Pattern Rule)
  | node (type : String) (part : Pattern Rule)
  /-- Gives the first node of the part a role. -/
  | role (field : String) (part : Pattern Rule)
  /-- Only where the part forms a node of one of these types. -/
  | only (types : List String) (part : Pattern Rule)
  /-- What comes first, wrapped once for each suffix that follows. -/
  | fold (first : Pattern Rule) (suffixes : List (Suffix Rule))
  | rule (name : Rule)

/-- What may follow an operand: the type of the node over both, the role of the operand in it, if it
has one, and what follows. -/
inductive Suffix (Rule : Type)
  | mk (type : String) (field : Option String) (part : Pattern Rule)

end

/-- A way to read the head of an input: the nodes it forms and the number of tokens it takes. -/
structure Reading where
  nodes : List Concrete.Node
  taken : Nat

/-- What the first so many rules read at one place, the last of them first. -/
structure Chart where
  size : Nat
  entries : List (Thunk (List Reading))

namespace Chart

def empty : Chart := ⟨0, []⟩

def push (c : Chart) (entry : Thunk (List Reading)) : Chart :=
  ⟨c.size + 1, entry :: c.entries⟩

def readings (c : Chart) (number : Nat) : List Reading :=
  if number < c.size then
    match c.entries[c.size - 1 - number]? with
    | some entry => entry.get
    | none => []
  else []

end Chart

/-- What is still to be read: the tokens, what is known of the first place, and of those behind. -/
structure Input where
  tokens : List Token
  here : Chart
  later : List (Thunk Chart)

namespace Input

def ofCharts (tokens : List Token) (charts : List (Thunk Chart)) : Input :=
  match charts with
  | [] => ⟨tokens, .empty, []⟩
  | c :: later => ⟨tokens, c.get, later⟩

def skip (i : Input) : Nat → Input
  | 0 => i
  | n + 1 => ofCharts (i.tokens.drop (n + 1)) (i.later.drop n)

end Input

def sectionTypes : List String := ["preproc_if", "preproc_elif", "preproc_else"]

def isTrivia (n : Concrete.Node) : Bool :=
  n.type == "comment" || ("preproc_".isPrefixOf n.type && !sectionTypes.contains n.type)

def spanOfNodes (nodes : List Concrete.Node) : Span :=
  match nodes.head?, nodes.getLast? with
  | some first, some last => ⟨first.span.start, last.span.stop⟩
  | _, _ => ⟨0, 0⟩

/-- One node over others. Trivia before the first of them stay outside. -/
def wrap (type : String) (nodes : List Concrete.Node) : List Concrete.Node :=
  let inner := nodes.dropWhile isTrivia
  nodes.takeWhile isTrivia ++ [Concrete.Node.branch type (spanOfNodes inner) inner]

def assign (field : String) : List Concrete.Node → List Concrete.Node
  | [] => []
  | n :: rest => if isTrivia n then n :: assign field rest else n.withField field :: rest

namespace Reading

def map (f : List Concrete.Node → List Concrete.Node) (r : Reading) : Reading :=
  ⟨f r.nodes, r.taken⟩

def append (r s : Reading) : Reading :=
  ⟨r.nodes ++ s.nodes, r.taken + s.taken⟩

def empty : Reading := ⟨[], 0⟩

def merge (preferred others : List Reading) : List Reading :=
  match preferred with
  | [] => others
  | _ => preferred ++ others.filter (fun s => !preferred.any (fun r => r.taken == s.taken))

def hasType (types : List String) (r : Reading) : Bool :=
  (r.nodes.find? (fun n => !isTrivia n)).any (fun n => types.contains n.type)

end Reading

abbrev Step := Input → List Reading

namespace Step

/-- Takes the next token as `form` shapes it, if it passes the test. -/
def token (test : Token → Bool) (form : Token → Concrete.Node) : Step := fun i =>
  match i.tokens with
  | [] => []
  | t :: _ => if test t then [⟨t.trivia ++ [form t], 1⟩] else []

def anonymous (t : Token) : Concrete.Node :=
  Concrete.Node.token t.text t.span

def named (type : String) (t : Token) : Concrete.Node :=
  Concrete.Node.branch type t.span []

def isWord (t : Token) : Bool :=
  t.kind == .word || t.kind == .keyword

def isName (excluded : List String) (t : Token) : Bool :=
  t.kind == .word || t.kind == .verbatimWord ||
    (t.kind == .keyword && !excluded.contains t.text)

def andThen (first second : Step) : Step := fun i =>
  (first i).foldl
    (fun found r => Reading.merge found ((second (i.skip r.taken)).map r.append)) []

/-- What growing readings has come to: the lengths that have been met, and the readings, the last
one first. -/
structure Growth where
  met : List Nat
  found : List Reading

/-- Grows a reading, behind which the input stands, in all ways that `next` knows, at most once for
each token of a list. Longer readings come before those that they have grown from. If it is to be
`full`, a reading that can grow is not one of them. -/
def grow (next : Input → Reading → List Reading) (full : Bool) :
    List Token → Input → Reading → Growth → Growth
  | [], _, r, g => { g with found := r :: g.found }
  | _ :: bound, i, r, g =>
    if g.met.contains r.taken then g
    else
      let longer := (next i r).filter (fun s => r.taken < s.taken)
      let grown := longer.foldl
        (fun g s => grow next full bound (i.skip (s.taken - r.taken)) s g)
        { g with met := r.taken :: g.met }
      if full && !longer.isEmpty then grown else { grown with found := r :: grown.found }

def growAll (next : Input → Reading → List Reading) (full : Bool) (first : List Reading) : Step :=
  fun i =>
    let grown := first.foldl (fun g r => grow next full i.tokens (i.skip r.taken) r g) ⟨[], []⟩
    grown.found.reverse

def repeated (part : Step) (full : Bool) : Step :=
  growAll (fun i r => (part i).map r.append) full [.empty]

def folded (first : Step) (suffixes : List (String × Option String × Step)) : Step := fun i =>
  let next (i : Input) (r : Reading) : List Reading :=
    suffixes.flatMap fun (type, field, suffix) =>
      (suffix i).map fun s =>
        Reading.map (wrap type) ⟨field.elim id assign r.nodes ++ s.nodes, r.taken + s.taken⟩
  growAll next false (first i) i

end Step

namespace Pattern

variable {Rule : Type}

mutual

/-- What a pattern reads at the head of an input, if each rule has its number. -/
def read (number : Rule → Nat) : Pattern Rule → Step
  | .words texts => Step.token (fun t => Step.isWord t && texts.contains t.text) Step.anonymous
  | .marks texts => Step.token (fun t => t.kind == .mark && texts.contains t.text) Step.anonymous
  | .oneOf texts type =>
    Step.token (fun t => (Step.isWord t || t.kind == .mark) && texts.contains t.text)
      (Step.named type)
  | .leaf kind type => Step.token (fun t => t.kind == kind) (Step.named type)
  | .tokenOf kind => Step.token (fun t => t.kind == kind) Step.anonymous
  | .name excluded type => Step.token (Step.isName excluded) (Step.named type)
  | .glued => fun i => if i.tokens.head?.any Token.joined then [.empty] else []
  | .seq parts => readSeq number parts
  | .any alternatives => readAny number alternatives
  | .many part => Step.repeated (read number part) false
  | .most part => Step.repeated (read number part) true
  | .opt part => fun i => Reading.merge (read number part i) [.empty]
  | .ahead part => fun i => if (read number part i).isEmpty then [] else [.empty]
  | .notAhead part => fun i => if (read number part i).isEmpty then [.empty] else []
  | .node type part => fun i => (read number part i).map (Reading.map (wrap type))
  | .role field part => fun i => (read number part i).map (Reading.map (assign field))
  | .only types part => fun i => (read number part i).filter (Reading.hasType types)
  | .fold first suffixes => Step.folded (read number first) (readSuffixes number suffixes)
  | .rule r => fun i => i.here.readings (number r)

def readSeq (number : Rule → Nat) : List (Pattern Rule) → Step
  | [] => fun _ => [.empty]
  | [part] => read number part
  | part :: rest => Step.andThen (read number part) (readSeq number rest)

def readAny (number : Rule → Nat) : List (Pattern Rule) → Step
  | [] => fun _ => []
  | part :: rest => fun i => Reading.merge (read number part i) (readAny number rest i)

def readSuffixes (number : Rule → Nat) :
    List (Suffix Rule) → List (String × Option String × Step)
  | [] => []
  | .mk type field part :: rest => (type, field, read number part) :: readSuffixes number rest

end

/-- What each of some patterns reads at one place. A pattern can use those before it there, and all
of them behind. -/
def chart (number : Rule → Nat) (patterns : List (Pattern Rule)) (tokens : List Token)
    (later : List (Thunk Chart)) : Chart :=
  patterns.foldl
    (fun known p => known.push (Thunk.mk fun _ => read number p ⟨tokens, known, later⟩)) .empty

def charts (number : Rule → Nat) (patterns : List (Pattern Rule)) :
    List Token → List (Thunk Chart)
  | [] => []
  | t :: rest =>
    let later := charts number patterns rest
    Thunk.mk (fun _ => chart number patterns (t :: rest) later) :: later

/-- The input of some tokens, when the rules stand for some patterns in the order of their
numbers. -/
def inputOf (number : Rule → Nat) (patterns : List (Pattern Rule)) (tokens : List Token) : Input :=
  .ofCharts tokens (charts number patterns tokens)

def word (text : String) : Pattern Rule := .words [text]

def mark (text : String) : Pattern Rule := .marks [text]

end Pattern

end CSharpAudit.CSharp
