import CSharpAudit.Log
import CSharpAudit.Storage.Files
import CSharpAudit.Text.Blank
import CSharpAudit.Tree.Parse

/-!
Documents: the text of a file together with its tree, and everything that can keep a file from
becoming one.
-/

namespace CSharpAudit

inductive AcquisitionError.Reason
  | blankPath
  | unreadable (error : ReadError)
  | notUtf8
  | described (text : String)
deriving DecidableEq, Repr

def AcquisitionError.Reason.text : AcquisitionError.Reason → String
  | .blankPath => "Invalid filepath"
  | .unreadable .isADirectory => "is a directory, not a file"
  | .unreadable error => error.text
  | .notUtf8 => "not valid UTF-8 text"
  | .described text => text

/-- Why there is no text, and for which file. -/
structure AcquisitionError where
  path : Option String
  reason : AcquisitionError.Reason
deriving DecidableEq, Repr

def AcquisitionError.message (e : AcquisitionError) : String :=
  match e.path with
  | none => e.reason.text
  | some path => if path = "" then e.reason.text else path ++ ": " ++ e.reason.text

inductive LoadError
  | acquisition (error : AcquisitionError)
  /-- A path that no system call takes. -/
  | nulInPath
  | unparsable (error : SyntaxError)
deriving DecidableEq, Repr

def LoadError.message : LoadError → String
  | .acquisition error => error.message
  | .nulInPath => "embedded null byte"
  | .unparsable error => error.message

/-- What a command says of the error. A path that no system call takes is not foreseen, so its
message stands alone. -/
def LoadError.report : LoadError → String
  | .nulInPath => LoadError.nulInPath.message
  | error => "Error: " ++ error.message

/-- A result with what was logged on the way to it. -/
structure Logged (α : Type) where
  log : List Log.Record
  result : α

structure Document where
  path : String
  text : String
  tree : Tree

namespace Document

def loggerName : String := "sharplint.context"

def textOf (path : String) (content : Except ReadError Bytes) :
    Logged (Except LoadError String) :=
  match content with
  | .error error =>
    { log := [⟨.error, loggerName, "Failed to read file " ++ path ++ ": " ++ error.message path⟩]
      result := .error (.acquisition ⟨some path, .unreadable error⟩) }
  | .ok bytes =>
    match Utf8.decode? (Utf8.dropMark bytes) with
    | .error fault =>
      { log := [⟨.error, loggerName,
          "File " ++ path ++ " is not valid UTF-8: " ++ fault.message⟩]
        result := .error (.acquisition ⟨some path, .notUtf8⟩) }
    | .ok text => { log := [], result := .ok text }

/-- The text of the file at a path. `read` is asked with the clean path, and only if the path is
not blank. -/
def readSource (read : String → Except ReadError Bytes) (path : Option String) :
    Logged (Except LoadError String) :=
  match path with
  | none => ⟨[], .error (.acquisition ⟨none, .blankPath⟩)⟩
  | some path =>
    if Text.isBlankText path then ⟨[], .error (.acquisition ⟨none, .blankPath⟩)⟩
    else if path.toList.contains '\x00' then ⟨[], .error .nulInPath⟩
    else textOf (cleanPath path) (read (cleanPath path))

def treeRecord (path : String) (tree : Tree) : Log.Record :=
  ⟨.info, loggerName, "Parsed " ++ path ++ ": " ++ toString tree.root.size ++ " nodes, " ++
    toString tree.root.methodCount ++ " method(s)"⟩

def unparsableRecord (path : String) : Log.Record :=
  ⟨.warning, loggerName, "File " ++ path ++ " could not be parsed; no analysis performed"⟩

def ofText (grammar : Grammar) (path text : String) : Logged (Except LoadError Document) :=
  match Tree.parse grammar text with
  | .error error =>
    ⟨Tree.parseLog grammar text ++ [unparsableRecord path], .error (.unparsable error)⟩
  | .ok tree =>
    ⟨Tree.parseLog grammar text ++ [treeRecord path tree], .ok { path, text, tree }⟩

def load (read : String → Except ReadError Bytes) (grammar : Grammar) (path : Option String) :
    Logged (Except LoadError Document) :=
  let source := readSource read path
  match source.result with
  | .error error => ⟨source.log, .error error⟩
  | .ok text =>
    let document := ofText grammar (cleanPath (path.getD "")) text
    ⟨source.log ++ document.log, document.result⟩

end Document

end CSharpAudit
