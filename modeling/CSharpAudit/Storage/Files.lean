import CSharpAudit.Storage.Path
import CSharpAudit.Text.Quoted

/-!
Reading files. `ReadError` lists what reading reports, and `Files` is a directory with
everything below it, in which a path is followed component by component.
-/

namespace CSharpAudit

inductive ReadError
  | notFound
  | notADirectory
  | isADirectory
  | nameTooLong
  /-- Any other failure that the system reports, with its number and its text. -/
  | other (number : Nat) (text : String)
deriving DecidableEq, Repr

namespace ReadError

def number : ReadError → Nat
  | .notFound => 2
  | .notADirectory => 20
  | .isADirectory => 21
  | .nameTooLong => 36
  | .other number _ => number

def text : ReadError → String
  | .notFound => "No such file or directory"
  | .notADirectory => "Not a directory"
  | .isADirectory => "Is a directory"
  | .nameTooLong => "File name too long"
  | .other _ text => text

def ofNumber (number : Nat) (text : String) : ReadError :=
  [notFound, notADirectory, isADirectory, nameTooLong].find? (fun e => e.number == number)
    |>.getD (.other number text)

def message (e : ReadError) (path : String) : String :=
  "[Errno " ++ toString e.number ++ "] " ++ e.text ++ ": " ++ Text.quoted path

end ReadError

/-- The files and directories below the current directory, each with the components of its path.
Directories on the way to an entry need no entry of their own. A file has bytes. -/
structure Files where
  entries : List (List String × Option Bytes)

namespace Files

inductive Found
  | file (content : Bytes)
  | directory

def find? (files : Files) (place : List String) : Option Found :=
  match files.entries.find? (fun e => e.1 == place) with
  | some (_, some content) => some (.file content)
  | some (_, none) => some .directory
  | none =>
    if place.isEmpty || files.entries.any (fun e => place.isPrefixOf e.1) then some .directory
    else none

def maxName : Nat := 255

/-- Follows the components of a path from a directory. Above the current directory only
directories are known, and nothing else in them: `above` counts how far up the path has led. -/
def follow (files : Files) (above : Nat) (place : List String) :
    List String → Except ReadError Bytes
  | [] => .error .isADirectory
  | name :: rest =>
    if name = ".." then
      if place.isEmpty then follow files (above + 1) [] rest
      else follow files above place.dropLast rest
    else if maxName < (Utf8.encode name).length then .error .nameTooLong
    else if 0 < above then .error .notFound
    else
      match files.find? (place ++ [name]) with
      | none => .error .notFound
      | some (.file content) => if rest.isEmpty then .ok content else .error .notADirectory
      | some .directory => follow files above (place ++ [name]) rest

/-- Reads the file at a path. Of the places that an absolute path can name, only the root is
known. -/
def read (files : Files) (path : String) : Except ReadError Bytes :=
  let components := pathComponents path
  if path.startsWith "/" then
    match components.filter (· != "..") with
    | [] => .error .isADirectory
    | name :: _ => .error (if maxName < (Utf8.encode name).length then .nameTooLong else .notFound)
  else files.follow 0 [] components

end Files

end CSharpAudit
