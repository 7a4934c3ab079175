import CSharpAudit.Text.Quoted

/-!
The words of a command line. Options may stand before or behind the path; two hyphens alone end
the options, and one hyphen alone is a path.
-/

namespace CSharpAudit.CommandLine

structure Arguments where
  path : Option String := none
  verbose : Bool := false
  disabled : List String := []
  logLevel : String := "WARNING"
deriving DecidableEq, Repr

inductive ArgumentError
  | noSuchOption (name : String)
  | needsValue (name : String)
  | takesNoValue (name : String)
  | extraArguments (arguments : List String)
deriving DecidableEq, Repr

def ArgumentError.message : ArgumentError → String
  | .noSuchOption name => "No such option: " ++ name
  | .needsValue name => "Option " ++ Text.quoted name ++ " requires an argument."
  | .takesNoValue name => "Option " ++ Text.quoted name ++ " does not take a value."
  | .extraArguments arguments =>
    "Got unexpected extra argument(s) (" ++ String.intercalate " " arguments ++ ")"

/-- The options with a value, by what they do with it. -/
def valueOption? (name : String) : Option (String → Arguments → Arguments) :=
  match name with
  | "--disable" => some fun value args => { args with disabled := args.disabled ++ [value] }
  | "--log-level" => some fun value args => { args with logLevel := value }
  | _ => none

/-- The letters behind one hyphen, each an option of its own. -/
def shortOptions (args : Arguments) : List Char → Except ArgumentError Arguments
  | [] => .ok args
  | 'v' :: rest => shortOptions { args with verbose := true } rest
  | c :: _ => .error (.noSuchOption (String.ofList ['-', c]))

def splitOption (word : String) : String × Option String :=
  let chars := word.toList
  let name := String.ofList (chars.takeWhile (· != '='))
  if chars.contains '=' then (name, some (String.ofList ((chars.dropWhile (· != '=')).drop 1)))
  else (name, none)

/-- Reads the words one after the other. Words that are no options are gathered in `plain`. -/
def readWords (args : Arguments) (plain : List String) :
    List String → Except ArgumentError (Arguments × List String)
  | [] => .ok (args, plain)
  | word :: rest =>
    if word = "--" then .ok (args, plain ++ rest)
    else if word.startsWith "-" && word != "-" then
      let (name, value) := splitOption word
      match valueOption? name, value with
      | some apply, some value => readWords (apply value args) plain rest
      | some apply, none =>
        match rest with
        | [] => .error (.needsValue name)
        | value :: rest => readWords (apply value args) plain rest
      | none, value =>
        if name = "--verbose" then
          if value.isSome then .error (.takesNoValue name)
          else readWords { args with verbose := true } plain rest
        else if word.startsWith "--" then .error (.noSuchOption name)
        else
          match shortOptions args (word.toList.drop 1) with
          | .error e => .error e
          | .ok args => readWords args plain rest
    else readWords args (plain ++ [word]) rest

def Arguments.ofWords (words : List String) : Except ArgumentError Arguments :=
  match readWords {} [] words with
  | .error e => .error e
  | .ok (args, []) => .ok args
  | .ok (args, [path]) => .ok { args with path := some path }
  | .ok (_, _ :: extra) => .error (.extraArguments extra)

end CSharpAudit.CommandLine
