/-!
Paths of files as text. A path is known by its clean form: no repeated separators, no components
that stay in place, no separator at the end.
-/

namespace CSharpAudit

/-- The separators that a path keeps at its head. Two of them mean something else than one; more
than two mean the same as one. -/
def pathRoot (path : List Char) : List Char :=
  match (path.takeWhile (· == '/')).length with
  | 0 => []
  | 2 => ['/', '/']
  | _ => ['/']

def pathComponents (path : String) : List String :=
  ((path.toList.splitOn '/').map String.ofList).filter (fun c => c != "" && c != ".")

def cleanPath (path : String) : String :=
  let root := String.ofList (pathRoot path.toList)
  let body := String.intercalate "/" (pathComponents path)
  if root ++ body = "" then "." else root ++ body

end CSharpAudit
