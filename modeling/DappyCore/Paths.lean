import Mathlib.Data.List.DropRight

/-!
Paths as texts: components between slashes, among which an empty one and `.` count for nothing.
-/

namespace DappyCore.Paths

/-! ### Components -/

/-- Whether a part between slashes is a component: an empty one is not, nor is `.`. -/
def isComponent (part : List Char) : Bool := part ≠ [] ∧ part ≠ ['.']

def components (path : List Char) : List (List Char) := (path.splitOn '/').filter isComponent

/-- `Path::file_name`: the last component, unless it is `..`. -/
def fileName (path : List Char) : Option (List Char) :=
  (components path).getLast?.filter (· ≠ ['.', '.'])

/-! ### Whole paths -/

/-- `Path::is_absolute`. -/
def isAbsolute (path : String) : Bool := path.toList.head? = some '/'

/-- `Path::join`. -/
def join (dir name : String) : String :=
  if name.toList.head? = some '/' then name
  else if dir = "" ∨ dir.toList.getLast? = some '/' then dir ++ name
  else dir ++ "/" ++ name

/-- What ends no component, at the end of a path that is read backwards. -/
def dropEnds : List Char → List Char
  | '/' :: rest => dropEnds rest
  | '.' :: '/' :: rest => dropEnds rest
  | rest => rest

/-- A path as far as its last component. A `.` that it begins with stays. -/
def trimEnd (path : List Char) : List Char := (dropEnds path.reverse).reverse

/-- `Path::parent`. -/
def parent (path : String) : Option String :=
  match trimEnd path.toList with
  | [] => none
  | chars =>
    let front := chars.rdropWhile (· ≠ '/')
    let dir := trimEnd front
    some (if dir = [] ∧ front ≠ [] then "/" else String.ofList dir)

end DappyCore.Paths
