import RowQuery.Text.Blank

/-!
Paths in a store: names between slashes.
-/

namespace RowQuery.Path

def isSlash (c : Char) : Bool := c = '/'

def dropSlashes (path : String) : String := String.ofList (path.toList.dropWhile isSlash)

def dropEndSlashes (path : String) : String := String.ofList (Text.dropEndWhile isSlash path.toList)

def trimSlashes (path : String) : String := String.ofList (Text.trimWhile isSlash path.toList)

def combine (base name : String) : String :=
  let base := dropEndSlashes base
  if base.isEmpty then dropSlashes name else base ++ "/" ++ dropSlashes name

def isBelow (container path : String) : Bool :=
  (container ++ "/").toList.isPrefixOf path.toList

def startsWith (start path : String) : Bool := start.toList.isPrefixOf path.toList

def endsWith (ending path : String) : Bool := ending.toList.isSuffixOf path.toList

def splitSlashes : List Char → List (List Char)
  | [] => [[]]
  | c :: cs =>
    if isSlash c then [] :: splitSlashes cs
    else match splitSlashes cs with
      | piece :: rest => (c :: piece) :: rest
      | [] => [[c]]

def pieces (path : String) : List String := (splitSlashes path.toList).map String.ofList

end RowQuery.Path
