import RowQuery.Text.CaseTable
import RowQuery.Text.SigmaTable

/-!
Upper and lower case of whole texts, by the full mappings: a character may become several, and a
sigma at the end of a word has a form of its own.
-/

namespace RowQuery.Text

/-- The images listed for a code point, else its run, else the code point itself. -/
def mapCase (runs : List (Nat × Nat × Nat × Int)) (images : List (Nat × List Nat)) (c : Char) :
    List Char :=
  match images.lookup c.toNat with
  | some image => image.map Char.ofNat
  | none =>
    match runs.find? fun (first, last, step, _) =>
        first ≤ c.toNat && c.toNat ≤ last && (c.toNat - first) % step = 0 with
    | some (_, _, _, shift) => [Char.ofNat (c.toNat + shift).toNat]
    | none => [c]

def upperChar (c : Char) : List Char :=
  if c.toNat < 128 then [c.toUpper] else mapCase CaseTable.upperRuns CaseTable.upperImages c

def lowerChar (c : Char) : List Char :=
  if c.toNat < 128 then [c.toLower] else mapCase CaseTable.lowerRuns CaseTable.lowerImages c

def inRanges (table : List (Nat × Nat)) (c : Char) : Bool :=
  table.any fun (first, last) => first ≤ c.toNat && c.toNat ≤ last

def leadsToCased (cs : List Char) : Bool :=
  match cs.dropWhile (inRanges SigmaTable.ignorable) with
  | c :: _ => inRanges SigmaTable.cased c
  | [] => false

def lowerFrom (before : List Char) : List Char → List Char
  | [] => []
  | c :: cs =>
    let image :=
      if c = 'Σ' then
        if leadsToCased before && !leadsToCased cs then ['ς'] else ['σ']
      else lowerChar c
    image ++ lowerFrom (c :: before) cs

def upper (s : String) : String := String.ofList (s.toList.flatMap upperChar)

def lower (s : String) : String := String.ofList (lowerFrom [] s.toList)

end RowQuery.Text
