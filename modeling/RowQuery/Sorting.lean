/-!
The stable sort. A short list is sorted by insertion: each element goes behind the last of the
earlier ones that it does not precede. A longer one is taken as a sequence of runs, which are merged
pairwise; where it has no long run of its own, a piece of it is made into one, at once or by a
quicksort over as many unsorted pieces as stand together. All this asks for a total preorder. Where
there is none, the two ends of a merge may fail to meet, and then the sort panics.

Elements are taken to be larger than sixteen bytes, since smaller ones are sorted eight at a time.
-/

namespace RowQuery.Sorting

-- powers are those of the core library, whatever else is imported
attribute [local instance (high)] instPowNat

variable {α : Type} (precedes : α → α → Bool)

section Insertion

def insertFromEnd (x : α) : List α → List α
  | [] => [x]
  | y :: rest => if precedes x y then y :: insertFromEnd x rest else x :: y :: rest

def sortOnto (sorted : List α) : List α → List α
  | [] => sorted.reverse
  | x :: rest => sortOnto (insertFromEnd precedes x sorted) rest

def sort (l : List α) : List α := sortOnto precedes [] l

end Insertion

section Merging

def merge (left right : List α) : List α := left.merge right fun x y => !precedes y x

-- the last of both lists comes last, and of the right one if they are tied
def mergeFromEnd (left right : List α) : List α :=
  (right.reverse.merge left.reverse fun y x => !precedes y x).reverse

def mergeRuns (left right : List α) : List α :=
  if left.length ≤ right.length then merge precedes left right else mergeFromEnd precedes left right

def mergeFirst : Nat → List α → List α → List α × List α × List α
  | n + 1, x :: left, y :: right =>
    if precedes y x then
      let (merged, rest) := mergeFirst n (x :: left) right
      (y :: merged, rest)
    else
      let (merged, rest) := mergeFirst n left (y :: right)
      (x :: merged, rest)
  | _, left, right => ([], left, right)

/-- Merges from both ends, a half from each. What is taken from the front and from the back, and the
element in the middle if there is one, have to make up both lists. -/
def mergeEnds (left right : List α) : Option (List α) :=
  let length := left.length + right.length
  let (front, left₁, right₁) := mergeFirst precedes (length / 2) left right
  let (back, right₂, left₂) :=
    mergeFirst (fun y x => precedes x y) (length / 2) right.reverse left.reverse
  let ofLeft := if left.length < left₁.length + left₂.length then length % 2 else 0
  let ofRight := length % 2 - ofLeft
  if left₁.length + left₂.length = left.length + ofLeft ∧
      right₁.length + right₂.length = right.length + ofRight then
    some (front ++ (left₁.take ofLeft ++ right₁.take ofRight) ++ back.reverse)
  else none

end Merging

section Short

def mergePairs (a b c d : α) : List α :=
  match precedes c a, precedes d b with
  | false, false => if precedes c b then [a, c, b, d] else [a, b, c, d]
  | false, true => if precedes d c then [a, d, c, b] else [a, c, d, b]
  | true, false => if precedes b a then [c, b, a, d] else [c, a, b, d]
  | true, true => if precedes d a then [c, d, a, b] else [c, a, d, b]

def sortFour (w x y z : α) : List α :=
  let (a, b) := if precedes x w then (x, w) else (w, x)
  let (c, d) := if precedes z y then (z, y) else (y, z)
  mergePairs precedes a b c d

def sortHalf (four : Bool) : List α → List α
  | w :: x :: y :: z :: rest =>
    if four then sortOnto precedes (sortFour precedes w x y z).reverse rest
    else sort precedes (w :: x :: y :: z :: rest)
  | l => sort precedes l

def shortLength : Nat := 32

def sortShort (l : List α) : Option (List α) :=
  if l.length < 2 then some l
  else
    let half := sortHalf precedes (8 ≤ l.length)
    mergeEnds precedes (half (l.take (l.length / 2))) (half (l.drop (l.length / 2)))

end Short

section Pivot

def medianOfThree (less : Nat → Nat → Bool) (a b c : Nat) : Nat :=
  if less a b = less a c then (if less b c = less a b then b else c) else a

/-- The place of a pseudomedian, of three blocks of `length` elements that begin at the given
places. -/
def medianOfBlocks (less : Nat → Nat → Bool) (a b c length : Nat) : Nat :=
  if 8 ≤ length then
    let eighth := length / 8
    let within (start : Nat) :=
      medianOfBlocks less start (start + 4 * eighth) (start + 7 * eighth) eighth
    medianOfThree less (within a) (within b) (within c)
  else medianOfThree less a b c

def pivotPlace (l : List α) : Nat :=
  let elements := l.toArray
  let less (i j : Nat) : Bool :=
    match elements[i]?, elements[j]? with
    | some x, some y => precedes x y
    | _, _ => false
  let eighth := l.length / 8
  if l.length < 64 then medianOfThree less 0 (4 * eighth) (7 * eighth)
  else medianOfBlocks less 0 (4 * eighth) (7 * eighth) eighth

end Pivot

section Quicksort

variable (fallback : List α → Option (List α))

/-- A stable quicksort that gives way to `fallback` where its depth comes to a limit. No element
precedes `floor`, the pivot to the right of which the list stands, if there is one. Where that does
not precede the pivot either, the pivot is among the least elements, and those that are tied with it
stay as they are. -/
def quicksort : Nat → Option α → List α → Option (List α)
  | limit, floor, l =>
    if l.length ≤ shortLength then sortShort precedes l
    else
      match limit, l.splitAt (pivotPlace precedes l) with
      | limit + 1, (before, pivot :: after) =>
        let less := before.filter (precedes · pivot) ++ after.filter (precedes · pivot)
        if floor.any (!precedes · pivot) || less.isEmpty then do
          let tied := before.filter (!precedes pivot ·) ++ pivot :: after.filter (!precedes pivot ·)
          let more := before.filter (precedes pivot ·) ++ after.filter (precedes pivot ·)
          return tied ++ (← quicksort limit none more)
        else do
          let notLess := before.filter (!precedes · pivot) ++
            pivot :: after.filter (!precedes · pivot)
          let left ← quicksort limit floor less
          return left ++ (← quicksort limit (some pivot) notLess)
      | _, _ => fallback l

end Quicksort

structure Run (α : Type) where
  elements : List α
  sorted : Bool

section Runs

-- with its order a run also changes what goes on from it
def spanRun (goesOn : α → α → Bool) (last : α) : List α → List α × List α
  | [] => ([], [])
  | x :: rest =>
    if goesOn last x then
      let (run, rest) := spanRun goesOn x rest
      (x :: run, rest)
    else ([], x :: rest)

/-- The run with which a list begins, and what follows it. A run that descends strictly is turned
round. -/
def naturalRun : List α → List α × List α
  | x :: y :: rest =>
    if precedes y x then
      let (run, rest) := spanRun (fun x y => precedes y x) y rest
      ((x :: y :: run).reverse, rest)
    else
      let (run, rest) := spanRun (fun x y => !precedes y x) y rest
      (x :: y :: run, rest)
  | l => (l, [])

def nextRun (eager : Bool) (goodLength : Nat) (l : List α) : Option (Run α × List α) :=
  let (run, rest) := naturalRun precedes l
  if goodLength ≤ run.length then some (⟨run, true⟩, rest)
  else if eager then do
    return (⟨← sortShort precedes (l.take shortLength), true⟩, l.drop shortLength)
  else some (⟨l.take goodLength, false⟩, l.drop goodLength)

theorem length_naturalRun (l : List α) :
    (naturalRun precedes l).1.length + (naturalRun precedes l).2.length = l.length := by
  have length (goesOn : α → α → Bool) (last : α) (l : List α) :
      (spanRun goesOn last l).1.length + (spanRun goesOn last l).2.length = l.length := by
    fun_induction spanRun goesOn last l with
    | case1 => rfl
    | case2 last x rest goes run rest' found ih =>
      rw [found] at ih
      dsimp only at ih ⊢
      simp only [List.length_cons]
      omega
    | case3 => simp
  fun_cases naturalRun precedes l with
  | case1 x y rest descends run rest' found =>
    have := length (fun x y => precedes y x) y rest
    rw [found] at this
    dsimp only at this
    simp only [List.length_reverse, List.length_cons]
    omega
  | case2 x y rest ascends run rest' found =>
    have := length (fun x y => !precedes y x) y rest
    rw [found] at this
    dsimp only at this
    simp only [List.length_cons]
    omega
  | case3 => simp

theorem length_nextRun {eager : Bool} {goodLength : Nat} {l rest : List α} {run : Run α}
    (positive : 0 < goodLength) (inside : l ≠ [])
    (found : nextRun precedes eager goodLength l = some (run, rest)) :
    rest.length < l.length := by
  have length := length_naturalRun precedes l
  have nonempty := List.length_pos_iff.2 inside
  rw [nextRun] at found
  dsimp only at found
  split at found
  · cases found
    omega
  · split at found
    · obtain ⟨sorted, -, found⟩ := Option.bind_eq_some_iff.1 found
      cases found
      rw [List.length_drop, shortLength]
      omega
    · cases found
      rw [List.length_drop]
      omega

def runs (eager : Bool) (goodLength : Nat) (positive : 0 < goodLength) (l : List α) :
    Option (List (Run α)) :=
  if _empty : l = [] then some []
  else
    match _found : nextRun precedes eager goodLength l with
    | none => none
    | some (run, rest) => (runs eager goodLength positive rest).map (run :: ·)
termination_by l.length
decreasing_by exact length_nextRun precedes positive _empty _found

end Runs

section Drift

-- a quicksort for runs that are not sorted, and how long they may be for it
variable (quick : List α → Option (List α)) (room : Nat)

def Run.settle (run : Run α) : Option (List α) :=
  if run.sorted then some run.elements else quick run.elements

def mergeNeighbours (left right : Run α) : Option (Run α) :=
  if left.elements.length + right.elements.length ≤ room && !left.sorted && !right.sorted then
    some ⟨left.elements ++ right.elements, false⟩
  else do
    return ⟨mergeRuns precedes (← left.settle quick) (← right.settle quick), true⟩

/-- The runs before the last one, each with the depth in the tree of merges at which it meets the
next one. Those that meet at the given depth or below are merged. -/
def collapse (depth : Nat) : List (Run α × Nat) → Run α → Option (List (Run α × Nat) × Run α)
  | [], last => some ([], last)
  | (run, meets) :: before, last =>
    if depth ≤ meets then do collapse depth before (← mergeNeighbours precedes quick room run last)
    else some ((run, meets) :: before, last)

/-- The depth at which two neighbours meet, in a list of which `2 ^ 62` is `scale` times the
length. -/
def meetingDepth (scale first middle last : Nat) : Nat :=
  let differing := (scale * (first + middle)) ^^^ (scale * (middle + last))
  if differing = 0 then 64 else 63 - differing.log2

def mergeAll (scale : Nat) (before : List (Run α × Nat)) (last : Run α) (scanned : Nat) :
    List (Run α) → Option (Run α)
  | [] => (collapse precedes quick room 0 before last).map (·.2)
  | next :: rest => do
    let length := next.elements.length
    let depth := meetingDepth scale (scanned - last.elements.length) scanned (scanned + length)
    let (before, last) ← collapse precedes quick room depth before last
    mergeAll scale ((last, depth) :: before) next (scanned + length) rest

def goodLength (length : Nat) : Nat :=
  if length ≤ 4096 then min (length - length / 2) 64
  else
    let shift := (1 + length.log2) / 2
    (2 ^ shift + length / 2 ^ shift) / 2

theorem goodLength_pos {length : Nat} (positive : 0 < length) : 0 < goodLength length := by
  rw [goodLength]
  split
  · omega
  · next long =>
    have large : 12 ≤ length.log2 := (Nat.le_log2 (by omega)).2 (by omega)
    have power : 2 ^ 1 ≤ 2 ^ ((1 + length.log2) / 2) := Nat.pow_le_pow_right (by omega) (by omega)
    exact Nat.div_pos (Nat.le_add_right_of_le power) (by omega)

def drift (eager : Bool) (l : List α) : Option (List α) :=
  if nonempty : 0 < l.length then do
    let scale := (2 ^ (62 : Nat) + l.length - 1) / l.length
    match ← runs precedes eager (goodLength l.length) (goodLength_pos nonempty) l with
    | [] => none
    | first :: rest =>
      (← mergeAll precedes quick room scale [] first first.elements.length rest).settle quick
  else some l

end Drift

/-- The sort of a list, or `none` where it panics. `capacity` is the number of elements for which
room is made in any case. -/
def sort? (capacity : Nat) (l : List α) : Option (List α) :=
  if l.length ≤ 20 then some (sort precedes l)
  else
    let room := max (l.length - l.length / 2) (min l.length capacity)
    -- where runs are sorted at once there is nothing to do for a quicksort
    let eagerly := drift precedes (some ∘ sort precedes) room true
    let quick (l : List α) := quicksort precedes eagerly (2 * l.length.log2) none l
    if l.length ≤ 2 * shortLength then eagerly l else drift precedes quick room false l

end RowQuery.Sorting
