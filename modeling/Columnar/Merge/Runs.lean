import Columnar.Failure

namespace Columnar.Merge

structure Run where
  start : Nat
  stop : Nat
  deriving DecidableEq, Repr

def Run.length (run : Run) : Nat := run.stop - run.start

/-- A buffer and the room in which a merge is put together before it is copied back. -/
structure Workspace (α : Type) where
  buffer : Array α
  scratch : Array α

variable {α : Type} (order : α → α → Ordering)

/-- The buffer with `items` in place of as many from `start` on. -/
def splice (buffer : Array α) (start : Nat) (items : Array α) : Array α :=
  buffer.extract 0 start ++ items ++ buffer.extract (start + items.size) buffer.size

/-- Moves the items of `run` from `left` up to `middle` and from `right` to the end into `scratch`, in
order. An item of the right part goes first only if it is less. -/
def collect (run : Array α) (middle : Nat) (middle_le : middle ≤ run.size) (left right : Nat)
    (scratch : Array α) : Array α :=
  if h : left < middle ∧ right < run.size then
    if order run[right] run[left] = .lt then
      collect run middle middle_le left (right + 1) (scratch.push run[right])
    else
      collect run middle middle_le (left + 1) right (scratch.push run[left])
  else scratch ++ run.extract left middle ++ run.extract right run.size
termination_by (middle - left) + (run.size - right)

def mergeAdjacent (run : Run) (middle : Nat) (work : Workspace α) :
    Except Failure (Workspace α) :=
  if run.stop < run.start ∨ work.buffer.size < run.stop then .error .outOfBounds
  else
    let items := work.buffer.extract run.start run.stop
    if h : middle ≤ items.size then
      if middle = 0 ∨ middle = items.size then .ok work
      else
        -- What is left in the room from before is thrown away first.
        let merged := collect order items middle h 0 middle (work.scratch.take 0)
        if merged.size = items.size then
          .ok { buffer := splice work.buffer run.start merged, scratch := merged }
        else .error .outOfBounds
    else .error .outOfBounds

/-- Merges neighbouring runs, each half of the list first. The run that results covers them all. -/
def mergeRuns (runs : List Run) (work : Workspace α) : Except Failure (Run × Workspace α) :=
  match runs with
  | [] => .ok (⟨0, 0⟩, work)
  | [run] => .ok (run, work)
  | first :: second :: rest => do
    let runs := first :: second :: rest
    let (left, work) ← mergeRuns (runs.take (runs.length / 2)) work
    let (right, work) ← mergeRuns (runs.drop (runs.length / 2)) work
    let work ← mergeAdjacent order ⟨left.start, right.stop⟩ left.length work
    return (⟨left.start, right.stop⟩, work)
termination_by runs.length
decreasing_by
  all_goals simp only [List.length_take, List.length_drop, List.length_cons]; omega

end Columnar.Merge
