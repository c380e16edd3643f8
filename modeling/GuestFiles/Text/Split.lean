/-! # Cutting a list at its first mark -/

namespace GuestFiles.Text

/-- What stands before the first `mark`, and what stands after it; everything and nothing when there
is none. -/
def splitFirst {α : Type} [DecidableEq α] (mark : α) (l : List α) : List α × List α :=
  (l.takeWhile (· ≠ mark), (l.dropWhile (· ≠ mark)).drop 1)

end GuestFiles.Text
