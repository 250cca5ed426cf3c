import NexusPipe.Go
import NexusPipe.Library.Pages

namespace NexusPipe

namespace Paging

def page (page : Int) : Int := if page < 1 then 1 else page

def perPage (perPage : Int) : Int := if perPage < 1 ∨ perPage > 100 then 20 else perPage

def totalPages (total perPage : Int) : Int :=
  total / perPage + if total % perPage ≠ 0 then 1 else 0

/-- `start` and `end` for a list of `len` elements; `none` when the page starts behind the list. -/
def bounds (len : Nat) (page perPage : Int) : Option (Int × Int) :=
  let start := toInt64 ((page - 1) * perPage)
  if start ≥ len then none
  else
    let stop := toInt64 (start + perPage)
    some (start, if stop > len then len else stop)

end Paging

def sliceBetween {α : Type} (s : List α) (low high : Int) : Except Fault (List α) :=
  if 0 ≤ low ∧ low ≤ high then .ok ((s.take high.toNat).drop low.toNat)
  else .error (.panic "slice bounds out of range")

namespace Paging
variable {α : Type} (s : List α) (page perPage : Int)

def sliced : Except Fault (List α) :=
  match bounds s.length page perPage with
  | none => .ok []
  | some (start, stop) => sliceBetween s start stop

def copied : Except Fault (List α) :=
  match bounds s.length page perPage with
  | none => .ok []
  | some (start, stop) =>
    if toInt64 (stop - start) < 0 then .error (.panic "makeslice: len out of range")
    else sliceBetween s start stop

end Paging
end NexusPipe
