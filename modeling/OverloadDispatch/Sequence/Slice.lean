import OverloadDispatch.Fault
import OverloadDispatch.Word

/-!
# Positions and slices of a list

A position counts from the front when it is not negative and from the back when it is. A slice
walks from a start towards a stop in equal steps; bounds beyond the ends of the list are moved to
the ends, so a slice with a step other than zero always has a result.
-/

namespace OverloadDispatch.Sequence

variable {α : Type}

/-- The element at a position, counted from the back when the position is negative. -/
def elementAt (xs : List α) (i : Int) : Except Fault α :=
  if !Word.holds i then .error .indexTooWide
  else
    let j := if i < 0 then i + xs.length else i
    if j < 0 then .error .noParameter
    else
      match xs[j.toNat]? with
      | some x => .ok x
      | none => .error .noParameter

/-- The bounds and the step of a walk; what is absent has the widest meaning. -/
structure Slice where
  /-- Where the walk begins. -/
  start : Option Int := none
  /-- Where the walk ends, itself excluded. -/
  stop : Option Int := none
  /-- How far each step goes. -/
  step : Option Int := none
  deriving DecidableEq, Repr

namespace Slice

/-- The step of the walk, forward by one when none is given. -/
def stride (s : Slice) : Int := s.step.getD 1

/-- The least bound of a walk: the front, or the place before it when walking backward. -/
def least (s : Slice) : Int := if s.stride < 0 then -1 else 0

/-- The greatest bound of a walk: the place behind the end, or the last when walking backward. -/
def greatest (s : Slice) (size : Nat) : Int := if s.stride < 0 then size - 1 else size

/-- A bound counted from the front and moved between the least and the greatest one. -/
def clamp (s : Slice) (size : Nat) (bound : Int) : Int :=
  if bound < 0 then max (bound + size) s.least else min bound (s.greatest size)

/-- The first place of the walk. -/
def first (s : Slice) (size : Nat) : Int :=
  match s.start with
  | some bound => s.clamp size bound
  | none => if s.stride < 0 then s.greatest size else s.least

/-- The place before which the walk ends. -/
def limit (s : Slice) (size : Nat) : Int :=
  match s.stop with
  | some bound => s.clamp size bound
  | none => if s.stride < 0 then s.least else s.greatest size

/-- The number of places on the walk. -/
def count (s : Slice) (size : Nat) : Nat :=
  if 0 < s.stride then
    if s.first size < s.limit size then
      ((s.limit size - s.first size - 1) / s.stride + 1).toNat
    else 0
  else if s.limit size < s.first size then
    ((s.first size - s.limit size - 1) / -s.stride + 1).toNat
  else 0

/-- The places on the walk, in order. -/
def places (s : Slice) (size : Nat) : List Int :=
  (List.range (s.count size)).map fun (k : Nat) => s.first size + (k : Int) * s.stride

/-- The elements at the places of the walk. -/
def pick (s : Slice) (xs : List α) : List α :=
  (s.places xs.length).filterMap fun i => xs[i.toNat]?

/-- The part of a list that a slice selects. -/
def apply (s : Slice) (xs : List α) : Except Fault (List α) :=
  if s.stride = 0 then .error .zeroStep else .ok (s.pick xs)

end Slice

end OverloadDispatch.Sequence
