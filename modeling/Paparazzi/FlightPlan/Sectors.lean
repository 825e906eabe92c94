import Paparazzi.Library.ClockwiseChain
import Paparazzi.Library.Numerals

/-!
The sectors of a flight plan: `slice_polygon` cuts a polygon into horizontal slices, and
`print_inside_polygon` prints a decision tree over them. Numbers are taken exact, also when they
are printed.
-/

namespace Paparazzi.FlightPlan.Sectors

open Paparazzi.Library.ClockwiseChain (orient)

attribute [local instance] Library.Numerals.atLeastTwo_two

variable {K : Type} [Field K] [LinearOrder K] [IsStrictOrderedRing K]

/-- The line of a side at the height `top`: where it is, and its slope. -/
structure Slice (K : Type) where
  top : K
  leftSide : K × K
  rightSide : K × K
  deriving DecidableEq

/-- A state of `slice_polygon`: the counter of the edges, the cursors on the left (`g`) and on the
right (`d`) with the slopes of their last edges, and the slices so far, the last one first. -/
structure Cursors (K : Type) where
  i : ℕ
  g : ℕ
  d : ℕ
  alphaG : K
  alphaD : K
  lastY : K
  l : List (Slice K)
  deriving DecidableEq

section

variable (poly : List (K × K))

/-- `poly.(i)` -/
def vertex (i : ℕ) : K × K := poly.getD i (0, 0)

def next (i : ℕ) : ℕ := (i + 1) % poly.length

def prev (i : ℕ) : ℕ := (i + poly.length - 1) % poly.length

/-- The first of the lowest vertices. -/
def bottom : ℕ :=
  (List.range' 1 (poly.length - 1)).foldl
    (fun bottom i => if (vertex poly i).2 < (vertex poly bottom).2 then i else bottom) 0

def slope (i j : ℕ) : K :=
  ((vertex poly j).1 - (vertex poly i).1) / ((vertex poly j).2 - (vertex poly i).2)

/-- The inner loop on the right, at most `fuel` times; `Exit` is the error. -/
def walkRight : ℕ → Cursors K → Except (Cursors K) (Cursors K)
  | 0, s => .ok s
  | fuel + 1, s =>
      if (vertex poly s.d).2 = s.lastY ∧ s.i ≤ poly.length then
        if prev poly s.d = s.g ∧ (vertex poly s.d).2 = (vertex poly s.g).2 then .error s
        else
          walkRight fuel
            { s with
              alphaD := slope poly s.d (prev poly s.d)
              d := prev poly s.d
              i := s.i + 1 }
      else .ok s

/-- The inner loop on the left. -/
def walkLeft : ℕ → Cursors K → Cursors K
  | 0, s => s
  | fuel + 1, s =>
      if (vertex poly s.g).2 = s.lastY ∧ s.i ≤ poly.length then
        walkLeft fuel
          { s with
            alphaG := slope poly s.g (next poly s.g)
            g := next poly s.g
            i := s.i + 1 }
      else s

/-- The end of a turn of the outer loop. -/
def addSlice (s : Cursors K) : Cursors K :=
  let yd := (vertex poly s.d).2
  let yg := (vertex poly s.g).2
  let ym := min yd yg
  let xd := (vertex poly s.d).1 - s.alphaD * (yd - ym)
  let xg := (vertex poly s.g).1 - s.alphaG * (yg - ym)
  { s with
    l := { top := ym, leftSide := (xg, s.alphaG), rightSide := (xd, s.alphaD) } :: s.l
    lastY := ym }

/-- The outer loop; an inner loop ends after `n + 1 - i` turns, as it counts `i` up to `n`. -/
def slices : ℕ → Cursors K → Option (List (Slice K))
  | 0, _ => none
  | fuel + 1, s =>
      if s.i ≤ poly.length then
        match walkRight poly (poly.length + 1 - s.i) s with
        | .error s => some s.l
        | .ok s => slices fuel (addSlice poly (walkLeft poly (poly.length + 1 - s.i) s))
      else some s.l

def start : Cursors K where
  i := 1
  g := bottom poly
  d := bottom poly
  alphaG := 0
  alphaD := 0
  lastY := (vertex poly (bottom poly)).2
  l := []

def maxFloat : K := 2 ^ 1023 * (2 - 1 / 2 ^ 52)

def minFloat : K := 1 / 2 ^ 1022

def under : Slice K where
  top := (vertex poly (bottom poly)).2
  leftSide := (maxFloat, 0)
  rightSide := (minFloat, 0)

def above : Slice K where
  top := maxFloat
  leftSide := (maxFloat, 0)
  rightSide := (minFloat, 0)

/-- `slice_polygon`; a failed assertion is `none`. -/
def slicePolygon : Option (List (Slice K)) :=
  if 3 ≤ poly.length then
    (slices poly (poly.length + 1) (start poly)).map fun l => under poly :: (above :: l).reverse
  else none

end

/-! ### The printed code -/

/-- The code of a decision function, over `_x` and `_y`. -/
inductive Code (K : Type) where
  | returnFalse
  /-- `float dy = _y - yl; return (xg+dy*ag <= _x && _x <= xd+dy*ad);` -/
  | returnBetween (yl xg ag xd ad : K)
  | ifLe (yl : K) (yes no : Code K)
  deriving DecidableEq

/-- `print_inside_polygon` at one slice. -/
def printSlice (s : Slice K) : Code K :=
  if s.leftSide.1 > s.rightSide.1 then .returnFalse
  else .returnBetween s.top s.leftSide.1 s.leftSide.2 s.rightSide.1 s.rightSide.2

/-- `f`, for slices that are at most `fuel` apart. -/
def printLayers (layers : List (Slice K)) : ℕ → ℕ → ℕ → Code K
  | 0, i, _ => printSlice (layers.getD i above)
  | fuel + 1, i, j =>
      if i = j then printSlice (layers.getD i above)
      else
        let ij2 := (i + j) / 2
        .ifLe (layers.getD ij2 above).top (printLayers layers fuel i ij2)
          (printLayers layers fuel (ij2 + 1) j)

def printInsidePolygon (pts : List (K × K)) : Option (Code K) :=
  (slicePolygon pts).map fun layers => printLayers layers layers.length 0 (layers.length - 1)

/-- A term `+dy*a`, which is left out where `a` is zero. -/
def plusDyTimes (x dy a : K) : K := if a = 0 then x else x + dy * a

def Code.run (x y : K) : Code K → Bool
  | .returnFalse => false
  | .returnBetween yl xg ag xd ad =>
      decide (plusDyTimes xg (y - yl) ag ≤ x) && decide (x ≤ plusDyTimes xd (y - yl) ad)
  | .ifLe yl yes no => if y ≤ yl then yes.run x y else no.run x y

/-! ### What is asked -/

/-- The vertices of a polygon. -/
def vertices (poly : List (K × K)) : Set (K × K) := {p | p ∈ poly}

/-- A polygon of at least three points that is convex, given clockwise and not flat: any three
vertices turn clockwise in their order or lie on one line, and not all lie on one line. -/
structure ConvexClockwise (poly : List (K × K)) : Prop where
  three_le : 3 ≤ poly.length
  turns : ∀ i j k, i < j → j < k → k < poly.length →
    orient (vertex poly i) (vertex poly j) (vertex poly k) ≤ 0
  not_flat : ∃ p ∈ poly, ∃ q ∈ poly, ∃ r ∈ poly, orient p q r ≠ 0

/-- The height of the lowest line of a polygon. -/
def IsLowest (poly : List (K × K)) (y : K) : Prop := IsLeast (Prod.snd '' vertices poly) y

/-- The code decides the closed polygon, except perhaps on its lowest line. -/
def Decides (poly : List (K × K)) (code : Code K) : Prop :=
  ∀ x y, ¬ IsLowest poly y → (code.run x y = true ↔ (x, y) ∈ convexHull K (vertices poly))

end Paparazzi.FlightPlan.Sectors
