import Mathlib
import Paparazzi.Library.Numerals

/-!
The triangulation of polygons by ears, `in_tesselation` of `geometry_2d.ml`. Numbers are taken
exact.
-/

namespace Paparazzi.Math.Tesselation

attribute [local instance] Library.Numerals.atLeastTwo_two

variable {K : Type} [Field K] [LinearOrder K]

def vectMake (a b : K × K) : K × K := (b.1 - a.1, b.2 - a.2)

def crossProduct (u v : K × K) : K := u.1 * v.2 - u.2 * v.1

/-! ### Orientation -/

inductive Ccw where
  | ccw
  | cw
  | undefined
  deriving DecidableEq, Repr

def ccwOfSign (p : K) : Ccw := if p > 0 then .ccw else if p < 0 then .cw else .undefined

def ccwAngle (p₀ p₁ p₂ : K × K) : Ccw :=
  ccwOfSign (crossProduct (vectMake p₀ p₁) (vectMake p₁ p₂))

def point (poly : List (K × K)) (i : ℕ) : K × K := poly.getD i (0, 0)

def polyIsClosed (poly : List (K × K)) : Bool :=
  !poly.isEmpty && decide (point poly 0 = point poly (poly.length - 1))

def polyClose (poly : List (K × K)) : List (K × K) :=
  if poly.isEmpty || polyIsClosed poly then poly else poly ++ [point poly 0]

def polyClose2 (poly : List (K × K)) : List (K × K) :=
  if poly.length < 2 then poly else polyClose poly ++ [point (polyClose poly) 1]

/-- `poly_test_convex`, for more than two points: the loop goes over all corners of one sign. -/
def polyTestConvex (l : List (K × K)) : Bool :=
  let t := polyClose2 l
  let sign := ccwAngle (point t 0) (point t 1) (point t 2)
  (List.range' 1 (t.length - 3)).all fun i =>
    ccwAngle (point t i) (point t (i + 1)) (point t (i + 2)) = sign

def polyTestCcw (l : List (K × K)) : Ccw :=
  if 2 < l.length then
    let t := polyClose l
    if polyTestConvex l then ccwAngle (point t 0) (point t 1) (point t 2)
    else
      ccwOfSign ((List.range (t.length - 1)).map fun i =>
        crossProduct (point t i) (point t (i + 1))).sum
  else .undefined

/-! ### Diagonals -/

inductive Place where
  | onPt1
  | onPt2
  | outPt1
  | outPt2
  | inSeg
  deriving DecidableEq, Repr

def epsilon : K := 1 / 10000

/-- The type of an intersection, from its parameter on a segment. -/
def typeIntersection (r : K) : Place :=
  if |r| < epsilon then .onPt1
  else if |r - 1| < epsilon then .onPt2
  else if r < 0 then .outPt1
  else if r > 1 then .outPt2
  else .inSeg

/-- The parameters of `crossing_point`; parallel vectors have none. -/
def crossingPoint (a u c v : K × K) : Option (Place × Place) :=
  let x := vectMake c a
  let num₁ := crossProduct x v
  let num₂ := crossProduct x u
  let denom := -crossProduct u v
  if denom = 0 then none
  else some (typeIntersection (num₁ / denom), typeIntersection (num₂ / denom))

def testInSegment (t : Place) : Bool := t = .inSeg || t = .onPt1 || t = .onPt2

def crossingSegSeg (a b c d : K × K) : Bool :=
  match crossingPoint a (vectMake a b) c (vectMake c d) with
  | none => false
  | some (type₁, type₂) => testInSegment type₁ && testInSegment type₂

def lefton (a b c : K × K) : Bool := crossProduct (vectMake a b) (vectMake a c) ≥ 0

def left (a b c : K × K) : Bool := crossProduct (vectMake a b) (vectMake a c) > 0

/-- The vertices by number: `prev`, `next` and `ear`, with the references of the loops. -/
structure Vertices where
  prev : ℕ → ℕ
  next : ℕ → ℕ
  ear : ℕ → Bool
  currentIdx : ℕ
  n : ℕ
  triangles : List (ℕ × ℕ × ℕ)

section

variable (l : List (K × K))

def isInCone (prev next : ℕ → ℕ) (a b : ℕ) : Bool :=
  if lefton (point l a) (point l (next a)) (point l (prev a)) then
    left (point l a) (point l b) (point l (prev a)) &&
      left (point l b) (point l a) (point l (next a))
  else
    !(lefton (point l a) (point l b) (point l (next a)) &&
      lefton (point l b) (point l a) (point l (prev a)))

/-- `is_diagonal`, which looks at one end only, and at all edges, also those of removed
vertices. -/
def isDiagonal (prev next : ℕ → ℕ) (a b : ℕ) : Bool :=
  (isInCone l prev next a b || isInCone l prev next b a) &&
    (List.range l.length).all fun c =>
      !(c != a && next c != a && c != b && next c != b &&
        crossingSegSeg (point l a) (point l b) (point l c) (point l (next c)))

/-! ### The loops -/

def startPrev (i : ℕ) : ℕ := if i = 0 then l.length - 1 else i - 1

def startNext (i : ℕ) : ℕ := if i = l.length - 1 then 0 else i + 1

def start : Vertices where
  prev := startPrev l
  next := startNext l
  ear i := isDiagonal l (startPrev l) (startNext l) (startPrev l i) (startNext l i)
  currentIdx := 0
  n := l.length
  triangles := []

/-- The inner loop: the next ear from `v2` on, before the current vertex is met again. -/
def findEar (s : Vertices) : ℕ → ℕ → Option ℕ
  | 0, _ => none
  | fuel + 1, v2 =>
      if s.ear v2 then some v2
      else if s.next v2 = s.currentIdx then none
      else findEar s fuel (s.next v2)

/-- The ear `v2` is cut off. -/
def clip (s : Vertices) (v2 : ℕ) : Vertices :=
  let v1 := s.prev v2
  let v3 := s.next v2
  let v0 := s.prev v1
  let v4 := s.next v3
  { prev := Function.update s.prev v3 v1
    next := Function.update s.next v1 v3
    ear := Function.update (Function.update s.ear v1 (isDiagonal l s.prev s.next v0 v3)) v3
      (isDiagonal l s.prev s.next v1 v4)
    currentIdx := v3
    n := s.n - 1
    triangles := (v3, v2, v1) :: s.triangles }

/-- One turn of the outer loop; the ring has at most `l.length` vertices to look at. -/
def turn (s : Vertices) : Vertices :=
  if 3 ≤ s.n then
    match findEar s l.length s.currentIdx with
    | some v2 => clip l s v2
    | none => s
  else s

/-- The outer loop, at most `fuel` turns. -/
def run : ℕ → Vertices → Option Vertices
  | 0, _ => none
  | fuel + 1, s => if 3 ≤ s.n then run fuel (turn l s) else some s

end

/-- The polygon, turned round if it is clockwise. -/
def oriented (poly : List (K × K)) : List (K × K) :=
  if polyTestCcw poly = .cw then poly.reverse else poly

/-- The numbers of the vertices in the polygon that was given. -/
def renumber (poly : List (K × K)) (t : ℕ × ℕ × ℕ) : ℕ × ℕ × ℕ :=
  if polyTestCcw poly = .cw then
    (poly.length - 1 - t.1, poly.length - 1 - t.2.1, poly.length - 1 - t.2.2)
  else t

/-- `in_tesselation`, with at most `fuel` turns of the outer loop. -/
def inTesselation (fuel : ℕ) (poly : List (K × K)) : Option (List (ℕ × ℕ × ℕ)) :=
  (run (oriented poly) fuel (start (oriented poly))).map fun s => s.triangles.map (renumber poly)

/-! ### What is asked -/

/-- The signed area of a polygon. -/
def signedArea (l : List (K × K)) : K :=
  (∑ i ∈ Finset.range l.length, crossProduct (point l i) (point l ((i + 1) % l.length))) / 2

def polyArea (l : List (K × K)) : K := |signedArea l|

/-- A triangle by its points, as `tesselation` returns it. -/
def corners (poly : List (K × K)) (t : ℕ × ℕ × ℕ) : List (K × K) :=
  [point poly t.1, point poly t.2.1, point poly t.2.2]

/-- A point of an edge. -/
def along (l : List (K × K)) (i : ℕ) (x : K) : K × K :=
  let a := point l i
  let u := vectMake a (point l ((i + 1) % l.length))
  (a.1 + x * u.1, a.2 + x * u.2)

/-- The border of the polygon does not meet itself. -/
def Simple (l : List (K × K)) : Prop :=
  ∀ i < l.length, ∀ j < l.length, ∀ x y : K, 0 ≤ x → x < 1 → 0 ≤ y → y < 1 →
    along l i x = along l j y → i = j ∧ x = y

/-- The function returns `n - 2` triangles of vertices of the polygon, and those of a simple polygon
have its area together. -/
def Tesselates (poly : List (K × K)) : Prop :=
  ∃ fuel triangles, inTesselation fuel poly = some triangles ∧
    triangles.length = poly.length - 2 ∧
    (∀ t ∈ triangles, t.1 < poly.length ∧ t.2.1 < poly.length ∧ t.2.2 < poly.length) ∧
    (Simple poly → (triangles.map fun t => polyArea (corners poly t)).sum = polyArea poly)

/-- The vertices before turn `k` of the outer loop. -/
def state (poly : List (K × K)) (k : ℕ) : Vertices :=
  (turn (oriented poly))^[k] (start (oriented poly))

/-- Whenever the outer loop is entered, one of the vertices that are left has its flag `ear` set. -/
def EarsFound (poly : List (K × K)) : Prop :=
  ∀ k, 3 ≤ (state poly k).n →
    ∃ m, (state poly k).ear ((state poly k).next^[m] (state poly k).currentIdx) = true

/-- How the border turns at the ear that is cut next: positive to the left, negative to the right,
`0` if none is cut. -/
def earTurn (l : List (K × K)) (s : Vertices) : K :=
  match if 3 ≤ s.n then findEar s l.length s.currentIdx else none with
  | some v2 =>
      crossProduct (vectMake (point l (s.prev v2)) (point l v2))
        (vectMake (point l (s.prev v2)) (point l (s.next v2)))
  | none => 0

/-- The ears lie all on one side of the border. -/
def EarsOneWay (poly : List (K × K)) : Prop :=
  (∀ k, 0 ≤ earTurn (oriented poly) (state poly k)) ∨
    ∀ k, earTurn (oriented poly) (state poly k) ≤ 0

end Paparazzi.Math.Tesselation
