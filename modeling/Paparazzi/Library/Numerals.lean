import Mathlib

/-!
The facts that the numerals of `Fin n` and of a field are read with, each under one name. A
definition that takes its numerals from here needs no lemma of its own for them.
-/

namespace Paparazzi.Library.Numerals

theorem neZero_two : NeZero (2 : ℕ) := inferInstance

theorem neZero_three : NeZero (3 : ℕ) := inferInstance

theorem neZero_nine : NeZero (9 : ℕ) := inferInstance

theorem atLeastTwo_two : Nat.AtLeastTwo 2 := inferInstance

end Paparazzi.Library.Numerals
