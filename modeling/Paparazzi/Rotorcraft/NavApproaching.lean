import Mathlib.Data.List.Induction
import Paparazzi.Library.Machine
import Paparazzi.Rotorcraft.NavRoute

/-!
Arrival at a waypoint, `nav_approaching_from`: a static counter of the calls close to the waypoint,
and the plane through it normal to the leg. Both tests are in whole metres.
-/

namespace Paparazzi.Rotorcraft.NavApproaching

open Paparazzi.Library.Checked32
open Paparazzi.Library.Machine
open Paparazzi.Math.AlgebraInt
open Paparazzi.Math.GeodeticInt (EnuCoorI)
open Paparazzi.Rotorcraft.NavRoute

/-- 3 m. -/
def arrivedAtWaypoint : ℤ := 3 * 2 ^ int32PosFrac

/-- The answer and the new `time_at_wp`. -/
def navApproachingFrom (nbWaypoint : ℕ) (waypoints : UInt8 → EnuCoorI) (position : EnuCoorI)
    (wpIdx fromIdx timeAtWp : UInt8) : Option (Bool × UInt8) := do
  let diff ← vect2Diff (vect2Of (waypoints wpIdx)) (vect2Of position)
  let diff := int32Vect2Rshift diff int32PosFrac
  let distToPoint ← int32Vect2Norm diff
  let timeAtWp := if distToPoint < arrivedAtWaypoint >>> int32PosFrac then timeAtWp + 1 else 0
  if timeAtWp > 20 then return (true, timeAtWp)
  else if fromIdx > 0 ∧ fromIdx.toNat < nbWaypoint then
    let fromDiff ← vect2Diff (vect2Of (waypoints wpIdx)) (vect2Of (waypoints fromIdx))
    let fromDiff := int32Vect2Rshift fromDiff int32PosFrac
    let along ← dot diff fromDiff
    return (decide (along < 0), timeAtWp)
  else return (false, timeAtWp)

/-- What a call of a stage reads, its arguments included. -/
structure Call where
  waypoints : UInt8 → EnuCoorI
  position : EnuCoorI
  wpIdx : UInt8
  fromIdx : UInt8

namespace Call

variable (c : Call)

def diff : Int32Vect2 :=
  ⟨(vect2Of (c.waypoints c.wpIdx)).x - (vect2Of c.position).x,
    (vect2Of (c.waypoints c.wpIdx)).y - (vect2Of c.position).y⟩

def fromDiff : Int32Vect2 :=
  ⟨(vect2Of (c.waypoints c.wpIdx)).x - (vect2Of (c.waypoints c.fromIdx)).x,
    (vect2Of (c.waypoints c.wpIdx)).y - (vect2Of (c.waypoints c.fromIdx)).y⟩

def metres (v : Int32Vect2) : Int32Vect2 := int32Vect2Rshift v int32PosFrac

/-- The position is within 3 m of the waypoint. -/
def Close : Prop := c.diff.x ^ 2 + c.diff.y ^ 2 ≤ arrivedAtWaypoint ^ 2

instance : Decidable c.Close := inferInstanceAs (Decidable (_ ≤ _))

/-- There is a leg, which starts at another waypoint than the one with number 0. -/
def HasLeg (nbWaypoint : ℕ) : Prop := c.fromIdx > 0 ∧ c.fromIdx.toNat < nbWaypoint

instance (nbWaypoint : ℕ) : Decidable (c.HasLeg nbWaypoint) := inferInstanceAs (Decidable (_ ∧ _))

/-- The position is behind the plane through the waypoint normal to the leg. -/
def Passed (nbWaypoint : ℕ) : Prop :=
  c.HasLeg nbWaypoint ∧ c.diff.x * c.fromDiff.x + c.diff.y * c.fromDiff.y < 0

end Call

open Call

section

variable (nbWaypoint : ℕ)

def answer (c : Call) (timeAtWp : UInt8) : Option (Bool × UInt8) :=
  navApproachingFrom nbWaypoint c.waypoints c.position c.wpIdx c.fromIdx timeAtWp

/-- The counter after the calls since power-up, where none has overflowed. -/
def timeAtWpAfter (calls : List Call) : Option UInt8 :=
  run (fun timeAtWp c => (timeAtWp.bind (answer nbWaypoint c)).map Prod.snd) (some 0) calls

/-! ### What is asked -/

/-- The last 21 calls were for the waypoint, within 3 m of it. -/
def Dwelled (wpIdx : UInt8) (calls : List Call) : Prop :=
  ∃ before dwell, calls = before ++ dwell ∧ dwell.length = 21 ∧
    ∀ c ∈ dwell, c.wpIdx = wpIdx ∧ c.Close

/-- Every call has the right answer. -/
def RightAnswers (calls : List Call) : Prop :=
  ∀ earlier c, earlier ++ [c] <+: calls → ∃ arrived timeAtWp,
    (timeAtWpAfter nbWaypoint earlier).bind (answer nbWaypoint c) = some (arrived, timeAtWp) ∧
      (arrived = true ↔ Dwelled c.wpIdx (earlier ++ [c]) ∨ c.Passed nbWaypoint)

/-! ### Where the answers are right -/

/-- The test of the distance does not overflow and is not changed by rounding. -/
def DistRight (c : Call) : Prop :=
  (Fits c.diff.x ∧ Fits c.diff.y) ∧ DotFits (metres c.diff) (metres c.diff) ∧
    (int32Sqrt ((metres c.diff).x * (metres c.diff).x + (metres c.diff).y * (metres c.diff).y) < 3 ↔
      c.Close)

/-- Nor is the test of the plane. -/
def PlaneRight (c : Call) : Prop :=
  (Fits c.fromDiff.x ∧ Fits c.fromDiff.y) ∧ DotFits (metres c.diff) (metres c.fromDiff) ∧
    ((metres c.diff).x * (metres c.fromDiff).x + (metres c.diff).y * (metres c.fromDiff).y < 0 ↔
      c.diff.x * c.fromDiff.x + c.diff.y * c.fromDiff.y < 0)

/-- The counter can go on, and counts calls for the same waypoint. -/
def CounterRight (earlier : List Call) (c : Call) (timeAtWp : UInt8) : Prop :=
  timeAtWp < 255 ∧ (timeAtWp ≠ 0 → ∀ last ∈ earlier.getLast?, last.wpIdx = c.wpIdx)

/-- The condition on a call. The plane is looked at unless the counter lets it arrive. -/
structure CallRight (earlier : List Call) (c : Call) (timeAtWp : UInt8) : Prop where
  dist : DistRight c
  counter : c.Close → CounterRight earlier c timeAtWp
  plane : c.HasLeg nbWaypoint → ¬(c.Close ∧ 20 ≤ timeAtWp) → PlaneRight c

def RunRight (calls : List Call) : Prop :=
  ∀ earlier c, earlier ++ [c] <+: calls → ∀ timeAtWp,
    timeAtWpAfter nbWaypoint earlier = some timeAtWp → CallRight nbWaypoint earlier c timeAtWp

end

section

variable {nbWaypoint : ℕ}

theorem timeAtWpAfter_concat (calls : List Call) (c : Call) :
    timeAtWpAfter nbWaypoint (calls ++ [c]) =
      ((timeAtWpAfter nbWaypoint calls).bind (answer nbWaypoint c)).map Prod.snd := by
  rw [timeAtWpAfter, run_append]
  rfl

/-! ### One call -/

/-- The counter after a call. -/
def counted (c : Call) (timeAtWp : UInt8) : UInt8 := if c.Close then timeAtWp + 1 else 0

/-- Rounding can matter from 1 m on, and up to the diagonal of a square of 3 m. -/
theorem distRight_of_clear {c : Call} (hx : |c.diff.x| ≤ 2 ^ 22) (hy : |c.diff.y| ≤ 2 ^ 22)
    (hclear : c.diff.x ^ 2 + c.diff.y ^ 2 ≤ 256 ^ 2 ∨
      2 * arrivedAtWaypoint ^ 2 ≤ c.diff.x ^ 2 + c.diff.y ^ 2) : DistRight c := by
  have hmx : (metres c.diff).x = c.diff.x / 256 := Int.shiftRight_eq_div_pow _ _
  have hmy : (metres c.diff).y = c.diff.y / 256 := Int.shiftRight_eq_div_pow _ _
  obtain ⟨hx₁, hx₂⟩ := abs_le.mp hx
  obtain ⟨hy₁, hy₂⟩ := abs_le.mp hy
  have hsqx : (metres c.diff).x ^ 2 ≤ (2 ^ 14) ^ 2 := sq_le_sq' (by omega) (by omega)
  have hsqy : (metres c.diff).y ^ 2 ≤ (2 ^ 14) ^ 2 := sq_le_sq' (by omega) (by omega)
  have hx₀ := sq_nonneg (metres c.diff).x
  have hy₀ := sq_nonneg (metres c.diff).y
  rw [DistRight, DotFits, ← sq, ← sq, Fits, Fits, Fits, Fits, Fits]
  refine ⟨by omega, by omega, ?_⟩
  rcases hclear with hnear | hfar
  · have habs := abs_le_of_sq_le_sq' (hnear.trans' (le_add_of_nonneg_right (sq_nonneg _)))
      (by decide)
    have habs' := abs_le_of_sq_le_sq' (hnear.trans' (le_add_of_nonneg_left (sq_nonneg _)))
      (by decide)
    have hclose : c.Close := hnear.trans (by decide)
    have hone : (metres c.diff).x ^ 2 ≤ 1 ^ 2 := sq_le_sq' (by omega) (by omega)
    have hone' : (metres c.diff).y ^ 2 ≤ 1 ^ 2 := sq_le_sq' (by omega) (by omega)
    refine iff_of_true ?_ hclose
    have hcases : (metres c.diff).x ^ 2 + (metres c.diff).y ^ 2 = 0 ∨
        (metres c.diff).x ^ 2 + (metres c.diff).y ^ 2 = 1 ∨
        (metres c.diff).x ^ 2 + (metres c.diff).y ^ 2 = 2 := by omega
    rcases hcases with h | h | h
    all_goals
      rw [h]
      decide
  · have hfar' : ¬c.Close := fun hclose => by
      have h := hfar.trans hclose
      exact absurd h (by decide)
    refine iff_of_false (fun hlt => ?_) hfar'
    have hnine : 9 ≤ (metres c.diff).x ^ 2 + (metres c.diff).y ^ 2 := by
      by_contra hless
      have hsmall := abs_lt_of_sq_lt_sq' (show (metres c.diff).x ^ 2 < 3 ^ 2 by omega) (by decide)
      have hsmall' := abs_lt_of_sq_lt_sq' (show (metres c.diff).y ^ 2 < 3 ^ 2 by omega) (by decide)
      have hthree : arrivedAtWaypoint = 768 := rfl
      have hlt : c.diff.x ^ 2 < arrivedAtWaypoint ^ 2 := sq_lt_sq' (by omega) (by omega)
      have hlt' : c.diff.y ^ 2 < arrivedAtWaypoint ^ 2 := sq_lt_sq' (by omega) (by omega)
      omega
    obtain ⟨-, -, hsqrt⟩ := @int32Sqrt_spec ((metres c.diff).x ^ 2 + (metres c.diff).y ^ 2)
      (by omega) (by omega)
    have hthree : 3 ≤ ((metres c.diff).x ^ 2 + (metres c.diff).y ^ 2).toNat.sqrt :=
      Nat.le_sqrt.mpr (by omega)
    omega

/-- The answer, with the exact tests. -/
theorem answer_eq {earlier : List Call} {c : Call} {timeAtWp : UInt8}
    (h : CallRight nbWaypoint earlier c timeAtWp) :
    ∃ arrived, answer nbWaypoint c timeAtWp = some (arrived, counted c timeAtWp) ∧
      (arrived = true ↔ 20 < counted c timeAtWp ∨ c.Passed nbWaypoint) := by
  obtain ⟨⟨hfits, hdot, hclose⟩, hcounter, hplane⟩ := h
  have hdiff : vect2Diff (vect2Of (c.waypoints c.wpIdx)) (vect2Of c.position) = some c.diff :=
    Int32Vect2.check_of_fits hfits.1 hfits.2
  have hdist : int32Vect2Norm (metres c.diff) = some (int32Sqrt
      ((metres c.diff).x * (metres c.diff).x + (metres c.diff).y * (metres c.diff).y)) := by
    rw [int32Vect2Norm, dot_eq_some_iff.mpr ⟨hdot, rfl⟩, Option.map_some]
  have hcount : (if int32Sqrt ((metres c.diff).x * (metres c.diff).x +
      (metres c.diff).y * (metres c.diff).y) < arrivedAtWaypoint >>> int32PosFrac
      then timeAtWp + 1 else 0) = counted c timeAtWp := if_congr hclose rfl rfl
  have hgo : ¬20 < counted c timeAtWp → ¬(c.Close ∧ 20 ≤ timeAtWp) := by
    rintro hle ⟨hnear, hlong⟩
    have hlt := (hcounter hnear).1
    rw [counted, if_pos hnear] at hle
    apply hle
    rw [UInt8.lt_iff_toNat_lt] at hlt ⊢
    rw [UInt8.le_iff_toNat_le] at hlong
    rw [UInt8.toNat_add]
    change timeAtWp.toNat < 255 at hlt
    change 20 ≤ timeAtWp.toNat at hlong
    change 20 < (timeAtWp.toNat + 1) % 256
    omega
  simp only [answer, navApproachingFrom, hdiff, Option.bind_eq_bind, Option.bind_some]
  change ∃ arrived, (int32Vect2Norm (metres c.diff)).bind _ = _ ∧ _
  rw [hdist, Option.bind_some, hcount]
  split_ifs with hlong hleg
  · exact ⟨true, rfl, iff_of_true rfl (Or.inl hlong)⟩
  · obtain ⟨hfits', hdot', hpassed⟩ := hplane hleg (hgo hlong)
    have hfrom : vect2Diff (vect2Of (c.waypoints c.wpIdx)) (vect2Of (c.waypoints c.fromIdx)) =
        some c.fromDiff := Int32Vect2.check_of_fits hfits'.1 hfits'.2
    have halong := dot_eq_some_iff.mpr ⟨hdot', rfl⟩
    rw [hfrom, Option.bind_some]
    change ∃ arrived, (dot (metres c.diff) (metres c.fromDiff)).bind _ = _ ∧ _
    rw [halong]
    refine ⟨_, rfl, ?_⟩
    rw [decide_eq_true_iff, hpassed]
    exact ⟨fun hneg => Or.inr ⟨hleg, hneg⟩, fun h => (h.resolve_left hlong).2⟩
  · exact ⟨false, rfl, iff_of_false Bool.false_ne_true fun h =>
      hleg (h.resolve_left hlong).1⟩

/-! ### The run -/

/-- What the counter has counted: the close calls for one waypoint since the last call that was
not close. -/
def Counts (calls : List Call) (timeAtWp : UInt8) : Prop :=
  ∃ before dwell wpIdx, calls = before ++ dwell ∧ dwell.length = timeAtWp.toNat ∧
    (∀ c ∈ dwell, c.wpIdx = wpIdx ∧ c.Close) ∧ ∀ c ∈ before.getLast?, ¬c.Close

theorem counts_concat {earlier : List Call} {c : Call} {timeAtWp : UInt8}
    (h : Counts earlier timeAtWp) (hcounter : c.Close → CounterRight earlier c timeAtWp) :
    Counts (earlier ++ [c]) (counted c timeAtWp) := by
  obtain ⟨before, dwell, wpIdx, rfl, hlen, hdwell, hbefore⟩ := h
  rw [counted]
  split_ifs with hclose
  · obtain ⟨hlt, hsame⟩ := hcounter hclose
    refine ⟨before, dwell ++ [c], c.wpIdx, List.append_assoc _ _ _, ?_, ?_, hbefore⟩
    · rw [List.length_append, hlen, UInt8.toNat_add]
      rw [UInt8.lt_iff_toNat_lt] at hlt
      change timeAtWp.toNat < 255 at hlt
      change timeAtWp.toNat + 1 = (timeAtWp.toNat + 1) % 256
      omega
    · intro c' hc'
      rcases List.mem_append.mp hc' with hold | hnew
      · have hne := List.ne_nil_of_mem hold
        have hlast := hdwell _ (List.getLast_mem hne)
        have hzero : timeAtWp ≠ 0 := by
          rintro rfl
          exact hne (List.length_eq_zero_iff.mp hlen)
        have hwp := hsame hzero (dwell.getLast hne) (by
          rw [List.getLast?_append_of_ne_nil _ hne, List.getLast?_eq_getLast_of_ne_nil hne]
          rfl)
        rw [← hwp, hlast.1]
        exact hdwell c' hold
      · obtain rfl := List.mem_singleton.mp hnew
        exact ⟨rfl, hclose⟩
  · refine ⟨before ++ dwell ++ [c], [], wpIdx, (List.append_nil _).symm, rfl, ?_, ?_⟩
    · exact fun _ hc' => absurd hc' List.not_mem_nil
    · intro c' hc'
      rw [List.getLast?_concat] at hc'
      obtain rfl := Option.mem_some_iff.mp hc'
      exact hclose

/-- The counter tells whether the dwell was long enough. -/
theorem dwelled_iff {earlier : List Call} {c : Call} {timeAtWp : UInt8}
    (h : Counts (earlier ++ [c]) timeAtWp) :
    Dwelled c.wpIdx (earlier ++ [c]) ↔ 20 < timeAtWp := by
  obtain ⟨before, dwell, wpIdx, heq, hlen, hdwell, hbefore⟩ := h
  have htime : 20 < timeAtWp ↔ 21 ≤ dwell.length := by
    rw [hlen]
    exact UInt8.lt_iff_toNat_lt
  rw [htime]
  constructor
  · rintro ⟨before', dwell', heq', hlen', hdwell'⟩
    rw [heq] at heq'
    by_contra hshort
    rcases List.append_eq_append_iff.mp heq' with ⟨more, rfl, rfl⟩ | ⟨more, rfl, rfl⟩
    · rw [List.length_append] at hshort
      omega
    · rw [List.length_append] at hlen'
      have hne : more ≠ [] := by
        rintro rfl
        rw [List.length_nil] at hlen'
        omega
      apply hbefore (more.getLast hne)
      · rw [List.getLast?_append_of_ne_nil _ hne, List.getLast?_eq_getLast_of_ne_nil hne]
        rfl
      · exact (hdwell' _ (List.mem_append_left _ (List.getLast_mem hne))).2
  · intro hlong
    have hne : dwell ≠ [] := List.ne_nil_of_length_pos (by omega)
    have hlast : dwell.getLast hne = c := by
      have hall := congrArg List.getLast? heq
      rw [List.getLast?_concat, List.getLast?_append_of_ne_nil _ hne,
        List.getLast?_eq_getLast_of_ne_nil hne] at hall
      exact (Option.some.inj hall).symm
    have hwp : c.wpIdx = wpIdx := by
      rw [← hlast]
      exact (hdwell _ (List.getLast_mem hne)).1
    refine ⟨before ++ dwell.take (dwell.length - 21), dwell.drop (dwell.length - 21), ?_, ?_, ?_⟩
    · rw [heq, List.append_assoc, List.take_append_drop]
    · rw [List.length_drop]
      omega
    · intro c' hc'
      rw [hwp]
      exact hdwell c' (List.mem_of_mem_drop hc')

theorem counts_timeAtWpAfter {calls : List Call} (h : RunRight nbWaypoint calls) :
    ∃ timeAtWp, timeAtWpAfter nbWaypoint calls = some timeAtWp ∧ Counts calls timeAtWp := by
  induction calls using List.reverseRecOn with
  | nil => exact ⟨0, rfl, [], [], 0, rfl, rfl, fun _ h => absurd h List.not_mem_nil, nofun⟩
  | append_singleton earlier c ih =>
      obtain ⟨timeAtWp, htime, hcounts⟩ := ih fun earlier' c' hpre =>
        h earlier' c' (hpre.trans (List.prefix_append _ _))
      have hright := h earlier c List.prefix_rfl timeAtWp htime
      obtain ⟨arrived, hanswer, -⟩ := answer_eq hright
      refine ⟨counted c timeAtWp, ?_, counts_concat hcounts hright.counter⟩
      rw [timeAtWpAfter_concat, htime, Option.bind_some, hanswer]
      rfl

end

/-- In every run whose calls all meet the condition, every call has the right answer. -/
theorem rightAnswers_of_runRight (nbWaypoint : ℕ) {calls : List Call}
    (h : RunRight nbWaypoint calls) : RightAnswers nbWaypoint calls := by
  intro earlier c hpre
  obtain ⟨timeAtWp, htime, hcounts⟩ := counts_timeAtWpAfter fun earlier' c' hpre' =>
    h earlier' c' (hpre'.trans ((List.prefix_append _ _).trans hpre))
  have hright := h earlier c hpre timeAtWp htime
  obtain ⟨arrived, hanswer, harrived⟩ := answer_eq hright
  refine ⟨arrived, counted c timeAtWp, by rw [htime, Option.bind_some, hanswer], ?_⟩
  rw [harrived, dwelled_iff (counts_concat hcounts hright.counter)]

/-- Two waypoints 100 m apart. -/
def twoWaypoints (wpIdx : UInt8) : EnuCoorI := ⟨if wpIdx = 2 then 25600 else 0, 0, 0⟩

/-- A call at the waypoint. -/
def callAt (wpIdx : UInt8) : Call := ⟨twoWaypoints, twoWaypoints wpIdx, wpIdx, 0⟩

theorem answer_callAt {wpIdx : UInt8} (h : wpIdx = 1 ∨ wpIdx = 2) (timeAtWp : UInt8) :
    answer 3 (callAt wpIdx) timeAtWp = some (decide (20 < timeAtWp + 1), timeAtWp + 1) := by
  rcases h with rfl | rfl
  all_goals
    change (if 20 < timeAtWp + 1 then some (true, timeAtWp + 1)
      else some (false, timeAtWp + 1)) = _
    split_ifs with hlong
    · rw [decide_eq_true hlong]
    · rw [decide_eq_false hlong]

theorem timeAtWpAfter_replicate (n : ℕ) :
    timeAtWpAfter 3 (List.replicate n (callAt 1)) = some (UInt8.ofNat n) := by
  induction n with
  | zero => rfl
  | succ n ih =>
      rw [List.replicate_succ', timeAtWpAfter_concat, ih, Option.bind_some,
        answer_callAt (Or.inl rfl), UInt8.ofNat_add]
      rfl

theorem rightAnswers_dwell : RightAnswers 3 (List.replicate 21 (callAt 1)) := by
  apply rightAnswers_of_runRight
  intro earlier c hpre timeAtWp htime
  obtain ⟨hlen, heq⟩ := List.prefix_replicate_iff.mp hpre
  obtain ⟨-, hearlier, hc⟩ := List.append_eq_replicate_iff.mp heq
  obtain rfl := List.singleton_inj.mp hc
  rw [List.length_append, List.length_singleton] at hlen
  have hlt : earlier.length < 255 := by omega
  refine ⟨distRight_of_clear (by decide) (by decide) (Or.inl (by decide)),
    fun _ => ⟨?_, fun _ last hlast => ?_⟩, fun hleg => absurd hleg (by decide)⟩
  · rw [hearlier, timeAtWpAfter_replicate] at htime
    obtain rfl := Option.some.inj htime
    rw [UInt8.lt_iff_toNat_lt, UInt8.toNat_ofNat_of_lt' (hlt.trans (by decide))]
    exact hlt
  · rw [hearlier] at hlast
    rw [List.eq_of_mem_replicate (List.mem_of_getLast? hlast)]

/-- 20 calls at one waypoint and then one at another, and 256 calls at one. -/
theorem not_rightAnswers_shared : ¬RightAnswers 3 (List.replicate 20 (callAt 1) ++ [callAt 2]) ∧
    ¬RightAnswers 3 (List.replicate 256 (callAt 1)) := by
  constructor
  · intro h
    obtain ⟨arrived, timeAtWp, hanswer, harrived⟩ := h (List.replicate 20 (callAt 1)) (callAt 2)
      List.prefix_rfl
    rw [timeAtWpAfter_replicate, Option.bind_some, answer_callAt (Or.inr rfl)] at hanswer
    obtain ⟨rfl, -⟩ := Prod.mk.inj (Option.some.inj hanswer)
    rcases harrived.mp rfl with ⟨before, dwell, heq, hlen, hdwell⟩ | ⟨hleg, -⟩
    · have hbefore : before = [] := by
        have hall := congrArg List.length heq
        rw [List.length_append, List.length_append, List.length_replicate, hlen] at hall
        exact List.length_eq_zero_iff.mp (by change 20 + 1 = _ at hall; omega)
      rw [hbefore, List.nil_append] at heq
      have hfirst := (hdwell (callAt 1) (by
        rw [← heq]
        exact List.mem_append_left _ (List.mem_replicate.mpr ⟨by decide, rfl⟩))).1
      exact absurd hfirst (by decide)
    · exact absurd hleg (by decide)
  · intro h
    have hsplit : List.replicate 256 (callAt 1) = List.replicate 255 (callAt 1) ++ [callAt 1] :=
      List.replicate_succ'
    obtain ⟨arrived, timeAtWp, hanswer, harrived⟩ := h (List.replicate 255 (callAt 1)) (callAt 1)
      (hsplit ▸ List.prefix_rfl)
    rw [timeAtWpAfter_replicate, Option.bind_some, answer_callAt (Or.inl rfl)] at hanswer
    obtain ⟨rfl, -⟩ := Prod.mk.inj (Option.some.inj hanswer)
    refine absurd (harrived.mpr (Or.inl ⟨List.replicate 235 (callAt 1),
      List.replicate 21 (callAt 1), ?_, List.length_replicate, ?_⟩)) (by decide)
    · rw [← List.replicate_succ', List.replicate_append_replicate]
    · intro c hc
      rw [List.eq_of_mem_replicate hc]
      decide

end Paparazzi.Rotorcraft.NavApproaching
