import Mathlib.Data.List.Basic
import Mathlib.Tactic.Ring

/-!
Byte strings: running checksums (the sum modulo 256 and the pair of sums of the Fletcher
checksum), and numbers as little-endian byte sequences of a fixed width, with the fields of a
byte buffer.
-/

namespace Paparazzi.Library.Checksum

/-- The sum of the bytes, from the start value `cs`. -/
def sum (cs : UInt8) (bytes : List UInt8) : UInt8 :=
  bytes.foldl (fun cs c => cs + c) cs

/-- The sum and the sum of the sums, from the start values `a` and `b`. -/
def fletcher : UInt8 → UInt8 → List UInt8 → UInt8 × UInt8
  | a, b, [] => (a, b)
  | a, b, c :: bytes => fletcher (a + c) (b + (a + c)) bytes

@[simp] theorem sum_nil (cs : UInt8) : sum cs [] = cs := rfl

@[simp] theorem sum_cons (cs c : UInt8) (bytes : List UInt8) :
    sum cs (c :: bytes) = sum (cs + c) bytes := rfl

theorem sum_append (cs : UInt8) (bytes bytes' : List UInt8) :
    sum cs (bytes ++ bytes') = sum (sum cs bytes) bytes' := by
  simp [sum]

@[simp] theorem fletcher_nil (a b : UInt8) : fletcher a b [] = (a, b) := rfl

@[simp] theorem fletcher_cons (a b c : UInt8) (bytes : List UInt8) :
    fletcher a b (c :: bytes) = fletcher (a + c) (b + (a + c)) bytes := rfl

theorem fletcher_append (a b : UInt8) (bytes bytes' : List UInt8) :
    fletcher a b (bytes ++ bytes') =
      fletcher (fletcher a b bytes).1 (fletcher a b bytes).2 bytes' := by
  induction bytes generalizing a b with
  | nil => rfl
  | cons c bytes ih => simpa using ih (a + c) (b + (a + c))

theorem fletcher_concat (a b c : UInt8) (bytes : List UInt8) :
    fletcher a b (bytes ++ [c]) =
      ((fletcher a b bytes).1 + c, (fletcher a b bytes).2 + ((fletcher a b bytes).1 + c)) := by
  rw [fletcher_append]
  rfl

end Paparazzi.Library.Checksum

namespace Paparazzi.Library.LittleEndian

def ofBytes : List UInt8 → Nat
  | [] => 0
  | b :: bs => b.toNat + 256 * ofBytes bs

/-- The `n` low bytes of a number, the lowest first. -/
def toBytes : Nat → Nat → List UInt8
  | 0, _ => []
  | n + 1, v => UInt8.ofNat v :: toBytes n (v / 256)

/-- The `n` bytes of a buffer from an offset on. -/
def slice (buf : List UInt8) (off n : Nat) : List UInt8 := (buf.drop off).take n

/-- The `n`-byte field of a buffer at an offset. -/
def field (buf : List UInt8) (off n : Nat) : Nat := ofBytes (slice buf off n)

@[simp] theorem length_toBytes (n v : Nat) : (toBytes n v).length = n := by
  induction n generalizing v with
  | zero => rfl
  | succ n ih => simp [toBytes, ih]

theorem ofBytes_lt (bs : List UInt8) : ofBytes bs < 256 ^ bs.length := by
  induction bs with
  | nil => simp [ofBytes]
  | cons b bs ih =>
      have hb : b.toNat < 256 := b.toNat_lt
      simp only [ofBytes, List.length_cons, Nat.pow_succ]
      omega

theorem ofBytes_toBytes (n v : Nat) : ofBytes (toBytes n v) = v % 256 ^ n := by
  induction n generalizing v with
  | zero => simp [toBytes, ofBytes, Nat.mod_one]
  | succ n ih =>
      have hlow : (UInt8.ofNat v).toNat = v % 256 := rfl
      rw [toBytes, ofBytes, ih, hlow, pow_succ, Nat.mul_comm (256 ^ n) 256, Nat.mod_mul]

theorem toBytes_ofBytes (bs : List UInt8) : toBytes bs.length (ofBytes bs) = bs := by
  induction bs with
  | nil => rfl
  | cons b bs ih =>
      have hb : b.toNat < 256 := b.toNat_lt
      have hlow : UInt8.ofNat (b.toNat + 256 * ofBytes bs) = b := by
        apply UInt8.toNat_inj.mp
        change (b.toNat + 256 * ofBytes bs) % 256 = b.toNat
        omega
      have hrest : (b.toNat + 256 * ofBytes bs) / 256 = ofBytes bs := by omega
      rw [ofBytes, List.length_cons, toBytes, hlow, hrest, ih]

/-- A field that was appended after `off` bytes is read back. -/
theorem slice_append {pre mid suf : List UInt8} {off n : Nat} (hoff : pre.length = off)
    (hn : mid.length = n) : slice (pre ++ mid ++ suf) off n = mid := by
  subst hoff hn
  simp [slice]

theorem field_append (pre suf : List UInt8) {off n v : Nat} (hoff : pre.length = off) :
    field (pre ++ toBytes n v ++ suf) off n = v % 256 ^ n := by
  rw [field, slice_append hoff (length_toBytes n v), ofBytes_toBytes]

theorem field_lt (buf : List UInt8) (off n : Nat) : field buf off n < 256 ^ n := by
  refine lt_of_lt_of_le (ofBytes_lt _) (Nat.pow_le_pow_right (by omega) ?_)
  exact List.length_take_le _ _

/-- A field splits off its lowest byte; past the end every byte counts as zero. -/
theorem field_succ (buf : List UInt8) (off n : Nat) :
    field buf off (n + 1) = (buf.getD off 0).toNat + 256 * field buf (off + 1) n := by
  rcases Nat.lt_or_ge off buf.length with h | h
  · simp only [field, slice, List.drop_eq_getElem_cons h, List.take_succ_cons, ofBytes]
    rw [List.getD_eq_getElem?_getD, List.getElem?_eq_getElem h, Option.getD_some]
  · simp [field, slice, List.drop_eq_nil_of_le h, List.drop_eq_nil_of_le (Nat.le_succ_of_le h),
      List.getElem?_eq_none h, ofBytes]

theorem field_zero (buf : List UInt8) (off : Nat) : field buf off 0 = 0 := by
  simp [field, slice, ofBytes]

/-- A field splits off its highest byte. -/
theorem field_succ_top (buf : List UInt8) (off n : Nat) :
    field buf off (n + 1) = (buf.getD (off + n) 0).toNat * 256 ^ n + field buf off n := by
  induction n generalizing off with
  | zero => simp [field_succ, field_zero]
  | succ n ih =>
      rw [field_succ, ih (off + 1), field_succ buf off n, pow_succ,
        show off + 1 + n = off + (n + 1) by omega]
      ring

/-- The or of the shifted bytes of a field. -/
theorem foldl_or_shift (buf : List UInt8) (off n : Nat) :
    (List.range n).foldl (fun s i => s ||| (buf.getD (off + i) 0).toNat <<< (8 * i)) 0 =
      field buf off n := by
  induction n with
  | zero => rw [field_zero]; rfl
  | succ n ih =>
      have hlt : field buf off n < 2 ^ (8 * n) := by
        rw [pow_mul]
        exact field_lt buf off n
      rw [List.range_succ, List.foldl_append, ih, List.foldl_cons, List.foldl_nil, Nat.or_comm,
        ← Nat.shiftLeft_add_eq_or_of_lt hlt, field_succ_top, Nat.shiftLeft_eq, pow_mul,
        show (2 : Nat) ^ 8 = 256 by rfl]

end Paparazzi.Library.LittleEndian
