import Mathlib.Logic.Function.Basic
import Mathlib.Data.List.Basic

/-!
`struct transport`: the receive buffer of a telemetry transport, filled byte by
byte through an 8-bit index.
-/

namespace Paparazzi.Link

/-- `struct transport`; the buffer has one byte for each value of its 8-bit index. -/
structure Transport where
  payload : UInt8 → UInt8
  payloadLen : UInt8
  msgReceived : Bool
  ovrn : UInt8
  error : UInt8

/-- The first bytes of a buffer. -/
def Holds (payload : UInt8 → UInt8) (data : List UInt8) : Prop :=
  ∀ (i : Nat) (h : i < data.length), payload (UInt8.ofNat i) = data[i]

theorem holds_nil (payload : UInt8 → UInt8) : Holds payload [] := by
  intro i h
  cases h

/-- Writing behind the bytes that a buffer holds. -/
theorem Holds.update {payload : UInt8 → UInt8} {data : List UInt8} (h : Holds payload data)
    (hlen : data.length < 256) (c : UInt8) :
    Holds (Function.update payload (UInt8.ofNat data.length) c) (data ++ [c]) := by
  intro i hi
  rw [List.length_append, List.length_singleton] at hi
  by_cases hlast : i = data.length
  · subst hlast
    simp
  · have hlt : i < data.length := by omega
    have hne : UInt8.ofNat i ≠ UInt8.ofNat data.length := by
      intro heq
      have := congrArg UInt8.toNat heq
      simp only [UInt8.toNat_ofNat'] at this
      omega
    rw [Function.update_of_ne hne, h i hlt, List.getElem_append_left hlt]

/-- `payload[0..payload_len)`. -/
def Transport.contents (t : Transport) : List UInt8 :=
  (List.range t.payloadLen.toNat).map fun i => t.payload (UInt8.ofNat i)

theorem contents_eq_of_holds {t : Transport} {data : List UInt8} (h : Holds t.payload data)
    (hlen : t.payloadLen.toNat = data.length) : t.contents = data := by
  apply List.ext_getElem
  · simp [Transport.contents, hlen]
  · intro i hi hi'
    simp [Transport.contents, h i hi']

end Paparazzi.Link
