import Mathlib
import Paparazzi.Library.Machine

/-!
The Spektrum receivers: the parser of their bytes, the timer between the bytes, and the decoding of
the channels.
-/

namespace Paparazzi.Radio.Spektrum

open Paparazzi.Library.Machine

def channelsPerFrame : Nat := 7

def maxSpektrumFrames : Nat := 2

def minFrameSpace : Nat := 70

def maxByteSpace : Nat := 3

def radioControlNbChannel : Nat := 12

def radioThrottle : Nat := 0

def maxPprz : Int := 9600

/-! ### Arrays -/

/-- An element of one of the arrays. -/
inductive Access where
  | values (i : Nat)
  | spektrumBuf (i : Nat)
  | radioControlValues (i : Nat)
  | spektrumSigns (i : Nat)
  deriving DecidableEq

def Access.InBounds : Access → Prop
  | .values i => i < channelsPerFrame * maxSpektrumFrames
  | .spektrumBuf i => i < channelsPerFrame * maxSpektrumFrames
  | .radioControlValues i => i < radioControlNbChannel
  | .spektrumSigns i => i < radioControlNbChannel

/-! ### The parser -/

/-- `SpektrumStateStruct`. The numbers are 8 bits wide, `lostFrameCnt` 16; what lies behind the
array `values` is part of it. -/
structure Receiver where
  reSync : Bool
  spektrumTimer : Nat
  sync : Nat
  channelCnt : Nat
  frameCnt : Nat
  highByte : UInt8
  secondFrame : Nat
  lostFrameCnt : Nat
  rcAvailable : Bool
  values : Nat → UInt16

def Receiver.initial : Receiver where
  reSync := true
  spektrumTimer := 0
  sync := 0
  channelCnt := 0
  frameCnt := 0
  highByte := 0
  secondFrame := 0
  lostFrameCnt := 0
  rcAvailable := false
  values _ := 0

/-- `EncodingType`, `ExpectedFrames` and the static variables of the parser, which the two
receivers share. -/
structure Shared where
  encodingType : Nat
  expectedFrames : Nat
  tmpEncType : Nat
  tmpExpFrames : Nat
  deriving DecidableEq

def Shared.initial : Shared := ⟨0, 0, 0, 0⟩

/-- The low byte of a channel. -/
def lowByte (c : UInt8) (r : Receiver) : Receiver × List Access :=
  let i := r.channelCnt + r.secondFrame * 7
  let channelData := r.highByte.toUInt16 <<< 8 ||| c.toUInt16
  ({ r with
      sync := 2
      spektrumTimer := maxByteSpace
      rcAvailable := false
      values := fun j => if j = i then channelData else r.values j
      channelCnt := r.channelCnt + 1 }, [.values i])

/-- `FrameCnt` is compared for equality with the number that the stream gave. -/
def wholeFrame (secondary : Bool) (r : Receiver) (g : Shared) : Receiver × Shared :=
  let frameCnt := (r.frameCnt + 1) % 2 ^ 8
  let complete := frameCnt = g.tmpExpFrames
  ({ r with
      rcAvailable := if complete then true else r.rcAvailable
      frameCnt := if complete then 0 else frameCnt
      sync := 0
      channelCnt := 0
      secondFrame := 0
      spektrumTimer := minFrameSpace },
    if secondary then g
    else { g with encodingType := g.tmpEncType, expectedFrames := g.tmpExpFrames })

def spektrumParser (c : UInt8) (secondary : Bool) (r : Receiver) (g : Shared) :
    Receiver × Shared × List Access :=
  let timedOut := r.spektrumTimer = 0
  if r.reSync = true ∨ (r.sync = 0 ∧ ¬timedOut) then
    ({ r with
        reSync := false
        spektrumTimer := minFrameSpace
        sync := 0
        channelCnt := 0
        frameCnt := 0
        secondFrame := 0 }, g, [])
  else if r.sync = 0 then
    ({ r with
        lostFrameCnt := if secondary then c.toNat * 2 ^ 8 else c.toNat
        sync := 1
        spektrumTimer := maxByteSpace }, g, [])
  else if timedOut then
    ({ r with reSync := true, spektrumTimer := minFrameSpace }, g, [])
  else if r.sync = 1 then
    let r' := { r with sync := 2, spektrumTimer := maxByteSpace }
    if secondary then
      ({ r' with lostFrameCnt := (r.lostFrameCnt + c.toNat) % 2 ^ 16 },
        { g with tmpExpFrames := g.expectedFrames }, [])
    else (r', { g with tmpEncType := c.toNat / 0x10 % 2, tmpExpFrames := c.toNat % 4 }, [])
  else if r.sync = 2 then
    ({ r with
        highByte := c
        secondFrame :=
          if r.channelCnt = 0 then if c.toNat ≥ 0x80 then 1 else 0 else r.secondFrame
        sync := 3
        spektrumTimer := maxByteSpace }, g, [])
  else
    let (r, accesses) := if r.sync = 3 then lowByte c r else (r, [])
    if r.channelCnt ≥ channelsPerFrame then
      let (r, g) := wholeFrame secondary r g
      (r, g, accesses)
    else (r, g, accesses)

/-! ### The decoding -/

/-- The fields of `radio_control` that the decoding writes. -/
structure RadioControl where
  ok : Bool
  timeSinceLastFrame : Nat
  frameCpt : Nat
  values : Nat → Int

/-- The two receivers; where there is no secondary receiver, it has no bytes. -/
structure State where
  primary : Receiver
  secondary : Receiver
  shared : Shared
  spektrumBuf : Nat → Int
  radioControl : RadioControl

def initial : State where
  primary := .initial
  secondary := .initial
  shared := .initial
  spektrumBuf _ := 0
  radioControl := { ok := false, timeSinceLastFrame := 60, frameCpt := 0, values := fun _ => 0 }

def channelNum (encodingType : Nat) (channelData : UInt16) : Nat :=
  if encodingType = 0 then channelData.toNat / 2 ^ 10 % 16
  else if encodingType = 1 then channelData.toNat / 2 ^ 11 % 16
  else 0x0f

/-- What a channel has in `SpektrumBuf`. -/
def decoded (encodingType : Nat) (channelData : UInt16) : Int :=
  if encodingType = 0 then ((channelData.toNat % 2 ^ 10 : Nat) - 0x200) * (maxPprz / 0x156)
  else ((channelData.toNat % 2 ^ 11 : Nat) - 0x400) * (maxPprz / 0x2ac)

/-- The variables of the loop over the channel data. -/
structure Decoding where
  spektrumBuf : Nat → Int
  channelCnt : Nat
  maxChannelNum : Nat
  accesses : List Access

def decodeWord (encodingType : Nat) (d : Decoding) (channelData : UInt16) : Decoding :=
  let n := channelNum encodingType channelData
  let d :=
    if n < radioControlNbChannel then
      { d with
        spektrumBuf := fun j => if j = n then decoded encodingType channelData else d.spektrumBuf j
        channelCnt := d.channelCnt + 1
        accesses := d.accesses ++ [.spektrumBuf n] }
    else d
  if n ≠ 0x0f ∧ n > d.maxChannelNum then { d with maxChannelNum := n } else d

/-- The receiver with the new data, the one with fewer lost frames if both have. -/
def bestReceiver (st : State) : Receiver :=
  if st.primary.rcAvailable ∧ st.secondary.rcAvailable then
    if st.primary.lostFrameCnt ≤ st.secondary.lostFrameCnt then st.primary else st.secondary
  else if st.primary.rcAvailable then st.primary
  else st.secondary

def available (st : State) : Bool := st.primary.rcAvailable || st.secondary.rcAvailable

/-- The indices of the loop over the channel data. -/
def indices (st : State) : List Nat := List.range (channelsPerFrame * st.shared.expectedFrames)

def words (st : State) : List UInt16 := (indices st).map (bestReceiver st).values

def decode (st : State) : Decoding :=
  (words st).foldl (decodeWord st.shared.encodingType)
    { spektrumBuf := st.spektrumBuf, channelCnt := 0, maxChannelNum := 0, accesses := [] }

def radioValue (signs : Nat → Int) (buf : Nat → Int) (i : Nat) : Int :=
  (if i = radioThrottle then (buf i + maxPprz).tdiv 2 else buf i) * signs i

/-- `RadioControlEventImp`; `signs` is `SpektrumSigns` with what lies behind it. -/
def radioControlEventImp (signs : Nat → Int) (st : State) : State × List Access :=
  if available st then
    let d := decode st
    let reads := (indices st).map Access.values ++ d.accesses
    let st :=
      { st with
        primary := { st.primary with rcAvailable := false }
        secondary := { st.secondary with rcAvailable := false }
        spektrumBuf := d.spektrumBuf }
    if d.channelCnt ≥ d.maxChannelNum + 1 then
      ({ st with
          radioControl :=
            { ok := true
              timeSinceLastFrame := 0
              frameCpt := (st.radioControl.frameCpt + 1) % 2 ^ 8
              values := fun i =>
                if i < d.maxChannelNum + 1 then radioValue signs d.spektrumBuf i
                else st.radioControl.values i } },
        reads ++ (List.range (d.maxChannelNum + 1)).flatMap fun i =>
          [.radioControlValues i, .spektrumBuf i, .spektrumSigns i])
    else (st, reads)
  else (st, [])

/-! ### Runs -/

inductive Event where
  | primary (c : UInt8)
  | secondary (c : UInt8)
  /-- The interrupt of the timer, every 100 microseconds. -/
  | tim6
  | radioControlEvent
  deriving DecidableEq

def tick (r : Receiver) : Receiver := { r with spektrumTimer := r.spektrumTimer - 1 }

def stepAccesses (signs : Nat → Int) (st : State) : Event → State × List Access
  | .primary c =>
      let (r, g, accesses) := spektrumParser c false st.primary st.shared
      ({ st with primary := r, shared := g }, accesses)
  | .secondary c =>
      let (r, g, accesses) := spektrumParser c true st.secondary st.shared
      ({ st with secondary := r, shared := g }, accesses)
  | .tim6 => ({ st with primary := tick st.primary, secondary := tick st.secondary }, [])
  | .radioControlEvent => radioControlEventImp signs st

def step (signs : Nat → Int) (st : State) (e : Event) : State := (stepAccesses signs st e).1

/-! ### Indices -/

def StepInBounds (signs : Nat → Int) (st : State) (e : Event) : Prop :=
  ∀ a ∈ (stepAccesses signs st e).2, a.InBounds

/-- In the whole run the arrays are indexed within their sizes only. -/
def InBounds (signs : Nat → Int) (events : List Event) : Prop :=
  RunOk (step signs) (StepInBounds signs) initial events

/-- The channels that the data to be decoded name. -/
def channels (st : State) : List Nat := (words st).map (channelNum st.shared.encodingType)

/-- The highest channel that is named; 15 marks the data that are not used. -/
def highestChannel (l : List Nat) : Nat := (l.filter (· ≠ 0x0f)).foldl max 0

/-- Data of at most two frames, in which too few channels are named to reach one that the aircraft
does not have. -/
def Decodable (st : State) : Prop :=
  st.shared.expectedFrames ≤ 2 ∧
    (highestChannel (channels st) < radioControlNbChannel ∨
      ((channels st).filter (· < radioControlNbChannel)).length ≤ highestChannel (channels st))

def EventOk (st : State) : Event → Prop
  | .radioControlEvent => available st = true → Decodable st
  | _ => True

/-! ### Frames of the main receiver -/

/-- `RcAvailable` of the main receiver is raised in the run. -/
def raised (signs : Nat → Int) : State → List Event → Bool
  | _, [] => false
  | st, e :: events =>
      (!st.primary.rcAvailable && (step signs st e).primary.rcAvailable) ||
        raised signs (step signs st e) events

def ticks (events : List Event) : Nat := events.count .tim6

/-- What happens between two bytes of the main receiver. -/
def Between (events : List Event) : Prop := ∀ c, Event.primary c ∉ events

/-- The bytes of a frame, each with what happens behind it: they come one after the other, and the
next frame comes after a pause. -/
def WellTimed : List (UInt8 × List Event) → Prop
  | [] => True
  | [b] => Between b.2 ∧ minFrameSpace ≤ ticks b.2
  | b :: bytes => Between b.2 ∧ ticks b.2 < maxByteSpace ∧ WellTimed bytes

/-- A frame of a transmitter, which names the encoding and the number of frames in byte 2. -/
structure GoodFrame (encType expFrames : Nat) (bytes : List (UInt8 × List Event)) : Prop where
  length_eq : bytes.length = 16
  wellTimed : WellTimed bytes
  info : ∀ b ∈ bytes[1]?, b.1.toNat / 0x10 % 2 = encType ∧ b.1.toNat % 4 = expFrames

def frameEvents (bytes : List (UInt8 × List Event)) : List Event :=
  bytes.flatMap fun b => .primary b.1 :: b.2

/-- A second byte of the secondary receiver sets what the main receiver has read last; inside a
frame of the main receiver it must be the same. -/
def Undisturbed (st : State) : Event → Prop
  | .secondary _ =>
      st.secondary.reSync = false → st.secondary.sync = 1 → st.secondary.spektrumTimer ≠ 0 →
        2 ≤ st.primary.sync → st.shared.expectedFrames = st.shared.tmpExpFrames
  | _ => True

/-- The first byte of a frame either starts the synchronisation again, or not too many frames have
been counted before it; the counter wraps. -/
def Resynchronises (expFrames : Nat) (r : Receiver) : Prop :=
  r.reSync = true ∨ r.sync ≠ 0 ∨ r.spektrumTimer ≠ 0 ∨ r.frameCnt < expFrames ∨
    255 - expFrames ≤ r.frameCnt

end Paparazzi.Radio.Spektrum
