import Paparazzi.Library.Machine
import Paparazzi.Link.GroundLink
import Paparazzi.Messages.Codec

/-!
The uplink of the ground segment: the aircraft that are known by the messages they send, and the
datalink messages that are forwarded to one of them or broadcast to all.
-/

namespace Paparazzi.Link.Uplink

open Paparazzi.Library.Machine
open Paparazzi.Link.GroundLink
open Paparazzi.Link.Serial
open Paparazzi.Messages.Codec (MessageTable Value Values payloadOfValues)

abbrev Payload := List UInt8

/-! ### Frames -/

/-- `packet` of `PprzTransportBase`; `String.create` leaves the bytes `fresh` in the place of the
timestamp. -/
def packetBase (stx : UInt8) (overheadLength : Nat) (fresh : List UInt8) (payload : Payload) :
    Option (List UInt8) :=
  let msgLength := payload.length + overheadLength
  if msgLength ≥ 256 then none
  else
    let m := [stx, UInt8.ofNat msgLength] ++ fresh ++ payload
    let ck := PprzTransport.computeChecksum (m ++ [0, 0])
    some (m ++ [ck.1, ck.2])

/-- `Pprz.Transport.packet` -/
def pprzPacket : Payload → Option (List UInt8) := packetBase PprzTransport.stx 4 []

/-- `Pprz.TransportExtended.packet` -/
def pprzExtendedPacket : List UInt8 → Payload → Option (List UInt8) := packetBase 0x98 8

def apiTx64Id : UInt8 := 0x00

def api868Tx64Id : UInt8 := 0x10

def apiTx16Id : UInt8 := 0x01

/-- The bytes of an address, the highest one first. -/
def writeInt (n : Nat) (x : Int) : List UInt8 :=
  (List.range n).map fun i => UInt8.ofNat (x / 256 ^ (n - 1 - i) % 256).toNat

/-- `Xbee.api_tx64`; a failed assertion is `none`. -/
def apiTx64 (mode868 : Bool) (frameId : Nat) (dest : Int) (data : Payload) : Option (List UInt8) :=
  if frameId < 0x100 ∧ data.length ≤ 100 then
    let optional868 := if mode868 then [0xff, 0xfe, 0x0] else []
    some ([apiTx64Id, UInt8.ofNat frameId] ++ writeInt 8 dest ++ optional868 ++ [0] ++ data)
  else none

def apiTx16 (mode868 : Bool) (frameId : Nat) (dest : Int) (data : Payload) : Option (List UInt8) :=
  if mode868 = false ∧ frameId < 0x100 ∧ data.length ≤ 100 ∧ 0 ≤ dest ∧ dest < 0x10000 then
    some ([apiTx16Id, UInt8.ofNat frameId] ++ writeInt 2 dest ++ [0] ++ data)
  else none

/-- `Xbee.Protocol.packet` -/
def xbeePacket (payload : List UInt8) : Option (List UInt8) :=
  let n := payload.length
  if n / 2 ^ 8 < 256 then
    some ([0x7e, UInt8.ofNat (n / 2 ^ 8), UInt8.ofNat (n % 2 ^ 8)] ++ payload ++
      [0xff - Library.Checksum.sum 0 payload])
  else none

/-! ### The state -/

abbrev InetAddr := UInt32

inductive Sockaddr where
  | unix (path : String)
  | inet (addr : InetAddr) (port : Nat)
  deriving DecidableEq

/-- The options of the program that decide how messages are sent. -/
structure Config where
  transport : GroundLink.Transport
  udp : Bool
  audio : Bool
  mode868 : Bool
  acInfo : Bool
  udpUplinkPort : Nat
  /-- What `String.create` leaves for a timestamp. -/
  fresh : List UInt8
  fresh_length : fresh.length = 4

/-- `status`: how long nothing has been received, and from where it came the first time. -/
structure Status where
  msSinceLastMsg : Nat
  udpPeername : Option Sockaddr
  deriving DecidableEq

/-- `statuss` in the order of its iterations, `last_udp_peername` and the counter of
`gen_frame_id`. -/
structure State where
  statuss : List (UInt8 × Status)
  nodup : (statuss.map Prod.fst).Nodup
  lastUdpPeername : Sockaddr
  frameId : Nat

def initial : State where
  statuss := []
  nodup := List.nodup_nil
  lastUdpPeername := .unix "not initialized"
  frameId := 0

def deadAircraftTimeMs : Nat := 5000

def statusMsgPeriod : Nat := 1000

namespace State

def find (st : State) (acId : Int) : Option Status :=
  (st.statuss.find? fun e => (e.1.toNat : Int) = acId).map Prod.snd

def liveAircraft (st : State) (acId : Int) : Bool :=
  match st.find acId with
  | some s => s.msSinceLastMsg < deadAircraftTimeMs
  | none => false

theorem nodup_map {l : List (UInt8 × Status)} (h : (l.map Prod.fst).Nodup)
    (f : UInt8 × Status → Status) : ((l.map fun e => (e.1, f e)).map Prod.fst).Nodup := by
  rw [List.map_map]
  exact h

/-- The statuses change, the aircraft do not. -/
def mapStatus (st : State) (f : UInt8 × Status → Status) : State :=
  { st with
    statuss := st.statuss.map fun e => (e.1, f e)
    nodup := nodup_map st.nodup f }

/-- `update_status`; the peer of an aircraft that is known stays. -/
def updateStatus (peer : Option Sockaddr) (st : State) (acId : UInt8) : State :=
  if h : acId ∈ st.statuss.map Prod.fst then
    st.mapStatus fun e => if e.1 = acId then { e.2 with msSinceLastMsg := 0 } else e.2
  else
    { st with
      statuss := (acId, ⟨0, peer⟩) :: st.statuss
      nodup := List.nodup_cons.mpr ⟨h, st.nodup⟩ }

/-- The part of `send_status_msg` that `live_aircraft` reads. -/
def sendStatusMsg (st : State) : State :=
  st.mapStatus fun e => { e.2 with msSinceLastMsg := e.2.msSinceLastMsg + statusMsgPeriod }

end State

/-- The `udp_peername` that `parser_of_device` hands to `use_tele_message`; neither the XBee
parser nor the audio input has one. -/
def udpPeernameOf (cfg : Config) (st : State) : Option Sockaddr :=
  if cfg.audio then none
  else
    match cfg.transport with
    | .pprz => if cfg.udp then some st.lastUdpPeername else none
    | .pprz2 => if cfg.udp then some st.lastUdpPeername else none
    | .xbee => none

/-- What is read: with `udp_read` from a sender, and the messages of the aircraft in it. -/
def readFd (cfg : Config) (st : State) (sender : InetAddr × Nat) (acIds : List UInt8) : State :=
  let st :=
    if cfg.udp ∧ ¬cfg.audio then { st with lastUdpPeername := .inet sender.1 sender.2 } else st
  acIds.foldl (fun st acId => st.updateStatus (udpPeernameOf cfg st) acId) st

/-! ### Sending -/

inductive Dest where
  | device
  | peer (addr : InetAddr) (port : Nat)
  deriving DecidableEq

structure Write where
  dest : Dest
  bytes : List UInt8
  deriving DecidableEq

/-- What a function writes, or `none` where it raises an exception, and the state behind it. -/
abbrev Outcome := Option (List Write) × State

/-- One write, unless the frame could not be made. -/
def write (dest : Dest) (frame : Option (List UInt8)) (st : State) : Outcome :=
  (frame.map fun bytes => [⟨dest, bytes⟩], st)

def genFrameId (st : State) : State :=
  { st with frameId := if st.frameId + 1 ≥ 256 then 1 else st.frameId + 1 }

/-- `XB.send` -/
def xbSend (cfg : Config) (acId : Int) (rfData : Payload) (st : State) : Outcome :=
  let st := genFrameId st
  let frameData :=
    if cfg.mode868 then apiTx64 cfg.mode868 st.frameId acId rfData
    else apiTx16 cfg.mode868 st.frameId acId rfData
  write .device (frameData.bind xbeePacket) st

def udpSend (cfg : Config) (payload : Payload) (peername : InetAddr) (st : State) : Outcome :=
  write (.peer peername cfg.udpUplinkPort) (pprzPacket payload) st

def send (cfg : Config) (acId : Int) (payload : Payload) (st : State) : Outcome :=
  if st.liveAircraft acId then
    match (st.find acId).bind Status.udpPeername with
    | some (.inet peername _) => udpSend cfg payload peername st
    | _ =>
        match cfg.transport with
        | .pprz => write .device (pprzPacket payload) st
        | .xbee => xbSend cfg acId payload st
        -- the match has no case for this transport
        | .pprz2 => (none, st)
  else (some [], st)

/-- `Hashtbl.iter`; an exception ends it. -/
def iter (f : UInt8 × Status → State → Outcome) : List (UInt8 × Status) → State → Outcome
  | [], st => (some [], st)
  | e :: es, st =>
      match f e st with
      | (none, st) => (none, st)
      | (some ws, st) =>
          let rest := iter f es st
          (rest.1.map (ws ++ ·), rest.2)

def broadcast (cfg : Config) (payload : Payload) (st : State) : Outcome :=
  if cfg.udp then
    iter (fun e st' =>
      if st'.liveAircraft e.1.toNat then
        match e.2.udpPeername with
        | some (.inet peername _) => udpSend cfg payload peername st'
        | _ => (some [], st')
      else (some [], st')) st.statuss st
  else
    match cfg.transport with
    | .pprz => write .device (pprzPacket payload) st
    | .pprz2 => write .device (pprzExtendedPacket cfg.fresh payload) st
    | .xbee => xbSend cfg 0xffff payload st

/-! ### The messages -/

inductive LinkMode where
  | forwarded
  | broadcasted
  deriving DecidableEq

/-- The messages of the class `datalink`, whose names differ. -/
structure DlClass where
  messages : MessageTable
  link : UInt8 → Option LinkMode
  messageOfName : String → Option UInt8
  messageOfName_eq : ∀ {id m}, messages id = some m → messageOfName m.name = some id

def myId : UInt8 := 0

/-- `Pprz.int_assoc`; an exception is `none`. -/
def intAssoc (a : String) (vs : Values) : Option Int :=
  match vs.lookup a with
  | some (.scalar (.int x)) => some x
  | some (.scalar (.int32 x)) => some x.toInt
  | _ => none

/-- `received` is the result of `values_of_string`; `message_bind` replaces an exception by no
values. -/
def boundValues (received : Option Values) : Values := received.getD []

section

variable (cfg : Config) (cls : DlClass)

def payloadOf (name : String) (vs : Values) : Option Payload :=
  (cls.messageOfName name).bind fun id => (payloadOfValues cls.messages id myId vs).toOption

def forwarder (name : String) (received : Option Values) (st : State) : Outcome :=
  let vs := boundValues received
  match intAssoc "ac_id" vs, payloadOf cls name vs with
  | some acId, some s => send cfg acId s st
  | _, _ => (none, st)

def broadcaster (name : String) (received : Option Values) (st : State) : Outcome :=
  match payloadOf cls name (boundValues received) with
  | some payload => broadcast cfg payload st
  | none => (none, st)

/-- The messages that `message_uplink` binds. -/
def bound : LinkMode → Bool
  | .forwarded => true
  | .broadcasted => cfg.acInfo

def messageUplink (id : UInt8) (received : Option Values) (st : State) : Outcome :=
  match cls.messages id, cls.link id with
  | some msg, some .forwarded => forwarder cfg cls msg.name received st
  | some msg, some .broadcasted =>
      if cfg.acInfo then broadcaster cfg cls msg.name received st else (some [], st)
  | _, _ => (some [], st)

def sendPingMsg (st : State) : Outcome :=
  iter (fun e st' =>
    match payloadOf cls "PING" [] with
    | some s => send cfg e.1.toNat s st'
    | none => (none, st')) st.statuss st

inductive Event where
  | readFd (sender : InetAddr × Nat) (acIds : List UInt8)
  | sendStatusMsg
  | sendPingMsg
  | message (id : UInt8) (received : Option Values)

/-- The main loop. An exception of a handler ends the handler only. -/
def step (st : State) : Event → State
  | .readFd sender acIds => readFd cfg st sender acIds
  | .sendStatusMsg => st.sendStatusMsg
  | .sendPingMsg => (sendPingMsg cfg cls st).2
  | .message id received => (messageUplink cfg cls id received st).2

end

/-! ### What is asked of the uplink -/

/-- The bytes are one frame with the payload. -/
structure IsFrame (P : Protocol) (bytes : List UInt8) (payload : Payload) : Prop where
  scan_eq : scan P bytes = .frame 0 bytes.length
  checksum_eq : P.checksum bytes = some true
  payload_eq : P.payload bytes = some payload

/-- The address and the data of a transmit request, as the modem of the mode reads it. -/
def txRequest (mode868 : Bool) (s : List UInt8) : Option (Nat × Payload) :=
  let address := fun n => ((s.drop 2).take n).foldl (fun a c => a * 256 + c.toNat) 0
  if mode868 = false ∧ s.getD 0 0 = apiTx16Id then some (address 2, s.drop 5)
  else if mode868 = false ∧ s.getD 0 0 = apiTx64Id then some (address 8, s.drop 11)
  else if mode868 = true ∧ s.getD 0 0 = api868Tx64Id then some (address 8, s.drop 14)
  else none

/-- A frame of the selected transport with the payload, for an address of the modems. -/
def FrameFor (cfg : Config) (address : Nat) (payload : Payload) (bytes : List UInt8) : Prop :=
  match cfg.transport with
  | .pprz | .pprz2 => IsFrame cfg.transport.protocol bytes payload
  | .xbee => ∃ s, IsFrame GroundReader.xbee bytes s ∧ txRequest cfg.mode868 s = some (address, payload)

/-- Where an aircraft is reached: at its peer on UDP, else over the device. -/
def ReachedAt (cfg : Config) (s : Status) (dest : Dest) : Prop :=
  if cfg.udp then
    ∃ addr port, s.udpPeername = some (.inet addr port) ∧ dest = .peer addr cfg.udpUplinkPort
  else dest = .device

/-- No exception; a live aircraft gets one frame. -/
def Forwards (cfg : Config) (st : State) (acId : Int) (payload : Payload) (outcome : Outcome) :
    Prop :=
  ∃ ws, outcome.1 = some ws ∧ ∀ s, st.find acId = some s → st.liveAircraft acId = true →
    ∃ w, ws = [w] ∧ ReachedAt cfg s w.dest ∧ FrameFor cfg acId.toNat payload w.bytes

def live (st : State) : List (UInt8 × Status) :=
  st.statuss.filter fun e => st.liveAircraft e.1.toNat

/-- No exception; one frame, and one for each live aircraft on UDP. -/
def Broadcasts (cfg : Config) (st : State) (payload : Payload) (outcome : Outcome) : Prop :=
  ∃ ws, outcome.1 = some ws ∧
    if cfg.udp then
      List.Forall₂ (fun e w => ReachedAt cfg e.2 w.dest ∧ FrameFor cfg 0xffff payload w.bytes)
        (live st) ws
    else ∃ w, ws = [w] ∧ w.dest = .device ∧ FrameFor cfg 0xffff payload w.bytes

/-- What the uplink does with a message is what it is for. -/
def Uplinked (cfg : Config) (cls : DlClass) (st : State) (mode : LinkMode) (id : UInt8)
    (received : Option Values) : Prop :=
  ∃ vs payload, received = some vs ∧
    payloadOfValues cls.messages id myId vs = .ok payload ∧
      match mode with
      | .forwarded => ∃ acId, intAssoc "ac_id" vs = some acId ∧
          Forwards cfg st acId payload (messageUplink cfg cls id received st)
      | .broadcasted => Broadcasts cfg st payload (messageUplink cfg cls id received st)

/-! ### The condition -/

def maxPayload : GroundLink.Transport → Nat
  | .pprz => 251
  | .pprz2 => 247
  | .xbee => 100

/-- The transports by which one aircraft is reached. -/
def ForwardsBy (cfg : Config) : Prop :=
  (cfg.transport = .pprz ∧ (cfg.udp = true → cfg.audio = false)) ∨
    (cfg.transport = .xbee ∧ cfg.udp = false ∧ cfg.mode868 = false)

/-- The transports by which all aircraft are reached. -/
def BroadcastsBy (cfg : Config) : Prop :=
  if cfg.udp then cfg.transport = .pprz ∧ cfg.audio = false
  else cfg.transport = .xbee → cfg.mode868 = false

/-- The message can be read and written, and the transport can carry it to those it is for. -/
def UplinkOk (cfg : Config) (cls : DlClass) (st : State) (mode : LinkMode) (id : UInt8)
    (received : Option Values) : Prop :=
  ∃ vs payload, received = some vs ∧
    payloadOfValues cls.messages id myId vs = .ok payload ∧
      match mode with
      | .forwarded => ∃ acId, intAssoc "ac_id" vs = some acId ∧
          (st.liveAircraft acId = true →
            ForwardsBy cfg ∧ payload.length ≤ maxPayload cfg.transport)
      | .broadcasted => (cfg.udp = true → live st ≠ []) →
          BroadcastsBy cfg ∧ payload.length ≤ maxPayload cfg.transport

end Paparazzi.Link.Uplink
