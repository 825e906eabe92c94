import Paparazzi.Library.Fallible
import Paparazzi.Link.Uplink

/-!
Which messages the uplink delivers: the frames of the three transports, the peers of the aircraft
in every run, and the messages that reach the aircraft they are for.
-/

namespace Paparazzi.Link.Uplink

open Paparazzi.Library
open Paparazzi.Library.Machine
open Paparazzi.Link.GroundLink
open Paparazzi.Link.Serial
open Paparazzi.Messages.Codec (Values payloadOfValues)

/-! ### Frames of the Pprz transports -/

section

variable {stx : UInt8} {offsetPayload overheadLength : Nat} {fresh bytes : List UInt8}
  {payload : Payload}

theorem packetBase_isSome_iff :
    (packetBase stx overheadLength fresh payload).isSome ↔
      payload.length + overheadLength < 256 := by
  rw [packetBase]
  split_ifs with hlong
  · simpa using hlong
  · simpa using hlong

/-- The checksum leaves out the last two bytes. -/
theorem computeChecksum_tail (m : List UInt8) (a b : UInt8) :
    PprzTransport.computeChecksum (m ++ [a, b]) =
      Checksum.fletcher 0 0 ((m.drop 1).take (m.length - 1)) := by
  rw [PprzTransport.computeChecksum]
  congr 1
  have hlength : (m ++ [a, b]).length - 3 = m.length - 1 := by
    simp
  rw [hlength]
  cases m with
  | nil => rfl
  | cons c m => simp

theorem getD_tail (m : List UInt8) (a b : UInt8) :
    (m ++ [a, b]).getD m.length 0 = a ∧ (m ++ [a, b]).getD (m.length + 1) 0 = b := by
  constructor
  · rw [List.getD_append_right _ _ _ _ (Nat.le_refl _), Nat.sub_self, List.getD_cons_zero]
  · have hone : m.length + 1 - m.length = 1 := by omega
    rw [List.getD_append_right _ _ _ _ (Nat.le_succ _), Nat.succ_eq_add_one, hone]
    rfl

/-- The frames that are made can be read. -/
theorem isFrame_packetBase {hpos : 0 < overheadLength}
    (h : packetBase stx overheadLength fresh payload = some bytes)
    (hfresh : fresh.length + 2 = offsetPayload) (hoverhead : offsetPayload + 2 = overheadLength) :
    IsFrame (pprzTransportBase stx offsetPayload overheadLength hpos) bytes payload := by
  rw [packetBase] at h
  split_ifs at h with hlong
  have hbytes := Option.some.inj h
  generalize hm : [stx, UInt8.ofNat (payload.length + overheadLength)] ++ fresh ++ payload = m at *
  generalize hck : PprzTransport.computeChecksum (m ++ [0, 0]) = ck at *
  have hlength : bytes.length = payload.length + overheadLength := by
    rw [← hbytes, ← hm]
    simp
    omega
  have hcode : GroundReader.code bytes 1 = payload.length + overheadLength := by
    rw [GroundReader.code, ← hbytes, ← hm]
    exact UInt8.toNat_ofNat_of_lt' (by simpa using hlong)
  refine ⟨?_, ?_, ?_⟩
  · rw [scan_frame_iff]
    refine ⟨?_, ?_, by omega⟩
    · rw [← hbytes, ← hm]
      simp [pprzTransportBase, GroundReader.index, List.findIdx?_cons]
    · simp only [pprzTransportBase]
      rw [if_pos (by omega), hcode, hlength, Nat.max_eq_left (by omega)]
  · have hsum : PprzTransport.computeChecksum bytes = ck := by
      rw [← hbytes, ← hck, computeChecksum_tail, computeChecksum_tail]
    have hsplit : bytes.length = m.length + 2 := by
      rw [← hbytes]
      simp
    obtain ⟨hckA, hckB⟩ := getD_tail m ck.1 ck.2
    rw [hbytes] at hckA hckB
    simp only [pprzTransportBase, hsum]
    rw [hsplit, Nat.add_sub_cancel, show m.length + 2 - 1 = m.length + 1 from rfl, hckA, hckB]
    simp
  · simp only [pprzTransportBase]
    rw [if_pos ⟨hcode.trans hlength.symm, by omega⟩, hlength, ← hbytes, ← hm, ← hfresh]
    simp

end

/-! ### Frames of the modems -/

theorem isFrame_xbeePacket {s bytes : List UInt8} (h : xbeePacket s = some bytes) :
    IsFrame GroundReader.xbee bytes s := by
  rw [xbeePacket] at h
  split_ifs at h with hlong
  have hbytes := Option.some.inj h
  have hlength : bytes.length = s.length + 4 := by
    rw [← hbytes]
    simp
  have hhigh : GroundReader.code bytes 1 = s.length / 2 ^ 8 := by
    rw [GroundReader.code, ← hbytes]
    exact UInt8.toNat_ofNat_of_lt' hlong
  have hlow : GroundReader.code bytes 2 = s.length % 2 ^ 8 := by
    rw [GroundReader.code, ← hbytes]
    exact UInt8.toNat_ofNat_of_lt' (Nat.mod_lt _ (by decide))
  have hdata : (bytes.drop 3).take (bytes.length - 4) = s := by
    rw [hlength, ← hbytes]
    simp
  refine ⟨?_, ?_, ?_⟩
  · rw [scan_frame_iff]
    refine ⟨?_, ?_, by omega⟩
    · rw [← hbytes]
      simp [GroundReader.xbee, GroundReader.index, List.findIdx?_cons]
    · have hor : ((s.length / 2 ^ 8) <<< 8 ||| (s.length % 2 ^ 8)) = s.length := by
        rw [← Nat.shiftLeft_add_eq_or_of_lt (Nat.mod_lt _ (by decide)), Nat.shiftLeft_eq,
          Nat.mul_comm]
        exact Nat.div_add_mod _ _
      simp only [GroundReader.xbee, Nat.zero_add]
      rw [if_neg (by omega), hhigh, hlow, hor, hlength]
  · simp only [GroundReader.xbee, hdata]
    rw [hlength, ← hbytes]
    simp
  · simp only [GroundReader.xbee, hdata]

theorem txRequest_apiTx16 {frameId : Nat} {dest : Int} {data : Payload} {s : List UInt8}
    (h : apiTx16 false frameId dest data = some s) :
    txRequest false s = some (dest.toNat, data) := by
  rw [apiTx16] at h
  split_ifs at h with hok
  obtain ⟨-, -, -, hlo, hhi⟩ := hok
  have hs := Option.some.inj h
  have haddress : ((writeInt 2 dest).foldl (fun a c => a * 256 + c.toNat) 0) = dest.toNat := by
    simp [writeInt, List.range_succ]
    omega
  rw [← hs]
  simp [txRequest, apiTx16Id, writeInt, List.range_succ] at haddress ⊢
  exact haddress

/-- A frame has one payload. -/
theorem payload_unique {P : Protocol} {bytes : List UInt8} {payload payload' : Payload}
    (h : IsFrame P bytes payload) (h' : IsFrame P bytes payload') : payload = payload' :=
  Option.some.inj (h.payload_eq.symm.trans h'.payload_eq)

/-! ### One write -/

section

variable {cfg : Config} {address : Nat} {acId : Int} {payload : Payload} {bytes : List UInt8}
  {dest : Dest} {st : State}

/-- One frame of the transport is written. -/
def SendsOne (cfg : Config) (address : Nat) (payload : Payload) (dest : Dest)
    (outcome : Outcome) : Prop :=
  ∃ bytes, outcome.1 = some [⟨dest, bytes⟩] ∧ FrameFor cfg address payload bytes

theorem write_eq_some {frame : Option (List UInt8)} {ws : List Write}
    (h : (write dest frame st).1 = some ws) : ∃ bytes, frame = some bytes ∧ ws = [⟨dest, bytes⟩] := by
  obtain ⟨bytes, hframe, rfl⟩ := Option.map_eq_some_iff.mp h
  exact ⟨bytes, hframe, rfl⟩

theorem length_of_pprzPacket (h : pprzPacket payload = some bytes) : payload.length ≤ 251 := by
  have hsome := packetBase_isSome_iff.mp (Option.isSome_iff_exists.mpr ⟨bytes, h⟩)
  omega

theorem sendsOne_pprz (htransport : cfg.transport = .pprz) :
    SendsOne cfg address payload dest (write dest (pprzPacket payload) st) ↔
      payload.length ≤ 251 := by
  constructor
  · rintro ⟨bytes, hwrite, -⟩
    obtain ⟨bytes, hframe, -⟩ := write_eq_some hwrite
    exact length_of_pprzPacket hframe
  · intro hlength
    have hsome : (pprzPacket payload).isSome := packetBase_isSome_iff.mpr (by omega)
    obtain ⟨bytes, hframe⟩ := Option.isSome_iff_exists.mp hsome
    refine ⟨bytes, by rw [write, hframe, Option.map_some], ?_⟩
    rw [FrameFor, htransport]
    exact @isFrame_packetBase _ 2 4 _ _ _ (by decide) hframe rfl rfl

theorem sendsOne_pprz2 (htransport : cfg.transport = .pprz2) :
    SendsOne cfg address payload dest (write dest (pprzExtendedPacket cfg.fresh payload) st) ↔
      payload.length ≤ 247 := by
  constructor
  · rintro ⟨bytes, hwrite, -⟩
    obtain ⟨bytes, hframe, -⟩ := write_eq_some hwrite
    have hsome := packetBase_isSome_iff.mp (Option.isSome_iff_exists.mpr ⟨bytes, hframe⟩)
    omega
  · intro hlength
    have hsome : (pprzExtendedPacket cfg.fresh payload).isSome :=
      packetBase_isSome_iff.mpr (by omega)
    obtain ⟨bytes, hframe⟩ := Option.isSome_iff_exists.mp hsome
    refine ⟨bytes, by rw [write, hframe, Option.map_some], ?_⟩
    rw [FrameFor, htransport]
    exact @isFrame_packetBase _ 6 8 _ _ _ (by decide) hframe (by rw [cfg.fresh_length]) rfl

/-- A frame without a timestamp is none of the transport with timestamps. -/
theorem not_frameFor_pprz2 (htransport : cfg.transport = .pprz2)
    (h : pprzPacket payload = some bytes) : ¬FrameFor cfg address payload bytes := by
  rw [FrameFor, htransport]
  intro hframe
  have hindex := (scan_frame_iff.mp hframe.scan_eq).1
  have hstart := GroundReader.getD_index hindex
  rw [pprzPacket, packetBase] at h
  split_ifs at h
  rw [← Option.some.inj h] at hstart
  have hne : PprzTransport.stx ≠ 0x98 := by decide
  exact hne hstart

theorem sendsOne_udpSend {peername : InetAddr} (htransport : cfg.transport ≠ .xbee) :
    SendsOne cfg address payload (.peer peername cfg.udpUplinkPort)
        (udpSend cfg payload peername st) ↔
      cfg.transport = .pprz ∧ payload.length ≤ 251 := by
  cases hcase : cfg.transport with
  | pprz => exact (sendsOne_pprz hcase).trans (by simp)
  | pprz2 =>
      refine iff_of_false ?_ (by simp)
      rintro ⟨bytes, hwrite, hframe⟩
      obtain ⟨bytes', hbytes, heq⟩ := write_eq_some hwrite
      cases heq
      exact not_frameFor_pprz2 hcase hbytes hframe
  | xbee => exact absurd hcase htransport

theorem sendsOne_xbSend (htransport : cfg.transport = .xbee) (hlo : 0 ≤ acId)
    (hhi : acId < 0x10000) :
    SendsOne cfg acId.toNat payload .device (xbSend cfg acId payload st) ↔
      cfg.mode868 = false ∧ payload.length ≤ 100 := by
  have hframeId : (genFrameId st).frameId < 0x100 := by
    rw [genFrameId]
    dsimp only
    split_ifs <;> omega
  constructor
  · rintro ⟨bytes, hwrite, hframe⟩
    obtain ⟨bytes', hbytes, heq⟩ := write_eq_some hwrite
    cases heq
    obtain ⟨s, hs, hpacket⟩ := Option.bind_eq_some_iff.mp hbytes
    rw [FrameFor, htransport] at hframe
    obtain ⟨s', hs', htx⟩ := hframe
    obtain rfl := payload_unique hs' (isFrame_xbeePacket hpacket)
    cases hmode : cfg.mode868 with
    | false =>
        rw [hmode, if_neg Bool.false_ne_true, apiTx16] at hs
        split_ifs at hs with hok
        exact ⟨rfl, hok.2.2.1⟩
    | true =>
        simp only [hmode, if_pos, apiTx64] at hs
        split_ifs at hs
        rw [hmode, ← Option.some.inj hs] at htx
        simp [txRequest, apiTx64Id, api868Tx64Id] at htx
  · rintro ⟨hmode, hlength⟩
    have hs : ∃ s, apiTx16 false (genFrameId st).frameId acId payload = some s := by
      rw [apiTx16, if_pos ⟨rfl, hframeId, hlength, hlo, hhi⟩]
      exact ⟨_, rfl⟩
    obtain ⟨s, hs⟩ := hs
    have hpacket : ∃ bytes, xbeePacket s = some bytes := by
      have hshort : s.length / 2 ^ 8 < 256 := by
        rw [apiTx16, if_pos ⟨rfl, hframeId, hlength, hlo, hhi⟩] at hs
        rw [← Option.some.inj hs]
        simp [writeInt]
        omega
      rw [xbeePacket, if_pos hshort]
      exact ⟨_, rfl⟩
    obtain ⟨bytes, hbytes⟩ := hpacket
    refine ⟨bytes, ?_, ?_⟩
    · simp only [xbSend, write, hmode, Bool.false_eq_true, if_false, hs, Option.bind_some, hbytes,
        Option.map_some]
    · rw [FrameFor, htransport]
      refine ⟨s, isFrame_xbeePacket hbytes, ?_⟩
      rw [hmode]
      exact txRequest_apiTx16 hs

end

/-! ### The peers of the aircraft -/

section

variable {cfg : Config} {cls : DlClass}

/-- The Pprz parsers note where a datagram has come from. -/
def Noted (cfg : Config) : Prop := cfg.udp = true ∧ cfg.audio = false ∧ cfg.transport ≠ .xbee

instance (cfg : Config) : Decidable (Noted cfg) := inferInstanceAs (Decidable (_ ∧ _ ∧ _))

def PeerOk (cfg : Config) (peer : Option Sockaddr) : Prop :=
  if Noted cfg then ∃ addr port, peer = some (.inet addr port) else peer = none

def Known (cfg : Config) (st : State) : Prop :=
  ∀ e ∈ st.statuss, PeerOk cfg e.2.udpPeername

theorem known_mapStatus {st : State} (h : Known cfg st) {f : UInt8 × Status → Status}
    (hf : ∀ e, (f e).udpPeername = e.2.udpPeername) : Known cfg (st.mapStatus f) := by
  intro e he
  obtain ⟨e', he', rfl⟩ := List.mem_map.mp he
  rw [hf]
  exact h e' he'

theorem known_updateStatus {st : State} {peer : Option Sockaddr} (h : Known cfg st)
    (hpeer : PeerOk cfg peer) (acId : UInt8) : Known cfg (st.updateStatus peer acId) := by
  rw [State.updateStatus]
  split_ifs
  · refine known_mapStatus h fun e => ?_
    split_ifs <;> rfl
  · intro e he
    rcases List.mem_cons.mp he with rfl | he
    · exact hpeer
    · exact h e he

theorem lastUdpPeername_updateStatus (st : State) (peer : Option Sockaddr) (acId : UInt8) :
    (st.updateStatus peer acId).lastUdpPeername = st.lastUdpPeername := by
  rw [State.updateStatus]
  split_ifs <;> rfl

theorem peerOk_udpPeernameOf {st : State}
    (h : Noted cfg → ∃ addr port, st.lastUdpPeername = .inet addr port) :
    PeerOk cfg (udpPeernameOf cfg st) := by
  rw [PeerOk]
  split_ifs with hnoted
  · obtain ⟨addr, port, hlast⟩ := h hnoted
    obtain ⟨hudp, haudio, htransport⟩ := hnoted
    refine ⟨addr, port, ?_⟩
    rw [udpPeernameOf, haudio, if_neg Bool.false_ne_true, hudp, hlast]
    cases hcase : cfg.transport with
    | pprz => rfl
    | pprz2 => rfl
    | xbee => exact absurd hcase htransport
  · rw [udpPeernameOf]
    cases haudio : cfg.audio with
    | true => rfl
    | false =>
        have hudp : cfg.transport ≠ .xbee → cfg.udp = false := fun htransport =>
          Bool.eq_false_iff.mpr fun hudp => hnoted ⟨hudp, haudio, htransport⟩
        cases hcase : cfg.transport with
        | xbee => rfl
        | pprz =>
            rw [hudp (by rw [hcase]; decide)]
            rfl
        | pprz2 =>
            rw [hudp (by rw [hcase]; decide)]
            rfl

theorem known_readFd {st : State} (h : Known cfg st) (sender : InetAddr × Nat)
    (acIds : List UInt8) : Known cfg (readFd cfg st sender acIds) := by
  rw [readFd]
  have hlast : ∀ (acIds : List UInt8) (st : State), Known cfg st →
      (Noted cfg → ∃ addr port, st.lastUdpPeername = .inet addr port) →
        Known cfg (acIds.foldl (fun st acId => st.updateStatus (udpPeernameOf cfg st) acId) st) := by
    intro acIds
    induction acIds with
    | nil => exact fun st h _ => h
    | cons acId acIds ih =>
        intro st h hlast
        refine ih _ (known_updateStatus h (peerOk_udpPeernameOf hlast) acId) ?_
        rwa [lastUdpPeername_updateStatus]
  split_ifs with hread
  · exact hlast acIds _ h fun _ => ⟨_, _, rfl⟩
  · refine hlast acIds st h fun hnoted => absurd ⟨hnoted.1, ?_⟩ hread
    rw [hnoted.2.1]
    exact Bool.false_ne_true

/-! Sending changes no status. -/

theorem statuss_send (acId : Int) (payload : Payload) (st : State) :
    (send cfg acId payload st).2.statuss = st.statuss := by
  rw [send]
  split_ifs
  · split
    · rfl
    · split <;> rfl
  · rfl

theorem statuss_iter {f : UInt8 × Status → State → Outcome}
    (hf : ∀ e st, (f e st).2.statuss = st.statuss) (l : List (UInt8 × Status)) (st : State) :
    (iter f l st).2.statuss = st.statuss := by
  induction l generalizing st with
  | nil => rfl
  | cons e es ih =>
      have hstep := hf e st
      rw [iter]
      split
      · rename_i heq
        rwa [heq] at hstep
      · rename_i heq
        rw [heq] at hstep
        exact (ih _).trans hstep

theorem statuss_broadcast (payload : Payload) (st : State) :
    (broadcast cfg payload st).2.statuss = st.statuss := by
  rw [broadcast]
  split_ifs
  · refine statuss_iter (fun e st' => ?_) _ _
    split_ifs
    · split <;> rfl
    · rfl
  · split <;> rfl

theorem statuss_messageUplink (id : UInt8) (received : Option Values) (st : State) :
    (messageUplink cfg cls id received st).2.statuss = st.statuss := by
  rw [messageUplink]
  split
  · rw [forwarder]
    split
    · exact statuss_send _ _ _
    · rfl
  · split_ifs
    · rw [broadcaster]
      split
      · exact statuss_broadcast _ _
      · rfl
    · rfl
  · rfl

theorem statuss_sendPingMsg (st : State) : (sendPingMsg cfg cls st).2.statuss = st.statuss := by
  refine statuss_iter (fun e st' => ?_) _ _
  split
  · exact statuss_send _ _ _
  · rfl

theorem known_step {st : State} (h : Known cfg st) (event : Event) :
    Known cfg (step cfg cls st event) := by
  cases event with
  | readFd sender acIds => exact known_readFd h sender acIds
  | sendStatusMsg => exact known_mapStatus h fun _ => rfl
  | sendPingMsg =>
      intro e he
      rw [step, statuss_sendPingMsg] at he
      exact h e he
  | message id received =>
      intro e he
      rw [step, statuss_messageUplink] at he
      exact h e he

/-- In every run the transport and the options decide which aircraft have a peer. -/
theorem known_run (events : List Event) : Known cfg (run (step cfg cls) initial events) :=
  run_history (fun _ st => Known cfg st) (fun _ _ event h => known_step h event)
    (fun _ he => absurd he List.not_mem_nil) events

/-! ### Messages for one aircraft -/

variable {st : State} {payload : Payload} {acId : Int}

theorem find_eq_some {s : Status} (h : st.find acId = some s) :
    ∃ e ∈ st.statuss, e.2 = s ∧ (e.1.toNat : Int) = acId := by
  obtain ⟨e, he, rfl⟩ := Option.map_eq_some_iff.mp h
  exact ⟨e, List.mem_of_find?_eq_some he, rfl, by simpa using List.find?_some he⟩

/-- An aircraft that is live is known. -/
theorem exists_find_of_live (h : st.liveAircraft acId = true) : ∃ s, st.find acId = some s := by
  rw [State.liveAircraft] at h
  split at h
  · next s hs => exact ⟨s, hs⟩
  · cases h

/-- A single write serves a live aircraft if it goes to its place. -/
theorem forwards_write_iff {s : Status} (hs : st.find acId = some s)
    (hlive : st.liveAircraft acId = true) {dest : Dest} {frame : Option (List UInt8)}
    {st' : State} :
    Forwards cfg st acId payload (write dest frame st') ↔
      ReachedAt cfg s dest ∧ SendsOne cfg acId.toNat payload dest (write dest frame st') := by
  constructor
  · rintro ⟨ws, hws, hforwards⟩
    obtain ⟨w, hw, hdest, hframe⟩ := hforwards s hs hlive
    obtain ⟨bytes, -, rfl⟩ := write_eq_some hws
    obtain rfl : _ = w := List.singleton_inj.mp hw
    exact ⟨hdest, bytes, hws, hframe⟩
  · rintro ⟨hdest, bytes, hbytes, hframe⟩
    refine ⟨_, hbytes, fun s' hs' _ => ⟨_, rfl, ?_, hframe⟩⟩
    obtain rfl : s = s' := Option.some.inj (hs.symm.trans hs')
    exact hdest

theorem forwards_send_iff (h : Known cfg st) :
    Forwards cfg st acId payload (send cfg acId payload st) ↔
      (st.liveAircraft acId = true →
        ForwardsBy cfg ∧ payload.length ≤ maxPayload cfg.transport) := by
  cases hlive : st.liveAircraft acId with
  | false =>
      refine iff_of_true ⟨[], ?_, fun s _ halive => ?_⟩ fun hlive => ?_
      · rw [send, hlive, if_neg Bool.false_ne_true]
      · rw [hlive] at halive
        cases halive
      · cases hlive
  | true =>
      obtain ⟨s, hs⟩ := exists_find_of_live hlive
      obtain ⟨e, he, rfl, hid⟩ := find_eq_some hs
      have hlo : 0 ≤ acId := by omega
      have hhi : acId < 0x10000 := by
        have hbyte := e.1.toNat_lt
        omega
      have hpeer := h e he
      have hfind : (st.find acId).bind Status.udpPeername = e.2.udpPeername := by
        rw [hs, Option.bind_some]
      rw [send, if_pos hlive, hfind]
      rw [PeerOk] at hpeer
      split_ifs at hpeer with hnoted
      · obtain ⟨addr, port, hpeer⟩ := hpeer
        obtain ⟨hudp, haudio, htransport⟩ := hnoted
        have hreached : ReachedAt cfg e.2 (.peer addr cfg.udpUplinkPort) := by
          rw [ReachedAt, if_pos hudp]
          exact ⟨addr, port, hpeer, rfl⟩
        rw [hpeer]
        refine (forwards_write_iff hs hlive).trans ?_
        refine (and_iff_right hreached).trans
          ((@sendsOne_udpSend cfg acId.toNat payload st addr htransport).trans ?_)
        cases hcase : cfg.transport with
        | pprz => simp [ForwardsBy, hcase, haudio, maxPayload]
        | pprz2 => simp [ForwardsBy, hcase]
        | xbee => exact absurd hcase htransport
      · rw [hpeer]
        have hdevice : ReachedAt cfg e.2 .device ↔ cfg.udp = false := by
          rw [ReachedAt, hpeer]
          cases cfg.udp with
          | true => simp
          | false => simp
        cases hcase : cfg.transport with
        | pprz =>
            have haudio : cfg.udp = true → cfg.audio = true := by
              intro hudp
              by_contra haudio
              exact hnoted ⟨hudp, by simpa using haudio, by rw [hcase]; decide⟩
            refine (forwards_write_iff hs hlive).trans ?_
            rw [hdevice, sendsOne_pprz hcase]
            cases hudp : cfg.udp with
            | true => simp [ForwardsBy, hcase, hudp, haudio hudp]
            | false => simp [ForwardsBy, hcase, hudp, maxPayload]
        | pprz2 =>
            refine iff_of_false ?_ (by simp [ForwardsBy, hcase])
            rintro ⟨ws, hws, -⟩
            cases hws
        | xbee =>
            refine (forwards_write_iff hs hlive).trans ?_
            refine (and_congr hdevice (sendsOne_xbSend hcase hlo hhi)).trans ?_
            simp [ForwardsBy, hcase, maxPayload, and_assoc]

/-! ### Messages for all aircraft -/

/-- An iteration that leaves the state alone. -/
theorem iter_eq {f : UInt8 × Status → State → Outcome} {g : UInt8 × Status → Option (List Write)}
    {l : List (UInt8 × Status)} (h : ∀ e ∈ l, f e st = (g e, st)) :
    (iter f l st).1 = (l.mapM g).map List.flatten := by
  induction l with
  | nil => rfl
  | cons e es ih =>
      have hrest := ih fun e' he' => h e' (List.mem_cons_of_mem e he')
      rw [iter, h e List.mem_cons_self, List.mapM_cons]
      cases hg : g e with
      | none => rfl
      | some ws =>
          simp only [hrest]
          cases es.mapM g with
          | none => rfl
          | some wss => rfl

/-- What is written for one aircraft by a broadcast on UDP. -/
def toLive (cfg : Config) (payload : Payload) (st : State) (e : UInt8 × Status) :
    Option (List Write) :=
  if st.liveAircraft e.1.toNat then
    match e.2.udpPeername with
    | some (.inet peername _) => (udpSend cfg payload peername st).1
    | _ => some []
  else some []

theorem broadcast_udp_eq (hudp : cfg.udp = true) :
    (broadcast cfg payload st).1 = (st.statuss.mapM (toLive cfg payload st)).map List.flatten := by
  rw [broadcast, if_pos hudp]
  refine iter_eq fun e _ => ?_
  rw [toLive]
  split_ifs
  · cases e.2.udpPeername with
    | none => rfl
    | some peer => cases peer <;> rfl
  · rfl

theorem toLive_eq {e : UInt8 × Status} (hlive : st.liveAircraft e.1.toNat = true)
    {addr : InetAddr} {port : Nat} (hpeer : e.2.udpPeername = some (.inet addr port)) :
    toLive cfg payload st e = (udpSend cfg payload addr st).1 := by
  rw [toLive, if_pos hlive, hpeer]

theorem broadcasts_iff_of_noted (h : Known cfg st) (hnoted : Noted cfg) :
    Broadcasts cfg st payload (broadcast cfg payload st) ↔
      (live st ≠ [] → BroadcastsBy cfg ∧ payload.length ≤ maxPayload cfg.transport) := by
  have hudp : cfg.udp = true := hnoted.1
  have hinet : ∀ e ∈ st.statuss, ∃ addr port, e.2.udpPeername = some (.inet addr port) := by
    intro e he
    have hpeer := h e he
    rwa [PeerOk, if_pos hnoted] at hpeer
  have hskip : ∀ e ∈ st.statuss, st.liveAircraft e.1.toNat = false →
      toLive cfg payload st e = some [] := by
    intro e he hlive
    rw [toLive, hlive]
    rfl
  have hone : ∀ e ∈ st.statuss, st.liveAircraft e.1.toNat = true →
      ∀ ws, toLive cfg payload st e = some ws → ∃ w, ws = [w] := by
    intro e he hlive ws hws
    obtain ⟨addr, port, hpeer⟩ := hinet e he
    rw [toLive_eq hlive hpeer] at hws
    obtain ⟨bytes, -, rfl⟩ := write_eq_some hws
    exact ⟨_, rfl⟩
  have hsent : ∀ e ∈ st.statuss, st.liveAircraft e.1.toNat = true →
      ((∃ w, toLive cfg payload st e = some [w] ∧
        ReachedAt cfg e.2 w.dest ∧ FrameFor cfg 0xffff payload w.bytes) ↔
          cfg.transport = .pprz ∧ payload.length ≤ 251) := by
    intro e he hlive
    obtain ⟨addr, port, hpeer⟩ := hinet e he
    have hreached : ReachedAt cfg e.2 (.peer addr cfg.udpUplinkPort) := by
      rw [ReachedAt, if_pos hudp]
      exact ⟨addr, port, hpeer, rfl⟩
    rw [← @sendsOne_udpSend cfg 0xffff payload st addr hnoted.2.2, toLive_eq hlive hpeer]
    constructor
    · rintro ⟨w, hw, -, hframe⟩
      obtain ⟨bytes, -, heq⟩ := write_eq_some hw
      cases heq
      exact ⟨bytes, hw, hframe⟩
    · rintro ⟨bytes, hbytes, hframe⟩
      exact ⟨_, hbytes, hreached, hframe⟩
  have hby : BroadcastsBy cfg ∧ payload.length ≤ maxPayload cfg.transport ↔
      cfg.transport = .pprz ∧ payload.length ≤ 251 := by
    rw [BroadcastsBy, if_pos hudp]
    cases hcase : cfg.transport with
    | pprz => simp [hnoted.2.1, maxPayload]
    | pprz2 => simp
    | xbee => simp
  simp only [Broadcasts, hudp, if_true, broadcast_udp_eq hudp]
  rw [live, MapM.exists_forall₂_flatten_iff hskip hone, hby]
  constructor
  · intro hall hne
    obtain ⟨e, he⟩ := List.exists_mem_of_ne_nil _ hne
    obtain ⟨he, hlive⟩ := List.mem_filter.mp he
    exact (hsent e he hlive).mp (hall e he hlive)
  · intro hok e he hlive
    exact (hsent e he hlive).mpr (hok (List.ne_nil_of_mem (List.mem_filter.mpr ⟨he, hlive⟩)))

/-- Without an address nothing is written, which is right if there is nobody to write to. -/
theorem broadcasts_iff_of_not_noted (h : Known cfg st) (hudp : cfg.udp = true)
    (hnoted : ¬Noted cfg) :
    Broadcasts cfg st payload (broadcast cfg payload st) ↔
      (live st ≠ [] → BroadcastsBy cfg ∧ payload.length ≤ maxPayload cfg.transport) := by
  have hnone : ∀ e ∈ st.statuss, toLive cfg payload st e = some [] := by
    intro e he
    have hpeer := h e he
    rw [PeerOk, if_neg hnoted] at hpeer
    rw [toLive, hpeer]
    split_ifs <;> rfl
  have hnot : ¬(BroadcastsBy cfg ∧ payload.length ≤ maxPayload cfg.transport) := by
    rintro ⟨hby, -⟩
    rw [BroadcastsBy, if_pos hudp] at hby
    exact hnoted ⟨hudp, hby.2, by rw [hby.1]; decide⟩
  have hflat : (st.statuss.map fun _ => ([] : List Write)).flatten = [] := by simp
  simp only [Broadcasts, hudp, if_true, broadcast_udp_eq hudp]
  rw [MapM.mapM_eq_map hnone, Option.map_some, hflat]
  constructor
  · rintro ⟨ws, hws, hall⟩ hne
    cases hws
    exact absurd (List.forall₂_nil_right_iff.mp hall) hne
  · intro hok
    have hlive : live st = [] := by
      by_contra hne
      exact hnot (hok hne)
    refine ⟨[], rfl, ?_⟩
    rw [hlive]
    exact .nil

theorem broadcasts_udp_iff (h : Known cfg st) (hudp : cfg.udp = true) :
    Broadcasts cfg st payload (broadcast cfg payload st) ↔
      (live st ≠ [] → BroadcastsBy cfg ∧ payload.length ≤ maxPayload cfg.transport) := by
  rcases Classical.em (Noted cfg) with hnoted | hnoted
  · exact broadcasts_iff_of_noted h hnoted
  · exact broadcasts_iff_of_not_noted h hudp hnoted

theorem broadcasts_device_iff (hudp : cfg.udp = false) :
    Broadcasts cfg st payload (broadcast cfg payload st) ↔
      BroadcastsBy cfg ∧ payload.length ≤ maxPayload cfg.transport := by
  have hone : ∀ {outcome : Outcome},
      Broadcasts cfg st payload outcome ↔ SendsOne cfg 0xffff payload .device outcome := by
    intro outcome
    rw [Broadcasts, hudp]
    constructor
    · rintro ⟨ws, hws, ⟨dest, bytes⟩, rfl, rfl, hframe⟩
      exact ⟨bytes, hws, hframe⟩
    · rintro ⟨bytes, hbytes, hframe⟩
      exact ⟨_, hbytes, _, rfl, rfl, hframe⟩
  rw [hone, broadcast, hudp, if_neg Bool.false_ne_true]
  cases hcase : cfg.transport with
  | pprz => exact (sendsOne_pprz hcase).trans (by simp [BroadcastsBy, hudp, hcase, maxPayload])
  | pprz2 => exact (sendsOne_pprz2 hcase).trans (by simp [BroadcastsBy, hudp, hcase, maxPayload])
  | xbee =>
      refine (sendsOne_xbSend hcase (by decide) (by decide)).trans ?_
      simp [BroadcastsBy, hudp, hcase, maxPayload]

/-! ### Every message -/

theorem payloadOf_eq {id : UInt8} {m : Messages.Codec.Message} (hm : cls.messages id = some m)
    {vs : Values} (hpayload : payloadOfValues cls.messages id myId vs = .ok payload) :
    payloadOf cls m.name vs = some payload := by
  rw [payloadOf, cls.messageOfName_eq hm, Option.bind_some, hpayload]
  rfl

/-- In every run, a message that is bound is uplinked exactly when it can be read and written and
the transport can carry it to those it is for. -/
theorem uplinked_iff (events : List Event) {id : UInt8} {m : Messages.Codec.Message}
    {mode : LinkMode} (hm : cls.messages id = some m) (hlink : cls.link id = some mode)
    (hbound : bound cfg mode = true) (received : Option Values) :
    Uplinked cfg cls (run (step cfg cls) initial events) mode id received ↔
      UplinkOk cfg cls (run (step cfg cls) initial events) mode id received := by
  have hknown := @known_run cfg cls events
  generalize run (step cfg cls) initial events = st at *
  rw [Uplinked, UplinkOk]
  refine exists_congr fun vs => exists_congr fun payload => and_congr_right fun hvs =>
    and_congr_right fun hpayload => ?_
  have hpayloadOf := payloadOf_eq hm hpayload
  cases mode with
  | forwarded =>
      refine exists_congr fun acId => and_congr_right fun hacId => ?_
      have heq : messageUplink cfg cls id received st = send cfg acId payload st := by
        simp only [messageUplink, hm, hlink, forwarder, hvs, boundValues, Option.getD_some, hacId,
          hpayloadOf]
      rw [heq]
      exact forwards_send_iff hknown
  | broadcasted =>
      have hacInfo : cfg.acInfo = true := hbound
      have heq : messageUplink cfg cls id received st = broadcast cfg payload st := by
        simp only [messageUplink, hm, hlink, broadcaster, hvs, boundValues, Option.getD_some,
          hacInfo, if_true, hpayloadOf]
      rw [heq]
      cases hudp : cfg.udp with
      | true => simpa [hudp] using broadcasts_udp_iff hknown hudp
      | false => simpa [hudp] using broadcasts_device_iff hudp

end

/-! ### A message for one aircraft -/

def blockMessage : Messages.Codec.Message where
  name := "BLOCK"
  fields := [⟨"block_id", .scalar .uint8⟩, ⟨"ac_id", .scalar .uint8⟩]
  names_nodup := by decide
  array_last := by simp

def blockClass : DlClass where
  messages id := if id = 5 then some blockMessage else none
  link id := if id = 5 then some .forwarded else none
  messageOfName name := if name = "BLOCK" then some 5 else none
  messageOfName_eq := by
    intro id m h
    split_ifs at h with hid
    cases h
    rw [hid]
    rfl

def serialConfig (transport : GroundLink.Transport) : Config where
  transport := transport
  udp := false
  audio := false
  mode868 := false
  acInfo := true
  udpUplinkPort := 4243
  fresh := [0, 0, 0, 0]
  fresh_length := rfl

def toAircraftSeven : Values := [("block_id", .scalar (.int 3)), ("ac_id", .scalar (.int 7))]

/-- A message of the aircraft 7, one second of silence, and a block for it. -/
theorem uplinked_pprz :
    Uplinked (serialConfig .pprz) blockClass
      (run (step (serialConfig .pprz) blockClass) initial [.readFd (0, 0) [7], .sendStatusMsg])
      .forwarded 5 (some toAircraftSeven) := by
  refine (uplinked_iff _ (m := blockMessage) rfl rfl rfl _).mpr ⟨toAircraftSeven, [0, 5, 3, 7], rfl,
    by decide +kernel, 7, rfl, fun _ => ⟨Or.inl ⟨rfl, nofun⟩, by decide⟩⟩

/-- With timestamps nothing is forwarded to a live aircraft. -/
theorem not_uplinked_pprz2 :
    ¬Uplinked (serialConfig .pprz2) blockClass
      (run (step (serialConfig .pprz2) blockClass) initial [.readFd (0, 0) [7], .sendStatusMsg])
      .forwarded 5 (some toAircraftSeven) := by
  rintro ⟨vs, payload, -, -, acId, -, ws, hws, -⟩
  have hraised : (messageUplink (serialConfig .pprz2) blockClass 5 (some toAircraftSeven)
      (run (step (serialConfig .pprz2) blockClass) initial
        [.readFd (0, 0) [7], .sendStatusMsg])).1 = none := by decide +kernel
  rw [hraised] at hws
  cases hws

end Paparazzi.Link.Uplink
