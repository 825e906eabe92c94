import Mathlib.Data.List.Count
import Mathlib.Data.List.Infix
import Paparazzi.Library.Imperative
import Paparazzi.Library.Machine
import Paparazzi.Math.GeodeticInt

/-!
The NMEA parser: lines are collected by `nmea_parse_char`, and `nmea_parse_msg` hands a line to
the parser of its sentence. The sentence parsers scan from comma to comma and write to `gps` as
they go.
-/

namespace Paparazzi.Link.Nmea

open Paparazzi.Library
open Paparazzi.Library.EarlyReturn
open Paparazzi.Library.Machine
open Paparazzi.Math.GeodeticInt

/-! ### The state -/

def nmeaMaxLen : Nat := 255

/-- `struct GpsNmea`; of the buffer only the first `NMEA_MAXLEN` bytes are its own. -/
structure GpsNmea where
  msgAvailable : Bool
  posAvailable : Bool
  gpsNbOvrn : UInt8
  msgBuf : Nat → UInt8
  msgLen : Nat

structure UtmCoorI where
  north : Int32
  east : Int32
  alt : Int32
  zone : UInt8
  deriving DecidableEq, Repr

/-- The fields of `struct GpsState` that are written here. -/
structure GpsState where
  ecefPos : EcefCoorI
  llaPos : LlaCoorI
  utmPos : UtmCoorI
  hmsl : Int32
  gspeed : Int16
  course : Int32
  pdop : UInt16
  numSv : UInt8
  fix : UInt8
  tow : UInt32
  lastFixTicks : UInt32
  lastFixTime : UInt32
  deriving DecidableEq, Repr

/-- `gps` and `gps_nmea`. -/
structure World where
  gps : GpsState
  nmea : GpsNmea

/-- The numbers of the C library and the floating-point arithmetic on them. -/
structure Numbers (R : Type) where
  strtod : List UInt8 → R
  strtof : List UInt8 → R
  atoi : List UInt8 → UInt8
  /-- `(uint32_t)((time + 1) * 1000)` -/
  tow : R → UInt32
  /-- `degrees + (minutesfrac * 100) / 60` -/
  pureDegrees : R → R
  neg : R → R
  radOfDeg : R → R
  /-- `x * 1e7` -/
  fixed7 : R → Int32
  /-- `hdop * 100` -/
  pdop : R → UInt16
  /-- `alt * 1000` -/
  hmsl : R → Int32
  /-- `speed * 1.852 * 100 / (60 * 60)` -/
  gspeed : R → Int16
  /-- `RadOfDeg(course) * 1e7` -/
  course : R → Int32
  /-- `utm_of_lla_f`: east and north in centimetres, in the given zone. -/
  utmOfLla : UInt8 → R → R → R → Int32 × Int32
  /-- `ecef_of_lla_f`, in centimetres. -/
  ecefOfLla : R → R → R → EcefCoorI

/-! ### Reading the buffer -/

/-- Why a sentence parser returns before its end, or reads behind `msg_buf`. -/
inductive Stop where
  | empty
  | incomplete
  | outOfBounds
  deriving DecidableEq, Repr

abbrev Parse := Prog Stop World

def comma : UInt8 := ','.toUInt8

def charOf (s : GpsNmea) (i : Nat) : Except Stop UInt8 :=
  if i < nmeaMaxLen then .ok (s.msgBuf i) else .error .outOfBounds

/-- `while (msg_buf[i++] != ',') if (i >= msg_len) return;`. -/
def scan (msgBuf : Nat → UInt8) (msgLen i : Nat) : Except Stop Nat :=
  if i < nmeaMaxLen then
    if msgBuf i = comma then .ok (i + 1)
    else if msgLen ≤ i + 1 then .error .incomplete
    else scan msgBuf msgLen (i + 1)
  else .error .outOfBounds
termination_by msgLen - i

/-- The C string at `msg_buf + i`: what the conversions of the C library read at the most. -/
def cString (msgBuf : Nat → UInt8) (i : Nat) : Except Stop (List UInt8) :=
  if i < nmeaMaxLen then
    if msgBuf i = 0 then .ok [] else (cString msgBuf (i + 1)).map (msgBuf i :: ·)
  else .error .outOfBounds
termination_by nmeaMaxLen - i

def charAt (i : Nat) : Parse UInt8 := reading fun w => charOf w.nmea i

def nextField (i : Nat) : Parse Nat := reading fun w => scan w.nmea.msgBuf w.nmea.msgLen i

def text (i : Nat) : Parse (List UInt8) := reading fun w => cString w.nmea.msgBuf i

def setGps (f : GpsState → GpsState) : Parse Unit := writing fun w => { w with gps := f w.gps }

def setPosAvailable (available : Bool) : Parse Unit :=
  writing fun w => { w with nmea := { w.nmea with posAvailable := available } }

/-- The rejection of empty packets. -/
def skipEmpty (i : Nat) : Parse Unit :=
  reading fun w =>
    match charOf w.nmea i with
    | .error stop => .error stop
    | .ok first =>
        if first = comma then
          match charOf w.nmea (i + 1) with
          | .error stop => .error stop
          | .ok second => if second = comma then .error .empty else .ok ()
        else .ok ()

/-! ### The sentences -/

section

variable {R : Type} (num : Numbers R)

def parseNmeaGPGSA : Parse Unit := do
  skipEmpty 6
  let i ← nextField 6
  let field ← text i
  let fix := num.atoi field
  setGps fun gps => { gps with fix := if fix = 1 then 0 else fix }
  let _ ← nextField i
  pure ()

def parseNmeaGPRMC : Parse Unit := do
  skipEmpty 6
  -- warning, latitude, N/S, longitude, E/W, speed
  let i ← nextField 6
  let i ← nextField i
  let i ← nextField i
  let i ← nextField i
  let i ← nextField i
  let i ← nextField i
  let field ← text i
  setGps fun gps => { gps with gspeed := num.gspeed (num.strtod field) }
  let i ← nextField i
  let field ← text i
  setGps fun gps => { gps with course := num.course (num.strtod field) }

variable (useLatLong : Bool) (navUtmZone0 : UInt8)

/-- `parse_nmea_GPGGA` behind the time, whose field starts at `i`. -/
def parsePosition (i : Nat) : Parse Unit := do
  let i ← nextField i
  let field ← text i
  let lat := num.pureDegrees (num.strtod field)
  let i ← nextField i
  let indicator ← charAt i
  let llaLat := num.radOfDeg (if indicator = 'S'.toUInt8 then num.neg lat else lat)
  setGps fun gps => { gps with llaPos.lat := num.fixed7 llaLat }
  let i ← nextField i
  let field ← text i
  let lon := num.pureDegrees (num.strtod field)
  let i ← nextField i
  let indicator ← charAt i
  let llaLon := num.radOfDeg (if indicator = 'W'.toUInt8 then num.neg lon else lon)
  setGps fun gps => { gps with llaPos.lon := num.fixed7 llaLon }
  let i ← nextField i
  let status ← charAt i
  setPosAvailable (status ≠ '0'.toUInt8 && status ≠ comma)
  let i ← nextField i
  let field ← text i
  setGps fun gps => { gps with numSv := num.atoi field }
  let i ← nextField i
  let field ← text i
  setGps fun gps => { gps with pdop := num.pdop (num.strtof field) }
  let i ← nextField i
  let field ← text i
  let llaAlt := num.strtof field
  setGps fun gps => { gps with hmsl := num.hmsl llaAlt, llaPos.alt := num.hmsl llaAlt }
  -- altitude units, geoid separation, its units, DGPS age and station
  let i ← nextField i
  let i ← nextField i
  let i ← nextField i
  let i ← nextField i
  let _ ← nextField i
  setGps fun gps =>
    if useLatLong then
      { gps with
        utmPos :=
          { east := (num.utmOfLla navUtmZone0 llaLat llaLon llaAlt).1
            north := (num.utmOfLla navUtmZone0 llaLat llaLon llaAlt).2
            alt := gps.llaPos.alt
            zone := navUtmZone0 } }
    else gps
  setGps fun gps => { gps with ecefPos := num.ecefOfLla llaLat llaLon llaAlt }

def parseNmeaGPGGA : Parse Unit := do
  skipEmpty 6
  let field ← text 6
  setGps fun gps => { gps with tow := num.tow (num.strtod field) }
  parsePosition num useLatLong navUtmZone0 6

def gprmc : List UInt8 := ['G', 'P', 'R', 'M', 'C'].map Char.toUInt8
def gpgga : List UInt8 := ['G', 'P', 'G', 'G', 'A'].map Char.toUInt8
def gpgsa : List UInt8 := ['G', 'P', 'G', 'S', 'A'].map Char.toUInt8

/-- The line in the buffer. -/
def GpsNmea.line (s : GpsNmea) : List UInt8 := (List.range s.msgLen).map s.msgBuf

/-- `msg_len > 5 && !strncmp(msg_buf, tag, 5)`. -/
def GpsNmea.isSentence (s : GpsNmea) (tag : List UInt8) : Bool :=
  5 < s.msgLen && (List.range 5).map s.msgBuf = tag

def sentenceParser (s : GpsNmea) : Parse Unit :=
  if s.isSentence gprmc then parseNmeaGPRMC num
  else if s.isSentence gpgga then parseNmeaGPGGA num useLatLong navUtmZone0
  else if s.isSentence gpgsa then parseNmeaGPGSA num
  else pure ()

/-- `msg_buf[msg_len] = 0`. -/
def GpsNmea.terminated (s : GpsNmea) : GpsNmea :=
  { s with msgBuf := Function.update s.msgBuf s.msgLen 0 }

/-- `none` where it reads or writes behind `msg_buf`. -/
def nmeaParseMsg (w : World) : Option World :=
  if w.nmea.msgLen < nmeaMaxLen then
    match runProg (sentenceParser num useLatLong navUtmZone0 w.nmea)
        { w with nmea := w.nmea.terminated } with
    | (.error .outOfBounds, _) => none
    | (_, w) => some { w with nmea := { w.nmea with msgLen := 0 } }
  else none

end

def isEol (c : UInt8) : Bool := c = '\r'.toUInt8 || c = '\n'.toUInt8

def nmeaParseChar (c : UInt8) (s : GpsNmea) : GpsNmea :=
  if s.msgLen = 0 ∧ (isEol c || c = '$'.toUInt8) then s
  else
    let s :=
      if s.msgLen < nmeaMaxLen - 1 then
        if isEol c then { s with msgAvailable := true }
        else { s with msgBuf := Function.update s.msgBuf s.msgLen c, msgLen := s.msgLen + 1 }
      else s
    if nmeaMaxLen - 1 ≤ s.msgLen then { s with msgAvailable := true } else s

/-! ### The main loop -/

/-- The state and the bytes that wait in the device. -/
structure Receiver where
  world : World
  device : List UInt8

/-- The device receives a byte; and the steps that `GpsEvent` is made of: one round of
`ReadGpsBuffer`, and its handling of an available line at the given time. -/
inductive Event where
  | receive (c : UInt8)
  | readChar
  | parseMsg (nbSecRem nbSec : UInt32)

def gpsFix3D : UInt8 := 3

/-- `nmea_parse_msg()` with the rest of that branch. -/
def afterMsg (nbSecRem nbSec : UInt32) (w : World) : World :=
  { gps :=
      if w.nmea.posAvailable ∧ w.gps.fix = gpsFix3D then
        { w.gps with lastFixTicks := nbSecRem, lastFixTime := nbSec }
      else w.gps
    nmea := { w.nmea with msgAvailable := false } }

section

variable {R : Type} (num : Numbers R) (useLatLong : Bool) (navUtmZone0 : UInt8)

def receiverStep (s : Option Receiver) (e : Event) : Option Receiver :=
  s.bind fun s =>
    match e with
    | .receive c => some { s with device := s.device ++ [c] }
    | .readChar =>
        match s.device with
        | [] => some s
        | c :: device =>
            if s.world.nmea.msgAvailable then some s
            else
              some
                { world := { s.world with nmea := nmeaParseChar c s.world.nmea }
                  device := device }
    | .parseMsg nbSecRem nbSec =>
        if s.world.nmea.msgAvailable then
          (nmeaParseMsg num useLatLong navUtmZone0 s.world).map fun w =>
            { s with world := afterMsg nbSecRem nbSec w }
        else some s

end

def received : List Event → List UInt8
  | [] => []
  | .receive c :: es => c :: received es
  | .readChar :: es => received es
  | .parseMsg _ _ :: es => received es

def gpsImplInit (s : GpsNmea) : GpsNmea :=
  { s with msgAvailable := false, posAvailable := false, gpsNbOvrn := 0, msgLen := 0 }

end Paparazzi.Link.Nmea
