/-!
The fixed-point geodetic types of the math library and its conversion from ECEF
to a local frame, in the 32-bit and 64-bit arithmetic of the source.
-/

namespace Paparazzi.Math.GeodeticInt

/-- In centimetres. -/
structure EcefCoorI where
  x : Int32
  y : Int32
  z : Int32
  deriving DecidableEq, Repr

/-- East, north, up. -/
structure EnuCoorI where
  x : Int32
  y : Int32
  z : Int32
  deriving DecidableEq, Repr

/-- North, east, down. -/
structure NedCoorI where
  x : Int32
  y : Int32
  z : Int32
  deriving DecidableEq, Repr

/-- Latitude and longitude in `1e7` radians, altitude in millimetres. -/
structure LlaCoorI where
  lon : Int32
  lat : Int32
  alt : Int32
  deriving DecidableEq, Repr

/-- The entries `m[0]` to `m[8]`, with `highResTrigFrac` fractional bits. -/
structure Int32Mat33 where
  m0 : Int32
  m1 : Int32
  m2 : Int32
  m3 : Int32
  m4 : Int32
  m5 : Int32
  m6 : Int32
  m7 : Int32
  m8 : Int32
  deriving DecidableEq, Repr

structure LtpDefI where
  ecef : EcefCoorI
  lla : LlaCoorI
  ltpOfEcef : Int32Mat33
  hmsl : Int32
  deriving DecidableEq, Repr

def highResTrigFrac : Int64 := 20

def int32PosFrac : Int32 := 8

/-- `POS_BFP_OF_REAL` of an integer. -/
def posBfpOfReal (a : Int32) : Int32 := a * (1 <<< int32PosFrac)

def int32RadOfDeg (deg : Int32) : Int32 := (deg.toInt64 * 14964008 / 857374503).toInt32

/-- One row of the rotation matrix times a vector. -/
def rotateRow (a b c : Int32) (v : EcefCoorI) : Int32 :=
  ((a.toInt64 * v.x.toInt64 + b.toInt64 * v.y.toInt64 + c.toInt64 * v.z.toInt64)
    >>> highResTrigFrac).toInt32

/-- `enu_of_ecef_point_i`, in centimetres; the third entry of the first row is
taken as zero. -/
def enuOfEcefPointI (d : LtpDefI) (ecef : EcefCoorI) : EnuCoorI :=
  let delta : EcefCoorI :=
    { x := ecef.x - d.ecef.x, y := ecef.y - d.ecef.y, z := ecef.z - d.ecef.z }
  let m := d.ltpOfEcef
  { x := rotateRow m.m0 m.m1 0 delta
    y := rotateRow m.m3 m.m4 m.m5 delta
    z := rotateRow m.m6 m.m7 m.m8 delta }

/-- `ENU_OF_TO_NED`. -/
def nedOfEnu (enu : EnuCoorI) : NedCoorI := { x := enu.y, y := enu.x, z := -enu.z }

def nedOfEcefPointI (d : LtpDefI) (ecef : EcefCoorI) : NedCoorI :=
  nedOfEnu (enuOfEcefPointI d ecef)

/-- `enu_of_ecef_pos_i`, in metres with `int32PosFrac` fractional bits. -/
def enuOfEcefPosI (d : LtpDefI) (ecef : EcefCoorI) : EnuCoorI :=
  let cm := enuOfEcefPointI d ecef
  { x := (cm.x <<< (int32PosFrac - 2)) / 25
    y := (cm.y <<< (int32PosFrac - 2)) / 25
    z := (cm.z <<< (int32PosFrac - 2)) / 25 }

end Paparazzi.Math.GeodeticInt
