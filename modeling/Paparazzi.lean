import Paparazzi.Library.Numerals
import Paparazzi.Library.Machine
import Paparazzi.Math.Geodesy
import Paparazzi.State.Position
import Paparazzi.State.PositionCoherence
import Paparazzi.Rotorcraft.Arming
import Paparazzi.Rotorcraft.Autopilot
import Paparazzi.Rotorcraft.KillInvariant
import Paparazzi.Rotorcraft.ThrottleLatch
import Paparazzi.Rotorcraft.YawGesture
import Paparazzi.Math.GeodeticInt
import Paparazzi.Rotorcraft.Navigation
import Paparazzi.QuadSwarm.Airborne
import Paparazzi.Library.Bytes
import Paparazzi.Rotorcraft.Datalink
import Paparazzi.Library.Ieee754
import Paparazzi.Messages.Codec
import Paparazzi.Messages.CodecAgreement
import Paparazzi.Library.FifoLink
import Paparazzi.QuadSwarm.GroundStation
import Paparazzi.QuadSwarm.LinkInvariant
import Paparazzi.QuadSwarm.TargetDelivery
import Paparazzi.FlightPlan.CommonFlightPlan
import Paparazzi.Library.SwitchCode
import Paparazzi.FlightPlan.Printer
import Paparazzi.FlightPlan.Structural
import Paparazzi.FlightPlan.PrintedCode
import Paparazzi.FlightPlan.Compilation
import Paparazzi.FlightPlan.Preservation
import Paparazzi.Link.PprzTransport
import Paparazzi.Link.XBee
import Paparazzi.Link.GroundXBee
import Paparazzi.Link.GroundXBeeParser
import Paparazzi.Link.GroundXBeeStream
import Paparazzi.Library.Ring
import Paparazzi.McuPeriph.Uart
import Paparazzi.QuadSwarm.StateMachine
import Paparazzi.Link.Downlink
import Paparazzi.McuPeriph.Spi
import Paparazzi.Rotorcraft.GuidanceModes
import Paparazzi.Math.Velocity
import Paparazzi.State.Interface
import Paparazzi.State.Speed
import Paparazzi.State.Domains
import Paparazzi.State.SpeedCoherence
import Paparazzi.State.DomainIsolation
import Paparazzi.State.WindAirspeed
import Paparazzi.State.AttitudeCoherence
import Paparazzi.Link.Serial
import Paparazzi.Link.GroundReader
import Paparazzi.Library.Precedence
import Paparazzi.FlightPlan.CText
import Paparazzi.FlightPlan.PrintedText
import Paparazzi.FlightPlan.ExprLexer
import Paparazzi.FlightPlan.CMeaning
import Paparazzi.FlightPlan.ExprGraft
import Paparazzi.FlightPlan.Procedure
import Paparazzi.FlightPlan.Hygiene
import Paparazzi.QuadSwarm.PhaseCommands
import Paparazzi.Library.Liveness
import Paparazzi.QuadSwarm.InitThread
import Paparazzi.Fixedwing.FlyByWire
import Paparazzi.Fixedwing.FbwFailsafe
import Paparazzi.Fixedwing.Autopilot
import Paparazzi.Fixedwing.ModeMachine
import Paparazzi.McuPeriph.I2c
import Paparazzi.McuPeriph.I2cQueue
import Paparazzi.McuPeriph.I2cProgress
import Paparazzi.Multi.TrafficInfo
import Paparazzi.Library.Imperative
import Paparazzi.Multi.Tcas
import Paparazzi.Multi.TcasMonitoring
import Paparazzi.InterMcu.LinkMcuUsart
import Paparazzi.InterMcu.RoundTrip
import Paparazzi.Fixedwing.Datalink
import Paparazzi.WaypointAccess
import Paparazzi.Multi.Formation
import Paparazzi.Multi.FormationMembership
import Paparazzi.Multi.TcasCoordination
import Paparazzi.Link.LinkCombiner
import Paparazzi.Link.ExactlyOnce
import Paparazzi.Library.GuardedChoice
import Paparazzi.Generator.Autopilot
import Paparazzi.Generator.AutopilotCore
import Paparazzi.Link.Handler
import Paparazzi.Link.GroundLink
import Paparazzi.Link.UdpLink
import Paparazzi.Link.UdpForwarding
import Paparazzi.McuPeriph.PersistentSettings
import Paparazzi.McuPeriph.PowerLoss
import Paparazzi.Link.GpsUbx
import Paparazzi.Link.UbxFraming
import Paparazzi.Link.UbxGround
import Paparazzi.McuPeriph.SysTime
import Paparazzi.QuadSwarm.PprzLayout
import Paparazzi.QuadSwarm.ReceivePath
import Paparazzi.FlightPlan.IncludeRouting
import Paparazzi.FlightPlan.ExprAcceptance
import Paparazzi.FlightPlan.ForRuns
import Paparazzi.Generator.SettingNumbers
import Paparazzi.Library.StrSplit
import Paparazzi.Library.Fallible
import Paparazzi.FlightPlan.Paths
import Paparazzi.Generator.PeriodicChain
import Paparazzi.Generator.Telemetry
import Paparazzi.Generator.TelemetryPeriod
import Paparazzi.Generator.Modules
import Paparazzi.Generator.ModulesPeriod
import Paparazzi.Library.IntText
import Paparazzi.Messages.IvyText
import Paparazzi.Messages.IvyRoundTrip
import Paparazzi.Link.Uplink
import Paparazzi.Link.UplinkDelivery
import Paparazzi.Radio.Spektrum
import Paparazzi.Radio.SpektrumBounds
import Paparazzi.Radio.SpektrumResync
import Paparazzi.FlightPlan.ReturnPoint
import Paparazzi.FlightPlan.ReturnPointRuns
import Paparazzi.FlightPlan.RelativeWaypoints
import Paparazzi.FlightPlan.RelativePlaces
import Paparazzi.Library.ClockwiseChain
import Paparazzi.FlightPlan.Sectors
import Paparazzi.FlightPlan.SectorInside
import Paparazzi.Library.LinkedRing
import Paparazzi.Math.Tesselation
import Paparazzi.Math.TesselationArea
import Paparazzi.Math.TesselationEars
import Paparazzi.Radio.Ppm
import Paparazzi.Multi.Airprox
import Paparazzi.Link.IvySerialBridge
import Paparazzi.Library.Checked
import Paparazzi.Library.IntSqrt
import Paparazzi.Math.AlgebraInt
import Paparazzi.Rotorcraft.NavRoute
import Paparazzi.Math.TrigInt
import Paparazzi.Math.AtanAccuracy
import Paparazzi.Rotorcraft.InFlight
import Paparazzi.Rotorcraft.NavAltitude
import Paparazzi.Rotorcraft.NavApproaching
import Paparazzi.Rotorcraft.NavCircle
import Paparazzi.Rotorcraft.NavCircleCount
import Paparazzi.QuadSwarm.ExecuteAcks
import Paparazzi.Link.GroundXBeeReceive
import Paparazzi.Link.PprzReceive
import Paparazzi.Link.GpsNmea
import Paparazzi.Link.GpsNmeaLines
import Paparazzi.McuPeriph.SpiDma
import Paparazzi.McuPeriph.SpiDmaAccounting
import Paparazzi.Link.W5100
import Paparazzi.Link.W5100Reception
import Paparazzi.Link.W5100Frames
import Paparazzi.Actuators.MotorMixing
import Paparazzi.Actuators.MotorMixingLimits
import Paparazzi.Fixedwing.SurveyRectangle
import Paparazzi.Math.ConvexPolygon
import Paparazzi.Fixedwing.PolySurvey
import Paparazzi.Rotorcraft.GuidanceVRef
import Paparazzi.Rotorcraft.GuidanceHRef
import Paparazzi.Rotorcraft.GuidanceRefRuns
import Paparazzi.Rotorcraft.GuidanceVAdapt
import Paparazzi.Rotorcraft.GuidanceV
import Paparazzi.Rotorcraft.GuidanceVRuns
import Paparazzi.Math.SqrtConvergence
import Paparazzi.Library.ContinuedFraction
import Paparazzi.Generator.AirframeInteger
import Paparazzi.Generator.CommandLaws
import Paparazzi.Radio.Normalize
import Paparazzi.Radio.RcLoss
import Paparazzi.Radio.Joby
import Paparazzi.Radio.JobyFrames
import Paparazzi.Ground.Joystick
import Paparazzi.Ground.JoystickRuns
import Paparazzi.Link.Gsm
import Paparazzi.Link.GsmDialogue
import Paparazzi.Math.MedianFilter
import Paparazzi.Math.AtanOrder
import Paparazzi.Library.RoundedRotation
import Paparazzi.Math.LocalFrame
import Paparazzi.Math.LocalFrameMatrix
import Paparazzi.Math.LocalFrameRoundTrip
import Paparazzi.Link.TelemetryPath
import Paparazzi.Logger.PprzLog
import Paparazzi.Link.UplinkPath
import Paparazzi.Generator.Abi
