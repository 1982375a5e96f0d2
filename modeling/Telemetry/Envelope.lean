import Telemetry.Dict
import Telemetry.Double

/-!
# Envelopes

An envelope tells one thing about the source that sent it: how a counter went on,
what some gauges show, or how long an operation took.  It may also tell nothing.
Its tags become labels of what is made of it.
-/

namespace Telemetry

/-- How a counter went on.  A sender gives what was added or what there is in all. -/
structure CounterMessage where
  /-- The name. -/
  name : String
  /-- What was added. -/
  delta : UInt64
  /-- What there is in all. -/
  total : UInt64
  deriving DecidableEq

/-- What a gauge shows. -/
structure GaugeReading where
  /-- The number. -/
  value : Double
  /-- What it is measured in. -/
  unit : String
  deriving DecidableEq

/-- How long an operation took, as two times in nanoseconds. -/
structure TimerMessage where
  /-- The name. -/
  name : String
  /-- When it began. -/
  start : Int64
  /-- When it ended. -/
  stop : Int64
  deriving DecidableEq

/-- What an envelope tells. -/
inductive Message where
  | counter (counter : CounterMessage)
  | gauge (readings : Dict GaugeReading)
  | timer (timer : TimerMessage)
  deriving DecidableEq

/-- A message with its source and its tags. -/
structure Envelope where
  /-- The source. -/
  sourceId : String
  /-- Which instance of the source. -/
  instanceId : String
  /-- The tags. -/
  tags : Dict String
  /-- The message, if it tells anything. -/
  message : Option Message
  deriving DecidableEq

/-- The nanoseconds between the two times, which start over when 64 bits are full. -/
def TimerMessage.nanoseconds (t : TimerMessage) : Int := (t.stop - t.start).toInt

/-- The seconds between the two times. -/
def TimerMessage.seconds (t : TimerMessage) : Double :=
  .ofInt t.nanoseconds / .ofNat 1000000000

end Telemetry
