import GatedLog.Device
import GatedLog.Line
import GatedLog.Line.Kernel

/-!
# Loggers

A logger is the end that receives lines.  There are four of them.

* A channel logger passes every line on, with its own channel in place of an
  unspecified one.  Once the far end is gone the lines vanish silently.
* A closure logger is a caller's own function.  It sees lines as they are, and
  it may fail: for some messages it panics instead of taking the line.
* A kernel logger writes the kernel's form of the line to a device.  A device
  that could not be opened, or that refuses a write, loses the line silently.
* A terminal logger prints the line on the standard error stream.
-/

namespace GatedLog

/-- The active end of a context. -/
inductive Logger where
  /-- Passes lines on while the far end is connected. -/
  | channel (id : String) (fallback : Channel) (connected : Bool)
  /-- Runs a function, which panics with a text of its own on some messages. -/
  | closure (id : String) (fault : String → Option String)
  /-- Writes to a device, or drops everything if there is none. -/
  | kernel (id : String) (device : Option Device)
  /-- Prints on the standard error stream, if possible in colour. -/
  | terminal (coloured : Bool)

namespace Logger

/-- The name by which a logger is told from others; the terminal has none. -/
def id : Logger → String
  | .channel id _ _ => id
  | .closure id _ => id
  | .kernel id _ => id
  | .terminal _ => ""

/-- The panic with which a logger meets a message, if it does not take it. -/
def fault? : Logger → String → Option String
  | .closure _ fault, message => fault message
  | _, _ => none

/-- A logger that takes every message. -/
def Reliable (logger : Logger) : Prop :=
  ∀ message : String, logger.fault? message = none

/-- The bytes that a logger writes to its device for a line. -/
def deviceBytes (line : Line) : List UInt8 :=
  KernelLine.bytes line.severity line.tag line.message

/--
What a logger that takes a line does to the devices, together with the bytes
that reached its own device for that line.  Whether everything was written is
not reported to anyone.
-/
def write (logger : Logger) (devices : Devices) (line : Line) : Devices × List UInt8 :=
  match logger with
  | .kernel _ (some device) =>
    let before := devices.content device.handle
    let after := device.writeAll before (deviceBytes line)
    (devices.store device.handle after, after.drop before.length)
  | _ => (devices, [])

end Logger

end GatedLog
