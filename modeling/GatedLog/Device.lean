/-!
# Devices with bounded writes

A device may accept only so many bytes in one write, and only so many
altogether.  When it is full every write fails.  A writer that has more to say
repeats the write on the rest until all of it is accepted or a write fails, so
what arrives is always a beginning of what was meant.
-/

namespace GatedLog

/-- A device that bytes are written to. -/
structure Device where
  /-- What tells the device from others: the same handle is the same device. -/
  handle : Nat
  /-- The most bytes that one write accepts, if there is a limit. -/
  chunk : Option Nat
  /-- The most bytes that all writes together accept, if there is a limit. -/
  capacity : Option Nat
  deriving DecidableEq, Repr

namespace Device

/-- Whether the device accepts nothing more. -/
def isFull (device : Device) (content : List UInt8) : Bool :=
  match device.capacity with
  | none => false
  | some capacity => capacity ≤ content.length

/-- How many of `size` bytes one write accepts, on top of the content. -/
def accepts (device : Device) (content : List UInt8) (size : Nat) : Nat :=
  let within (limit : Option Nat) (amount : Nat) : Nat :=
    match limit with
    | none => amount
    | some limit => min limit amount
  within device.chunk (within (device.capacity.map (· - content.length)) size)

/-- One write: the number of bytes it accepts, or none if it fails. -/
def write? (device : Device) (content bytes : List UInt8) : Option Nat :=
  if device.isFull content then
    none
  else
    some (device.accepts content bytes.length)

/--
What the device holds after repeated writes of some bytes on top of its
content.  A write that fails, or that accepts nothing, ends the repetition.
-/
def writeAll (device : Device) (content bytes : List UInt8) : List UInt8 :=
  match bytes with
  | [] => content
  | byte :: rest =>
    match device.write? content (byte :: rest) with
    | none => content
    | some 0 => content
    | some (further + 1) =>
      writeAll device
        (content ++ (byte :: rest).take (further + 1))
        (rest.drop further)
termination_by bytes.length
decreasing_by
  simp only [List.length_drop, List.length_cons]
  omega

end Device

/-- What each device holds; one that was never written to holds nothing. -/
abbrev Devices :=
  List (Nat × List UInt8)

namespace Devices

/-- What the device with a given handle holds. -/
def content (devices : Devices) (handle : Nat) : List UInt8 :=
  (devices.lookup handle).getD []

/-- The same devices, but for what one of them holds. -/
def store (devices : Devices) (handle : Nat) (content : List UInt8) : Devices :=
  (handle, content) :: devices.filter fun entry => entry.1 != handle

@[simp]
theorem content_store_self
    (devices : Devices)
    (handle : Nat)
    (bytes : List UInt8) :
    (devices.store handle bytes).content handle = bytes := by
  simp [content, store]

end Devices

end GatedLog
