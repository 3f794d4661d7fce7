import PicoLoader.Attempt
import PicoLoader.Log
import PicoLoader.Usb.Descriptor

/-!
# The host side of the bus

The host opens devices, claims interfaces, and makes transfers, each with a time limit. How the
devices answer is not in its hands: it is given as a list of responses, one for each transfer, so
that what follows can be said for every list. After the end of the list every transfer succeeds.

* `PicoLoader.Usb.Host` – the responses still to come, what the host has done, and its log;
* `PicoLoader.Usb.bulkOut`, `PicoLoader.Usb.bulkIn`, `PicoLoader.Usb.controlOut`,
  `PicoLoader.Usb.controlIn` – the four transfers;
* `PicoLoader.Usb.openDevice`, `PicoLoader.Usb.claim` – getting hold of a device.

Everything the host does is an event, written down before its outcome is known.
-/

namespace PicoLoader.Usb

/-- What a completed transfer moved. -/
inductive Delivery where
  /-- As many bytes as were offered or asked for; those that come in are zeros. -/
  | whole
  /-- So many bytes, whatever was offered or asked for; those that come in are zeros. -/
  | count (n : Nat)
  /-- These bytes, if bytes come in; all bytes, if they go out. -/
  | data (bytes : List UInt8)
deriving DecidableEq, Repr

/-- How one transfer ends. -/
inductive Response where
  | moved (delivery : Delivery)
  | failed (error : TransferError)
  /-- It does not end; the time limit ends it. -/
  | hung
deriving DecidableEq, Repr

namespace Delivery

/-- How many of the bytes offered went out. -/
def sent (offered : Nat) : Delivery → Nat
  | whole => offered
  | count n => n
  | data _ => offered

/-- The bytes that came in. -/
def received (asked : Nat) : Delivery → List UInt8
  | whole => List.replicate asked 0
  | count n => List.replicate n 0
  | data bytes => bytes

end Delivery

/-- The head of a control transfer. -/
structure Setup where
  requestType : UInt8
  request : UInt8
  value : UInt16
  index : UInt16
deriving DecidableEq, Repr

/-- One thing the host did. -/
inductive Event where
  /-- Opened the device of this number. -/
  | opened (device : Nat)
  | claimed (interface : UInt8)
  /-- Detached another driver and claimed. -/
  | detached (interface : UInt8)
  | bulkOut (endpoint : UInt8) (bytes : List UInt8)
  | bulkIn (endpoint : UInt8) (length : Nat)
  | controlOut (setup : Setup) (bytes : List UInt8)
  | controlIn (setup : Setup) (length : Nat)
  /-- A time limit, in milliseconds, ended a transfer. -/
  | timedOut (limit : Nat)
deriving DecidableEq, Repr

/-- The devices on the bus, in the order in which the host lists them, or why it cannot list
them. -/
structure Bus where
  listRefusal : Option String
  devices : List Device
deriving DecidableEq, Repr

/-- The responses to come, the events so far, and the log. -/
structure Host where
  responses : List Response
  trace : List Event
  log : List Log.Entry
deriving DecidableEq, Repr

/-- A host that has done nothing yet. -/
def Host.start (responses : List Response) : Host := ⟨responses, [], []⟩

/-- Writes an event down. -/
def record (event : Event) : Attempt Host Unit :=
  .change fun host => { host with trace := host.trace ++ [event] }

/-- Adds a message to the log. -/
def note (entry : Log.Entry) : Attempt Host Unit :=
  .change fun host => { host with log := host.log ++ [entry] }

/-- Adds a message about the bus to the log. -/
def tell (level : Log.Level) (text : String) : Attempt Host Unit := note ⟨level, .usb, text⟩

/-- Takes the next response. -/
def nextResponse : Attempt Host Response := fun host =>
  match host.responses with
  | [] => (.ok (.moved .whole), host)
  | response :: responses => (.ok response, { host with responses })

/-! ### Transfers -/

/-- Makes the transfer that `event` describes, with a time limit in milliseconds. -/
def transfer (event : Event) (limit : Nat) : Attempt Host Delivery := do
  record event
  match ← nextResponse with
  | .moved delivery => pure delivery
  | .failed error => .fail (.transfer error)
  | .hung =>
    record (.timedOut limit)
    .fail .timedOut

/-- Sends bytes to a bulk endpoint; the number of bytes that went out. -/
def bulkOut (endpoint : UInt8) (bytes : List UInt8) (limit : Nat) : Attempt Host Nat := do
  let delivery ← transfer (.bulkOut endpoint bytes) limit
  pure (delivery.sent bytes.length)

/-- Sends bytes to a bulk endpoint; it is a fault if not exactly all of them go out. -/
def bulkOutExact (endpoint : UInt8) (bytes : List UInt8) (limit : Nat) : Attempt Host Unit := do
  let sent ← bulkOut endpoint bytes limit
  if sent = bytes.length then pure () else .fail (.shortTransfer bytes.length sent)

/-- Asks a bulk endpoint for `length` bytes; the bytes that came in. -/
def bulkIn (endpoint : UInt8) (length limit : Nat) : Attempt Host (List UInt8) := do
  let delivery ← transfer (.bulkIn endpoint length) limit
  pure (delivery.received length)

/-- Asks a bulk endpoint for `length` bytes; it is a fault if not exactly so many come in. -/
def bulkInExact (endpoint : UInt8) (length limit : Nat) : Attempt Host (List UInt8) := do
  let bytes ← bulkIn endpoint length limit
  if bytes.length = length then pure bytes else .fail (.shortTransfer length bytes.length)

/-- Makes a control transfer to the device; how many bytes went out does not matter. -/
def controlOut (setup : Setup) (bytes : List UInt8) (limit : Nat) : Attempt Host Unit := do
  let _ ← transfer (.controlOut setup bytes) limit
  pure ()

/-- Makes a control transfer from the device; the bytes that came in. -/
def controlIn (setup : Setup) (length limit : Nat) : Attempt Host (List UInt8) := do
  let delivery ← transfer (.controlIn setup length) limit
  pure (delivery.received length)

/-! ### Devices -/

/-- Fails with a refusal, if there is one. -/
def unlessRefused (refusal : Option String) : Attempt Host Unit :=
  match refusal with
  | some text => .fail (.host text)
  | none => pure ()

/-- The devices on the bus, each with its number. -/
def devices (bus : Bus) : Attempt Host (List (Device × Nat)) := do
  unlessRefused bus.listRefusal
  pure bus.devices.zipIdx

/-- Opens a device. -/
def openDevice (device : Device) (number : Nat) : Attempt Host Unit := do
  record (.opened number)
  unlessRefused device.openRefusal

/-- Claims an interface of an open device. Another driver may hold it; then that driver is detached
first. -/
def claim (device : Device) (interface : UInt8) : Attempt Host Unit := do
  record (.claimed interface)
  match ← (unlessRefused device.claimRefusal).result with
  | .ok () => pure ()
  | .error fault =>
    let number := interface.toNat
    tell .debug s!"claiming interface {number} failed ({fault.message}), detaching"
    record (.detached interface)
    unlessRefused device.detachRefusal

end PicoLoader.Usb
