import PicoLoader.Chip
import PicoLoader.Picoboot.Transaction

/-!
# Sessions with a boot loader

A session begins when the interface of the boot loader has been claimed, and consists of operations.
Each operation is sent under a token of its own: the first under 1, each further one under the next
number, whether or not those before it succeeded.

* `PicoLoader.Picoboot.connect` – finds the first board in BOOTSEL mode and claims its interface;
* `PicoLoader.Picoboot.Session.perform` – one operation;
* `PicoLoader.Picoboot.Session.takeOver` – taking the interface over, which uses no token.
-/

namespace PicoLoader.Picoboot

open Usb

/-- A claimed interface: the chip behind it and its endpoints. -/
structure Connection where
  chip : Chip
  endpoints : Endpoints
deriving DecidableEq, Repr

/-- A connection, the token of the next operation, and the host. -/
structure Session where
  connection : Connection
  token : UInt32
  host : Host
deriving DecidableEq, Repr

namespace Session

/-- The session that begins on a connection. -/
def start (connection : Connection) (host : Host) : Session := ⟨connection, 1, host⟩

/-- Does something on the bus. -/
def onBus {α : Type} (x : Attempt Host α) : Attempt Session α :=
  x.onPart Session.host fun host session => { session with host }

/-- Takes the token of the next operation. -/
def takeToken : Attempt Session UInt32 := fun session =>
  (.ok session.token, { session with token := session.token + 1 })

/-- Adds a message to the log. -/
def note (entry : Log.Entry) (session : Session) : Session :=
  { session with host := { session.host with log := session.host.log ++ [entry] } }

/-- **Carries out an operation.** -/
def perform (operation : Operation) : Attempt Session Unit := fun session =>
  let endpoints := session.connection.endpoints
  let act : Attempt Session Unit := do
    let token ← takeToken
    match operation with
    | .exec _ => onBus (Picoboot.start endpoints token operation.command operation.payload)
    | _ => onBus (Picoboot.perform endpoints token operation.command operation.payload)
  act session

/-- Takes the interface over from an earlier user. -/
def takeOver : Attempt Session Unit := fun session =>
  onBus (Picoboot.takeOver session.connection.endpoints) session

end Session

/-! ### Connecting -/

/-- Whether a device is a board in BOOTSEL mode. -/
def isBootsel (device : Device) : Bool :=
  device.vendor == Chip.vendorId && Chip.isBootselId device.product

/-- Names every board that was found. -/
def announce : List (Device × Nat) → Attempt Host Unit
  | [] => pure ()
  | (device, _) :: found => do
    let chip := Log.optional Chip.name (Chip.ofProductId? device.product)
    tell .info ("Found an " ++ chip ++ " in bootsel mode")
    announce found

/-- Claims the boot loader's interface of an open device. -/
def claimFor (device : Device) (chip : Chip) (endpoints : Endpoints) : Attempt Host Connection := do
  claim device endpoints.interface
  pure ⟨chip, endpoints⟩

/-- **Connects to the first board in BOOTSEL mode.** -/
def connect (bus : Bus) : Attempt Host Connection := do
  let listed ← devices bus
  let found := listed.filter fun (device, _) => isBootsel device
  announce found
  match found with
  | [] => .fail .noBootselDevice
  | (device, number) :: others =>
    if others ≠ [] then
      tell .warn "Found more than one device. Using the first one found"
    match Chip.ofProductId? device.product with
    | none => .fail .noBootselDevice
    | some chip =>
      openDevice device number
      match Endpoints.find? device with
      | none => .fail .noInterface
      | some endpoints => claimFor device chip endpoints

end PicoLoader.Picoboot
