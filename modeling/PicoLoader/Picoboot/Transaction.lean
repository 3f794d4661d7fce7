import PicoLoader.Picoboot.Command
import PicoLoader.Picoboot.Endpoints
import PicoLoader.Picoboot.Status
import PicoLoader.Usb.Host

/-!
# Transactions

A command is carried out in up to three transfers: the packet goes out; the data, if there is any,
goes in the direction of the command; and an acknowledgement goes in the other direction. The first
transfer that fails, or moves the wrong number of bytes, ends the transaction. The acknowledgement
alone may have any length.

* `PicoLoader.Picoboot.transact` – the transfers of one command;
* `PicoLoader.Picoboot.queryStatus` – asking what the boot loader thinks of the last command;
* `PicoLoader.Picoboot.perform` – a transaction whose failure is explained by the status, if there
  is one to be had;
* `PicoLoader.Picoboot.start` – the transaction that starts a program, after which a device that
  has gone away is as good as one that answers.
-/

namespace PicoLoader.Picoboot

open Usb

/-- The time limit for packets, acknowledgements and control transfers, in milliseconds. -/
def commandLimit : Nat := 3000

/-- The time limit for data, in milliseconds. -/
def dataLimit : Nat := 9000

/-- The request type of control transfers to the vendor's own interface, from the host. -/
def vendorOut : UInt8 := 0x41

/-- The request type of control transfers from the vendor's own interface, to the host. -/
def vendorIn : UInt8 := 0xc1

/-- The control request that takes the interface over. -/
def resetRequest : UInt8 := 0x41

/-- The control request for the status of the last command. -/
def statusRequest : UInt8 := 0x42

/-! ### The transfers of a command -/

/-- The data of a command, sent or received; what was received. -/
def transferData (endpoints : Endpoints) (command : Command) (payload : List UInt8) :
    Attempt Host (List UInt8) := do
  if command.transferLength = 0 then pure []
  else if command.id.isIn then
    bulkInExact endpoints.bulkIn command.transferLength.toNat dataLimit
  else
    bulkOutExact endpoints.bulkOut payload dataLimit
    pure []

/-- The acknowledgement of a command: an empty transfer out, or one byte in. -/
def acknowledge (endpoints : Endpoints) (command : Command) : Attempt Host Unit := do
  if command.id.isIn then
    let _ ← bulkOut endpoints.bulkOut [] commandLimit
    pure ()
  else
    let _ ← bulkIn endpoints.bulkIn 1 commandLimit
    pure ()

/-- **One transaction**: the packet, the data, the acknowledgement; what was received as data. -/
def transact (endpoints : Endpoints) (token : UInt32) (command : Command) (payload : List UInt8) :
    Attempt Host (List UInt8) := do
  let length := command.transferLength.toNat
  tell .debug s!"cmd Ok({command.id.name}) token {token.toNat} transfer_len {length}"
  bulkOutExact endpoints.bulkOut (command.packet token) commandLimit
  let received ← transferData endpoints command payload
  acknowledge endpoints command
  pure received

/-! ### The status of the last command -/

/-- What the boot loader says about the last command. -/
structure StatusReply where
  token : UInt32
  code : UInt32
  command : UInt8
  inProgress : UInt8
deriving DecidableEq, Repr

namespace StatusReply

/-- The bytes of a reply. -/
def size : Nat := 16

/-- The numbers of a reply; the last six bytes mean nothing. -/
def ofBytes (bytes : List UInt8) : StatusReply where
  token := UInt32.ofNat (LittleEndian.field bytes 0 4)
  code := UInt32.ofNat (LittleEndian.field bytes 4 4)
  command := UInt8.ofNat (LittleEndian.field bytes 8 1)
  inProgress := UInt8.ofNat (LittleEndian.field bytes 9 1)

/-- The status that a reply reports, if its code is known. -/
def status? (reply : StatusReply) : Option Status := Status.ofCode? reply.code

end StatusReply

/-- Asks for the status of the last command. -/
def queryStatus (endpoints : Endpoints) : Attempt Host StatusReply := do
  let setup : Setup := ⟨vendorIn, statusRequest, 0, endpoints.interface.toUInt16⟩
  let bytes ← controlIn setup StatusReply.size commandLimit
  if bytes.length = StatusReply.size then
    let reply := StatusReply.ofBytes bytes
    tell .debug (s!"status token {reply.token.toNat} code {reply.code.toNat} cmd " ++
      Hex.byte reply.command.toNat ++ s!" in_progress {reply.inProgress.toNat}")
    pure reply
  else .fail (.shortTransfer StatusReply.size bytes.length)

/-! ### Failures -/

/-- What to report for a command that failed: the status that the device gives for it, if it is
known and not `ok`, or else the failure itself. -/
def explain (command : Command) (fault : Fault) (reply : StatusReply) : Fault :=
  match reply.status? with
  | some status => if status = .ok then fault else .reported command.id.code status
  | none => fault

/-- **Carries out a command.** If the device is still there after a failure, it is asked for its
status; the failure stays a failure whatever the answer. -/
def perform (endpoints : Endpoints) (token : UInt32) (command : Command) (payload : List UInt8) :
    Attempt Host Unit := do
  match ← (transact endpoints token command payload).result with
  | .ok _ => pure ()
  | .error fault =>
    if fault.isDisconnect then .fail fault
    else
      match ← (queryStatus endpoints).result with
      | .ok reply => .fail (explain command fault reply)
      | .error statusFault =>
        tell .debug ("command status unavailable: " ++ statusFault.message)
        .fail fault

/-- Whether a status means that a program may have been started. -/
def mayHaveStarted (reply : StatusReply) : Bool :=
  reply.status? = some .ok || reply.status? = some .rebooting

/-- **Carries out a command that starts a program.** The device may start it, or drop off the bus,
before it acknowledges: both count as success. -/
def start (endpoints : Endpoints) (token : UInt32) (command : Command) (payload : List UInt8) :
    Attempt Host Unit := do
  match ← (transact endpoints token command payload).result with
  | .ok _ => pure ()
  | .error fault =>
    if fault.isDisconnect then pure ()
    else
      match ← (queryStatus endpoints).result with
      | .ok reply => if mayHaveStarted reply then pure () else .fail fault
      | .error statusFault => if statusFault.isDisconnect then pure () else .fail fault

/-- Takes the interface over from an earlier user. This is no command and has no token. -/
def takeOver (endpoints : Endpoints) : Attempt Host Unit :=
  controlOut ⟨vendorOut, resetRequest, 0, endpoints.interface.toUInt16⟩ [] commandLimit

end PicoLoader.Picoboot
