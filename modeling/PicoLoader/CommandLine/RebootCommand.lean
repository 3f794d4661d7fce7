import PicoLoader.CommandLine.Exit
import PicoLoader.Reboot.Request

/-!
# The command that reboots a board

It reboots the first board that can be rebooted, and says what the request has come to.
-/

namespace PicoLoader.CommandLine

open Usb

/-- The switches of the command. -/
inductive RebootSwitch where
  | bootsel
  | verbose
deriving DecidableEq, Repr

/-- What the command is told to do. -/
structure RebootRequest where
  bootsel : Bool
  verbose : Bool
deriving DecidableEq, Repr

namespace RebootRequest

/-- What the command takes. -/
def grammar : Grammar RebootSwitch where
  program := "dapico-reboot"
  release := "0.2.0"
  about := "Reboot an RP2040/RP2350 board over USB"
  switches := [
    ⟨"bootsel", some 'u', "Reboot into BOOTSEL mode (if reset interface is available)",
      .own .bootsel⟩,
    ⟨"verbose", some 'v', "Enable debug logging", .own .verbose⟩]
  operands := []

/-- Reads arguments. -/
def ofArguments (texts : List String) : Except Stop RebootRequest :=
  match grammar.read texts with
  | .error stop => .error stop
  | .ok given => .ok {
      bootsel := RebootSwitch.bootsel ∈ given.switches
      verbose := RebootSwitch.verbose ∈ given.switches }

/-- How the command words an outcome. -/
def wording : Reboot.Outcome → String
  | .sent => "Reboot request sent.\n"
  | .bootselRequested => "Requested reboot into BOOTSEL mode.\n"
  | .alreadyInBootsel => "Device is already in BOOTSEL mode.\n"

/-- How the command words the failure of a request. A board without an interface for it is no
failure of the request. -/
def failure : Fault → String
  | .noInterface => Fault.noInterface.message
  | fault => "Reboot request failed (" ++ fault.message ++ ")."

/-- Does what the command is told: what it says, or why it failed. -/
def perform (request : RebootRequest) (bus : Bus) (host : Host) : Except String String × Host :=
  match Reboot.find bus host with
  | (.error fault, host) => (.error fault.message, host)
  | (.ok board, host) =>
    match Reboot.perform board request.bootsel host with
    | (.error fault, host) => (.error (failure fault), host)
    | (.ok outcome, host) => (.ok (wording outcome), host)

end RebootRequest

/-- **The command that reboots a board**: how it ends, and the host after it. The word sets the
log. -/
def reboot (texts : List String) (word : Option String) (bus : Bus) (host : Host) : Exit × Host :=
  match RebootRequest.ofArguments texts with
  | .error stop => (.ofStop RebootRequest.grammar stop, host)
  | .ok request =>
    let (result, host) := request.perform bus host
    let log := Log.printed (threshold word request.verbose) host.log
    match result with
    | .ok text => (.success text log, host)
    | .error reason => (.failure "" log reason, host)

end PicoLoader.CommandLine
