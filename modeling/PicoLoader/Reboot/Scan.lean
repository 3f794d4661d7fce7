import PicoLoader.Chip
import PicoLoader.Reboot.Route

/-!
# Finding a board to reboot

The bus is searched for a board, in BOOTSEL mode or with a serial port over USB, that can be
rebooted. The boards are opened one after the other, because only an open device shows its
descriptors to the host; one that cannot be opened, or has no interface to reboot it, is passed
over, and the search ends at the first that has one. `PicoLoader.Reboot.find` tells a bus without
any board from one whose boards are of no use.
-/

namespace PicoLoader.Reboot

open Usb

/-- A device that is known to be a board. -/
structure Board where
  device : Device
  /-- The number of the device on the bus. -/
  number : Nat
  chip : Chip
deriving DecidableEq, Repr

namespace Board

/-- The board that a device of the bus is, if it is one. -/
def ofDevice? (device : Device) (number : Nat) : Option Board :=
  if device.vendor == Chip.vendorId then
    (Chip.ofProductId? device.product).map fun chip => ⟨device, number, chip⟩
  else none

/-- A device is a board if it has the vendor id and a product id of a chip family. -/
theorem ofDevice?_eq_some_iff {device : Device} {number : Nat} {board : Board} :
    ofDevice? device number = some board ↔
      (device.vendor = Chip.vendorId ∧ Chip.ofProductId? device.product = some board.chip) ∧
        board.device = device ∧ board.number = number := by
  obtain ⟨device', number', chip⟩ := board
  unfold ofDevice?
  split
  case isTrue h =>
    simp only [beq_iff_eq] at h
    simp only [Option.map_eq_some_iff, Board.mk.injEq, h, true_and]
    constructor
    · rintro ⟨chip, hchip, rfl, rfl, rfl⟩
      exact ⟨hchip, rfl, rfl⟩
    · rintro ⟨hchip, rfl, rfl⟩
      exact ⟨chip, hchip, rfl, rfl, rfl⟩
  case isFalse h =>
    simp only [beq_iff_eq] at h
    simp [h]

/-- The interfaces that can reboot a board. -/
def interfaces (board : Board) : Interfaces := .ofDevice board.device

/-- How a message names a board: vendor and product. -/
def shown (board : Board) : String :=
  Hex.word board.device.vendor.toNat ++ ":" ++ Hex.word board.device.product.toNat

/-- The message about a board that cannot be opened. -/
def refused (board : Board) (fault : Fault) : Log.Entry :=
  ⟨.warn, .reboot, "could not open device " ++ board.shown ++ ": " ++ fault.message⟩

/-- The message about the interfaces of a board. -/
def described (board : Board) : Log.Entry :=
  let picoboot := Log.optional Picoboot.Endpoints.shown board.interfaces.picoboot
  let reset := Log.optional (fun interface => toString interface.toNat) board.interfaces.reset
  ⟨.info, .reboot, "device " ++ board.shown ++ " picoboot " ++ picoboot ++ " reset " ++ reset⟩

end Board

/-- Opens boards until one can be rebooted. -/
def openFirst? : List Board → Attempt Host (Option Board)
  | [] => pure none
  | board :: boards => do
    match ← (openDevice board.device board.number).result with
    | .error fault =>
      note (board.refused fault)
      openFirst? boards
    | .ok () =>
      note board.described
      if board.interfaces.any then pure (some board) else openFirst? boards

/-- **Finds a board that can be rebooted**, and leaves it open. -/
def find (bus : Bus) : Attempt Host Board := do
  let listed ← devices bus
  let boards := listed.filterMap fun (device, number) => Board.ofDevice? device number
  match ← openFirst? boards with
  | some board => pure board
  | none => .fail (if boards = [] then .noDevice else .noInterface)

end PicoLoader.Reboot
