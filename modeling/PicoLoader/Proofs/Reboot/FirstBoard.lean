import PicoLoader.Proofs.Reboot.Interfaces
import PicoLoader.Proofs.Reboot.Scanning

/-!
# Which board on a bus is rebooted

`PicoLoader.Proofs.Reboot.Scanning` follows the search for a board through the list of the boards
that are on the bus. That list, and what makes a board qualify, are of the search's own making. Here
the same is said of the bus and the descriptors alone: the board that is found is the first device
that is usable (`PicoLoader.Reboot.Usable`), and it is told apart from every other by its number on
the bus. Devices of other vendors, boards that cannot be opened and boards without an interface for
rebooting may stand anywhere before, between and behind.

Everything rests on the numbers of the boards, which ascend (`pairwise_number_boardsOn`): in such a
list the first board that qualifies is the one with the least number, and the boards up to it are
those with no greater one. `PicoLoader.Reboot.Scans` puts together what the search does on a bus.
-/

namespace PicoLoader.Reboot

open Usb

variable {bus : Bus} {device : Device} {board : Board} {boards : List Board} {number : Nat}

/-! ### Boards among the devices -/

/-- Whether a device is a board that can be opened and rebooted. -/
structure Usable (device : Device) : Prop where
  isBoard : IsBoard device
  openRefusal_eq : device.openRefusal = none
  hasRoute : HasRoute device

/-- Every board among the devices of a bus is taken for one, under its number. -/
theorem exists_mem_boardsOn (hlisted : bus.devices[number]? = some device) (h : IsBoard device) :
    ∃ board ∈ boardsOn bus, board.number = number ∧ board.device = device := by
  obtain ⟨hvendor, chip, hchip⟩ := isBoard_iff.mp h
  exact ⟨⟨device, number, chip⟩, mem_boardsOn_iff.mpr ⟨hlisted, hvendor, hchip⟩, rfl, rfl⟩

/-- Whatever is taken for a board is one. -/
theorem isBoard_of_mem_boardsOn (h : board ∈ boardsOn bus) : IsBoard board.device := by
  obtain ⟨-, hvendor, hchip⟩ := mem_boardsOn_iff.mp h
  exact isBoard_iff.mpr ⟨hvendor, _, hchip⟩

theorem mem_devices_of_mem_boardsOn (h : board ∈ boardsOn bus) : board.device ∈ bus.devices :=
  List.mem_of_getElem? (mem_boardsOn_iff.mp h).1

/-- The search stops at the boards that are usable. -/
theorem qualifies_iff (h : board ∈ boardsOn bus) :
    board.qualifies = true ↔ Usable board.device := by
  simp only [Board.qualifies, Board.interfaces, Bool.and_eq_true, Option.isNone_iff_eq_none,
    ← hasRoute_iff]
  constructor
  · rintro ⟨hrefusal, hroute⟩
    exact ⟨isBoard_of_mem_boardsOn h, hrefusal, hroute⟩
  · rintro ⟨-, hrefusal, hroute⟩
    exact ⟨hrefusal, hroute⟩

/-- A bus without boards. -/
theorem boardsOn_eq_nil_iff : boardsOn bus = [] ↔ ∀ device ∈ bus.devices, ¬IsBoard device := by
  rw [List.eq_nil_iff_forall_not_mem]
  constructor
  · intro h device hdevice hboard
    obtain ⟨number, hlisted⟩ := List.getElem?_of_mem hdevice
    obtain ⟨board, hmem, -⟩ := exists_mem_boardsOn hlisted hboard
    exact h board hmem
  · intro h board hmem
    exact h _ (mem_devices_of_mem_boardsOn hmem) (isBoard_of_mem_boardsOn hmem)

/-- A bus without a usable board. -/
theorem find?_qualifies_eq_none_iff : (boardsOn bus).find? Board.qualifies = none ↔
    ∀ device ∈ bus.devices, ¬Usable device := by
  rw [List.find?_eq_none]
  constructor
  · intro h device hdevice husable
    obtain ⟨number, hlisted⟩ := List.getElem?_of_mem hdevice
    obtain ⟨board, hmem, -, rfl⟩ := exists_mem_boardsOn hlisted husable.isBoard
    exact h board hmem ((qualifies_iff hmem).mpr husable)
  · intro h board hmem hqualifies
    exact h _ (mem_devices_of_mem_boardsOn hmem) ((qualifies_iff hmem).mp hqualifies)

/-! ### Numbers that ascend -/

/-- **The boards on a bus are numbered in ascending order.** -/
theorem pairwise_number_boardsOn (bus : Bus) :
    (boardsOn bus).Pairwise fun board other => board.number < other.number := by
  have hnumbers : bus.devices.zipIdx.Pairwise fun listed other => listed.2 < other.2 := by
    rw [← List.pairwise_map, List.zipIdx_map_snd]
    exact List.pairwise_lt_range'
  refine List.pairwise_filterMap.mpr (hnumbers.imp fun hlt board hboard other hother => ?_)
  rw [(Board.ofDevice?_eq_some_iff.mp hboard).2.2, (Board.ofDevice?_eq_some_iff.mp hother).2.2]
  exact hlt

section Ascending

variable (h : boards.Pairwise fun board other => board.number < other.number)

include h

/-- The first board that qualifies is the one with the least number. -/
theorem find?_qualifies_eq_some_iff : boards.find? Board.qualifies = some board ↔
    board ∈ boards ∧ board.qualifies = true ∧
      ∀ other ∈ boards, other.number < board.number → other.qualifies = false := by
  induction boards with
  | nil => simp
  | cons first boards ih =>
    obtain ⟨hfirst, hboards⟩ := List.pairwise_cons.mp h
    cases hqualifies : first.qualifies with
    | true =>
      rw [List.find?_cons_of_pos hqualifies]
      constructor
      · rintro ⟨⟩
        refine ⟨List.mem_cons_self, hqualifies, fun other hother hlt => ?_⟩
        rcases List.mem_cons.mp hother with rfl | hother
        · exact absurd hlt (Nat.lt_irrefl _)
        · exact absurd hlt (Nat.lt_asymm (hfirst other hother))
      · rintro ⟨hmem, -, hleast⟩
        rcases List.mem_cons.mp hmem with rfl | hmem
        · rfl
        · simp [hleast first List.mem_cons_self (hfirst board hmem)] at hqualifies
    | false =>
      rw [List.find?_cons_of_neg (by simp [hqualifies]), ih hboards]
      constructor
      · rintro ⟨hmem, hboard, hleast⟩
        exact ⟨List.mem_cons_of_mem _ hmem, hboard,
          List.forall_mem_cons.mpr ⟨fun _ => hqualifies, hleast⟩⟩
      · rintro ⟨hmem, hboard, hleast⟩
        rcases List.mem_cons.mp hmem with rfl | hmem
        · simp [hqualifies] at hboard
        · exact ⟨hmem, hboard, (List.forall_mem_cons.mp hleast).2⟩

/-- The boards that are opened are those whose number is not greater than that of the board that is
found. -/
theorem mem_opened_iff : board ∈ opened boards ↔ board ∈ boards ∧
    ∀ found, boards.find? Board.qualifies = some found → board.number ≤ found.number := by
  induction boards with
  | nil => simp [opened]
  | cons first boards ih =>
    obtain ⟨hfirst, hboards⟩ := List.pairwise_cons.mp h
    cases hqualifies : first.qualifies with
    | true =>
      rw [opened_cons_of_qualifies hqualifies, List.find?_cons_of_pos hqualifies,
        List.mem_singleton]
      constructor
      · rintro rfl
        exact ⟨List.mem_cons_self, fun found hfound => by cases hfound; exact Nat.le_refl _⟩
      · rintro ⟨hmem, hle⟩
        rcases List.mem_cons.mp hmem with rfl | hmem
        · rfl
        · exact absurd (hfirst board hmem) (Nat.not_lt_of_le (hle first rfl))
    | false =>
      rw [opened_cons_of_not_qualifies hqualifies,
        List.find?_cons_of_neg (by simp [hqualifies]), List.mem_cons, List.mem_cons]
      constructor
      · rintro (rfl | hmem)
        · refine ⟨.inl rfl, fun found hfound => ?_⟩
          exact Nat.le_of_lt (hfirst found (List.mem_of_find?_eq_some hfound))
        · obtain ⟨hmem, hle⟩ := (ih hboards).mp hmem
          exact ⟨.inr hmem, hle⟩
      · rintro ⟨rfl | hmem, hle⟩
        · exact .inl rfl
        · exact .inr ((ih hboards).mpr ⟨hmem, hle⟩)

end Ascending

/-- The boards that are opened are the first ones of the list. -/
theorem opened_isPrefix (boards : List Board) : opened boards <+: boards := by
  induction boards with
  | nil => exact List.prefix_rfl
  | cons first boards ih =>
    cases hqualifies : first.qualifies with
    | true =>
      rw [opened_cons_of_qualifies hqualifies]
      exact ⟨boards, rfl⟩
    | false =>
      rw [opened_cons_of_not_qualifies hqualifies]
      exact List.cons_prefix_cons.mpr ⟨rfl, ih⟩

/-! ### The first usable board -/

/-- Whether a board is the first device on a bus that is usable. -/
structure IsFirstUsable (bus : Bus) (board : Board) : Prop where
  getElem?_eq : bus.devices[board.number]? = some board.device
  usable : Usable board.device
  chip_eq : Chip.ofProductId? board.device.product = some board.chip
  not_usable : ∀ number < board.number, ∀ device, bus.devices[number]? = some device →
    ¬Usable device

/-- **The first board that qualifies is the first usable device.** -/
theorem find?_boardsOn_eq_some_iff :
    (boardsOn bus).find? Board.qualifies = some board ↔ IsFirstUsable bus board := by
  rw [find?_qualifies_eq_some_iff (pairwise_number_boardsOn bus)]
  constructor
  · rintro ⟨hmem, hqualifies, hleast⟩
    obtain ⟨hlisted, -, hchip⟩ := mem_boardsOn_iff.mp hmem
    refine ⟨hlisted, (qualifies_iff hmem).mp hqualifies, hchip, ?_⟩
    intro number hlt device hdevice husable
    obtain ⟨other, hother, rfl, rfl⟩ := exists_mem_boardsOn hdevice husable.isBoard
    have hnot := hleast other hother hlt
    rw [(qualifies_iff hother).mpr husable] at hnot
    cases hnot
  · rintro ⟨hlisted, husable, hchip, hnot⟩
    have hmem : board ∈ boardsOn bus :=
      mem_boardsOn_iff.mpr ⟨hlisted, (isBoard_iff.mp husable.isBoard).1, hchip⟩
    refine ⟨hmem, (qualifies_iff hmem).mpr husable, fun other hother hlt => ?_⟩
    have hother' := hnot other.number hlt other.device (mem_boardsOn_iff.mp hother).1
    rw [← qualifies_iff hother] at hother'
    exact Bool.eq_false_iff.mpr hother'

/-- The numbers of the boards that are opened on a bus, in ascending order. -/
theorem mem_numbers_opened_iff : number ∈ (opened (boardsOn bus)).map Board.number ↔
    (∃ device, bus.devices[number]? = some device ∧ IsBoard device) ∧
      ∀ board, IsFirstUsable bus board → number ≤ board.number := by
  simp only [List.mem_map, mem_opened_iff (pairwise_number_boardsOn bus),
    find?_boardsOn_eq_some_iff]
  constructor
  · rintro ⟨board, ⟨hmem, hle⟩, rfl⟩
    exact ⟨⟨board.device, (mem_boardsOn_iff.mp hmem).1, isBoard_of_mem_boardsOn hmem⟩, hle⟩
  · rintro ⟨⟨device, hlisted, hboard⟩, hle⟩
    obtain ⟨board, hmem, rfl, -⟩ := exists_mem_boardsOn hlisted hboard
    exact ⟨board, ⟨hmem, hle⟩, rfl⟩

section Find

variable (h : bus.listRefusal = none) (host : Host)

include h

theorem find_eq_ok_iff : (find bus host).1 = .ok board ↔ IsFirstUsable bus board := by
  rw [(find_of_listed h host).1, ← find?_boardsOn_eq_some_iff]
  cases (boardsOn bus).find? Board.qualifies with
  | some found => simp
  | none => simp

/-- The search fails if no device is usable, and then tells whether there is a board at all. -/
theorem find_eq_error_iff {fault : Fault} : (find bus host).1 = .error fault ↔
    (∀ device ∈ bus.devices, ¬Usable device) ∧
      fault = if boardsOn bus = [] then .noDevice else .noInterface := by
  rw [(find_of_listed h host).1, ← find?_qualifies_eq_none_iff]
  cases (boardsOn bus).find? Board.qualifies with
  | some found => simp
  | none =>
    simp only [Except.error.injEq, true_and]
    exact eq_comm

theorem find_eq_noDevice_iff :
    (find bus host).1 = .error .noDevice ↔ ∀ device ∈ bus.devices, ¬IsBoard device := by
  rw [find_eq_error_iff h, ← boardsOn_eq_nil_iff]
  constructor
  · rintro ⟨-, hfault⟩
    by_cases hboards : boardsOn bus = []
    · exact hboards
    · rw [if_neg hboards] at hfault
      cases hfault
  · intro hboards
    refine ⟨fun device hdevice husable => ?_, (if_pos hboards).symm⟩
    exact boardsOn_eq_nil_iff.mp hboards device hdevice husable.isBoard

theorem find_eq_noInterface_iff : (find bus host).1 = .error .noInterface ↔
    (∃ device ∈ bus.devices, IsBoard device) ∧ ∀ device ∈ bus.devices, ¬Usable device := by
  have hsome : boardsOn bus ≠ [] ↔ ∃ device ∈ bus.devices, IsBoard device := by
    simp [boardsOn_eq_nil_iff]
  rw [find_eq_error_iff h, ← hsome]
  constructor
  · rintro ⟨hnone, hfault⟩
    refine ⟨fun hboards => ?_, hnone⟩
    rw [if_pos hboards] at hfault
    cases hfault
  · rintro ⟨hboards, hnone⟩
    exact ⟨hnone, (if_neg hboards).symm⟩

end Find

/-- What the search does on a bus whose devices can be listed. -/
structure Scans (bus : Bus) (host : Host) (outcome : Except Fault Board × Host) : Prop where
  /-- It finds the first usable board. -/
  ok_iff : ∀ board, outcome.1 = .ok board ↔ IsFirstUsable bus board
  /-- It tells that there is no board if none is listed. -/
  noDevice_iff : outcome.1 = .error .noDevice ↔ ∀ device ∈ bus.devices, ¬IsBoard device
  /-- It tells that no board has an interface if there are boards, but no usable one. -/
  noInterface_iff : outcome.1 = .error .noInterface ↔
    (∃ device ∈ bus.devices, IsBoard device) ∧ ∀ device ∈ bus.devices, ¬Usable device
  /-- It fails in no other way. -/
  fault_eq : ∀ fault, outcome.1 = .error fault → fault = .noDevice ∨ fault = .noInterface
  /-- It opens, in the order of the bus, the boards up to the one that it finds, or all if it finds
  none; and it does nothing else. -/
  opened : ∃ numbers : List Nat, outcome.2.trace = host.trace ++ numbers.map Event.opened ∧
    numbers.Pairwise (· < ·) ∧
    ∀ number, number ∈ numbers ↔
      (∃ device, bus.devices[number]? = some device ∧ IsBoard device) ∧
        ∀ board, outcome.1 = .ok board → number ≤ board.number
  /-- It makes no transfer, so it uses up no response. -/
  responses_eq : outcome.2.responses = host.responses

/-- **The search finds the first usable board on a bus**, whatever else is on it. -/
theorem scans (h : bus.listRefusal = none) (host : Host) : Scans bus host (find bus host) := by
  obtain ⟨-, hresponses, htrace⟩ := find_of_listed h host
  refine ⟨fun board => find_eq_ok_iff h host, find_eq_noDevice_iff h host,
    find_eq_noInterface_iff h host, ?_, ?_, hresponses⟩
  · intro fault hfault
    obtain ⟨-, rfl⟩ := (find_eq_error_iff h host).mp hfault
    split
    case isTrue => exact .inl rfl
    case isFalse => exact .inr rfl
  · refine ⟨(opened (boardsOn bus)).map Board.number, ?_, ?_, fun number => ?_⟩
    · rw [htrace, List.map_map]
      rfl
    · exact List.pairwise_map.mpr
        ((pairwise_number_boardsOn bus).sublist (opened_isPrefix _).sublist)
    · simp only [mem_numbers_opened_iff, find_eq_ok_iff h host]

/-- A device with one setting: a reset interface. -/
def resettable (vendor product : UInt16) (openRefusal : Option String) : Device where
  vendor
  product
  configurations := [[⟨2, 0, 0xFF, 0, 1, []⟩]]
  openRefusal
  claimRefusal := none
  detachRefusal := none

/-- A bus with a device of another vendor, a board that cannot be opened, a board without an
interface for rebooting, and two that can be rebooted. -/
def mixed : Bus where
  listRefusal := none
  devices :=
    [resettable 0x1209 0x0003 none, resettable 0x2E8A 0x000a (some "busy"),
      ⟨0x2E8A, 0x000f, [[]], none, none, none⟩, resettable 0x2E8A 0x0009 none,
      resettable 0x2E8A 0x0003 none]

/-- On this bus the fourth device is found, and the two boards before it have been opened. -/
theorem scans_mixed :
    mixed.listRefusal = none ∧
      (find mixed (.start [])).1 = .ok ⟨resettable 0x2E8A 0x0009 none, 3, .rp2350⟩ ∧
      (find mixed (.start [])).2.trace = [.opened 1, .opened 2, .opened 3] ∧
      Scans mixed (.start []) (find mixed (.start [])) :=
  ⟨rfl, by decide, by decide, scans rfl (.start [])⟩

end PicoLoader.Reboot
