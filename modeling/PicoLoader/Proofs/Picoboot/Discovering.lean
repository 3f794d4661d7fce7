import Mathlib.Data.Nat.Bitwise
import PicoLoader.Picoboot.Endpoints
import PicoLoader.Proofs.Sorting

/-!
# Which setting of a device is taken for the boot loader

A device may describe itself at any length: configurations, interfaces in any order, several
settings for one interface, endpoints of all types. The boot loader is found by its *first* setting
in three orders at once: of the configurations, then of the interface numbers, then of the device.
The second of these is not the order in which a device lists its settings, and the search goes
through a sorted list in place of the device's own. So what "first" means is said here of the list
of the device (`PicoLoader.Picoboot.IsFirst`): the settings of the boot loader that are listed
before have a greater interface number, and those listed behind have no smaller one. Sorting is
stable, and that is all that is used of it (`Sorting.exists_split_of_sortOn`).

`PicoLoader.Picoboot.Discovers` says when the boot loader is found, by which setting, and that both
of its endpoints are of that setting.
-/

namespace PicoLoader

open Usb

/-- Whether an endpoint is a bulk endpoint in a direction. -/
def Usb.Endpoint.Bulk (isIn : Bool) (endpoint : Endpoint) : Prop :=
  endpoint.isBulk = true ∧ endpoint.isIn = isIn

/-- Bit 7 of the address of an endpoint is set if transfers go to the host. -/
theorem Usb.Endpoint.testBit_address (endpoint : Endpoint) :
    endpoint.address.toNat.testBit 7 = endpoint.isIn := by
  have hand : (endpoint.address &&& 0x80).toNat =
      (endpoint.address.toNat.testBit 7).toNat * 2 ^ 7 := Nat.and_two_pow _ 7
  cases hbit : endpoint.address.toNat.testBit 7 with
  | true =>
    have hne : endpoint.address &&& 0x80 ≠ 0 := fun hzero => by simp [hbit, hzero] at hand
    simpa [Endpoint.isIn] using hne
  | false =>
    have hzero : endpoint.address &&& 0x80 = 0 := UInt8.toNat_inj.mp (by simpa [hbit] using hand)
    simp [Endpoint.isIn, hzero]

namespace Picoboot

variable {device : Device} {setting : Setting} {isIn : Bool} {address : UInt8}
  {endpoints : Endpoints}

/-! ### Bulk endpoints of a setting -/

/-- Whether an address is that of the last bulk endpoint of a setting in a direction. -/
def LastBulk (setting : Setting) (isIn : Bool) (address : UInt8) : Prop :=
  ∃ before endpoint behind, setting.endpoints = before ++ endpoint :: behind ∧
    endpoint.address = address ∧ endpoint.Bulk isIn ∧ ∀ other ∈ behind, ¬other.Bulk isIn

/-- A setting has a last bulk endpoint if it has one at all. -/
theorem isSome_lastBulk?_iff :
    (lastBulk? setting isIn).isSome ↔ ∃ endpoint ∈ setting.endpoints, endpoint.Bulk isIn := by
  simp [lastBulk?, Endpoint.Bulk]

/-- The address that is found is that of the last one. -/
theorem lastBulk_of_lastBulk? (h : lastBulk? setting isIn = some address) :
    LastBulk setting isIn address := by
  obtain ⟨endpoint, hlast, haddress⟩ := Option.map_eq_some_iff.mp h
  obtain ⟨front, hfilter⟩ := List.getLast?_eq_some_iff.mp hlast
  obtain ⟨first, rest, hsplit, -, hrest⟩ := List.filter_eq_append_iff.mp hfilter
  obtain ⟨middle, behind, rfl, -, hbulk, hbehind⟩ := List.filter_eq_cons_iff.mp hrest
  have hnone : ∀ other ∈ behind, ¬other.Bulk isIn := by
    simpa [Endpoint.Bulk] using List.filter_eq_nil_iff.mp hbehind
  refine ⟨first ++ middle, endpoint, behind, ?_, haddress, ?_, hnone⟩
  · rw [hsplit, List.append_assoc]
  · simpa [Endpoint.Bulk] using hbulk

/-- So the address of the last bulk endpoint tells the direction it was looked for in. -/
theorem LastBulk.testBit_address (h : LastBulk setting isIn address) :
    address.toNat.testBit 7 = isIn := by
  obtain ⟨-, endpoint, -, -, rfl, ⟨-, rfl⟩, -⟩ := h
  exact endpoint.testBit_address

/-! ### Settings of the boot loader -/

/-- Whether a setting is one of the boot loader: of the vendor's own class, without a subclass and a
protocol, and with a bulk endpoint in each direction. -/
structure Listens (setting : Setting) : Prop where
  interfaceClass_eq : setting.interfaceClass = 0xFF
  subclass_eq : setting.subclass = 0
  protocol_eq : setting.protocol = 0
  exists_in : ∃ endpoint ∈ setting.endpoints, endpoint.Bulk true
  exists_out : ∃ endpoint ∈ setting.endpoints, endpoint.Bulk false

theorem isVendor_iff {subclass protocol : UInt8} :
    setting.isVendor subclass protocol = true ↔ setting.interfaceClass = 0xFF ∧
      setting.subclass = subclass ∧ setting.protocol = protocol := by
  simp [Setting.isVendor, and_assoc]

/-- The endpoints of the boot loader that a setting has are its own. -/
theorem ofSetting?_eq_some_iff :
    Endpoints.ofSetting? setting = some endpoints ↔ setting.isVendor 0 0 = true ∧
      endpoints.interface = setting.interface ∧
      lastBulk? setting true = some endpoints.bulkIn ∧
      lastBulk? setting false = some endpoints.bulkOut := by
  obtain ⟨interface, bulkOut, bulkIn⟩ := endpoints
  unfold Endpoints.ofSetting?
  split
  case isFalse hvendor => simp [hvendor]
  case isTrue hvendor =>
    cases hout : lastBulk? setting false with
    | none => simp
    | some lastOut =>
      cases hin : lastBulk? setting true with
      | none => simp
      | some lastIn =>
        simp only [Option.some.injEq, Endpoints.mk.injEq, hvendor, true_and]
        constructor
        · rintro ⟨rfl, rfl, rfl⟩
          exact ⟨rfl, rfl, rfl⟩
        · rintro ⟨rfl, rfl, rfl⟩
          exact ⟨rfl, rfl, rfl⟩

/-- **A setting has endpoints of the boot loader** if and only if it is one of the boot loader. -/
theorem isSome_ofSetting?_iff : (Endpoints.ofSetting? setting).isSome ↔ Listens setting := by
  constructor
  · intro h
    obtain ⟨endpoints, hfound⟩ := Option.isSome_iff_exists.mp h
    obtain ⟨hvendor, -, hin, hout⟩ := ofSetting?_eq_some_iff.mp hfound
    obtain ⟨hclass, hsubclass, hprotocol⟩ := isVendor_iff.mp hvendor
    exact ⟨hclass, hsubclass, hprotocol, isSome_lastBulk?_iff.mp (by simp [hin]),
      isSome_lastBulk?_iff.mp (by simp [hout])⟩
  · intro h
    obtain ⟨bulkIn, hin⟩ := Option.isSome_iff_exists.mp (isSome_lastBulk?_iff.mpr h.exists_in)
    obtain ⟨bulkOut, hout⟩ := Option.isSome_iff_exists.mp (isSome_lastBulk?_iff.mpr h.exists_out)
    have hvendor := isVendor_iff.mpr ⟨h.interfaceClass_eq, h.subclass_eq, h.protocol_eq⟩
    have hfound : Endpoints.ofSetting? setting = some ⟨setting.interface, bulkOut, bulkIn⟩ :=
      ofSetting?_eq_some_iff.mpr ⟨hvendor, rfl, hin, hout⟩
    simp [hfound]

theorem ofSetting?_eq_none_iff : Endpoints.ofSetting? setting = none ↔ ¬Listens setting := by
  rw [← isSome_ofSetting?_iff, Option.not_isSome_iff_eq_none]

/-! ### The first setting of a device -/

/-- Whether a setting is the first of the boot loader on a device: no configuration before has one,
and in its own configuration those that are listed before have a greater interface number, and those
behind no smaller one. -/
def IsFirst (device : Device) (setting : Setting) : Prop :=
  ∃ earlier configuration later before behind,
    device.configurations = earlier ++ configuration :: later ∧
      configuration = before ++ setting :: behind ∧ Listens setting ∧
      (∀ other ∈ earlier, ∀ listed ∈ other, ¬Listens listed) ∧
      (∀ listed ∈ before, Listens listed → setting.interface < listed.interface) ∧
      (∀ listed ∈ behind, Listens listed → setting.interface ≤ listed.interface)

/-- A configuration is passed over if none of its settings is one of the boot loader. -/
theorem findSome?_byInterface_eq_none_iff {configuration : Configuration} :
    (byInterface configuration).findSome? Endpoints.ofSetting? = none ↔
      ∀ listed ∈ configuration, ¬Listens listed := by
  simp [List.findSome?_eq_none_iff, byInterface, ofSetting?_eq_none_iff]

/-- **A device has the boot loader** if and only if one of its settings is one of it. -/
theorem isSome_find?_iff : (Endpoints.find? device).isSome ↔
    ∃ configuration ∈ device.configurations, ∃ listed ∈ configuration, Listens listed := by
  simp [Endpoints.find?, List.findSome?_isSome_iff, byInterface, isSome_ofSetting?_iff]

/-- **What is found is of the first setting.** -/
theorem exists_isFirst_of_find? (h : Endpoints.find? device = some endpoints) :
    ∃ setting, IsFirst device setting ∧ Endpoints.ofSetting? setting = some endpoints := by
  obtain ⟨earlier, configuration, later, hdevice, hfound, hearlier⟩ :=
    List.findSome?_eq_some_iff.mp h
  obtain ⟨front, setting, back, hsorted, hsetting, hfront⟩ := List.findSome?_eq_some_iff.mp hfound
  obtain ⟨before, behind, hsplit, hbefore, hbehind⟩ := Sorting.exists_split_of_sortOn _ hsorted
  have hlistens : Listens setting := isSome_ofSetting?_iff.mp (by simp [hsetting])
  have hnot : ∀ listed ∈ front, ¬Listens listed := fun listed hlisted =>
    ofSetting?_eq_none_iff.mp (hfront listed hlisted)
  refine ⟨setting, ⟨earlier, configuration, later, before, behind, hdevice, hsplit, hlistens,
    ?_, ?_, ?_⟩, hsetting⟩
  · intro other hother
    exact findSome?_byInterface_eq_none_iff.mp (hearlier other hother)
  · intro listed hlisted hother
    refine UInt8.lt_iff_toNat_lt.mpr (Nat.lt_of_not_le fun hle => ?_)
    exact hnot listed (hbefore listed hlisted hle) hother
  · intro listed hlisted hother
    refine UInt8.le_iff_toNat_le.mpr (Nat.le_of_not_lt fun hlt => ?_)
    exact hnot listed (hbehind listed hlisted hlt) hother

/-- What the search for the boot loader does on a device. -/
structure Discovers (device : Device) : Prop where
  /-- It finds the boot loader if and only if there is a setting of it. -/
  isSome_iff : (Endpoints.find? device).isSome ↔
    ∃ configuration ∈ device.configurations, ∃ setting ∈ configuration, Listens setting
  /-- What it finds is one setting, the first: the number of its interface, and the last bulk
  endpoint of it in each direction. -/
  first : ∀ endpoints, Endpoints.find? device = some endpoints →
    ∃ setting, IsFirst device setting ∧ endpoints.interface = setting.interface ∧
      LastBulk setting true endpoints.bulkIn ∧ LastBulk setting false endpoints.bulkOut
  /-- The address of the one endpoint has bit 7 set, that of the other has it clear. -/
  testBit_eq : ∀ endpoints, Endpoints.find? device = some endpoints →
    endpoints.bulkIn.toNat.testBit 7 = true ∧ endpoints.bulkOut.toNat.testBit 7 = false

/-- **The boot loader of a device is discovered**, whatever the device says about itself. -/
theorem discovers (device : Device) : Discovers device := by
  have hfirst : ∀ endpoints, Endpoints.find? device = some endpoints →
      ∃ setting, IsFirst device setting ∧ endpoints.interface = setting.interface ∧
        LastBulk setting true endpoints.bulkIn ∧ LastBulk setting false endpoints.bulkOut := by
    intro endpoints hfound
    obtain ⟨setting, hisFirst, hsetting⟩ := exists_isFirst_of_find? hfound
    obtain ⟨-, hinterface, hin, hout⟩ := ofSetting?_eq_some_iff.mp hsetting
    exact ⟨setting, hisFirst, hinterface, lastBulk_of_lastBulk? hin, lastBulk_of_lastBulk? hout⟩
  refine ⟨isSome_find?_iff, hfirst, fun endpoints hfound => ?_⟩
  obtain ⟨setting, -, -, hin, hout⟩ := hfirst endpoints hfound
  exact ⟨hin.testBit_address, hout.testBit_address⟩

/-- A device with a configuration without the boot loader, then one that lists its interfaces in
descending order. Interface 0 has a setting with one direction only, and one of the boot loader with
several endpoints for each direction, of which not all are bulk endpoints. -/
def crowded : Device where
  vendor := 0x2E8A
  product := 0x000f
  configurations :=
    [[⟨0, 0, 0xFF, 0, 1, [⟨0x81, 2⟩, ⟨0x02, 2⟩]⟩],
      [⟨1, 0, 0xFF, 0, 0, [⟨0x86, 2⟩, ⟨0x07, 2⟩]⟩,
        ⟨0, 0, 0xFF, 0, 0, [⟨0x81, 2⟩, ⟨0x82, 2⟩]⟩,
        ⟨0, 1, 0xFF, 0, 0, [⟨0x03, 2⟩, ⟨0x83, 2⟩, ⟨0x04, 2⟩, ⟨0x85, 2⟩, ⟨0x05, 3⟩]⟩]]
  openRefusal := none
  claimRefusal := none
  detachRefusal := none

/-- On this device the endpoints of the third setting of the second configuration are found. -/
theorem discovers_crowded :
    Endpoints.find? crowded = some ⟨0, 0x04, 0x85⟩ ∧ Discovers crowded :=
  ⟨by decide, discovers crowded⟩

end Picoboot

end PicoLoader
