import PicoLoader.Chip
import PicoLoader.Proofs.Picoboot.Discovering
import PicoLoader.Reboot.Route

/-!
# What a device says about how it can be rebooted

The search for a board and the choice of a way to reboot it look at a device through functions of
the program. Here the same is said by the descriptors of the device alone, with the numbers that
they have to contain:

* `PicoLoader.Reboot.IsBoard`, `PicoLoader.Reboot.IsOfFamily` – what the product ids tell;
* `PicoLoader.Reboot.HasReset`, `PicoLoader.Reboot.IsReset` – whether a device has a reset
  interface, and which one it is: the first, as the device lists them;
* `PicoLoader.Reboot.HasBootLoader`, `PicoLoader.Reboot.IsBootLoader` – the same of the boot loader,
  whose first setting is not always the first that is listed (`PicoLoader.Picoboot.IsFirst`);
* `PicoLoader.Reboot.HasRoute` – whether a device can be rebooted at all.

Beside each of them is the lemma that says that the program looks for just this.
-/

namespace PicoLoader.Reboot

open Picoboot Usb

variable {device : Device} {setting : Setting}

/-! ### Boards -/

/-- Whether a product id is one of a chip family. -/
def IsOfFamily : Chip → UInt16 → Prop
  | .rp2040, product => product = 0x0003 ∨ product = 0x000a
  | .rp2350, product => product = 0x000f ∨ product = 0x0009

/-- Whether a device is a board: by its vendor, and a product id of either chip family in either
mode. -/
def IsBoard (device : Device) : Prop :=
  device.vendor = 0x2E8A ∧ device.product ∈ [0x0003, 0x000a, 0x000f, 0x0009]

theorem ofProductId?_eq_some_iff {product : UInt16} {chip : Chip} :
    Chip.ofProductId? product = some chip ↔ IsOfFamily chip product := by
  constructor
  · intro h
    have hids := List.find?_some h
    cases chip <;> simpa [IsOfFamily, Chip.bootselId, Chip.serialId] using hids
  · cases chip <;> rintro (rfl | rfl) <;> decide

theorem isBoard_iff : IsBoard device ↔
    device.vendor = Chip.vendorId ∧ ∃ chip, Chip.ofProductId? device.product = some chip := by
  refine and_congr Iff.rfl ?_
  simp only [ofProductId?_eq_some_iff, List.mem_cons, List.not_mem_nil, or_false]
  constructor
  · rintro (h | h | h | h)
    · exact ⟨.rp2040, .inl h⟩
    · exact ⟨.rp2040, .inr h⟩
    · exact ⟨.rp2350, .inl h⟩
    · exact ⟨.rp2350, .inr h⟩
  · rintro ⟨_ | _, h | h⟩ <;> simp [h]

/-! ### The reset interface -/

/-- Whether a setting is one of a reset interface. -/
def Resets (setting : Setting) : Prop :=
  setting.interfaceClass = 0xFF ∧ setting.subclass = 0 ∧ setting.protocol = 1

/-- Whether a device has a reset interface. -/
def HasReset (device : Device) : Prop :=
  ∃ configuration ∈ device.configurations, ∃ setting ∈ configuration, Resets setting

/-- Whether a number is that of *the* reset interface of a device: of the first setting that is one
of a reset interface, through the configurations in order, and through each as the device lists
it. -/
def IsReset (device : Device) (number : UInt8) : Prop :=
  ∃ earlier configuration later before setting behind,
    device.configurations = earlier ++ configuration :: later ∧
      configuration = before ++ setting :: behind ∧ Resets setting ∧ setting.interface = number ∧
      (∀ other ∈ earlier, ∀ listed ∈ other, ¬Resets listed) ∧ ∀ listed ∈ before, ¬Resets listed

theorem isVendor_iff_resets : setting.isVendor 0 1 = true ↔ Resets setting := isVendor_iff

/-- A configuration is passed over if none of its settings is one of a reset interface. -/
theorem find?_isVendor_eq_none_iff {configuration : Configuration} :
    (configuration.find? fun setting => setting.isVendor 0 1) = none ↔
      ∀ listed ∈ configuration, ¬Resets listed := by
  simp only [List.find?_eq_none, isVendor_iff_resets]

theorem isSome_resetInterface?_iff_hasReset : (resetInterface? device).isSome ↔ HasReset device := by
  simp only [isSome_resetInterface?_iff, isVendor_iff_resets, HasReset]

theorem resetInterface?_eq_none_iff : resetInterface? device = none ↔ ¬HasReset device := by
  rw [← isSome_resetInterface?_iff_hasReset, Option.not_isSome_iff_eq_none]

/-- **The reset interface that is found** is the first. -/
theorem isReset_of_resetInterface? {number : UInt8} (h : resetInterface? device = some number) :
    IsReset device number := by
  obtain ⟨earlier, configuration, later, hdevice, hfound, hearlier⟩ :=
    List.findSome?_eq_some_iff.mp h
  obtain ⟨setting, hfind, hnumber⟩ := Option.map_eq_some_iff.mp hfound
  obtain ⟨hresets, before, behind, hsplit, hbefore⟩ := List.find?_eq_some_iff_append.mp hfind
  refine ⟨earlier, configuration, later, before, setting, behind, hdevice, hsplit,
    isVendor_iff_resets.mp hresets, hnumber, ?_, ?_⟩
  · intro other hother
    exact find?_isVendor_eq_none_iff.mp (Option.map_eq_none_iff.mp (hearlier other hother))
  · intro listed hlisted hresets
    have hnot := hbefore listed hlisted
    rw [isVendor_iff_resets.mpr hresets] at hnot
    cases hnot

/-! ### The boot loader -/

/-- Whether a device has the boot loader. -/
def HasBootLoader (device : Device) : Prop :=
  ∃ configuration ∈ device.configurations, ∃ setting ∈ configuration, Listens setting

/-- Whether endpoints are those of the boot loader of a device: the last bulk endpoints of its first
setting. -/
def IsBootLoader (device : Device) (endpoints : Endpoints) : Prop :=
  ∃ setting, IsFirst device setting ∧ endpoints.interface = setting.interface ∧
    LastBulk setting true endpoints.bulkIn ∧ LastBulk setting false endpoints.bulkOut

theorem find?_eq_none_iff : Endpoints.find? device = none ↔ ¬HasBootLoader device := by
  rw [HasBootLoader, ← isSome_find?_iff, Option.not_isSome_iff_eq_none]

theorem isBootLoader_of_find? {endpoints : Endpoints}
    (h : Endpoints.find? device = some endpoints) : IsBootLoader device endpoints :=
  (discovers device).first endpoints h

/-! ### Either of them -/

/-- Whether a device can be rebooted: one of its settings is of the boot loader, or of a reset
interface. -/
def HasRoute (device : Device) : Prop :=
  ∃ configuration ∈ device.configurations, ∃ setting ∈ configuration,
    Listens setting ∨ Resets setting

theorem hasRoute_iff : HasRoute device ↔ (Interfaces.ofDevice device).any = true := by
  simp only [HasRoute, Interfaces.ofDevice, Interfaces.any, Bool.or_eq_true, isSome_find?_iff,
    isSome_resetInterface?_iff_hasReset, HasReset, ← exists_or, ← and_or_left]

end PicoLoader.Reboot
