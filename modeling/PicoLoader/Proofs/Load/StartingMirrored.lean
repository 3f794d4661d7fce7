import PicoLoader.Proofs.Load.StartingSkipped

/-!
# Starting a program that was mirrored

A load that may not write flash asks twice where something of flash goes in SRAM: once for a
segment, when the plan is made, and once for the entry point, when the image is to be started. The
first time all of the segment has to fit, the second time one instruction. If the entry point and
its instruction lie in a segment that was mirrored, the two answers belong together: the image is
started as far into the copy as the entry point is into the segment
(`startAddress_of_mirrors`). Two facts carry this. The copy keeps distances, so what fits with the
segment around it fits alone; and SRAM is not longer than flash, so that a segment with a copy lies
in flash as a whole, and its entry point is taken for one in flash (`flashAt_of_mirrors`).

What the load has put there is the byte that the segment has for the entry point, unless a later
block for RAM covers it (`cell_of_mirrors`). This is said of every load that succeeds, whether or
not it starts the image, and whatever it has forgiven on the way (`play_of_result_ok`).
-/

namespace PicoLoader

open Memory

namespace Plan

variable {image : Elf.Image} {layout : Layout} {chip : Chip} {plan : Plan}
  {segment : Elf.ProgramHeader} {addr copy : UInt32}

/-- **Whatever is started by a load into RAM is in SRAM.** -/
theorem sramAt_of_startAddress (h : plan.startAddress layout false = .ok addr) :
    layout.SramAt addr.toNat := by
  by_cases hzero : plan.entry = 0
  · rw [startAddress, if_pos hzero] at h
    cases h
  by_cases hflash : layout.FlashAt plan.entry.toNat
  · obtain ⟨hplace, hfits⟩ := (startAddress_of_flashAt hflash).mp h
    rw [copyPlace] at hplace
    exact ⟨hplace ▸ Nat.le_add_right _ _, by omega⟩
  · obtain ⟨hsram, rfl⟩ := (startAddress_of_not_flashAt hzero hflash).mp h
    exact hsram

/-! ### A segment with a copy -/

/-- Whether a load into RAM mirrors a segment, with a copy that begins here. -/
def Mirrors (image : Elf.Image) (layout : Layout) (segment : Elf.ProgramHeader) (copy : UInt32) :
    Prop :=
  place image layout false segment =
    .ok (some (.mirrored segment.home ⟨copy, image.slice segment⟩))

/-- **What is mirrored** is a segment of flash, and all of its copy fits. -/
theorem mirrors_spec (h : Mirrors image layout segment copy) :
    segment.Loaded ∧ layout.FlashAt segment.home.toNat ∧
      copy.toNat = copyPlace segment.home.toNat ∧
      copy.toNat + segment.fileSize.toNat ≤ layout.sramEnd.toNat := by
  rcases place_cases h with ⟨-, hnone⟩ | ⟨hbytes, -, -, placed, hplaced, heq⟩
  · cases hnone
  obtain rfl := Option.some.inj heq
  rcases placeBytes_cases hplaced with ⟨-, hram, -⟩ | ⟨hflash, -, hmirror⟩ | ⟨-, hnot, -⟩
  · cases hram
  · rcases hmirror with ⟨copy', hcopy, hmirrored⟩ | ⟨-, hskipped⟩
    · cases hmirrored
      obtain ⟨-, hplace, hfits⟩ := Layout.mirror?_eq_some_iff.mp hcopy
      exact ⟨hbytes, hflash, hplace, hfits⟩
    · cases hskipped
  · cases hnot

/-- Its target in RAM is the copy. -/
theorem ramTarget?_of_mirrors (h : Mirrors image layout segment copy) :
    ramTarget? layout false segment = some copy.toNat := by
  obtain ⟨hbytes, hflash, hcopy, hfits⟩ := mirrors_spec h
  exact ramTarget?_eq_some_iff.mpr ⟨hbytes, Or.inr ⟨hflash, rfl, hcopy ▸ hfits, hcopy⟩⟩

/-- The block of a segment at an address. -/
theorem blockAt_toNat (image : Elf.Image) (segment : Elf.ProgramHeader) (addr : UInt32) :
    image.blockAt segment addr.toNat = ⟨addr, image.slice segment⟩ :=
  congrArg (Block.mk · _) UInt32.ofNat_toNat

/-- So the copy is one of the blocks for RAM. -/
theorem mem_ram_of_mirrors (hbuild : build image layout false = .ok plan)
    (hmem : segment ∈ image.segments) (h : Mirrors image layout segment copy) :
    ⟨copy, image.slice segment⟩ ∈ plan.ram := by
  rw [ram_of_build hbuild, ← blockAt_toNat]
  exact blockAt_mem_blocks hmem (ramTarget?_of_mirrors h)

/-- The SRAM of both chips is not longer than their flash. -/
theorem sramEnd_ofChip_le (chip : Chip) : (Layout.ofChip chip).sramEnd.toNat - sramStart.toNat ≤
    (Layout.ofChip chip).flashEnd.toNat - flashStart.toNat := by
  cases chip <;> decide

/-- **A segment with a copy lies in flash as a whole.** -/
theorem flashAt_of_mirrors (h : Mirrors image (.ofChip chip) segment copy)
    (hle : segment.home.toNat ≤ addr.toNat)
    (hlt : addr.toNat < segment.home.toNat + segment.fileSize.toNat) :
    (Layout.ofChip chip).FlashAt addr.toNat := by
  obtain ⟨-, hflash, hcopy, hfits⟩ := mirrors_spec h
  have hfirst := hflash.1
  have hsram := sramEnd_ofChip_le chip
  rw [copyPlace] at hcopy
  constructor <;> omega

/-- **Where the image is started**: as far into the copy as the entry point is into the segment. -/
theorem startAddress_of_mirrors (h : Mirrors image (.ofChip chip) segment copy)
    (hle : segment.home.toNat ≤ plan.entry.toNat)
    (hfits : plan.entry.toNat + 4 ≤ segment.home.toNat + segment.fileSize.toNat) :
    plan.startAddress (.ofChip chip) false = .ok (copy + (plan.entry - segment.home)) ∧
    (copy + (plan.entry - segment.home)).toNat =
      copy.toNat + (plan.entry.toNat - segment.home.toNat) := by
  obtain ⟨-, hflash, hcopy, hend⟩ := mirrors_spec h
  have hfirst := hflash.1
  have hbound : (Layout.ofChip chip).sramEnd.toNat < 2 ^ 32 := UInt32.toNat_lt _
  have htoNat : (copy + (plan.entry - segment.home)).toNat =
      copy.toNat + (plan.entry.toNat - segment.home.toNat) := by
    rw [UInt32.toNat_add, UInt32.toNat_sub_of_le _ _ (UInt32.le_iff_toNat_le.mpr hle)]
    exact Nat.mod_eq_of_lt (by omega)
  refine ⟨?_, htoNat⟩
  rw [startAddress_of_flashAt (flashAt_of_mirrors h hle (by omega)), htoNat, hcopy,
    copyPlace, copyPlace]
  rw [hcopy, copyPlace] at hend
  constructor <;> omega

end Plan

namespace Load

open Plan

variable {image : Elf.Image} {layout : Layout} {chip : Chip} {plan : Plan}
  {segment : Elf.ProgramHeader} {copy : UInt32}

/-! ### What a load that succeeds has put there -/

/-- **A load that succeeds leaves what a load leaves on which nothing fails**, whether or not it
starts the image. -/
theorem play_of_result_ok {allowFlash start : Bool} {failures : Nat → Option Failure}
    {room : Option Nat} (hbuild : build image layout allowFlash = .ok plan)
    (hok : (outcome plan layout allowFlash start failures room).result = .ok ())
    (device : Device) : device.play (outcome plan layout allowFlash start failures room).calls =
      device.play (ideal plan layout allowFlash false).calls := by
  have hideal : (ideal plan layout allowFlash false).calls = plan.schedule.map Prod.fst :=
    (calls_of_result_ok _ _ _ _ (ideal_of_build hbuild).1).trans
      (congrArg (List.map Prod.fst) (List.append_nil plan.schedule))
  rw [calls_of_result_ok _ _ _ _ hok, Plan.requests, List.map_append, Device.play_append, hideal]
  rcases starting_cases with ⟨addr, -, -, heq⟩ | heq
  · rw [heq]
    rfl
  · rw [heq]
    rfl

/-- **What is at an address of the copy**, if no later block covers it: the byte that the segment
has there. -/
theorem cell_of_mirrors {start : Bool} {failures : Nat → Option Failure} {room : Option Nat}
    (hbuild : build image layout false = .ok plan) (hmem : segment ∈ image.segments)
    (h : Mirrors image layout segment copy) {earlier later : List Block}
    (hsplit : plan.ram = earlier ++ ⟨copy, image.slice segment⟩ :: later) {i : Nat}
    (hi : i < segment.fileSize.toNat)
    (hlater : ∀ block ∈ later, ¬block.Covers (copy.toNat + i))
    (hok : (outcome plan layout false start failures room).result = .ok ())
    (memory : Nat → UInt8) :
    image.bytes[segment.offset.toNat + i]? =
      some (((Device.withMemory memory).play
        (outcome plan layout false start failures room).calls).cell (copy.toNat + i)) := by
  have htarget := ramTarget?_of_mirrors h
  obtain ⟨-, hsize, hfile⟩ := soundTargets_ram hbuild segment hmem _ htarget
  have hx : copy.toNat ≤ copy.toNat + i ∧
      copy.toNat + i < copy.toNat + segment.fileSize.toNat := by omega
  have hcovers : (⟨copy, image.slice segment⟩ : Block).Covers (copy.toNat + i) :=
    blockAt_toNat image segment copy ▸ (covers_blockAt_iff hsize hfile).mpr hx
  have hbyte : lastByte? plan.ram (copy.toNat + i) = image.bytes[segment.offset.toNat + i]? := by
    rw [hsplit, lastByte?_of_last hcovers hlater, ← blockAt_toNat, byte?_blockAt hsize hx,
      Nat.add_sub_cancel_left]
  have hlt : segment.offset.toNat + i < image.bytes.length := by omega
  have hcell := memoryAfter_ram hbuild memory (copy.toNat + i)
  rw [← ram_of_build hbuild, hbyte, List.getElem?_eq_getElem hlt, Option.getD_some] at hcell
  rw [play_of_result_ok hbuild hok, List.getElem?_eq_getElem hlt]
  exact congrArg some hcell.symm

/-! ### The statement -/

/-- **What becomes of an entry point in a segment that is mirrored.** -/
structure MovesAlong (image : Elf.Image) (layout : Layout) (plan : Plan)
    (segment : Elf.ProgramHeader) (copy : UInt32) : Prop where
  /-- The copy is written to RAM. -/
  mem_ram : ⟨copy, image.slice segment⟩ ∈ plan.ram
  /-- The image is started as far into the copy as the entry point is into the segment, -/
  startAddress_eq : plan.startAddress layout false =
    .ok (copy + (image.header.entry - segment.home))
  /-- and the sum is an address. -/
  toNat_eq : (copy + (image.header.entry - segment.home)).toNat =
    copy.toNat + (image.header.entry.toNat - segment.home.toNat)
  /-- After every load that succeeds, the byte there is the one that the segment has for the entry
  point, if no block behind the copy covers it. -/
  cell_eq : ∀ earlier later, plan.ram = earlier ++ ⟨copy, image.slice segment⟩ :: later →
    (∀ block ∈ later,
      ¬block.Covers (copy + (image.header.entry - segment.home)).toNat) →
    ∀ (start : Bool) (failures : Nat → Option Failure) (room : Option Nat)
      (memory : Nat → UInt8),
      (outcome plan layout false start failures room).result = .ok () →
      image.bytes[segment.offset.toNat +
          (image.header.entry.toNat - segment.home.toNat)]? =
        some (((Device.withMemory memory).play
          (outcome plan layout false start failures room).calls).cell
            (copy + (image.header.entry - segment.home)).toNat)

/-- **Where a plan for RAM is started.** -/
structure StartsInSram (plan : Plan) : Prop where
  /-- Whatever the layout, it is started in SRAM or not at all. -/
  sramAt_of_ok : ∀ (layout : Layout) (addr : UInt32),
    plan.startAddress layout false = .ok addr → layout.SramAt addr.toNat
  /-- If a segment is mirrored that has the entry point and the three bytes behind it, the image is
  started in the copy. -/
  movesAlong : ∀ (image : Elf.Image) (chip : Chip) (segment : Elf.ProgramHeader) (copy : UInt32),
    build image (.ofChip chip) false = .ok plan → segment ∈ image.segments →
    Mirrors image (.ofChip chip) segment copy →
    segment.home.toNat ≤ image.header.entry.toNat →
    image.header.entry.toNat + 4 ≤ segment.home.toNat + segment.fileSize.toNat →
    MovesAlong image (.ofChip chip) plan segment copy

/-- **The entry point moves with its segment.** -/
theorem startsInSram (plan : Plan) : StartsInSram plan where
  sramAt_of_ok _ _ h := sramAt_of_startAddress h
  movesAlong image chip segment copy hbuild hmem h hle hfits := by
    have hentry : plan.entry = image.header.entry := entry_of_build hbuild
    obtain ⟨hstart, htoNat⟩ := startAddress_of_mirrors h (hentry ▸ hle) (hentry ▸ hfits)
    rw [hentry] at hstart htoNat
    refine ⟨mem_ram_of_mirrors hbuild hmem h, hstart, htoNat, ?_⟩
    intro earlier later hsplit hlater start failures room memory hok
    rw [htoNat] at hlater ⊢
    exact cell_of_mirrors hbuild hmem h hsplit (by omega) hlater hok memory

/-- A file whose entry point is the fourth byte of a segment of flash. In SRAM, the segment before
reaches to that byte of the copy, and the segment behind begins after it. -/
def midway : Elf.Image where
  header := ⟨2, 40, 1, 0x10000103, 52, 0, 0, 32, 3, 0⟩
  segments := [⟨1, 8, 0x20000100, 0x20000100, 4, 4, 6, 4⟩,
    ⟨1, 0, 0x10000100, 0x10000100, 8, 8, 5, 4⟩, ⟨1, 12, 0x20000104, 0x20000104, 2, 2, 6, 4⟩]
  bytes := [0xA0, 0xA1, 0xA2, 0xA3, 0xA4, 0xA5, 0xA6, 0xA7, 0xB0, 0xB1, 0xB2, 0xB3, 0xC0, 0xC1]

/-- This image is started at the fourth byte of the copy, and finds it there. -/
theorem startsInSram_midway :
    ∃ plan, build midway (.ofChip .rp2350) false = .ok plan ∧ StartsInSram plan ∧
      plan.startAddress (.ofChip .rp2350) false = .ok 0x20000103 ∧
      MovesAlong midway (.ofChip .rp2350) plan ⟨1, 0, 0x10000100, 0x10000100, 8, 8, 5, 4⟩
        0x20000100 ∧
      ∀ memory : Nat → UInt8, ((Device.withMemory memory).play
        (outcome plan (.ofChip .rp2350) false true (fun _ => none) none).calls).cell
          0x20000103 = 0xA3 := by
  have hbuild : build midway (.ofChip .rp2350) false = .ok
      ⟨[⟨0x20000100, [0xB0, 0xB1, 0xB2, 0xB3]⟩,
        ⟨0x20000100, [0xA0, 0xA1, 0xA2, 0xA3, 0xA4, 0xA5, 0xA6, 0xA7]⟩,
        ⟨0x20000104, [0xC0, 0xC1]⟩], .empty, [], true, false, 0x10000103⟩ := rfl
  have hmoves := (startsInSram _).movesAlong midway .rp2350
    ⟨1, 0, 0x10000100, 0x10000100, 8, 8, 5, 4⟩ 0x20000100 hbuild (by decide) rfl (by decide)
    (by decide)
  refine ⟨_, hbuild, startsInSram _, hmoves.startAddress_eq, hmoves, fun memory => ?_⟩
  have hcell := hmoves.cell_eq [⟨0x20000100, [0xB0, 0xB1, 0xB2, 0xB3]⟩]
    [⟨0x20000104, [0xC0, 0xC1]⟩] rfl (by decide) true (fun _ => none) none memory
    (by decide +kernel)
  exact (Option.some.inj hcell).symm

end Load

end PicoLoader
