import PicoLoader.Proofs.Load.Device
import PicoLoader.Proofs.Load.Loadable

/-!
# What a load leaves in RAM

A load that may not write flash puts every segment that it can into RAM, at its own address or, for
a segment of flash, at the copy of that address in SRAM (`PicoLoader.Plan.ramTarget?`). This file
says what such a load leaves behind, from the program headers and the bytes of the file alone: the
byte of the last segment at every address that one covers, and the old byte at every other. The load
touches no flash on the way, and each of its writes is small and ends inside the address space.
`PicoLoader.Load.FillsRam` puts the statements together.
-/

namespace PicoLoader.Load

open Memory Plan

variable {image : Elf.Image} {layout : Layout} {plan : Plan}

/-- Blocks for RAM end inside the address space. -/
theorem stop_le_of_mem_ram {allowFlash : Bool} (h : build image layout allowFlash = .ok plan) :
    ∀ block ∈ plan.ram, block.stop ≤ UInt32.size :=
  fun block hblock => Nat.le_succ_of_le ((loadable_of_build h).stop_le block hblock)

/-- A plan that may not write flash has no pages. -/
theorem pages_of_build_ram (h : build image layout false = .ok plan) : plan.pages = .empty := by
  have hnone : blocks image (flashTarget? layout false) = [] := by
    rw [blocks, List.filterMap_eq_nil_iff]
    intro segment _
    simp [flashTarget?]
  rw [pages_of_build h, hnone]
  rfl

/-- So its load neither leaves flash nor erases. -/
theorem writesFlash_of_build_ram (h : build image layout false = .ok plan) :
    plan.writesFlash = false := by
  rw [writesFlash, pages_of_build_ram h]
  rfl

/-- **The calls of a load that may not write flash**: after taking the interface over, writes of the
chunks of the blocks for RAM, and nothing else. -/
theorem calls_of_build_ram (h : build image layout false = .ok plan) :
    (ideal plan layout false false).calls =
      .resetInterface :: (plan.ram.flatMap Block.chunks).map writeOf := by
  rw [(ideal_of_build h).2, flatMap_calls_loading, writesFlash_of_build_ram h,
    if_neg Bool.false_ne_true, List.nil_append, pages_of_build_ram h, PageMap.empty, List.map_nil,
    List.append_nil]

/-- **What is left of a load into RAM.** -/
structure FillsRam (image : Elf.Image) (layout : Layout) (plan : Plan) : Prop where
  result_ok : (ideal plan layout false false).result = .ok ()
  /-- Neither is flash left nor anything erased, and every write carries between 1 and 1024 bytes
  and ends inside the address space. -/
  call_cases : ∀ call ∈ (ideal plan layout false false).calls, call = .resetInterface ∨
    ∃ addr bytes, call = .write addr bytes ∧ 1 ≤ bytes.length ∧ bytes.length ≤ 1024 ∧
      addr.toNat + bytes.length ≤ 0xFFFFFFFF
  /-- An address that segments cover has the byte of the last of them. -/
  memoryAfter_of_covers : ∀ (memory : Nat → UInt8) (segment : Elf.ProgramHeader) (target x : Nat),
    ramTarget? layout false segment = some target →
    LastCovers (ramTarget? layout false) image.segments segment x →
    image.bytes[segment.offset.toNat + (x - target)]? =
      some (memoryAfter plan layout false memory x)
  /-- Any other address keeps its byte. -/
  memoryAfter_of_not_covers : ∀ (memory : Nat → UInt8) (x : Nat),
    (∀ segment ∈ image.segments, ¬Covers (ramTarget? layout false) segment x) →
    memoryAfter plan layout false memory x = memory x

/-- The memory after a load into RAM, by the blocks. -/
theorem memoryAfter_ram (h : build image layout false = .ok plan) (memory : Nat → UInt8) (x : Nat) :
    memoryAfter plan layout false memory x =
      (lastByte? (blocks image (ramTarget? layout false)) x).getD (memory x) := by
  rw [memoryAfter, calls_of_build_ram h, Device.play_cons, ← ram_of_build h,
    ← Block.lastByte?_flatMap_chunks (stop_le_of_mem_ram h)]
  exact Device.cell_play_writes (Device.withMemory memory) rfl

/-- **A load into RAM** leaves what the segments say. -/
theorem fillsRam_of_build (h : build image layout false = .ok plan) :
    FillsRam image layout plan := by
  have hsound := soundTargets_ram h
  refine ⟨(ideal_of_build h).1, ?_, ?_, ?_⟩
  · intro call hcall
    rw [calls_of_build_ram h] at hcall
    rcases List.mem_cons.mp hcall with rfl | hcall
    · exact Or.inl rfl
    · obtain ⟨chunk, hchunk, rfl⟩ := List.mem_map.mp hcall
      obtain ⟨block, hblock, hchunk⟩ := List.mem_flatMap.mp hchunk
      obtain ⟨i, hi, rfl⟩ := List.mem_map.mp hchunk
      have hi := List.mem_range.mp hi
      have hstop := (loadable_of_build h).stop_le block hblock
      have hchunk := Block.stop_chunk_le (stop_le_of_mem_ram h block hblock) hi
      exact Or.inr ⟨_, _, rfl, Block.size_chunk_pos hi, Block.size_chunk_le,
        Nat.le_trans hchunk hstop⟩
  · intro memory segment target x htarget hlast
    obtain ⟨byte, hbyte, hfile⟩ := exists_lastByte?_blocks hsound hlast htarget
    rw [hfile, memoryAfter_ram h, hbyte, Option.getD_some]
  · intro memory x hnone
    rw [memoryAfter_ram h, lastByte?_blocks_eq_none hsound hnone, Option.getD_none]

/-- A file with two segments of RAM that share two bytes, and a segment of flash. The first and the
last are used at other addresses than they are stored at, the second has one address only. -/
def overlapping : Elf.Image where
  header := ⟨2, 40, 1, 0x10000001, 52, 0, 0, 32, 3, 0⟩
  segments := [⟨1, 1, 0x20003000, 0x20000100, 4, 4, 6, 4⟩, ⟨1, 5, 0x20000102, 0, 3, 3, 6, 4⟩,
    ⟨1, 0, 0x20003100, 0x10000000, 2, 2, 6, 4⟩]
  bytes := [0xA0, 0xA1, 0xA2, 0xA3, 0xA4, 0xB1, 0xB2, 0xB3]

/-- A load of this file leaves the bytes of the first segment where it is stored, those of the
second where it covers the first, and those of the third in its copy. Where the first and the third
are used, the old bytes are left. -/
theorem fillsRam_overlapping :
    ∃ plan, build overlapping .rp2040 false = .ok plan ∧
      plan.ram = [⟨0x20000100, [0xA1, 0xA2, 0xA3, 0xA4]⟩, ⟨0x20000102, [0xB1, 0xB2, 0xB3]⟩,
        ⟨0x20000000, [0xA0, 0xA1]⟩] ∧
      plan.pages = .empty ∧ plan.erase = [] ∧
      FillsRam overlapping .rp2040 plan ∧
      ∀ memory : Nat → UInt8,
        [0x20000100, 0x20000101, 0x20000102, 0x20000103, 0x20000104, 0x20000000, 0x20000001].map
            (memoryAfter plan .rp2040 false memory) = [0xA1, 0xA2, 0xB1, 0xB2, 0xB3, 0xA0, 0xA1] ∧
          memoryAfter plan .rp2040 false memory 0x20003000 = memory 0x20003000 ∧
          memoryAfter plan .rp2040 false memory 0x20003100 = memory 0x20003100 := by
  have hbuild : build overlapping .rp2040 false = .ok
      ⟨[⟨0x20000100, [0xA1, 0xA2, 0xA3, 0xA4]⟩, ⟨0x20000102, [0xB1, 0xB2, 0xB3]⟩,
        ⟨0x20000000, [0xA0, 0xA1]⟩], .empty, [], true, false, 0x10000001⟩ := rfl
  refine ⟨_, hbuild, rfl, rfl, rfl, fillsRam_of_build hbuild, fun memory => ?_⟩
  simp only [memoryAfter, calls_of_build_ram hbuild]
  exact ⟨rfl, rfl, rfl⟩

end PicoLoader.Load
