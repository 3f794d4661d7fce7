import PicoLoader.Proofs.Memory.Merging
import PicoLoader.Proofs.Memory.Rounding
import PicoLoader.Proofs.Plan.Coverage

/-!
# What a plan erases

The spans that a plan erases are sectors, merged. This file says which: a block is rounded outward
to the sectors that it touches (`covers_sectors_iff`), so an address is erased if and only if its
sector is touched by a segment with a target in flash (`exists_mem_erase_iff`). Merging never cuts a
sector in two: one span holds all of it (`exists_mem_erase_sector`).

None of the sums overflows. A segment of flash ends at least one sector before the end of the
address space, and `PicoLoader.Plan.flashLimit` is what placing asks for.
-/

namespace PicoLoader.Plan

open Memory

/-! ### The sectors of a block -/

section Sectors

variable {block : Block} {x : Nat}

theorem toNat_start_sectors (block : Block) :
    (sectors block).start.toNat = 4096 * (block.addr.toNat / 4096) :=
  toNat_alignDown_sectorSize block.addr

theorem toNat_stop_sectors (hstop : block.stop ≤ flashLimit) :
    (sectors block).stop.toNat = 4096 * ((block.stop + 4095) / 4096) := by
  have hlimit : flashLimit + 4096 < UInt32.size := by decide
  have hsum : (block.addr + UInt32.ofNat block.size).toNat = block.stop := by
    rw [UInt32.toNat_add, UInt32.toNat_ofNat', Nat.add_mod_mod]
    exact Nat.mod_eq_of_lt (show block.stop < UInt32.size by omega)
  rw [sectors, toNat_alignUp_sectorSize (by omega), hsum]

/-- A block with bytes has a sector. -/
theorem start_lt_stop_sectors (hstop : block.stop ≤ flashLimit) (hsize : 0 < block.size) :
    (sectors block).start.toNat < (sectors block).stop.toNat := by
  rw [toNat_start_sectors, toNat_stop_sectors hstop, Block.stop]
  omega

/-- **The sectors of a block are those that it touches.** -/
theorem covers_sectors_iff (hstop : block.stop ≤ flashLimit) (hsize : 0 < block.size) :
    (sectors block).Covers x ↔ block.Touches 4096 x := by
  have hlast : block.addr.toNat + block.size = block.stop := rfl
  rw [Span.Covers, toNat_start_sectors, toNat_stop_sectors hstop]
  constructor
  · rintro ⟨hlow, hhigh⟩
    -- The first address of the block if it lies in the sector, else the first of the sector.
    rcases Nat.eq_or_lt_of_le (show block.addr.toNat / 4096 ≤ x / 4096 by omega) with heq | hlt
    · exact ⟨block.addr.toNat, ⟨Nat.le_refl _, by omega⟩, heq⟩
    · exact ⟨4096 * (x / 4096), ⟨by omega, by omega⟩, by omega⟩
  · rintro ⟨y, ⟨hlow, hhigh⟩, hsector⟩
    omega

end Sectors

/-! ### The sectors of an image -/

/-- Whether some segment, put at its target, reaches into the unit of `unit` addresses that `x` lies
in. -/
def Touched (image : Elf.Image) (target? : Elf.ProgramHeader → Option Nat) (unit x : Nat) : Prop :=
  ∃ segment ∈ image.segments, ∃ y, Covers target? segment y ∧ y / unit = x / unit

variable {image : Elf.Image} {layout : Layout} {allowFlash : Bool} {plan : Plan}
  {target? : Elf.ProgramHeader → Option Nat} {unit x : Nat}

/-- A unit is touched as a whole. -/
theorem Touched.congr (h : Touched image target? unit x) {y : Nat} (hy : y / unit = x / unit) :
    Touched image target? unit y := by
  obtain ⟨segment, hmem, z, hcovers, hunit⟩ := h
  exact ⟨segment, hmem, z, hcovers, hunit.trans hy.symm⟩

/-- **Segments and their blocks touch the same units.** -/
theorem exists_touches_blocks_iff (hsound : SoundTargets image target?) :
    (∃ block ∈ blocks image target?, block.Touches unit x) ↔ Touched image target? unit x := by
  constructor
  · rintro ⟨block, hblock, y, hy, hunit⟩
    obtain ⟨segment, hmem, hcovers⟩ := (exists_covers_blocks_iff hsound).mp ⟨block, hblock, hy⟩
    exact ⟨segment, hmem, y, hcovers, hunit⟩
  · rintro ⟨segment, hmem, y, hcovers, hunit⟩
    obtain ⟨block, hblock, hy⟩ := (exists_covers_blocks_iff hsound).mpr ⟨segment, hmem, hcovers⟩
    exact ⟨block, hblock, y, hy, hunit⟩

/-- A block for flash has bytes, and ends a sector before the end of the address space. -/
theorem bounds_of_mem_flash (h : build image layout allowFlash = .ok plan) {block : Block}
    (hblock : block ∈ blocks image (flashTarget? layout allowFlash)) :
    block.stop ≤ flashLimit ∧ 0 < block.size := by
  obtain ⟨segment, hmem, target, htarget, rfl⟩ := exists_of_mem_blocks hblock
  obtain ⟨hpos, hsize, hfile⟩ := soundTargets_flash h segment hmem target htarget
  exact ⟨stop_blockAt hsize hfile ▸ add_le_flashLimit h hmem htarget,
    size_blockAt hfile ▸ hpos⟩

/-- **What is erased**: the sectors that segments of flash touch, and nothing else. -/
theorem exists_mem_erase_iff (h : build image layout allowFlash = .ok plan) :
    (∃ span ∈ plan.erase, span.Covers x) ↔
      Touched image (flashTarget? layout allowFlash) 4096 x := by
  rw [erase_of_build h, Span.exists_mem_merge_covers_iff,
    ← exists_touches_blocks_iff (soundTargets_flash h)]
  constructor
  · rintro ⟨span, hspan, hx⟩
    obtain ⟨block, hblock, rfl⟩ := List.mem_map.mp hspan
    obtain ⟨hstop, hsize⟩ := bounds_of_mem_flash h hblock
    exact ⟨block, hblock, (covers_sectors_iff hstop hsize).mp hx⟩
  · rintro ⟨block, hblock, hx⟩
    obtain ⟨hstop, hsize⟩ := bounds_of_mem_flash h hblock
    exact ⟨sectors block, List.mem_map_of_mem hblock, (covers_sectors_iff hstop hsize).mpr hx⟩

/-- **A sector is erased as a whole**, with one span. -/
theorem exists_mem_erase_sector (h : build image layout allowFlash = .ok plan)
    (hx : Touched image (flashTarget? layout allowFlash) 4096 x) :
    ∃ span ∈ plan.erase, ∀ y, y / 4096 = x / 4096 → span.Covers y := by
  obtain ⟨block, hblock, z, hz, hsector⟩ :=
    (exists_touches_blocks_iff (soundTargets_flash h)).mpr hx
  obtain ⟨hstop, hsize⟩ := bounds_of_mem_flash h hblock
  obtain ⟨span, hspan, hlow, hhigh⟩ := Span.exists_mem_merge
    (List.mem_map_of_mem (f := sectors) hblock)
  refine ⟨span, erase_of_build h ▸ hspan, ?_⟩
  intro y hy
  have hcovers : (sectors block).Covers y :=
    (covers_sectors_iff hstop hsize).mpr ⟨z, hz, hsector.trans hy.symm⟩
  exact ⟨Nat.le_trans hlow hcovers.1, Nat.lt_of_lt_of_le hcovers.2 hhigh⟩

/-- No span to erase is empty. -/
theorem start_lt_stop_of_mem_erase (h : build image layout allowFlash = .ok plan) {span : Span}
    (hspan : span ∈ plan.erase) : span.start.toNat < span.stop.toNat := by
  rw [erase_of_build h] at hspan
  refine Span.start_lt_stop_of_mem_merge ?_ hspan
  intro s hs
  obtain ⟨block, hblock, rfl⟩ := List.mem_map.mp hs
  obtain ⟨hstop, hsize⟩ := bounds_of_mem_flash h hblock
  exact start_lt_stop_sectors hstop hsize

end PicoLoader.Plan
