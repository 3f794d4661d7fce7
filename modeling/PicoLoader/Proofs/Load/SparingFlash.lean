import PicoLoader.Proofs.Load.FailStop
import PicoLoader.Proofs.Load.RamLoad

/-!
# When a load into RAM spares flash

A load that may not write flash erases nothing, and a segment that begins in flash goes to SRAM or
is left out. But a segment is told from another by its *first* address only. A segment that begins
below flash counts as one of RAM, however long it is, and its bytes go to its own addresses: if it
is long enough, to addresses of flash.

This file says exactly when that happens. `PicoLoader.Load.Call.SparesFlash` is what is to be hoped
of a call, and `PicoLoader.Elf.ProgramHeader.EntersFlash` is the kind of segment that spoils it.
Where no segment enters flash, every call of every load spares flash, whatever fails; where one
does, already the load on which nothing fails writes the first address of flash
(`sparesFlash_iff`). That there are such images, and that a plan is made of them, is
`not_sparesFlash_crossing`.
-/

namespace PicoLoader

open Memory

/-- Whether a segment with bytes begins below flash and ends behind the first address of flash. -/
def Elf.ProgramHeader.EntersFlash (segment : Elf.ProgramHeader) : Prop :=
  segment.Loaded ∧ segment.home.toNat < flashStart.toNat ∧
    flashStart.toNat < segment.home.toNat + segment.fileSize.toNat

namespace Load

open Plan

/-- Whether a call may change the byte at an address. -/
def Call.Reaches (call : Call) (x : Nat) : Prop :=
  match call with
  | erase addr size => addr.toNat ≤ x ∧ x < addr.toNat + size.toNat
  | write addr bytes => addr.toNat ≤ x ∧ x < addr.toNat + bytes.length
  | _ => False

/-- Whether a call leaves flash alone: it erases nothing and reaches no address of flash. -/
structure Call.SparesFlash (layout : Layout) (call : Call) : Prop where
  not_erase : ∀ addr size, call ≠ .erase addr size
  not_reaches : ∀ x, layout.FlashAt x → ¬call.Reaches x

variable {image : Elf.Image} {layout : Layout} {chip : Chip} {plan : Plan} {x : Nat}

/-! ### What the calls reach -/

/-- The chunks of some blocks cover what the blocks cover. -/
theorem exists_covers_chunks_iff {blocks : List Block}
    (hfits : ∀ block ∈ blocks, block.stop ≤ UInt32.size) :
    (∃ chunk ∈ blocks.flatMap Block.chunks, chunk.Covers x) ↔
      ∃ block ∈ blocks, block.Covers x := by
  have hnone : (∀ chunk ∈ blocks.flatMap Block.chunks, ¬chunk.Covers x) ↔
      ∀ block ∈ blocks, ¬block.Covers x := by
    rw [← lastByte?_eq_none_iff, ← lastByte?_eq_none_iff, Block.lastByte?_flatMap_chunks hfits]
  exact not_iff_not.mp (by simpa only [not_exists, not_and] using hnone)

/-- **The calls of a load that may not write flash**, whatever fails: taking the interface over,
writes of chunks of the blocks for RAM, and starting the image. -/
theorem call_cases_of_build_ram (h : build image layout false = .ok plan) {start : Bool}
    {failures : Nat → Option Failure} {room : Option Nat} {call : Call}
    (hcall : call ∈ (outcome plan layout false start failures room).calls) :
    call = .resetInterface ∨ (∃ chunk ∈ plan.ram.flatMap Block.chunks, call = writeOf chunk) ∨
      ∃ addr, call = .exec addr := by
  have hflash : plan.writesFlash ≠ true := by simp [writesFlash_of_build_ram h]
  obtain ⟨i, hi⟩ := List.mem_iff_getElem?.mp hcall
  obtain ⟨severity, -, hrequest, -⟩ := exists_request hi
  rcases List.mem_append.mp (List.mem_of_getElem? hrequest) with hrequest | hrequest
  · rcases mem_schedule_iff.mp hrequest with
      heq | ⟨hwrites, -⟩ | ⟨hwrites, -⟩ | ⟨block, hblock, chunk, hchunk, heq⟩ | ⟨page, hpage, -⟩
    · exact Or.inl (congrArg Prod.fst heq)
    · exact absurd hwrites hflash
    · exact absurd hwrites hflash
    · exact Or.inr (Or.inl
        ⟨chunk, List.mem_flatMap.mpr ⟨block, hblock, hchunk⟩, congrArg Prod.fst heq⟩)
    · rw [pages_of_build_ram h] at hpage
      cases hpage
  · rcases starting_cases with ⟨addr, -, -, heq⟩ | heq
    · rw [heq] at hrequest
      exact Or.inr (Or.inr ⟨addr, congrArg Prod.fst (List.mem_singleton.mp hrequest)⟩)
    · rw [heq] at hrequest
      cases hrequest

/-- **What such a load reaches**: an address that a call reaches is one that a segment covers, at
its target in RAM. -/
theorem exists_covers_of_reaches (h : build image layout false = .ok plan) {start : Bool}
    {failures : Nat → Option Failure} {room : Option Nat} {call : Call}
    (hcall : call ∈ (outcome plan layout false start failures room).calls)
    (hreaches : call.Reaches x) :
    ∃ segment ∈ image.segments, Covers (ramTarget? layout false) segment x := by
  rcases call_cases_of_build_ram h hcall with rfl | ⟨chunk, hchunk, rfl⟩ | ⟨addr, rfl⟩
  · exact hreaches.elim
  · rw [← exists_covers_blocks_iff (soundTargets_ram h), ← ram_of_build h,
      ← exists_covers_chunks_iff (stop_le_of_mem_ram h)]
    exact ⟨chunk, hchunk, hreaches⟩
  · exact hreaches.elim

/-- And all of it is reached where nothing fails. -/
theorem exists_reaches_of_covers (h : build image layout false = .ok plan)
    (hcovers : ∃ segment ∈ image.segments, Covers (ramTarget? layout false) segment x) :
    ∃ call ∈ (ideal plan layout false false).calls, call.Reaches x := by
  rw [← exists_covers_blocks_iff (soundTargets_ram h), ← ram_of_build h,
    ← exists_covers_chunks_iff (stop_le_of_mem_ram h)] at hcovers
  obtain ⟨chunk, hchunk, hx⟩ := hcovers
  refine ⟨writeOf chunk, ?_, hx⟩
  rw [calls_of_build_ram h]
  exact List.mem_cons_of_mem _ (List.mem_map_of_mem hchunk)

/-! ### Which segments cover flash -/

variable {segment : Elf.ProgramHeader}

/-- The flash of both chips ends where SRAM begins, or before. -/
theorem flashEnd_ofChip_le (chip : Chip) :
    (Layout.ofChip chip).flashEnd.toNat ≤ sramStart.toNat := by
  cases chip <;> decide

theorem flashAt_flashStart (chip : Chip) : (Layout.ofChip chip).FlashAt flashStart.toNat := by
  cases chip <;> exact ⟨Nat.le_refl _, UInt32.lt_iff_toNat_lt.mp (by decide)⟩

/-- **A segment that covers flash**, from a target in RAM, is one that enters flash: a copy in SRAM
lies above flash. -/
theorem entersFlash_of_covers (hcovers : Covers (ramTarget? (.ofChip chip) false) segment x)
    (hx : (Layout.ofChip chip).FlashAt x) : segment.EntersFlash := by
  obtain ⟨target, htarget, hle, hlt⟩ := hcovers
  obtain ⟨hbytes, hplace⟩ := ramTarget?_eq_some_iff.mp htarget
  rcases hplace with ⟨hram, heq⟩ | ⟨-, -, -, heq⟩
  · rw [heq] at hle hlt
    have hbelow : segment.home.toNat < flashStart.toNat :=
      Nat.lt_of_not_le fun hge => hram ⟨hge, Nat.lt_of_le_of_lt hle hx.2⟩
    exact ⟨hbytes, hbelow, Nat.lt_of_le_of_lt hx.1 hlt⟩
  · have hend := flashEnd_ofChip_le chip
    have hx := hx.2
    rw [heq, copyPlace] at hle
    omega

/-- A segment that enters flash covers the first address of flash. -/
theorem covers_flashStart (h : segment.EntersFlash) :
    Covers (ramTarget? layout false) segment flashStart.toNat := by
  obtain ⟨hbytes, hbelow, hpast⟩ := h
  have hram : ¬layout.FlashAt segment.home.toNat :=
    fun hflash => absurd hflash.1 (Nat.not_le_of_lt hbelow)
  exact ⟨_, ramTarget?_eq_some_iff.mpr ⟨hbytes, Or.inl ⟨hram, rfl⟩⟩, Nat.le_of_lt hbelow, hpast⟩

/-! ### The statement -/

/-- **When a load into RAM spares flash**: every call of every load does, if and only if no segment
of the image enters flash. -/
theorem sparesFlash_iff (h : build image (.ofChip chip) false = .ok plan) :
    (∀ (start : Bool) (failures : Nat → Option Failure) (room : Option Nat),
      ∀ call ∈ (outcome plan (.ofChip chip) false start failures room).calls,
        call.SparesFlash (.ofChip chip)) ↔
    ∀ segment ∈ image.segments, ¬segment.EntersFlash := by
  constructor
  · intro hspares segment hmem henters
    obtain ⟨call, hcall, hreaches⟩ :=
      exists_reaches_of_covers h ⟨segment, hmem, covers_flashStart henters⟩
    exact (hspares false (fun _ => none) none call hcall).not_reaches _ (flashAt_flashStart chip)
      hreaches
  · intro hnone start failures room call hcall
    constructor
    · rintro addr size rfl
      rcases call_cases_of_build_ram h hcall with heq | ⟨chunk, -, heq⟩ | ⟨a, heq⟩ <;> cases heq
    · intro x hx hreaches
      obtain ⟨segment, hmem, hcovers⟩ := exists_covers_of_reaches h hcall hreaches
      exact hnone segment hmem (entersFlash_of_covers hcovers hx)

/-- A file with one segment that ends at the first address of flash. -/
def belowFlash : Elf.Image where
  header := ⟨2, 40, 1, 0x20000001, 52, 0, 0, 32, 1, 0⟩
  segments := [⟨1, 0, 0x0ffffffe, 0x0ffffffe, 2, 2, 6, 4⟩]
  bytes := [0xA0, 0xA1]

/-- No call of a load of this file reaches flash, because its segment does not enter flash. -/
theorem sparesFlash_belowFlash :
    ∃ plan, build belowFlash (.ofChip .rp2350) false = .ok plan ∧
      (∀ segment ∈ belowFlash.segments, ¬segment.EntersFlash) ∧
      ∀ (start : Bool) (failures : Nat → Option Failure) (room : Option Nat),
        ∀ call ∈ (outcome plan (.ofChip .rp2350) false start failures room).calls,
          call.SparesFlash (.ofChip .rp2350) := by
  have hbuild : build belowFlash (.ofChip .rp2350) false = .ok
      ⟨[⟨0x0ffffffe, [0xA0, 0xA1]⟩], .empty, [], false, false, 0x20000001⟩ := rfl
  have hnone : ∀ segment ∈ belowFlash.segments, ¬segment.EntersFlash := by
    intro segment hmem henters
    obtain rfl := List.mem_singleton.mp hmem
    exact absurd henters.2.2 (by decide)
  exact ⟨_, hbuild, hnone, (sparesFlash_iff hbuild).mpr hnone⟩

/-- A file with one segment that begins two bytes below flash and is four bytes long. -/
def crossingFile : List UInt8 :=
  [0x7f, 0x45, 0x4c, 0x46, 1, 1, 1] ++ List.replicate 9 0 ++
    [2, 0, 40, 0, 1, 0, 0, 0, 1, 0, 0, 0x20, 52, 0, 0, 0] ++ List.replicate 8 0 ++
    [52, 0, 32, 0, 1, 0] ++ List.replicate 6 0 ++
    [1, 0, 0, 0, 84, 0, 0, 0, 0xfe, 0xff, 0xff, 0x0f, 0xfe, 0xff, 0xff, 0x0f] ++
    [4, 0, 0, 0, 4, 0, 0, 0, 6, 0, 0, 0, 4, 0, 0, 0] ++ [0xA0, 0xA1, 0xA2, 0xA3]

/-- What is read from this file. -/
def crossing : Elf.Image where
  header := ⟨2, 40, 1, 0x20000001, 52, 0, 0, 32, 1, 0⟩
  segments := [⟨1, 84, 0x0ffffffe, 0x0ffffffe, 4, 4, 6, 4⟩]
  bytes := crossingFile

/-- The plan of this file for the smaller chip. -/
def crossingPlan : Plan :=
  ⟨[⟨0x0ffffffe, [0xA0, 0xA1, 0xA2, 0xA3]⟩], .empty, [], false, false, 0x20000001⟩

/-- **A load may write flash without leave**: a plan is made of this file, and its load stores two
bytes of the segment in flash, although flash may not be written. -/
theorem not_sparesFlash_crossing :
    ¬∀ (file : List UInt8) (image : Elf.Image) (chip : Chip) (plan : Plan),
      Elf.Image.ofBytes file = .ok image → build image (.ofChip chip) false = .ok plan →
      ∀ (start : Bool) (failures : Nat → Option Failure) (room : Option Nat),
        ∀ call ∈ (outcome plan (.ofChip chip) false start failures room).calls,
          call.SparesFlash (.ofChip chip) := by
  intro hspares
  have hread : Elf.Image.ofBytes crossingFile = .ok crossing := rfl
  have hbuild : build crossing (.ofChip .rp2040) false = .ok crossingPlan := rfl
  have hcall : .write 0x0ffffffe [0xA0, 0xA1, 0xA2, 0xA3] ∈
      (ideal crossingPlan (.ofChip .rp2040) false false).calls := by
    rw [calls_of_build_ram hbuild]
    decide
  have hspared :=
    hspares crossingFile crossing .rp2040 _ hread hbuild false (fun _ => none) none _ hcall
  exact hspared.not_reaches 0x10000000 ⟨by decide, by decide⟩ ⟨by decide, by decide⟩

end Load

end PicoLoader
