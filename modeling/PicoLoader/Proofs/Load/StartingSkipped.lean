import PicoLoader.Proofs.Load.SparingFlash

/-!
# Starting a program that was left out

A load that may not write flash leaves a segment of flash out if its copy does not fit into SRAM.
Whether the image can be started is decided apart from that: an entry point in flash moves to SRAM
if there is room for *one instruction* at the place where it goes. So the two decisions can differ.
A segment too long for SRAM is left out as a whole, and an entry point near its beginning still has
a place in SRAM, although nothing of the segment has been put there.

This file says which entry points of such a segment are started, and where
(`PicoLoader.Load.StartsSkipped`): those that fit (`PicoLoader.Load.EntryFits`), at the place that
they would have in the copy of the segment (`PicoLoader.Load.startPlace`). What is found there is
what was there before the load, unless another segment goes there. That there is such an image is
`not_refused_leftOut`.
-/

namespace PicoLoader

open Memory

/-- Whether the bytes of a segment in the file belong to this address, among others. -/
def Elf.ProgramHeader.Holds (segment : Elf.ProgramHeader) (addr : UInt32) : Prop :=
  segment.Loaded ∧ segment.home.toNat ≤ addr.toNat ∧
    addr.toNat < segment.home.toNat + segment.fileSize.toNat

namespace Plan

variable {image : Elf.Image} {layout : Layout} {plan : Plan} {segment : Elf.ProgramHeader}
  {addr : UInt32}

/-- Whether a load into RAM leaves a segment out. -/
def Skips (image : Elf.Image) (layout : Layout) (segment : Elf.ProgramHeader) : Prop :=
  place image layout false segment =
    .ok (some (.skipped segment.home segment.fileSize))

/-- What is left out is a segment of flash. -/
theorem flashAt_of_skips (h : Skips image layout segment) :
    layout.FlashAt segment.home.toNat := by
  rcases place_cases h with ⟨-, hnone⟩ | ⟨-, -, -, placed, hplaced, heq⟩
  · cases hnone
  obtain rfl := Option.some.inj heq
  rcases placeBytes_cases hplaced with ⟨-, hram, -⟩ | ⟨hflash, -⟩ | ⟨hflash, -⟩
  · cases hram
  · exact hflash
  · exact hflash

/-- And nothing of it goes to RAM. -/
theorem not_covers_of_skips (h : Skips image layout segment) (x : Nat) :
    ¬Covers (ramTarget? layout false) segment x := by
  rintro ⟨target, htarget, -⟩
  have hblock := (place_spec h).2.1
  rw [htarget] at hblock
  cases hblock

/-- An entry point in flash is started at its place in SRAM, if one instruction fits there. -/
theorem startAddress_of_flashAt (hflash : layout.FlashAt plan.entry.toNat) :
    plan.startAddress layout false = .ok addr ↔
      addr.toNat = copyPlace plan.entry.toNat ∧ addr.toNat + 4 ≤ layout.sramEnd.toNat := by
  have hstart : flashStart ≤ plan.entry := UInt32.le_iff_toNat_le.mpr hflash.1
  have hzero : plan.entry ≠ 0 := by
    intro hzero
    rw [hzero] at hstart
    exact absurd hstart (by decide)
  have hmirror : plan.startAddress layout false = .ok addr ↔
      layout.mirror? plan.entry entrySize = some addr := by
    rw [startAddress, if_neg hzero, if_neg Bool.false_ne_true, if_pos (flashAt_iff.mp hflash)]
    cases layout.mirror? plan.entry entrySize <;> simp
  rw [hmirror, Layout.mirror?_eq_some_iff, copyPlace_eq_mirrored]
  exact and_iff_right hstart

/-- Any other entry point is started where it is, if that is in SRAM. -/
theorem startAddress_of_not_flashAt (hzero : plan.entry ≠ 0)
    (hflash : ¬layout.FlashAt plan.entry.toNat) :
    plan.startAddress layout false = .ok addr ↔
      layout.SramAt plan.entry.toNat ∧ addr = plan.entry := by
  rw [startAddress, if_neg hzero, if_neg Bool.false_ne_true, not_flashAt_iff.mp hflash,
    if_neg Bool.false_ne_true, sramAt_iff]
  cases layout.isSram plan.entry with
  | true => simp [eq_comm]
  | false => simp

end Plan

namespace Load

open Plan

variable {image : Elf.Image} {layout : Layout} {plan : Plan} {segment : Elf.ProgramHeader}

/-- **A load may start the image at an address** if and only if that is the address to start at. -/
theorem exists_exec_iff {allowFlash : Bool} {addr : UInt32} (h : plan.Loadable) :
    (∃ start failures room,
      .exec addr ∈ (outcome plan layout allowFlash start failures room).calls) ↔
    plan.startAddress layout allowFlash = .ok addr := by
  constructor
  · rintro ⟨start, failures, room, hmem⟩
    obtain ⟨i, hi⟩ := List.mem_iff_getElem?.mp hmem
    exact (calls_of_exec hi).2.2.1
  · -- Where nothing fails, a load makes all of its calls, and this is the last of them.
    intro haddr
    refine ⟨true, fun _ => none, none, ?_⟩
    have hcalls := (ideal_of_loadable layout allowFlash true h).2.1
    rw [ideal] at hcalls
    have hstarting : .start addr ∈ plan.actions layout allowFlash true := by
      refine List.mem_append_right _ ?_
      rw [starting, if_pos rfl, haddr]
      exact List.mem_singleton_self _
    rw [hcalls]
    exact List.mem_cons_of_mem _ (List.mem_flatMap.mpr ⟨_, hstarting, List.mem_singleton_self _⟩)

/-! ### The place of an entry point -/

/-- Where the entry point of a segment of flash is started by a load into RAM: in flash, where it
would be in the copy of the segment; elsewhere, where it is. -/
def startPlace (layout : Layout) (segment : Elf.ProgramHeader) (entry : UInt32) : Nat :=
  if layout.FlashAt entry.toNat then
    copyPlace segment.home.toNat + (entry.toNat - segment.home.toNat)
  else entry.toNat

/-- Whether it is started at all: in flash, if one instruction at its place in the copy lies in
SRAM; elsewhere, if it is in SRAM itself. -/
def EntryFits (layout : Layout) (segment : Elf.ProgramHeader) (entry : UInt32) : Prop :=
  if layout.FlashAt entry.toNat then startPlace layout segment entry + 4 ≤ layout.sramEnd.toNat
  else layout.SramAt entry.toNat

instance (layout : Layout) (segment : Elf.ProgramHeader) (entry : UInt32) :
    Decidable (EntryFits layout segment entry) :=
  inferInstanceAs (Decidable (if layout.FlashAt entry.toNat then
    startPlace layout segment entry + 4 ≤ layout.sramEnd.toNat else layout.SramAt entry.toNat))

/-- The copy of a segment keeps the distances between addresses. -/
theorem startPlace_of_flashAt {entry : UInt32}
    (hfirst : flashStart.toNat ≤ segment.home.toNat) (hle : segment.home.toNat ≤ entry.toNat)
    (hflash : layout.FlashAt entry.toNat) :
    startPlace layout segment entry = copyPlace entry.toNat := by
  rw [startPlace, if_pos hflash, copyPlace, copyPlace]
  omega

/-- The place of an entry point that fits is an address. -/
theorem startPlace_lt {entry : UInt32} (h : EntryFits layout segment entry) :
    startPlace layout segment entry < UInt32.size := by
  have hend := layout.sramEnd.toNat_lt
  by_cases hflash : layout.FlashAt entry.toNat
  · rw [EntryFits, if_pos hflash] at h
    exact Nat.lt_of_le_of_lt (Nat.le_add_right _ _) (Nat.lt_of_le_of_lt h hend)
  · rw [startPlace, if_neg hflash]
    exact entry.toNat_lt

/-- **Where the entry point of a segment of flash is started**, if it is. -/
theorem startAddress_of_holds {addr : UInt32} (hflash : layout.FlashAt segment.home.toNat)
    (hholds : segment.Holds plan.entry) : plan.startAddress layout false = .ok addr ↔
      EntryFits layout segment plan.entry ∧ addr.toNat = startPlace layout segment plan.entry := by
  obtain ⟨-, hle, -⟩ := hholds
  have hfirst := hflash.1
  by_cases hentry : layout.FlashAt plan.entry.toNat
  · rw [startAddress_of_flashAt hentry, EntryFits, if_pos hentry,
      startPlace_of_flashAt hfirst hle hentry]
    constructor
    · rintro ⟨hplace, hfits⟩
      exact ⟨hplace ▸ hfits, hplace⟩
    · rintro ⟨hfits, hplace⟩
      exact ⟨hplace, hplace.symm ▸ hfits⟩
  · have hzero : plan.entry ≠ 0 := by
      intro hzero
      rw [hzero] at hle
      exact absurd (Nat.le_trans hfirst hle) (by decide)
    rw [startAddress_of_not_flashAt hzero hentry, EntryFits, startPlace, if_neg hentry,
      if_neg hentry, UInt32.toNat_inj]

/-- There is an address to start at if and only if the entry point fits. -/
theorem exists_startAddress_iff (hflash : layout.FlashAt segment.home.toNat)
    (hholds : segment.Holds plan.entry) :
    (∃ addr, plan.startAddress layout false = .ok addr) ↔
      EntryFits layout segment plan.entry := by
  constructor
  · rintro ⟨addr, haddr⟩
    exact ((startAddress_of_holds hflash hholds).mp haddr).1
  · intro hfits
    refine ⟨UInt32.ofNat (startPlace layout segment plan.entry),
      (startAddress_of_holds hflash hholds).mpr ⟨hfits, ?_⟩⟩
    rw [UInt32.toNat_ofNat', Nat.mod_eq_of_lt (startPlace_lt hfits)]

/-! ### The statement -/

/-- **What becomes of an entry point in a segment that is left out.** -/
structure StartsSkipped (image : Elf.Image) (layout : Layout) (plan : Plan)
    (segment : Elf.ProgramHeader) : Prop where
  /-- There is no address to start at if and only if the entry point does not fit. -/
  error_iff : (∃ problem, plan.startAddress layout false = .error problem) ↔
    ¬EntryFits layout segment image.header.entry
  /-- And that is when no load starts the image, whatever fails. -/
  not_exec_iff : (∀ start failures room addr,
      .exec addr ∉ (outcome plan layout false start failures room).calls) ↔
    ¬EntryFits layout segment image.header.entry
  /-- Where it fits, it is started at its place. -/
  exec_iff : ∀ addr, (∃ start failures room,
      .exec addr ∈ (outcome plan layout false start failures room).calls) ↔
    EntryFits layout segment image.header.entry ∧
      addr.toNat = startPlace layout segment image.header.entry
  /-- But the segment is nowhere: an address that no other segment covers keeps its byte. -/
  memoryAfter_eq : ∀ (memory : Nat → UInt8) (x : Nat),
    (∀ other ∈ image.segments, other ≠ segment → ¬Covers (ramTarget? layout false) other x) →
    memoryAfter plan layout false memory x = memory x

/-- **When a segment that is left out is started**, for every image and every layout. -/
theorem startsSkipped (h : build image layout false = .ok plan)
    (hskips : Skips image layout segment) (hholds : segment.Holds image.header.entry) :
    StartsSkipped image layout plan segment := by
  have hflash := flashAt_of_skips hskips
  have hloadable := loadable_of_build h
  have hentry : image.header.entry = plan.entry := (entry_of_build h).symm
  rw [hentry] at hholds
  constructor
  · rw [hentry, ← exists_startAddress_iff hflash hholds]
    cases plan.startAddress layout false with
    | ok addr => simp
    | error problem => simp
  · rw [hentry, ← exists_startAddress_iff hflash hholds]
    constructor
    · rintro hnever ⟨addr, haddr⟩
      obtain ⟨start, failures, room, hmem⟩ := (exists_exec_iff hloadable).mpr haddr
      exact hnever start failures room addr hmem
    · intro hnone start failures room addr hmem
      exact hnone ⟨addr, (exists_exec_iff hloadable).mp ⟨start, failures, room, hmem⟩⟩
  · intro addr
    rw [hentry, exists_exec_iff hloadable, startAddress_of_holds hflash hholds]
  · intro memory x hothers
    have hnone : ∀ other ∈ image.segments, ¬Covers (ramTarget? layout false) other x := by
      intro other hmem
      by_cases heq : other = segment
      · exact heq ▸ not_covers_of_skips hskips x
      · exact hothers other hmem heq
    rw [memoryAfter_ram h, lastByte?_blocks_eq_none (soundTargets_ram h) hnone, Option.getD_none]

/-- A file with a segment of flash that is eight bytes too long for the SRAM of the smaller chip,
and a segment of RAM. In the copy of the first, the entry point would be the end of SRAM. -/
def cutOff : Elf.Image where
  header := ⟨2, 40, 1, 0x10042000, 52, 0, 0, 32, 2, 0⟩
  segments := [⟨1, 0, 0x10041ff8, 0x10041ff8, 16, 16, 5, 4⟩,
    ⟨1, 0, 0x20000000, 0x20000000, 2, 2, 6, 4⟩]
  bytes := List.replicate 16 0xA0

/-- No load starts this image. -/
theorem startsSkipped_cutOff :
    ∃ plan, build cutOff .rp2040 false = .ok plan ∧
      Skips cutOff .rp2040 ⟨1, 0, 0x10041ff8, 0x10041ff8, 16, 16, 5, 4⟩ ∧
      StartsSkipped cutOff .rp2040 plan ⟨1, 0, 0x10041ff8, 0x10041ff8, 16, 16, 5, 4⟩ ∧
      ∀ start failures room addr,
        .exec addr ∉ (outcome plan .rp2040 false start failures room).calls := by
  have hbuild : build cutOff .rp2040 false = .ok
      ⟨[⟨0x20000000, [0xA0, 0xA0]⟩], .empty, [], false, true, 0x10042000⟩ := rfl
  have hskips : Skips cutOff .rp2040 ⟨1, 0, 0x10041ff8, 0x10041ff8, 16, 16, 5, 4⟩ := rfl
  have hstarts := startsSkipped hbuild hskips ⟨by decide, by decide, by decide⟩
  exact ⟨_, hbuild, hskips, hstarts, hstarts.not_exec_iff.mpr (by decide)⟩

/-- A file with the same segments whose entry point is at the beginning of the first. -/
def leftOutFile : List UInt8 :=
  [0x7f, 0x45, 0x4c, 0x46, 1, 1, 1] ++ List.replicate 9 0 ++
    [2, 0, 40, 0, 1, 0, 0, 0, 0xf8, 0x1f, 0x04, 0x10, 52, 0, 0, 0] ++ List.replicate 8 0 ++
    [52, 0, 32, 0, 2, 0] ++ List.replicate 6 0 ++
    [1, 0, 0, 0, 0, 0, 0, 0, 0xf8, 0x1f, 0x04, 0x10, 0xf8, 0x1f, 0x04, 0x10] ++
    [16, 0, 0, 0, 16, 0, 0, 0, 5, 0, 0, 0, 4, 0, 0, 0] ++
    [1, 0, 0, 0, 0, 0, 0, 0, 0, 0, 0, 0x20, 0, 0, 0, 0x20] ++
    [2, 0, 0, 0, 2, 0, 0, 0, 6, 0, 0, 0, 4, 0, 0, 0]

/-- What is read from this file. -/
def leftOut : Elf.Image where
  header := ⟨2, 40, 1, 0x10041ff8, 52, 0, 0, 32, 2, 0⟩
  segments := [⟨1, 0, 0x10041ff8, 0x10041ff8, 16, 16, 5, 4⟩,
    ⟨1, 0, 0x20000000, 0x20000000, 2, 2, 6, 4⟩]
  bytes := leftOutFile

/-- **A program that was left out may be started**: the entry point of this file is in a segment
that is left out, and in no other, and there is an address to start at. -/
theorem not_refused_leftOut :
    ¬∀ (file : List UInt8) (image : Elf.Image) (chip : Chip) (plan : Plan)
      (segment : Elf.ProgramHeader),
      Elf.Image.ofBytes file = .ok image → build image (.ofChip chip) false = .ok plan →
      segment ∈ image.segments → Skips image (.ofChip chip) segment →
      segment.Holds image.header.entry →
      (∀ other ∈ image.segments, other ≠ segment → ¬other.Holds image.header.entry) →
      (∃ problem, plan.startAddress (.ofChip chip) false = .error problem) ∧
        ∀ failures room addr,
          .exec addr ∉ (outcome plan (.ofChip chip) false true failures room).calls := by
  intro hrefused
  have hread : Elf.Image.ofBytes leftOutFile = .ok leftOut := rfl
  have hbuild : build leftOut (.ofChip .rp2040) false = .ok
      ⟨[⟨0x20000000, [0x7f, 0x45]⟩], .empty, [], false, true, 0x10041ff8⟩ := rfl
  have hother : ∀ other ∈ leftOut.segments,
      other ≠ ⟨1, 0, 0x10041ff8, 0x10041ff8, 16, 16, 5, 4⟩ →
      ¬other.Holds leftOut.header.entry := by
    intro other hmem hne
    rcases List.mem_pair.mp hmem with rfl | rfl
    · exact absurd rfl hne
    · exact fun hholds => absurd hholds.2.1 (by decide)
  obtain ⟨⟨problem, hproblem⟩, -⟩ := hrefused leftOutFile leftOut .rp2040 _
    ⟨1, 0, 0x10041ff8, 0x10041ff8, 16, 16, 5, 4⟩ hread hbuild List.mem_cons_self rfl
    ⟨by decide, by decide, by decide⟩ hother
  cases hproblem

end Load

end PicoLoader
