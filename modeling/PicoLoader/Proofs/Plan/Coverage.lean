import PicoLoader.Proofs.Memory.Covering
import PicoLoader.Proofs.Plan.Building

/-!
# Which segment covers an address

A target says where the bytes of a segment go (`PicoLoader.Plan.ramTarget?` and
`PicoLoader.Plan.flashTarget?`). Put there, a segment covers some addresses
(`PicoLoader.Plan.Covers`), and where several do, the last in file order is the one that counts
(`PicoLoader.Plan.LastCovers`, and `exists_lastCovers` for there being one). Both are said of
program headers, by numbers that cannot overflow.

A plan holds blocks instead. `exists_covers_blocks_iff` and `lastByte?_blocks` carry one over into
the other, for targets that are sound: a block of the plan covers what its segment covers, and the
last block that covers an address has the byte of the file that the last segment has for it.
-/

namespace PicoLoader

open Memory

namespace Plan

variable {image : Elf.Image} {layout : Layout} {allowFlash : Bool} {segment : Elf.ProgramHeader}
  {plan : Plan} {target? : Elf.ProgramHeader → Option Nat} {target x : Nat}

/-! ### Covered addresses -/

/-- Whether the bytes of a segment, put at its target, cover the address. -/
def Covers (target? : Elf.ProgramHeader → Option Nat) (segment : Elf.ProgramHeader) (x : Nat) :
    Prop :=
  ∃ target, target? segment = some target ∧ target ≤ x ∧ x < target + segment.fileSize.toNat

instance (target? : Elf.ProgramHeader → Option Nat) (segment : Elf.ProgramHeader) (x : Nat) :
    Decidable (Covers target? segment x) :=
  decidable_of_iff (∃ target ∈ target? segment, target ≤ x ∧ x < target + segment.fileSize.toNat)
    Iff.rfl

/-- A segment covers an address, and no segment after it does. -/
def LastCovers (target? : Elf.ProgramHeader → Option Nat) (segments : List Elf.ProgramHeader)
    (segment : Elf.ProgramHeader) (x : Nat) : Prop :=
  ∃ earlier later, segments = earlier ++ segment :: later ∧ Covers target? segment x ∧
    ∀ s ∈ later, ¬Covers target? s x

theorem LastCovers.mem {segments : List Elf.ProgramHeader}
    (h : LastCovers target? segments segment x) : segment ∈ segments := by
  obtain ⟨earlier, later, rfl, -⟩ := h
  exact List.mem_append_right _ List.mem_cons_self

theorem LastCovers.covers {segments : List Elf.ProgramHeader}
    (h : LastCovers target? segments segment x) : Covers target? segment x := by
  obtain ⟨-, -, -, hcovers, -⟩ := h
  exact hcovers

theorem Covers.bounds (h : Covers target? segment x) (htarget : target? segment = some target) :
    target ≤ x ∧ x < target + segment.fileSize.toNat := by
  obtain ⟨t, ht, hx⟩ := h
  obtain rfl : target = t := Option.some.inj (htarget.symm.trans ht)
  exact hx

/-- Where some segment covers an address, one of them is the last. -/
theorem exists_lastCovers {segments : List Elf.ProgramHeader}
    (h : ∃ segment ∈ segments, Covers target? segment x) :
    ∃ segment, LastCovers target? segments segment x := by
  induction segments with
  | nil =>
    obtain ⟨segment, hmem, -⟩ := h
    cases hmem
  | cons first rest ih =>
    by_cases hrest : ∃ segment ∈ rest, Covers target? segment x
    · obtain ⟨segment, earlier, later, rfl, hcovers, hlater⟩ := ih hrest
      exact ⟨segment, first :: earlier, later, rfl, hcovers, hlater⟩
    · obtain ⟨segment, hmem, hcovers⟩ := h
      rcases List.mem_cons.mp hmem with rfl | hmem
      · exact ⟨segment, [], rest, rfl, hcovers, fun s hs hc => hrest ⟨s, hs, hc⟩⟩
      · exact absurd ⟨segment, hmem, hcovers⟩ hrest

/-! ### Sound targets -/

/-- A target is *sound* if the bytes that go there are in the file and end inside the address
space, and there are any. -/
def SoundTargets (image : Elf.Image) (target? : Elf.ProgramHeader → Option Nat) : Prop :=
  ∀ segment ∈ image.segments, ∀ target, target? segment = some target →
    0 < segment.fileSize.toNat ∧ target + segment.fileSize.toNat < UInt32.size ∧
      segment.offset.toNat + segment.fileSize.toNat ≤ image.bytes.length

/-- **The targets in RAM are sound** once a plan is built. -/
theorem soundTargets_ram (h : build image layout allowFlash = .ok plan) :
    SoundTargets image (ramTarget? layout allowFlash) := by
  intro segment hmem target htarget
  obtain ⟨hbytes, hplace⟩ := ramTarget?_eq_some_iff.mp htarget
  have hplaceable := placeable_of_build h segment hmem hbytes
  have hend : layout.sramEnd.toNat < UInt32.size := layout.sramEnd.toNat_lt
  refine ⟨hbytes.fileSize_pos, ?_, hplaceable.inFile⟩
  rcases hplace with ⟨hram, heq⟩ | ⟨-, -, hfits, heq⟩
  · exact heq ▸ hplaceable.ramFits hram
  · exact heq ▸ Nat.lt_of_le_of_lt hfits hend

/-- **The targets in flash are sound** once a plan is built, with room for a sector above. -/
theorem add_le_flashLimit (h : build image layout allowFlash = .ok plan)
    (hmem : segment ∈ image.segments)
    (htarget : flashTarget? layout allowFlash segment = some target) :
    target + segment.fileSize.toNat ≤ flashLimit := by
  obtain ⟨hbytes, hflash, hallow, rfl⟩ := flashTarget?_eq_some_iff.mp htarget
  exact (placeable_of_build h segment hmem hbytes).flashFits hflash hallow

theorem soundTargets_flash (h : build image layout allowFlash = .ok plan) :
    SoundTargets image (flashTarget? layout allowFlash) := by
  intro segment hmem target htarget
  have hfits := add_le_flashLimit h hmem htarget
  obtain ⟨hbytes, -, -, -⟩ := flashTarget?_eq_some_iff.mp htarget
  refine ⟨hbytes.fileSize_pos, Nat.lt_of_le_of_lt hfits (by decide), ?_⟩
  exact (placeable_of_build h segment hmem hbytes).inFile

/-! ### Segments as blocks -/

theorem toNat_addr_blockAt (h : target < UInt32.size) :
    (image.blockAt segment target).addr.toNat = target := by
  rw [Elf.Image.blockAt, UInt32.toNat_ofNat']
  exact Nat.mod_eq_of_lt h

theorem size_blockAt
    (hfile : segment.offset.toNat + segment.fileSize.toNat ≤ image.bytes.length) :
    (image.blockAt segment target).size = segment.fileSize.toNat := length_slice_of_le hfile

theorem stop_blockAt (hsize : target + segment.fileSize.toNat < UInt32.size)
    (hfile : segment.offset.toNat + segment.fileSize.toNat ≤ image.bytes.length) :
    (image.blockAt segment target).stop = target + segment.fileSize.toNat := by
  rw [Block.stop, size_blockAt hfile, toNat_addr_blockAt (by omega)]

/-- The block of a segment covers what the segment covers. -/
theorem covers_blockAt_iff (hsize : target + segment.fileSize.toNat < UInt32.size)
    (hfile : segment.offset.toNat + segment.fileSize.toNat ≤ image.bytes.length) :
    (image.blockAt segment target).Covers x ↔
      target ≤ x ∧ x < target + segment.fileSize.toNat := by
  rw [Block.Covers, stop_blockAt hsize hfile, toNat_addr_blockAt (by omega)]

/-- Every block of an image is a segment at its target. -/
theorem exists_of_mem_blocks {block : Block} (h : block ∈ blocks image target?) :
    ∃ segment ∈ image.segments, ∃ target, target? segment = some target ∧
      block = image.blockAt segment target := by
  obtain ⟨segment, hmem, hblock⟩ := List.mem_filterMap.mp h
  obtain ⟨target, htarget, rfl⟩ := Option.map_eq_some_iff.mp hblock
  exact ⟨segment, hmem, target, htarget, rfl⟩

theorem blockAt_mem_blocks (hmem : segment ∈ image.segments) (h : target? segment = some target) :
    image.blockAt segment target ∈ blocks image target? :=
  List.mem_filterMap.mpr ⟨segment, hmem, by rw [h, Option.map_some]⟩

/-- A block that covers an address is that of a segment that does. -/
theorem exists_of_mem_blocks_of_covers (hsound : SoundTargets image target?) {block : Block}
    (hblock : block ∈ blocks image target?) (hx : block.Covers x) :
    ∃ segment ∈ image.segments, ∃ target, target? segment = some target ∧
      block = image.blockAt segment target ∧ Covers target? segment x := by
  obtain ⟨segment, hmem, target, htarget, rfl⟩ := exists_of_mem_blocks hblock
  obtain ⟨-, hsize, hfile⟩ := hsound segment hmem target htarget
  exact ⟨segment, hmem, target, htarget, rfl, target, htarget,
    (covers_blockAt_iff hsize hfile).mp hx⟩

/-- **A segment and its block cover the same addresses.** -/
theorem exists_covers_blocks_iff (hsound : SoundTargets image target?) :
    (∃ block ∈ blocks image target?, block.Covers x) ↔
      ∃ segment ∈ image.segments, Covers target? segment x := by
  constructor
  · rintro ⟨block, hblock, hx⟩
    obtain ⟨segment, hmem, -, -, -, hcovers⟩ := exists_of_mem_blocks_of_covers hsound hblock hx
    exact ⟨segment, hmem, hcovers⟩
  · rintro ⟨segment, hmem, target, htarget, hx⟩
    obtain ⟨-, hsize, hfile⟩ := hsound segment hmem target htarget
    exact ⟨_, blockAt_mem_blocks hmem htarget, (covers_blockAt_iff hsize hfile).mpr hx⟩

/-- The block of a segment holds the bytes of the file from its offset on. -/
theorem byte?_blockAt (hsize : target + segment.fileSize.toNat < UInt32.size)
    (hx : target ≤ x ∧ x < target + segment.fileSize.toNat) :
    (image.blockAt segment target).byte? x =
      image.bytes[segment.offset.toNat + (x - target)]? := by
  have haddr : (image.blockAt segment target).addr.toNat = target := toNat_addr_blockAt (by omega)
  rw [Block.byte?, haddr, if_pos hx.1, Elf.Image.blockAt, Elf.Image.slice,
    List.getElem?_take_of_lt (by omega), List.getElem?_drop]

/-- **The last segment that covers an address decides** which byte the blocks leave there. -/
theorem lastByte?_blocks (hsound : SoundTargets image target?)
    (h : LastCovers target? image.segments segment x) (htarget : target? segment = some target) :
    lastByte? (blocks image target?) x = image.bytes[segment.offset.toNat + (x - target)]? := by
  obtain ⟨-, hsize, hfile⟩ := hsound segment h.mem target htarget
  have hx := h.covers.bounds htarget
  obtain ⟨earlier, later, hsplit, -, hlater⟩ := h
  rw [blocks, hsplit, List.filterMap_append, List.filterMap_cons, htarget, Option.map_some]
  simp only
  rw [lastByte?_of_last ((covers_blockAt_iff hsize hfile).mpr hx), byte?_blockAt hsize hx]
  -- A later block would come from a later segment, and none of these covers the address.
  intro block hblock hc
  obtain ⟨s, hs, hs'⟩ := List.mem_filterMap.mp hblock
  obtain ⟨t, hst, rfl⟩ := Option.map_eq_some_iff.mp hs'
  have hmem : s ∈ image.segments :=
    hsplit ▸ List.mem_append_right _ (List.mem_cons_of_mem _ hs)
  obtain ⟨-, hsize, hfile⟩ := hsound s hmem t hst
  exact hlater s hs ⟨t, hst, (covers_blockAt_iff hsize hfile).mp hc⟩

/-- So there is a byte, in the file and in the blocks. -/
theorem exists_lastByte?_blocks (hsound : SoundTargets image target?)
    (h : LastCovers target? image.segments segment x) (htarget : target? segment = some target) :
    ∃ byte, lastByte? (blocks image target?) x = some byte ∧
      image.bytes[segment.offset.toNat + (x - target)]? = some byte := by
  have heq := lastByte?_blocks hsound h htarget
  have hx := h.covers.bounds htarget
  obtain ⟨-, -, hfile⟩ := hsound segment h.mem target htarget
  have hlt : segment.offset.toNat + (x - target) < image.bytes.length := by omega
  rw [List.getElem?_eq_getElem hlt] at heq ⊢
  exact ⟨_, heq, rfl⟩

/-- Where no segment covers an address, the blocks leave no byte. -/
theorem lastByte?_blocks_eq_none (hsound : SoundTargets image target?)
    (h : ∀ segment ∈ image.segments, ¬Covers target? segment x) :
    lastByte? (blocks image target?) x = none := by
  rw [lastByte?_eq_none_iff]
  intro block hblock hc
  obtain ⟨segment, hmem, hcovers⟩ := (exists_covers_blocks_iff hsound).mp ⟨block, hblock, hc⟩
  exact h segment hmem hcovers

end Plan

end PicoLoader
