import Mathlib.Data.List.Forall2
import PicoLoader.Proofs.Plan.Paging

/-!
# Every segment is accounted for

A plan is made by one pass over the segments, which adds to five things at a time: blocks for RAM,
pages, sectors to erase, and the two flags that the user is told about. This file reads the result
backwards. Of every segment with bytes the plan says what becomes of it, and it says nothing else:

* a segment that is for RAM (`PicoLoader.Plan.ForRam`) has its block there, and the blocks come in
  the order of these segments, one for each;
* a segment of flash has all of its addresses in pages if flash may be written;
* any other is left out (`PicoLoader.Plan.LeftOut`), and then a flag says so.

The flags are read off one segment at a time, and `any_placements_iff` carries that to all of them.
`PicoLoader.Plan.Accounts` puts the statements together.
-/

namespace PicoLoader.Plan

open Memory

variable {image : Elf.Image} {layout : Layout} {allowFlash : Bool} {plan : Plan}
  {segment : Elf.ProgramHeader}

/-! ### What can become of a segment -/

/-- Whether a segment has bytes, and these are meant for flash. -/
def ForFlash (layout : Layout) (segment : Elf.ProgramHeader) : Prop :=
  segment.Loaded ∧ layout.FlashAt segment.home.toNat

/-- Whether the copy of a segment of flash ends at or below the end of SRAM. -/
def CopyFits (layout : Layout) (segment : Elf.ProgramHeader) : Prop :=
  copyPlace segment.home.toNat + segment.fileSize.toNat ≤ layout.sramEnd.toNat

/-- Whether a segment is mirrored: it is for flash, flash may not be written, and its copy fits. -/
def HasCopy (layout : Layout) (allowFlash : Bool) (segment : Elf.ProgramHeader) : Prop :=
  ForFlash layout segment ∧ allowFlash = false ∧ CopyFits layout segment

/-- Whether a segment is left out: it is for flash, flash may not be written, and its copy does not
fit. -/
def LeftOut (layout : Layout) (allowFlash : Bool) (segment : Elf.ProgramHeader) : Prop :=
  ForFlash layout segment ∧ allowFlash = false ∧ ¬CopyFits layout segment

/-- Whether a segment is written to RAM: it has bytes, and these are not meant for flash or are
mirrored. -/
def ForRam (layout : Layout) (allowFlash : Bool) (segment : Elf.ProgramHeader) : Prop :=
  (segment.Loaded ∧ ¬layout.FlashAt segment.home.toNat) ∨
    HasCopy layout allowFlash segment

instance (layout : Layout) (allowFlash : Bool) :
    DecidablePred (ForRam layout allowFlash) := fun segment =>
  inferInstanceAs (Decidable ((_ ∧ _) ∨ (_ ∧ _) ∧ _ ∧ copyPlace segment.home.toNat +
    segment.fileSize.toNat ≤ layout.sramEnd.toNat))

/-- **The block of a segment in RAM**: the bytes of the segment in the file, and all of them. It
begins at the home of the segment; for one of flash, as far behind the start of SRAM as that is
behind the start of flash, and then all of it lies in SRAM. -/
structure Carries (image : Elf.Image) (layout : Layout) (segment : Elf.ProgramHeader)
    (block : Block) : Prop where
  bytes_eq : block.bytes = image.slice segment
  size_eq : block.size = segment.fileSize.toNat
  addr_eq : ¬layout.FlashAt segment.home.toNat → block.addr = segment.home
  toNat_addr_eq : layout.FlashAt segment.home.toNat →
    block.addr.toNat = sramStart.toNat + (segment.home.toNat - flashStart.toNat)
  within_sram : layout.FlashAt segment.home.toNat →
    sramStart.toNat ≤ block.addr.toNat ∧ block.stop ≤ layout.sramEnd.toNat

/-- Whether every address of a segment lies in a page of the plan. -/
def StoresInPages (plan : Plan) (segment : Elf.ProgramHeader) : Prop :=
  ∀ x, segment.home.toNat ≤ x →
    x < segment.home.toNat + segment.fileSize.toNat →
    ∃ page ∈ plan.pages.pages, page.Covers x

/-- The segments for RAM are those that have a target there. -/
theorem forRam_iff :
    ForRam layout allowFlash segment ↔
      ∃ target, ramTarget? layout allowFlash segment = some target := by
  simp only [ramTarget?_eq_some_iff, ForRam, HasCopy, ForFlash, CopyFits]
  constructor
  · rintro (⟨hbytes, hram⟩ | ⟨⟨hbytes, hflash⟩, hnot, hfits⟩)
    · exact ⟨_, hbytes, Or.inl ⟨hram, rfl⟩⟩
    · exact ⟨_, hbytes, Or.inr ⟨hflash, hnot, hfits, rfl⟩⟩
  · rintro ⟨target, hbytes, ⟨hram, -⟩ | ⟨hflash, hnot, hfits, -⟩⟩
    · exact Or.inl ⟨hbytes, hram⟩
    · exact Or.inr ⟨⟨hbytes, hflash⟩, hnot, hfits⟩

/-- A segment with bytes that is not for RAM goes to flash or is left out. -/
theorem forFlash_of_not_forRam (hbytes : segment.Loaded)
    (h : ¬ForRam layout allowFlash segment) :
    ForFlash layout segment ∧ (allowFlash = false → LeftOut layout allowFlash segment) := by
  have hflash : ForFlash layout segment := by
    refine ⟨hbytes, ?_⟩
    by_contra hram
    exact h (Or.inl ⟨hbytes, hram⟩)
  exact ⟨hflash, fun hnot => ⟨hflash, hnot, fun hfits => h (Or.inr ⟨hflash, hnot, hfits⟩)⟩⟩

/-! ### The blocks for RAM -/

/-- What a list has for each of some elements, and for no other, it has in their order. -/
theorem forall₂_filter_filterMap {α β : Type} {p : α → Prop} [DecidablePred p] {f : α → Option β}
    {R : α → β → Prop} {as : List α} (hsome : ∀ a ∈ as, p a → ∃ b, f a = some b ∧ R a b)
    (hnone : ∀ a ∈ as, ¬p a → f a = none) :
    List.Forall₂ R (as.filter p) (as.filterMap f) := by
  induction as with
  | nil => exact .nil
  | cons a as ih =>
    obtain ⟨hfirst, hsome⟩ := List.forall_mem_cons.mp hsome
    obtain ⟨hother, hnone⟩ := List.forall_mem_cons.mp hnone
    by_cases ha : p a
    · obtain ⟨b, hb, hab⟩ := hfirst ha
      rw [List.filter_cons, decide_eq_true ha, if_pos rfl, List.filterMap_cons_some hb]
      exact .cons hab (ih hsome hnone)
    · rw [List.filter_cons, decide_eq_false ha, if_neg Bool.false_ne_true,
        List.filterMap_cons_none (hother ha)]
      exact ih hsome hnone

/-- The block of a segment at its target in RAM carries the segment. -/
theorem carries_blockAt (h : build image layout allowFlash = .ok plan)
    (hmem : segment ∈ image.segments) {target : Nat}
    (htarget : ramTarget? layout allowFlash segment = some target) :
    Carries image layout segment (image.blockAt segment target) := by
  obtain ⟨-, hsize, hfile⟩ := soundTargets_ram h segment hmem target htarget
  have haddr : (image.blockAt segment target).addr.toNat = target := toNat_addr_blockAt (by omega)
  obtain ⟨-, hplace⟩ := ramTarget?_eq_some_iff.mp htarget
  refine ⟨rfl, size_blockAt hfile, ?_, ?_, ?_⟩
  · intro hram
    rcases hplace with ⟨-, heq⟩ | ⟨hflash, -⟩
    · exact UInt32.toNat_inj.mp (haddr.trans heq)
    · exact absurd hflash hram
  · intro hflash
    rcases hplace with ⟨hram, -⟩ | ⟨-, -, -, heq⟩
    · exact absurd hflash hram
    · exact haddr.trans heq
  · intro hflash
    rcases hplace with ⟨hram, -⟩ | ⟨-, -, hfits, heq⟩
    · exact absurd hflash hram
    · rw [haddr, stop_blockAt hsize hfile, heq]
      exact ⟨Nat.le_add_right _ _, hfits⟩

/-- **The blocks for RAM are those of the segments for RAM**, one for each, in file order. -/
theorem forall₂_carries (h : build image layout allowFlash = .ok plan) :
    List.Forall₂ (Carries image layout) (image.segments.filter (ForRam layout allowFlash))
      plan.ram := by
  rw [ram_of_build h]
  refine forall₂_filter_filterMap (fun segment hmem hram => ?_) fun segment _ hnot => ?_
  · obtain ⟨target, htarget⟩ := forRam_iff.mp hram
    exact ⟨_, by rw [htarget, Option.map_some], carries_blockAt h hmem htarget⟩
  · rw [Option.map_eq_none_iff, Option.eq_none_iff_forall_ne_some]
    exact fun target htarget => hnot (forRam_iff.mpr ⟨target, htarget⟩)

/-! ### The flags -/

/-- **A flag of a plan** is set if and only if it is for some segment. -/
theorem any_placements_iff {flag : Placement → Bool} {P : Elf.ProgramHeader → Prop}
    (hplace : ∀ segment placed?, place image layout allowFlash segment = .ok placed? →
      (placed?.any flag = true ↔ P segment))
    {segments : List Elf.ProgramHeader} {placed : List Placement}
    (h : placements image layout allowFlash segments = (placed, none)) :
    placed.any flag = true ↔ ∃ segment ∈ segments, P segment := by
  induction segments generalizing placed with
  | nil =>
    obtain rfl : [] = placed := congrArg Prod.fst h
    simp
  | cons segment segments ih =>
    obtain ⟨placed?, rest, hfirst, hrest, rfl⟩ := exists_of_placements_cons h
    rw [List.any_append, Bool.or_eq_true, ih hrest, List.exists_mem_cons_iff,
      ← hplace segment placed? hfirst]
    cases placed? <;> simp

/-- **The flags for one segment**: it is placed as mirrored if it has a copy, and as skipped if it
is left out. -/
theorem flags_of_place {placed? : Option Placement}
    (h : place image layout allowFlash segment = .ok placed?) :
    (placed?.any Placement.isMirrored = true ↔ HasCopy layout allowFlash segment) ∧
    (placed?.any Placement.isSkipped = true ↔ LeftOut layout allowFlash segment) := by
  rcases place_cases h with ⟨hbytes, rfl⟩ | ⟨hbytes, -, -, placed, hplaced, rfl⟩
  · simp [HasCopy, LeftOut, ForFlash, hbytes]
  rcases placeBytes_cases hplaced with ⟨hram, rfl, -⟩ | ⟨hflash, rfl, hmirror⟩ | ⟨-, rfl, rfl, -⟩
  · simp [HasCopy, LeftOut, ForFlash, hram, Placement.isMirrored, Placement.isSkipped]
  · have hfor : ForFlash layout segment := ⟨hbytes, hflash⟩
    rw [mirror?_of_flashAt hflash] at hmirror
    rcases hmirror with ⟨copy, hcopy, rfl⟩ | ⟨hnone, rfl⟩
    · have hfits : CopyFits layout segment := (Option.ite_none_right_eq_some.mp hcopy).1
      simp [HasCopy, LeftOut, hfor, hfits, Placement.isMirrored, Placement.isSkipped]
    · have hfits : ¬CopyFits layout segment := by simpa [CopyFits] using hnone
      simp [HasCopy, LeftOut, hfor, hfits, Placement.isMirrored, Placement.isSkipped]
  · simp [HasCopy, LeftOut, Placement.isMirrored, Placement.isSkipped]

/-- A plan says that something is mirrored if some segment has a copy. -/
theorem mirrored_iff (h : build image layout allowFlash = .ok plan) :
    plan.mirrored = true ↔ ∃ segment ∈ image.segments, HasCopy layout allowFlash segment := by
  obtain ⟨placed, hplaced, rfl⟩ := exists_gather_of_build h
  exact any_placements_iff (fun _ _ hplace => (flags_of_place hplace).1) hplaced

/-- And that something is skipped if some segment is left out. -/
theorem skipped_iff (h : build image layout allowFlash = .ok plan) :
    plan.skipped = true ↔ ∃ segment ∈ image.segments, LeftOut layout allowFlash segment := by
  obtain ⟨placed, hplaced, rfl⟩ := exists_gather_of_build h
  exact any_placements_iff (fun _ _ hplace => (flags_of_place hplace).2) hplaced

/-! ### The pages -/

/-- If flash may be written, the addresses of a segment of flash lie in pages. -/
theorem pages_of_forFlash (h : build image layout allowFlash = .ok plan)
    (hmem : segment ∈ image.segments) (hflash : ForFlash layout segment)
    (hallow : allowFlash = true) : plan.StoresInPages segment := by
  intro x hle hlt
  have htarget : flashTarget? layout allowFlash segment = some segment.home.toNat :=
    flashTarget?_eq_some_iff.mpr ⟨hflash.1, hflash.2, hallow, rfl⟩
  exact (exists_mem_pages_iff h).mpr ⟨segment, hmem, x, ⟨_, htarget, hle, hlt⟩, rfl⟩

/-- If it may not, no address lies in a page, and a segment with bytes has an address. -/
theorem not_pages_of_not_allowFlash (h : build image layout allowFlash = .ok plan)
    (hbytes : segment.Loaded) (hnot : allowFlash = false) :
    ¬plan.StoresInPages segment := by
  intro hpages
  have hlt := Nat.lt_add_of_pos_right (n := segment.home.toNat) hbytes.fileSize_pos
  obtain ⟨other, -, x, ⟨target, htarget, -⟩, -⟩ :=
    (exists_mem_pages_iff h).mp (hpages _ (Nat.le_refl _) hlt)
  obtain ⟨-, -, hallow, -⟩ := flashTarget?_eq_some_iff.mp htarget
  exact Bool.false_ne_true (hnot.symm.trans hallow)

/-- **A segment is left out if and only if it is neither in RAM nor in the pages.** -/
theorem leftOut_iff (h : build image layout allowFlash = .ok plan)
    (hmem : segment ∈ image.segments) : LeftOut layout allowFlash segment ↔
      segment.Loaded ∧ ¬ForRam layout allowFlash segment ∧
        ¬plan.StoresInPages segment := by
  constructor
  · rintro ⟨⟨hbytes, hflash⟩, hnot, hfits⟩
    refine ⟨hbytes, ?_, not_pages_of_not_allowFlash h hbytes hnot⟩
    rintro (⟨-, hram⟩ | ⟨-, -, hcopy⟩)
    · exact hram hflash
    · exact hfits hcopy
  · rintro ⟨hbytes, hram, hpages⟩
    obtain ⟨hflash, hout⟩ := forFlash_of_not_forRam hbytes hram
    cases hallow : allowFlash with
    | false => exact hallow ▸ hout hallow
    | true => exact absurd (pages_of_forFlash h hmem hflash hallow) hpages

/-! ### The statement -/

/-- **What a plan says of the segments of an image.** -/
structure Accounts (image : Elf.Image) (layout : Layout) (allowFlash : Bool) (plan : Plan) :
    Prop where
  /-- The blocks for RAM carry the segments for RAM, one for each, in file order. -/
  ram : List.Forall₂ (Carries image layout) (image.segments.filter (ForRam layout allowFlash))
    plan.ram
  /-- A flag says whether some segment is mirrored. -/
  mirrored_iff : plan.mirrored = true ↔
    ∃ segment ∈ image.segments, HasCopy layout allowFlash segment
  /-- Another says whether some segment with bytes is neither in RAM nor in the pages. -/
  skipped_iff : plan.skipped = true ↔ ∃ segment ∈ image.segments,
    segment.Loaded ∧ ¬ForRam layout allowFlash segment ∧ ¬plan.StoresInPages segment
  /-- If flash may be written, neither flag is set. -/
  flags_of_allowFlash : allowFlash = true → plan.mirrored = false ∧ plan.skipped = false
  /-- And every address of a segment of flash lies in a page. -/
  pages_of_allowFlash : allowFlash = true →
    ∀ segment ∈ image.segments, ForFlash layout segment → plan.StoresInPages segment

/-- **No segment is lost silently**: a plan that is built accounts for every segment. -/
theorem accounts_of_build (h : build image layout allowFlash = .ok plan) :
    Accounts image layout allowFlash plan where
  ram := forall₂_carries h
  mirrored_iff := mirrored_iff h
  skipped_iff := by
    rw [skipped_iff h]
    exact exists_congr fun segment => and_congr_right fun hmem => leftOut_iff h hmem
  flags_of_allowFlash hallow := by
    rw [← Bool.not_eq_true, ← Bool.not_eq_true, mirrored_iff h, skipped_iff h]
    constructor
    · rintro ⟨segment, -, -, hnot, -⟩
      exact Bool.false_ne_true (hnot.symm.trans hallow)
    · rintro ⟨segment, -, -, hnot, -⟩
      exact Bool.false_ne_true (hnot.symm.trans hallow)
  pages_of_allowFlash hallow _ hmem hflash := pages_of_forFlash h hmem hflash hallow

/-- A file with a segment of every kind. Of the two segments of flash, one ends in SRAM when it is
mirrored and the other one byte behind it; the third segment has nothing in the file. The two
addresses of the first two segments differ. -/
def allKinds : Elf.Image where
  header := ⟨2, 40, 1, 0x10000001, 52, 0, 0, 32, 5, 0⟩
  segments := [⟨1, 0, 0x20000400, 0x10041fff, 2, 2, 5, 4⟩,
    ⟨1, 0, 0x20000500, 0x20000100, 3, 3, 6, 4⟩, ⟨1, 0, 0x20000200, 0x20000200, 0, 8, 6, 4⟩,
    ⟨1, 3, 0x10041ffe, 0, 2, 2, 5, 4⟩, ⟨6, 0, 0x20000300, 0x20000300, 4, 4, 4, 4⟩]
  bytes := [0xA0, 0xA1, 0xA2, 0xB0, 0xB1]

/-- The plan of this file has two blocks for RAM, and both flags are set. -/
theorem accounts_allKinds :
    ∃ plan, build allKinds .rp2040 false = .ok plan ∧
      plan.ram = [⟨0x20000100, [0xA0, 0xA1, 0xA2]⟩, ⟨0x20041ffe, [0xB0, 0xB1]⟩] ∧
      plan.mirrored = true ∧ plan.skipped = true ∧ Accounts allKinds .rp2040 false plan := by
  have hbuild : build allKinds .rp2040 false = .ok
      ⟨[⟨0x20000100, [0xA0, 0xA1, 0xA2]⟩, ⟨0x20041ffe, [0xB0, 0xB1]⟩], .empty, [], true, true,
        0x10000001⟩ := rfl
  exact ⟨_, hbuild, rfl, rfl, rfl, accounts_of_build hbuild⟩

end PicoLoader.Plan
