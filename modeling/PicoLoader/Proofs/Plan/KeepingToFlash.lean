import PicoLoader.Proofs.Load.SparingFlash
import PicoLoader.Proofs.Plan.Paging

/-!
# When a plan keeps to flash

A segment goes to flash if its *first* address lies there. Where it ends is compared with the end of
the address space, and not with the end of flash. So a plan may erase and write what lies behind
flash.

This file says exactly when. The erase spans and the pages of a plan are the sectors and the pages
that segments touch, and flash begins and ends at a sector bound, so rounding to either never
carries an address over an end of flash (`flashAt_congr`). What is left is the segments themselves:
they begin in flash, and `PicoLoader.Elf.ProgramHeader.LeavesFlash` is for the ones that end behind
it. A plan keeps to flash if and only if it is made of no such segment (`keepsToFlash_iff`), and one
such segment is enough to spoil the spans as well as the pages (`erase_within_flash_iff`,
`pages_within_flash_iff`). That there are such images is `not_keepsToFlash_overrunning`.
-/

namespace PicoLoader

open Memory

/-- Whether the addresses from `start` up to but not including `stop` lie in flash. -/
def Memory.Layout.FlashWithin (layout : Layout) (start stop : Nat) : Prop :=
  flashStart.toNat ≤ start ∧ stop ≤ layout.flashEnd.toNat

/-- Whether a segment with bytes begins in flash and ends behind it. -/
def Elf.ProgramHeader.LeavesFlash (layout : Layout) (segment : Elf.ProgramHeader) : Prop :=
  segment.Loaded ∧ layout.FlashAt segment.home.toNat ∧
    layout.flashEnd.toNat < segment.home.toNat + segment.fileSize.toNat

/-- Whether everything that a plan erases, and every page that it writes, lies in flash. -/
structure Plan.KeepsToFlash (layout : Layout) (plan : Plan) : Prop where
  erase : ∀ span ∈ plan.erase, layout.FlashWithin span.start.toNat span.stop.toNat
  pages : ∀ page ∈ plan.pages.pages, layout.FlashWithin page.addr.toNat page.stop

namespace Plan

variable {image : Elf.Image} {layout : Layout} {chip : Chip} {plan : Plan} {unit x y : Nat}

/-! ### Rounding and the ends of flash -/

/-- A range that is not empty lies in flash if all of its addresses do. -/
theorem flashWithin_iff {start stop : Nat} (h : start < stop) :
    layout.FlashWithin start stop ↔ ∀ x, start ≤ x → x < stop → layout.FlashAt x := by
  constructor
  · rintro ⟨hlow, hhigh⟩ x hstart hstop
    exact ⟨Nat.le_trans hlow hstart, Nat.lt_of_lt_of_le hstop hhigh⟩
  · intro hall
    obtain ⟨hlow, -⟩ := hall start (Nat.le_refl _) h
    obtain ⟨-, hhigh⟩ := hall (stop - 1) (by omega) (by omega)
    exact ⟨hlow, by omega⟩

/-- Flash begins and ends at a sector bound. -/
theorem sectorSize_dvd_flash (chip : Chip) :
    4096 ∣ flashStart.toNat ∧ 4096 ∣ (Layout.ofChip chip).flashEnd.toNat := by
  cases chip <;> decide

/-- Two addresses of one unit lie on the same side of a bound between units. -/
theorem le_of_div_eq {bound : Nat} (hunit : 0 < unit) (hbound : unit ∣ bound)
    (heq : y / unit = x / unit) (h : bound ≤ y) : bound ≤ x := by
  obtain ⟨k, rfl⟩ := hbound
  rw [Nat.mul_comm, ← Nat.le_div_iff_mul_le hunit] at h ⊢
  exact heq ▸ h

/-- **Rounding does not leave flash**: if one address of a sector lies in flash, or one of a page,
then all of them do. -/
theorem flashAt_congr (hunit : 0 < unit) (hsector : unit ∣ 4096) (heq : y / unit = x / unit)
    (hy : (Layout.ofChip chip).FlashAt y) : (Layout.ofChip chip).FlashAt x := by
  obtain ⟨hstart, hend⟩ := sectorSize_dvd_flash chip
  refine ⟨le_of_div_eq hunit (Nat.dvd_trans hsector hstart) heq hy.1, Nat.lt_of_not_le ?_⟩
  -- If `x` were behind flash, `y` would be too.
  intro hbehind
  exact Nat.not_lt_of_le (le_of_div_eq hunit (Nat.dvd_trans hsector hend) heq.symm hbehind) hy.2

/-! ### What the segments touch -/

/-- A segment of flash covers addresses of flash only, unless it leaves flash. -/
theorem flashAt_of_covers {segment : Elf.ProgramHeader} (hstays : ¬segment.LeavesFlash layout)
    (hcovers : Covers (flashTarget? layout true) segment x) : layout.FlashAt x := by
  obtain ⟨target, htarget, hlow, hhigh⟩ := hcovers
  obtain ⟨hbytes, hfirst, -, rfl⟩ := flashTarget?_eq_some_iff.mp htarget
  refine ⟨Nat.le_trans hfirst.1 hlow, Nat.lt_of_not_le ?_⟩
  intro hbehind
  exact hstays ⟨hbytes, hfirst, Nat.lt_of_le_of_lt hbehind hhigh⟩

/-- A segment that leaves flash covers the first address behind it. -/
theorem covers_flashEnd {segment : Elf.ProgramHeader} (h : segment.LeavesFlash layout) :
    Covers (flashTarget? layout true) segment layout.flashEnd.toNat := by
  obtain ⟨hbytes, hfirst, hpast⟩ := h
  exact ⟨_, flashTarget?_eq_some_iff.mpr ⟨hbytes, hfirst, rfl, rfl⟩, Nat.le_of_lt hfirst.2,
    hpast⟩

/-- **What is touched lies in flash**, in units that sectors are made of, if and only if no segment
leaves flash. -/
theorem flashAt_of_touched_iff (hunit : 0 < unit) (hsector : unit ∣ 4096) :
    (∀ x, Touched image (flashTarget? (.ofChip chip) true) unit x →
      (Layout.ofChip chip).FlashAt x) ↔
    ∀ segment ∈ image.segments, ¬segment.LeavesFlash (.ofChip chip) := by
  constructor
  · intro hall segment hmem hleaves
    have hflash := hall _ ⟨segment, hmem, _, covers_flashEnd hleaves, rfl⟩
    exact Nat.lt_irrefl _ hflash.2
  · rintro hnone x ⟨segment, hmem, y, hcovers, heq⟩
    exact flashAt_congr hunit hsector heq (flashAt_of_covers (hnone segment hmem) hcovers)

/-! ### The spans and the pages -/

/-- **Ranges lie in flash** if and only if no segment leaves flash, where none of them is empty and
they cover what the segments touch. -/
theorem forall_flashWithin_iff {α : Type} {ranges : List α} {start stop : α → Nat}
    (hunit : 0 < unit) (hsector : unit ∣ 4096) (hne : ∀ range ∈ ranges, start range < stop range)
    (hcovers : ∀ x, (∃ range ∈ ranges, start range ≤ x ∧ x < stop range) ↔
      Touched image (flashTarget? (.ofChip chip) true) unit x) :
    (∀ range ∈ ranges, (Layout.ofChip chip).FlashWithin (start range) (stop range)) ↔
      ∀ segment ∈ image.segments, ¬segment.LeavesFlash (.ofChip chip) := by
  rw [← flashAt_of_touched_iff hunit hsector]
  constructor
  · intro hall x hx
    obtain ⟨range, hrange, hlow, hhigh⟩ := (hcovers x).mpr hx
    exact (flashWithin_iff (hne range hrange)).mp (hall range hrange) x hlow hhigh
  · intro hall range hrange
    rw [flashWithin_iff (hne range hrange)]
    intro x hlow hhigh
    exact hall x ((hcovers x).mp ⟨range, hrange, hlow, hhigh⟩)

/-- **The spans to erase lie in flash** if and only if no segment leaves flash. -/
theorem erase_within_flash_iff (h : build image (.ofChip chip) true = .ok plan) :
    (∀ span ∈ plan.erase,
      (Layout.ofChip chip).FlashWithin span.start.toNat span.stop.toNat) ↔
    ∀ segment ∈ image.segments, ¬segment.LeavesFlash (.ofChip chip) :=
  forall_flashWithin_iff (by decide) (Nat.dvd_refl 4096)
    (fun _ hspan => start_lt_stop_of_mem_erase h hspan) fun _ => exists_mem_erase_iff h

/-- **The pages lie in flash** if and only if no segment leaves flash. -/
theorem pages_within_flash_iff (h : build image (.ofChip chip) true = .ok plan) :
    (∀ page ∈ plan.pages.pages, (Layout.ofChip chip).FlashWithin page.addr.toNat page.stop) ↔
    ∀ segment ∈ image.segments, ¬segment.LeavesFlash (.ofChip chip) := by
  have hne : ∀ page ∈ plan.pages.pages, page.addr.toNat < page.stop := by
    intro page hpage
    obtain ⟨-, hsize⟩ := whole_pages h page hpage
    rw [Block.stop, hsize]
    omega
  exact forall_flashWithin_iff (show 0 < 256 by decide) (by decide) hne
    fun _ => exists_mem_pages_iff h

/-! ### The statement -/

/-- **When a plan keeps to flash**: everything that it erases and every page that it writes lies in
flash, if and only if no segment of the image begins in flash and ends behind it. -/
theorem keepsToFlash_iff (h : build image (.ofChip chip) true = .ok plan) :
    plan.KeepsToFlash (.ofChip chip) ↔
      ∀ segment ∈ image.segments, ¬segment.LeavesFlash (.ofChip chip) := by
  constructor
  · intro hkeeps
    exact (erase_within_flash_iff h).mp hkeeps.erase
  · intro hnone
    exact ⟨(erase_within_flash_iff h).mpr hnone, (pages_within_flash_iff h).mpr hnone⟩

/-- A file with one segment that ends where the flash of the smaller chip does. -/
def upToFlashEnd : Elf.Image where
  header := ⟨2, 40, 1, 0x10000001, 52, 0, 0, 32, 1, 0⟩
  segments := [⟨1, 0, 0x10fffffe, 0x10fffffe, 2, 2, 6, 4⟩]
  bytes := [0xA0, 0xA1]

/-- The plan of this file keeps to flash, because its segment does not leave flash. -/
theorem keepsToFlash_upToFlashEnd :
    ∃ plan, build upToFlashEnd (.ofChip .rp2040) true = .ok plan ∧
      (∀ segment ∈ upToFlashEnd.segments, ¬segment.LeavesFlash (.ofChip .rp2040)) ∧
      plan.KeepsToFlash (.ofChip .rp2040) := by
  have hbuild : build upToFlashEnd (.ofChip .rp2040) true =
      .ok (gather 0x10000001 [.flash ⟨0x10fffffe, [0xA0, 0xA1]⟩]) := rfl
  have hnone : ∀ segment ∈ upToFlashEnd.segments, ¬segment.LeavesFlash (.ofChip .rp2040) := by
    intro segment hmem hleaves
    obtain rfl := List.mem_singleton.mp hmem
    exact absurd hleaves.2.2 (by decide)
  exact ⟨_, hbuild, hnone, (keepsToFlash_iff hbuild).mpr hnone⟩

/-- A file with one segment that begins two bytes before the end of flash and is four bytes long. -/
def overrunningFile : List UInt8 :=
  [0x7f, 0x45, 0x4c, 0x46, 1, 1, 1] ++ List.replicate 9 0 ++
    [2, 0, 40, 0, 1, 0, 0, 0, 1, 0, 0, 0x10, 52, 0, 0, 0] ++ List.replicate 8 0 ++
    [52, 0, 32, 0, 1, 0] ++ List.replicate 6 0 ++
    [1, 0, 0, 0, 84, 0, 0, 0, 0xfe, 0xff, 0xff, 0x10, 0xfe, 0xff, 0xff, 0x10] ++
    [4, 0, 0, 0, 4, 0, 0, 0, 6, 0, 0, 0, 4, 0, 0, 0] ++ [0xA0, 0xA1, 0xA2, 0xA3]

/-- What is read from this file. -/
def overrunning : Elf.Image where
  header := ⟨2, 40, 1, 0x10000001, 52, 0, 0, 32, 1, 0⟩
  segments := [⟨1, 84, 0x10fffffe, 0x10fffffe, 4, 4, 6, 4⟩]
  bytes := overrunningFile

/-- **A plan may erase and write behind flash**: one is made of this file for the smaller chip, and
it erases the first sector behind flash and writes the first page there. -/
theorem not_keepsToFlash_overrunning :
    ¬∀ (file : List UInt8) (image : Elf.Image) (chip : Chip) (plan : Plan),
      Elf.Image.ofBytes file = .ok image → build image (.ofChip chip) true = .ok plan →
      plan.KeepsToFlash (.ofChip chip) := by
  intro hkeeps
  have hread : Elf.Image.ofBytes overrunningFile = .ok overrunning := rfl
  have hbuild : build overrunning (.ofChip .rp2040) true =
      .ok (gather 0x10000001 [.flash ⟨0x10fffffe, [0xA0, 0xA1, 0xA2, 0xA3]⟩]) := rfl
  have herase : (gather 0x10000001 [.flash ⟨0x10fffffe, [0xA0, 0xA1, 0xA2, 0xA3]⟩]).erase =
      [⟨0x10fff000, 0x11001000⟩] := rfl
  have hkept := (hkeeps overrunningFile overrunning .rp2040 _ hread hbuild).erase
    ⟨0x10fff000, 0x11001000⟩ (by rw [herase]; exact List.mem_singleton_self _)
  exact absurd hkept.2 (by decide)

end Plan

end PicoLoader
