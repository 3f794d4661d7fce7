import PicoLoader.Proofs.Plan.Paging

/-!
# What is erased is exact

Both errors in an erase span do harm: flash that is written without having been erased does not hold
what was written, and flash that is erased without being written loses what it held. This file says
that a plan makes neither. It erases the sectors that segments of flash touch, all of each of them
and nothing else, and every such sector has a page of the plan.

Three facts carry it. An address is erased if and only if its sector is touched
(`exists_mem_erase_iff`); a sector is erased as a whole, with one span (`exists_mem_erase_sector`);
and no address lies in two spans (`eq_of_mem_erase`). That the spans begin and end at sector bounds
follows from these three, and needs no second look at rounding or merging: the sector of the first
address of a span is erased with one span, and that can only be this one.
-/

namespace PicoLoader

open Memory

/-- Whether a block lies between two bounds, all of it. -/
def Memory.Block.Within (block : Block) (start stop : Nat) : Prop :=
  start ≤ block.addr.toNat ∧ block.stop ≤ stop

namespace Plan

variable {image : Elf.Image} {layout : Layout} {allowFlash : Bool} {plan : Plan} {span : Span}
  {page : Block} {x y : Nat}

/-! ### Spans and sectors -/

/-- An address is erased with one span. -/
theorem eq_of_mem_erase (h : build image layout allowFlash = .ok plan) {other : Span}
    (hspan : span ∈ plan.erase) (hother : other ∈ plan.erase) (hx : span.Covers x)
    (hy : other.Covers x) : span = other := by
  rw [erase_of_build h] at hspan hother
  exact Span.eq_of_mem_merge hspan hother hx hy

/-- **A span holds all of a sector** if it holds one of its addresses. -/
theorem covers_of_mem_erase (h : build image layout allowFlash = .ok plan)
    (hspan : span ∈ plan.erase) (hx : span.Covers x) (hy : y / 4096 = x / 4096) :
    span.Covers y := by
  have htouched := (exists_mem_erase_iff h).mp ⟨span, hspan, hx⟩
  obtain ⟨whole, hwhole, hall⟩ := exists_mem_erase_sector h htouched
  rw [eq_of_mem_erase h hspan hwhole hx (hall x rfl)]
  exact hall y hy

theorem covers_start_of_mem_erase (h : build image layout allowFlash = .ok plan)
    (hspan : span ∈ plan.erase) : span.Covers span.start.toNat :=
  ⟨Nat.le_refl _, start_lt_stop_of_mem_erase h hspan⟩

/-- **Spans begin and end at sector bounds.** -/
theorem sectorSize_dvd_of_mem_erase (h : build image layout allowFlash = .ok plan)
    (hspan : span ∈ plan.erase) : 4096 ∣ span.start.toNat ∧ 4096 ∣ span.stop.toNat := by
  have hne := start_lt_stop_of_mem_erase h hspan
  constructor
  · -- The first address of the sector that the span begins in is erased with it.
    have hfirst : span.Covers (4096 * (span.start.toNat / 4096)) :=
      covers_of_mem_erase h hspan (covers_start_of_mem_erase h hspan) (by omega)
    have hle := hfirst.1
    omega
  · -- So is the last address of the sector that it ends in.
    have hlast : span.Covers (span.stop.toNat - 1) := ⟨by omega, by omega⟩
    have hend : span.Covers (4096 * ((span.stop.toNat - 1) / 4096) + 4095) :=
      covers_of_mem_erase h hspan hlast (by omega)
    have hlt := hend.2
    omega

/-- Nothing is erased if flash may not be written. -/
theorem erase_eq_nil_of_not_allowFlash (h : build image layout false = .ok plan) :
    plan.erase = [] := by
  rw [List.eq_nil_iff_forall_not_mem]
  intro span hspan
  obtain ⟨segment, -, y, ⟨target, htarget, -⟩, -⟩ :=
    (exists_mem_erase_iff h).mp ⟨span, hspan, covers_start_of_mem_erase h hspan⟩
  obtain ⟨-, -, hallow, -⟩ := flashTarget?_eq_some_iff.mp htarget
  exact Bool.false_ne_true hallow

/-! ### Spans and pages -/

/-- A page covers its first address. -/
theorem covers_addr_of_mem_pages (h : build image layout allowFlash = .ok plan)
    (hpage : page ∈ plan.pages.pages) : page.Covers page.addr.toNat := by
  obtain ⟨-, hsize⟩ := whole_pages h page hpage
  rw [Block.Covers, Block.stop, hsize]
  omega

/-- A page lies in one sector. -/
theorem within_sector_of_mem_pages (h : build image layout allowFlash = .ok plan)
    (hpage : page ∈ plan.pages.pages) (hx : page.Covers x) :
    page.Within (4096 * (x / 4096)) (4096 * (x / 4096) + 4096) := by
  obtain ⟨haligned, hsize⟩ := whole_pages h page hpage
  rw [Block.Covers, Block.stop, hsize] at hx
  rw [Block.Within, Block.stop, hsize]
  omega

/-- **A page lies in one erase span**, and in no other. -/
theorem existsUnique_span_of_mem_pages (h : build image layout allowFlash = .ok plan)
    (hpage : page ∈ plan.pages.pages) :
    ∃! span, span ∈ plan.erase ∧ page.Within span.start.toNat span.stop.toNat := by
  have hfirst := covers_addr_of_mem_pages h hpage
  obtain ⟨hlow, hhigh⟩ := within_sector_of_mem_pages h hpage hfirst
  have htouched := ((exists_mem_pages_iff h).mp ⟨page, hpage, hfirst⟩).sector
  obtain ⟨span, hspan, hall⟩ := exists_mem_erase_sector h htouched
  refine ⟨span, ⟨hspan, (hall _ rfl).1, ?_⟩, ?_⟩
  · -- The last address of the page is in the sector of the first.
    have hsame : (page.stop - 1) / 4096 = page.addr.toNat / 4096 := by
      have hne := hfirst.2
      omega
    exact Nat.le_of_pred_lt (hall _ hsame).2
  · rintro other ⟨hother, hstart, hstop⟩
    have hcovers : other.Covers page.addr.toNat := ⟨hstart, Nat.lt_of_lt_of_le hfirst.2 hstop⟩
    exact eq_of_mem_erase h hother hspan hcovers (hall _ rfl)

/-- **A sector is erased for a page that lies in it.** -/
theorem exists_page_of_mem_erase (h : build image layout allowFlash = .ok plan)
    (hspan : span ∈ plan.erase) (hx : span.Covers x) :
    ∃ page ∈ plan.pages.pages, page.Within (4096 * (x / 4096)) (4096 * (x / 4096) + 4096) := by
  obtain ⟨segment, hmem, y, hcovers, hsector⟩ := (exists_mem_erase_iff h).mp ⟨span, hspan, hx⟩
  obtain ⟨page, hpage, hy⟩ := (exists_mem_pages_iff h).mpr ⟨segment, hmem, y, hcovers, rfl⟩
  exact ⟨page, hpage, hsector ▸ within_sector_of_mem_pages h hpage hy⟩

/-- Something is erased if and only if something is written to flash. -/
theorem erase_ne_nil_iff (h : build image layout allowFlash = .ok plan) :
    plan.erase ≠ [] ↔ plan.writesFlash = true := by
  rw [writesFlash_iff, ← List.isEmpty_eq_false_iff, List.isEmpty_eq_false_iff_exists_mem]
  constructor
  · rintro ⟨span, hspan⟩
    obtain ⟨page, hpage, -⟩ := exists_page_of_mem_erase h hspan (covers_start_of_mem_erase h hspan)
    exact ⟨page, hpage⟩
  · rintro ⟨page, hpage⟩
    obtain ⟨span, ⟨hspan, -⟩, -⟩ := existsUnique_span_of_mem_pages h hpage
    exact ⟨span, hspan⟩

/-! ### The statement -/

/-- **What a plan erases**: sectors, all that segments of flash touch and no other. -/
structure ErasesExactly (image : Elf.Image) (layout : Layout) (allowFlash : Bool) (plan : Plan) :
    Prop where
  start_lt_stop : ∀ span ∈ plan.erase, span.start.toNat < span.stop.toNat
  sectorSize_dvd : ∀ span ∈ plan.erase, 4096 ∣ span.start.toNat ∧ 4096 ∣ span.stop.toNat
  /-- The spans are ascending, with a gap between any two. -/
  apart : plan.erase.Pairwise fun a b => a.stop.toNat < b.start.toNat
  /-- An address is erased if and only if a segment of flash has a byte in its sector. -/
  covers_iff : ∀ x, (∃ span ∈ plan.erase, span.Covers x) ↔
    Touched image (flashTarget? layout allowFlash) 4096 x
  eq_nil : allowFlash = false → plan.erase = []
  /-- Every page lies in one span, and in no other. -/
  existsUnique_span : ∀ page ∈ plan.pages.pages,
    ∃! span, span ∈ plan.erase ∧ page.Within span.start.toNat span.stop.toNat
  /-- A page lies in the sector of every address that is erased. -/
  exists_page : ∀ span ∈ plan.erase, ∀ x, span.Covers x →
    ∃ page ∈ plan.pages.pages, page.Within (4096 * (x / 4096)) (4096 * (x / 4096) + 4096)
  ne_nil_iff : plan.erase ≠ [] ↔ plan.writesFlash = true

/-- **What a plan that is built erases is exact.** -/
theorem erasesExactly_of_build (h : build image layout allowFlash = .ok plan) :
    ErasesExactly image layout allowFlash plan where
  start_lt_stop _ hspan := start_lt_stop_of_mem_erase h hspan
  sectorSize_dvd _ hspan := sectorSize_dvd_of_mem_erase h hspan
  apart := erase_of_build h ▸ Span.pairwise_merge _
  covers_iff _ := exists_mem_erase_iff h
  eq_nil hnot := by
    subst hnot
    exact erase_eq_nil_of_not_allowFlash h
  existsUnique_span _ hpage := existsUnique_span_of_mem_pages h hpage
  exists_page _ hspan _ hx := exists_page_of_mem_erase h hspan hx
  ne_nil_iff := erase_ne_nil_iff h

/-- A file with two segments of flash that lie apart, the later one first. The other reaches over a
sector bound. -/
def farApart : Elf.Image where
  header := ⟨2, 40, 1, 0x10000ffe, 52, 0, 0, 32, 2, 0⟩
  segments := [⟨1, 0, 0x10003000, 0x10003000, 1, 1, 5, 4⟩,
    ⟨1, 1, 0x10000ffe, 0x10000ffe, 4, 4, 5, 4⟩]
  bytes := [0xA0, 0xB0, 0xB1, 0xB2, 0xB3]

/-- Three sectors are erased for this file, in two spans. -/
theorem erasesExactly_farApart :
    ∃ plan, build farApart .rp2040 true = .ok plan ∧
      plan.erase = [⟨0x10000000, 0x10002000⟩, ⟨0x10003000, 0x10004000⟩] ∧
      ErasesExactly farApart .rp2040 true plan := by
  have hbuild : build farApart .rp2040 true = .ok (gather 0x10000ffe
      [.flash ⟨0x10003000, [0xA0]⟩, .flash ⟨0x10000ffe, [0xB0, 0xB1, 0xB2, 0xB3]⟩]) := rfl
  exact ⟨_, hbuild, rfl, erasesExactly_of_build hbuild⟩

end Plan

end PicoLoader
