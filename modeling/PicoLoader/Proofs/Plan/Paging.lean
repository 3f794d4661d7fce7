import PicoLoader.Proofs.Memory.Scattering
import PicoLoader.Proofs.Plan.Erasing

/-!
# What the pages of a plan hold

The pages of a plan are what the segments of flash are scattered into. This file says what they hold
in terms of the segments: every page that a segment touches is there, it has the byte of the last
segment at every address that one covers, and zero at every other (`lastByte?_pages_of_touched`). No
other page is there (`lastByte?_pages_of_not_touched`), and no two pages share an address
(`pairwise_pages`), so that the order in which they are written does not matter.
-/

namespace PicoLoader.Plan

open Memory

variable {image : Elf.Image} {layout : Layout} {allowFlash : Bool} {plan : Plan} {x : Nat}

/-- The pages of a plan are whole. -/
theorem whole_pages (h : build image layout allowFlash = .ok plan) : plan.pages.Whole := by
  rw [pages_of_build h]
  exact PageMap.whole_foldl_scatter PageMap.whole_empty _

theorem stop_le_of_mem_flash (h : build image layout allowFlash = .ok plan) :
    ∀ block ∈ blocks image (flashTarget? layout allowFlash), block.stop ≤ UInt32.size :=
  fun _ hblock => Nat.le_trans (bounds_of_mem_flash h hblock).1 (by decide)

/-- The page of an address that a segment touches lies in the address space. -/
theorem lt_size_of_touched (h : build image layout allowFlash = .ok plan)
    (hx : Touched image (flashTarget? layout allowFlash) 256 x) : x < UInt32.size := by
  obtain ⟨segment, hmem, y, ⟨target, htarget, -, hy⟩, hpage⟩ := hx
  obtain ⟨-, hsize, -⟩ := soundTargets_flash h segment hmem target htarget
  have hlt : y < 4294967296 := Nat.lt_trans hy hsize
  have hlt : x < 4294967296 := by omega
  exact hlt

/-- **A page that a segment touches** has the byte of the last segment, or zero. -/
theorem lastByte?_pages_of_touched (h : build image layout allowFlash = .ok plan)
    (hx : Touched image (flashTarget? layout allowFlash) 256 x) :
    lastByte? plan.pages.pages x =
      some ((lastByte? (blocks image (flashTarget? layout allowFlash)) x).getD 0) := by
  have hlt := lt_size_of_touched h hx
  have htouch := (exists_touches_blocks_iff (soundTargets_flash h)).mpr hx
  rw [PageMap.lastByte?_pages (whole_pages h) hlt, pages_of_build h,
    PageMap.byte?_foldl_scatter_of_touches PageMap.whole_empty (stop_le_of_mem_flash h) hlt htouch]
  rfl

/-- **There is no page that no segment touches.** -/
theorem lastByte?_pages_of_not_touched (h : build image layout allowFlash = .ok plan)
    (hx : ¬Touched image (flashTarget? layout allowFlash) 256 x) :
    lastByte? plan.pages.pages x = none := by
  rcases Nat.lt_or_ge x UInt32.size with hlt | hge
  · have htouch : ∀ block ∈ blocks image (flashTarget? layout allowFlash), ¬block.Touches 256 x :=
      fun block hblock hc =>
        hx ((exists_touches_blocks_iff (soundTargets_flash h)).mp ⟨block, hblock, hc⟩)
    rw [PageMap.lastByte?_pages (whole_pages h) hlt, pages_of_build h,
      PageMap.byte?_foldl_scatter_of_not_touches PageMap.whole_empty (stop_le_of_mem_flash h) hlt
        htouch]
    rfl
  · -- A whole page ends at the latest where the address space does.
    rw [lastByte?_eq_none_iff]
    intro page hpage hcovers
    obtain ⟨haligned, hsize⟩ := whole_pages h page hpage
    exact Nat.not_lt_of_le hge (PageMap.lt_size_of_covers haligned hsize hcovers)

/-- An address is in a page of the plan if and only if a segment touches its page. -/
theorem exists_mem_pages_iff (h : build image layout allowFlash = .ok plan) :
    (∃ page ∈ plan.pages.pages, page.Covers x) ↔
      Touched image (flashTarget? layout allowFlash) 256 x := by
  constructor
  · rintro ⟨page, hpage, hcovers⟩
    by_contra hx
    exact lastByte?_eq_none_iff.mp (lastByte?_pages_of_not_touched h hx) page hpage hcovers
  · intro hx
    by_contra hnone
    have hbyte := lastByte?_pages_of_touched h hx
    rw [lastByte?_eq_none_iff.mpr fun page hpage hc => hnone ⟨page, hpage, hc⟩] at hbyte
    cases hbyte

/-- A plan writes flash if and only if it has a page. -/
theorem writesFlash_iff : plan.writesFlash = true ↔ ∃ page, page ∈ plan.pages.pages := by
  rw [writesFlash, PageMap.isEmpty, Bool.not_eq_true', List.isEmpty_eq_false_iff_exists_mem]

/-- Two addresses of one page are in the same unit of sixteen pages. -/
theorem Touched.sector {target? : Elf.ProgramHeader → Option Nat}
    (hx : Touched image target? 256 x) : Touched image target? 4096 x := by
  obtain ⟨segment, hmem, y, hcovers, hpage⟩ := hx
  exact ⟨segment, hmem, y, hcovers, by omega⟩

/-- **Pages are apart.** -/
theorem pairwise_pages (h : build image layout allowFlash = .ok plan) (x : Nat) :
    plan.pages.pages.Pairwise fun a b => ¬(a.Covers x ∧ b.Covers x) := by
  refine plan.pages.ascending.imp_of_mem ?_
  rintro a b ha hb hlt ⟨hax, hbx⟩
  obtain rfl := PageMap.eq_of_mem_pages (whole_pages h) ha hb hax hbx
  exact UInt32.lt_irrefl _ hlt

/-- A page covers all addresses of one page number, if it covers one of them. -/
theorem covers_of_mem_pages (h : build image layout allowFlash = .ok plan) {page : Block}
    (hpage : page ∈ plan.pages.pages) (hcovers : page.Covers x) {y : Nat}
    (hy : y / 256 = x / 256) : page.Covers y := by
  obtain ⟨haligned, hsize⟩ := whole_pages h page hpage
  rw [Block.Covers, Block.stop, hsize] at hcovers ⊢
  omega

/-- The pages before and after a page cover none of its addresses. -/
theorem not_covers_of_other_page (h : build image layout allowFlash = .ok plan)
    {earlier later : List Block} {page : Block}
    (hsplit : plan.pages.pages = earlier ++ page :: later) (hcovers : page.Covers x) :
    ∀ other ∈ earlier ++ later, ¬other.Covers x := by
  intro other hother hc
  have hapart := pairwise_pages h x
  rw [hsplit, List.pairwise_append] at hapart
  obtain ⟨-, hlater, hearlier⟩ := hapart
  rcases List.mem_append.mp hother with hother | hother
  · exact hearlier other hother page List.mem_cons_self ⟨hc, hcovers⟩
  · exact (List.pairwise_cons.mp hlater).1 other hother ⟨hcovers, hc⟩

end PicoLoader.Plan
