import Mathlib.Data.List.Pairwise
import PicoLoader.Proofs.Memory.MaximalRuns
import PicoLoader.Proofs.Plan.Paging
import PicoLoader.Proofs.Plan.Refusals

/-!
# The order of the segments

Planning goes through the segments in file order, but a linker may write them in any. This file says
what the order can change when flash may be written. Two images with the same segments in different
orders (`PicoLoader.Elf.Image.Reorders`) are accepted alike, have the same spans to erase, and have
the same blocks for RAM, each in its own order.

The pages are the same too if the segments of flash lie apart (`PicoLoader.Plan.FlashApart`). They
may still share pages, and then a page is filled by several segments in turn. Which of them comes
first, and finds no page yet, depends on the order; what the page holds in the end does not
(`PicoLoader.Memory.PageMap.foldl_scatter_perm`). Segments that do not lie apart are another matter:
where they overlap, the last one in file order counts.

`PicoLoader.Plan.orderFree` puts the statements together.
-/

namespace PicoLoader

open Memory

namespace Elf.Image

/-- Two images with the same segments, perhaps in another order. The rest of the files may differ,
but not the bytes of a segment. -/
structure Reorders (image other : Image) : Prop where
  perm : other.segments.Perm image.segments
  content_eq : ∀ segment ∈ image.segments, segment.Loaded →
    other.content segment = image.content segment

theorem Reorders.symm {image other : Image} (h : image.Reorders other) : other.Reorders image where
  perm := h.perm.symm
  content_eq segment hmem hbytes := (h.content_eq segment (h.perm.mem_iff.mp hmem) hbytes).symm

end Elf.Image

namespace Plan

/-- No two segments of flash cover one address. -/
def FlashApart (image : Elf.Image) (layout : Layout) : Prop :=
  image.segments.Pairwise fun a b => ∀ x,
    ¬(Covers (flashTarget? layout true) a x ∧ Covers (flashTarget? layout true) b x)

variable {image other : Elf.Image} {layout : Layout} {plan plan' : Plan}

/-! ### Whether there is a plan -/

/-- **There is a plan that may write flash** if every segment can be placed, whatever comes before
it. -/
theorem exists_build_iff : (∃ plan, build image layout true = .ok plan) ↔
    ∀ segment ∈ image.segments, ∃ placed?, place image layout true segment = .ok placed? := by
  simp only [exists_place_eq_ok_iff]
  rw [← snd_placements_eq_none_iff]
  constructor
  · rintro ⟨plan, h⟩
    obtain ⟨placed, hplaced, -⟩ := exists_gather_of_build h
    exact congrArg Prod.snd hplaced
  · intro hnone
    exact ⟨_, build_eq_ok_iff.mpr ⟨_, Prod.ext rfl hnone, rfl, fun hnot => by cases hnot⟩⟩

theorem exists_build_of_reorders (h : image.Reorders other)
    (hbuild : build image layout true = .ok plan) :
    ∃ plan', build other layout true = .ok plan' := by
  refine exists_build_iff.mpr fun segment hmem => ?_
  have hmem := h.perm.mem_iff.mp hmem
  rw [place_eq_of_content_eq (h.content_eq segment hmem)]
  exact exists_build_iff.mp ⟨plan, hbuild⟩ segment hmem

/-! ### Blocks -/

/-- A segment names the same bytes in both images. -/
theorem slice_eq_of_reorders (h : image.Reorders other)
    (hbuild : build image layout true = .ok plan) {segment : Elf.ProgramHeader}
    (hmem : segment ∈ image.segments) (hbytes : segment.Loaded) :
    other.slice segment = image.slice segment := by
  have hfile := (placeable_of_build hbuild segment hmem hbytes).inFile
  have hcontent := h.content_eq segment hmem hbytes
  rw [(content_eq_ok_iff hbytes).mpr ⟨hfile, rfl⟩, content_eq_ok_iff hbytes] at hcontent
  exact hcontent.2.symm

/-- **The blocks are the same**, each image having them in the order of its segments. -/
theorem blocks_perm (h : image.Reorders other) (hbuild : build image layout true = .ok plan)
    {target? : Elf.ProgramHeader → Option Nat}
    (htarget : ∀ segment target, target? segment = some target → segment.Loaded) :
    (blocks other target?).Perm (blocks image target?) := by
  have hblocks : blocks image target? = image.segments.filterMap fun segment =>
      (target? segment).map (other.blockAt segment) := by
    refine List.filterMap_congr fun segment hmem => ?_
    cases hsome : target? segment with
    | none => rfl
    | some target =>
      have hslice := slice_eq_of_reorders h hbuild hmem (htarget segment target hsome)
      rw [Option.map_some, Option.map_some, Elf.Image.blockAt, Elf.Image.blockAt, hslice]
  rw [hblocks]
  exact h.perm.filterMap _

/-- Of segments of flash that lie apart, only one has a block for an address. -/
theorem eq_of_mem_flash (hbuild : build image layout true = .ok plan)
    (hapart : FlashApart image layout) {a b : Block} {x : Nat}
    (ha : a ∈ blocks image (flashTarget? layout true))
    (hb : b ∈ blocks image (flashTarget? layout true)) (hax : a.Covers x) (hbx : b.Covers x) :
    a = b := by
  have hsound := soundTargets_flash hbuild
  obtain ⟨s, hs, target, htarget, rfl, hsx⟩ := exists_of_mem_blocks_of_covers hsound ha hax
  obtain ⟨t, ht, target', htarget', rfl, htx⟩ := exists_of_mem_blocks_of_covers hsound hb hbx
  have hsymm : Std.Symm fun a b => ∀ x,
      ¬(Covers (flashTarget? layout true) a x ∧ Covers (flashTarget? layout true) b x) :=
    ⟨fun _ _ hnot x hboth => hnot x hboth.symm⟩
  obtain rfl : s = t := by
    by_contra hne
    exact List.Pairwise.forall hapart hs ht hne x ⟨hsx, htx⟩
  rw [Option.some.inj (htarget.symm.trans htarget')]

/-! ### The parts of the plan -/

section Parts

variable (h : image.Reorders other) (hbuild : build image layout true = .ok plan)
  (hbuild' : build other layout true = .ok plan')

include h hbuild hbuild'

theorem ram_perm_of_reorders : plan'.ram.Perm plan.ram := by
  rw [ram_of_build hbuild, ram_of_build hbuild']
  exact blocks_perm h hbuild fun _ _ htarget => (ramTarget?_eq_some_iff.mp htarget).1

omit hbuild' in
theorem flashBlocks_perm :
    (blocks other (flashTarget? layout true)).Perm (blocks image (flashTarget? layout true)) :=
  blocks_perm h hbuild fun _ _ htarget => (flashTarget?_eq_some_iff.mp htarget).1

/-- **The spans to erase are the same**, because merging them forgets their order. -/
theorem erase_eq_of_reorders : plan'.erase = plan.erase := by
  rw [erase_of_build hbuild, erase_of_build hbuild']
  refine Span.merge_eq_of_perm (fun span hspan => ?_) ((flashBlocks_perm h hbuild).map sectors)
  obtain ⟨block, hblock, rfl⟩ := List.mem_map.mp hspan
  obtain ⟨hstop, hsize⟩ := bounds_of_mem_flash hbuild hblock
  exact start_lt_stop_sectors hstop hsize

/-- **The pages are the same** if the segments of flash lie apart. -/
theorem pages_eq_of_reorders (hapart : FlashApart image layout) : plan'.pages = plan.pages := by
  rw [pages_of_build hbuild, pages_of_build hbuild']
  exact PageMap.foldl_scatter_perm PageMap.whole_empty (flashBlocks_perm h hbuild)
    (stop_le_of_mem_flash hbuild) fun _ _ ha _ hb => eq_of_mem_flash hbuild hapart ha hb

end Parts

/-! ### The statement -/

/-- **What the order of the segments does not change** when flash may be written. -/
structure OrderFree (image other : Elf.Image) (layout : Layout) : Prop where
  exists_build_iff : (∃ plan', build other layout true = .ok plan') ↔
    ∃ plan, build image layout true = .ok plan
  erase_eq : ∀ plan plan', build image layout true = .ok plan →
    build other layout true = .ok plan' → plan'.erase = plan.erase
  ram_perm : ∀ plan plan', build image layout true = .ok plan →
    build other layout true = .ok plan' → plan'.ram.Perm plan.ram
  /-- The pages are the same, byte for byte, if no two segments of flash cover one address. -/
  pages_eq : FlashApart image layout → ∀ plan plan', build image layout true = .ok plan →
    build other layout true = .ok plan' → plan'.pages = plan.pages

/-- **The order of the segments does not matter**, but for the order of the blocks for RAM, and for
what is in flash where segments overlap. -/
theorem orderFree (layout : Layout) (h : image.Reorders other) : OrderFree image other layout where
  exists_build_iff := by
    constructor
    · rintro ⟨plan', hbuild'⟩
      exact exists_build_of_reorders h.symm hbuild'
    · rintro ⟨plan, hbuild⟩
      exact exists_build_of_reorders h hbuild
  erase_eq _ _ hbuild hbuild' := erase_eq_of_reorders h hbuild hbuild'
  ram_perm _ _ hbuild hbuild' := ram_perm_of_reorders h hbuild hbuild'
  pages_eq hapart _ _ hbuild hbuild' := pages_eq_of_reorders h hbuild hbuild' hapart

/-- A file with two segments of SRAM and three of flash, in some order. Two of those of flash share
a page, and the third one shares a sector with them. -/
def sharedPage (order : List Elf.ProgramHeader → List Elf.ProgramHeader) : Elf.Image where
  header := ⟨2, 40, 1, 0x10000001, 52, 0, 0, 32, 5, 0⟩
  segments := order [⟨1, 0, 0x10000000, 0x10000000, 2, 2, 5, 4⟩,
    ⟨1, 2, 0x20000000, 0x20000000, 1, 1, 6, 4⟩,
    ⟨1, 3, 0x10000002, 0x10000002, 2, 2, 5, 4⟩,
    ⟨1, 5, 0x20000100, 0x20000100, 1, 1, 6, 4⟩,
    ⟨1, 6, 0x10000200, 0x10000200, 1, 1, 5, 4⟩]
  bytes := [0xA0, 0xA1, 0xB0, 0xC0, 0xC1, 0xD0, 0xE0]

/-- From the first to the last or from the last to the first, the pages are the same. -/
theorem orderFree_sharedPage :
    (sharedPage id).Reorders (sharedPage List.reverse) ∧ FlashApart (sharedPage id) .rp2040 ∧
    build (sharedPage id) .rp2040 true = .ok (gather 0x10000001
      [.flash ⟨0x10000000, [0xA0, 0xA1]⟩, .ram ⟨0x20000000, [0xB0]⟩,
        .flash ⟨0x10000002, [0xC0, 0xC1]⟩, .ram ⟨0x20000100, [0xD0]⟩,
        .flash ⟨0x10000200, [0xE0]⟩]) ∧
    build (sharedPage List.reverse) .rp2040 true = .ok (gather 0x10000001
      [.flash ⟨0x10000200, [0xE0]⟩, .ram ⟨0x20000100, [0xD0]⟩,
        .flash ⟨0x10000002, [0xC0, 0xC1]⟩, .ram ⟨0x20000000, [0xB0]⟩,
        .flash ⟨0x10000000, [0xA0, 0xA1]⟩]) ∧
    OrderFree (sharedPage id) (sharedPage List.reverse) .rp2040 := by
  have hreorders : (sharedPage id).Reorders (sharedPage List.reverse) :=
    ⟨List.reverse_perm _, fun _ _ _ => rfl⟩
  have hapart : FlashApart (sharedPage id) .rp2040 := by
    -- In this order every segment of flash ends before the next one begins.
    have hbefore : (sharedPage id).segments.Pairwise fun a b =>
        ∀ target ∈ flashTarget? .rp2040 true a, ∀ target' ∈ flashTarget? .rp2040 true b,
          target + a.fileSize.toNat ≤ target' := by decide
    refine hbefore.imp fun hle x => ?_
    rintro ⟨⟨target, htarget, -, hhigh⟩, target', htarget', hlow, -⟩
    have hle := hle target htarget target' htarget'
    omega
  exact ⟨hreorders, hapart, rfl, rfl, orderFree .rp2040 hreorders⟩

end Plan

end PicoLoader
