import Mathlib.Data.List.Forall2
import PicoLoader.Plan.Entry
import PicoLoader.Proofs.Plan.Building

/-!
# What more SRAM changes

A plan is made for a layout. A load with nothing attached has no chip to ask and plans for the one
with less SRAM, so what it finds out is of use only if it stays true of the other. This file
compares the plans of one image for two layouts. Both count the same segments as flash; the second
one has at least as much SRAM.

If flash may be written, the end of SRAM is not asked for at all, and there is one plan for both
(`build_eq_of_allowFlash`). If it may not, a placement can change in one way only: a segment that
was left out finds room (`PicoLoader.Placement.Gains`). This is shown for one segment, where two
copies either both fit or only the second one does (`place_gains`), and for all of them by induction
on the list (`placements_gains`). What it means for the plan is `PicoLoader.Plan.Grows`: nothing
that was written moves, and what is new is written in between.

`PicoLoader.Plan.fitsInMore` puts the statements together, with the address to start at.
-/

namespace PicoLoader

open Memory

/-! ### Layouts -/

namespace Memory.Layout

variable {small large : Layout} {addr : UInt32}

/-- A range of flash with a copy in SRAM has the same copy in more SRAM. -/
theorem mirror?_mono (hend : small.sramEnd ≤ large.sramEnd) {size copy : UInt32}
    (h : small.mirror? addr size = some copy) : large.mirror? addr size = some copy := by
  obtain ⟨hstart, hcopy, hfits⟩ := mirror?_eq_some_iff.mp h
  have hend := UInt32.le_iff_toNat_le.mp hend
  exact mirror?_eq_some_iff.mpr ⟨hstart, hcopy, Nat.le_trans hfits hend⟩

theorem isSram_mono (hend : small.sramEnd ≤ large.sramEnd) (h : small.isSram addr = true) :
    large.isSram addr = true := by
  rw [isSram, Bool.and_eq_true, decide_eq_true_eq, decide_eq_true_eq] at h ⊢
  exact ⟨h.1, UInt32.lt_of_lt_of_le h.2 hend⟩

end Memory.Layout

/-! ### Placements -/

namespace Placement

/-- **What more SRAM does to a placement**: nothing, or a segment that was left out gets a copy. -/
inductive Gains : Placement → Placement → Prop where
  | same (placement : Placement) : Gains placement placement
  | room (source size : UInt32) (block : Block) :
    Gains (.skipped source size) (.mirrored source block)

variable {placement placement' : Placement} {placed placed' : List Placement}

/-- What was not left out stays as it was. -/
theorem Gains.eq_of_not_isSkipped (h : placement.Gains placement')
    (hskipped : placement.isSkipped = false) : placement' = placement := by
  cases h with
  | same => rfl
  | room source size block => cases hskipped

/-- A placement that gains something writes to RAM what it wrote, or something in place of
nothing. -/
theorem Gains.sublist_ramBlock? (h : placement.Gains placement') :
    placement.ramBlock?.toList.Sublist placement'.ramBlock?.toList := by
  cases h with
  | same => exact List.Sublist.refl _
  | room source size block => exact List.nil_sublist _

theorem Gains.flashBlock?_eq (h : placement.Gains placement') :
    placement'.flashBlock? = placement.flashBlock? := by
  cases h with
  | same => rfl
  | room source size block => rfl

theorem Gains.isMirrored_of (h : placement.Gains placement')
    (hmirrored : placement.isMirrored = true) : placement'.isMirrored = true := by
  cases h with
  | same => exact hmirrored
  | room source size block => rfl

theorem Gains.isSkipped_of (h : placement.Gains placement')
    (hskipped : placement'.isSkipped = true) : placement.isSkipped = true := by
  cases h with
  | same => exact hskipped
  | room source size block => rfl

end Placement

namespace Plan

open Placement

section Lists

variable {placed placed' : List Placement} (h : List.Forall₂ Gains placed placed')

include h

/-- **The blocks for RAM** keep their order, with new ones in between. -/
theorem sublist_filterMap_ramBlock? :
    (placed.filterMap ramBlock?).Sublist (placed'.filterMap ramBlock?) := by
  induction h with
  | nil => exact List.Sublist.refl _
  | cons hfirst _ ih =>
    rw [filterMap_cons_toList, filterMap_cons_toList]
    exact hfirst.sublist_ramBlock?.append ih

theorem filterMap_flashBlock?_eq :
    placed'.filterMap flashBlock? = placed.filterMap flashBlock? := by
  induction h with
  | nil => rfl
  | cons hfirst _ ih =>
    rw [filterMap_cons_toList, filterMap_cons_toList, hfirst.flashBlock?_eq, ih]

theorem any_isMirrored_of (hmirrored : placed.any isMirrored = true) :
    placed'.any isMirrored = true := by
  induction h with
  | nil => exact hmirrored
  | cons hfirst _ ih =>
    rw [List.any_cons, Bool.or_eq_true] at hmirrored ⊢
    exact hmirrored.imp hfirst.isMirrored_of ih

theorem any_isSkipped_of (hskipped : placed'.any isSkipped = true) :
    placed.any isSkipped = true := by
  induction h with
  | nil => exact hskipped
  | cons hfirst _ ih =>
    rw [List.any_cons, Bool.or_eq_true] at hskipped ⊢
    exact hskipped.imp hfirst.isSkipped_of ih

/-- **If nothing was left out**, nothing changes. -/
theorem eq_of_any_isSkipped_eq_false (hskipped : placed.any isSkipped = false) :
    placed' = placed := by
  induction h with
  | nil => rfl
  | cons hfirst _ ih =>
    rw [List.any_cons, Bool.or_eq_false_iff] at hskipped
    rw [hfirst.eq_of_not_isSkipped hskipped.1, ih hskipped.2]

end Lists

/-! ### Plans -/

/-- **What more SRAM does to a plan** that does not write flash. -/
structure Grows (plan plan' : Plan) : Prop where
  /-- What was written to RAM is written as before, with new blocks in between. -/
  ram : plan.ram.Sublist plan'.ram
  pages : plan'.pages = plan.pages
  erase : plan'.erase = plan.erase
  entry : plan'.entry = plan.entry
  /-- A plan with a copy of a segment of flash still has one. -/
  mirrored : plan.mirrored = true → plan'.mirrored = true
  /-- What is left out now was left out before. -/
  skipped : plan'.skipped = true → plan.skipped = true
  /-- If nothing was left out, nothing changes. -/
  eq_of_not_skipped : plan.skipped = false → plan' = plan

/-- Placements that gain something make a plan that grows. -/
theorem grows_gather (entry : UInt32) {placed placed' : List Placement}
    (h : List.Forall₂ Gains placed placed') :
    (gather entry placed).Grows (gather entry placed') where
  ram := sublist_filterMap_ramBlock? h
  pages := by simp only [gather, filterMap_flashBlock?_eq h]
  erase := by simp only [gather, filterMap_flashBlock?_eq h]
  entry := rfl
  mirrored := any_isMirrored_of h
  skipped := any_isSkipped_of h
  eq_of_not_skipped hskipped := congrArg (gather entry) (eq_of_any_isSkipped_eq_false h hskipped)

namespace Grows

variable {plan plan' : Plan} (h : plan.Grows plan')

include h

/-- A plan with something to write still has something to write. -/
theorem isEmpty_eq_false (hwrites : plan.isEmpty = false) : plan'.isEmpty = false := by
  rw [isEmpty, Bool.and_eq_false_iff] at hwrites ⊢
  refine hwrites.imp (fun hpages => h.pages ▸ hpages) fun hram => ?_
  rw [List.isEmpty_eq_false_iff] at hram ⊢
  intro hnil
  exact hram (List.sublist_nil.mp (hnil ▸ h.ram))

/-- **The address to start at** stays what it was, if both layouts say of the entry point whether it
is in flash. -/
theorem startAddress_eq {small large : Layout} (hend : small.sramEnd ≤ large.sramEnd)
    (hflash : large.isFlash plan.entry = small.isFlash plan.entry) {addr : UInt32}
    (hstart : plan.startAddress small false = .ok addr) :
    plan'.startAddress large false = .ok addr := by
  simp only [startAddress, h.entry, hflash, Bool.false_eq_true, if_false] at hstart ⊢
  split at hstart
  case isTrue => cases hstart
  case isFalse hzero =>
  rw [if_neg hzero]
  split at hstart
  case isTrue hin =>
    rw [if_pos hin]
    split at hstart
    case h_1 copy hcopy => simpa only [Layout.mirror?_mono hend hcopy] using hstart
    case h_2 => cases hstart
  case isFalse hout =>
    rw [if_neg hout]
    split at hstart
    case isTrue hsram => rwa [if_pos (Layout.isSram_mono hend hsram)]
    case isFalse => cases hstart

end Grows

/-! ### One segment -/

variable {image : Elf.Image} {small large : Layout} {segment : Elf.ProgramHeader}

/-- If flash may be written, nothing of a layout counts but where flash is. -/
theorem placeBytes_eq_of_allowFlash
    (hflash : large.FlashAt segment.home.toNat ↔ small.FlashAt segment.home.toNat)
    (bytes : List UInt8) :
    placeBytes large true segment bytes = placeBytes small true segment bytes := by
  by_cases hin : small.FlashAt segment.home.toNat
  · rw [placeBytes_of_flashAt_of_allowFlash hin,
      placeBytes_of_flashAt_of_allowFlash (hflash.mpr hin)]
  · rw [placeBytes_of_not_flashAt hin, placeBytes_of_not_flashAt (mt hflash.mp hin)]

theorem place_eq_of_allowFlash (hflash : segment.Loaded →
      (large.FlashAt segment.home.toNat ↔ small.FlashAt segment.home.toNat)) :
    place image large true segment = place image small true segment := by
  by_cases hbytes : segment.Loaded
  · simp only [place_of_loaded hbytes, placeBytes_eq_of_allowFlash (hflash hbytes)]
  · rw [place_of_not_loaded hbytes, place_of_not_loaded hbytes]

/-- **Bytes that are placed are placed with more SRAM**, and where they were unless they were left
out. -/
theorem placeBytes_gains (hend : small.sramEnd ≤ large.sramEnd)
    (hflash : large.FlashAt segment.home.toNat ↔ small.FlashAt segment.home.toNat)
    {bytes : List UInt8} {placement : Placement}
    (h : placeBytes small false segment bytes = .ok placement) :
    ∃ placement', placeBytes large false segment bytes = .ok placement' ∧
      placement.Gains placement' := by
  rcases placeBytes_cases h with ⟨hout, rfl, hfits⟩ | ⟨hin, -, hmirror⟩ | ⟨-, hnot, -⟩
  · refine ⟨_, ?_, .same _⟩
    rw [placeBytes_of_not_flashAt (mt hflash.mp hout), if_pos hfits]
  · rw [placeBytes_of_flashAt (hflash.mpr hin)]
    rcases hmirror with ⟨copy, hcopy, rfl⟩ | ⟨-, rfl⟩
    · rw [Layout.mirror?_mono hend hcopy]
      exact ⟨_, rfl, .same _⟩
    · cases large.mirror? segment.home segment.fileSize with
      | some copy => exact ⟨_, rfl, .room _ _ _⟩
      | none => exact ⟨_, rfl, .same _⟩
  · cases hnot

/-- **A segment that is placed is placed with more SRAM**, and gains at most a copy. -/
theorem place_gains (hend : small.sramEnd ≤ large.sramEnd) (hflash : segment.Loaded →
      (large.FlashAt segment.home.toNat ↔ small.FlashAt segment.home.toNat))
    {placed? : Option Placement} (h : place image small false segment = .ok placed?) :
    ∃ placed?', place image large false segment = .ok placed?' ∧
      List.Forall₂ Gains placed?.toList placed?'.toList := by
  rcases place_cases h with ⟨hbytes, rfl⟩ | ⟨hbytes, hnamed, hfile, placement, hplaced, rfl⟩
  · exact ⟨none, place_of_not_loaded hbytes, .nil⟩
  · obtain ⟨placement', hplaced', hgains⟩ := placeBytes_gains hend (hflash hbytes) hplaced
    exact ⟨some placement', place_of_placeBytes hbytes hnamed hfile hplaced', .cons hgains .nil⟩

/-! ### All segments -/

/-- **Segments that are all placed are all placed with more SRAM**, and each gains at most a
copy. -/
theorem placements_gains (hend : small.sramEnd ≤ large.sramEnd) {segments : List Elf.ProgramHeader}
    (hflash : ∀ segment ∈ segments, segment.Loaded →
      (large.FlashAt segment.home.toNat ↔ small.FlashAt segment.home.toNat))
    {placed : List Placement} (h : placements image small false segments = (placed, none)) :
    ∃ placed', placements image large false segments = (placed', none) ∧
      List.Forall₂ Gains placed placed' := by
  induction segments generalizing placed with
  | nil =>
    obtain rfl : [] = placed := congrArg Prod.fst h
    exact ⟨[], rfl, .nil⟩
  | cons segment segments ih =>
    obtain ⟨hfirst, hothers⟩ := List.forall_mem_cons.mp hflash
    obtain ⟨placed?, rest, hplace, hrest, rfl⟩ := exists_of_placements_cons h
    obtain ⟨placed?', hplace', hgains⟩ := place_gains hend hfirst hplace
    obtain ⟨rest', hrest', hgainsAll⟩ := ih hothers hrest
    refine ⟨placed?'.toList ++ rest', ?_, List.rel_append hgains hgainsAll⟩
    rw [placements_cons hplace', hrest']

section Image

variable (hflash : ∀ segment ∈ image.segments, segment.Loaded →
  (large.FlashAt segment.home.toNat ↔ small.FlashAt segment.home.toNat))

include hflash

/-- **If flash may be written**, the plan is the same, and so is the fault if there is none. -/
theorem build_eq_of_allowFlash : build image large true = build image small true := by
  refine build_congr rfl ?_
  rw [← List.map_id image.segments]
  exact placements_map_congr fun segment hmem => place_eq_of_allowFlash (hflash segment hmem)

/-- **If flash may not be written**, a plan grows with the SRAM. -/
theorem exists_build_grows (hend : small.sramEnd ≤ large.sramEnd) {plan : Plan}
    (h : build image small false = .ok plan) :
    ∃ plan', build image large false = .ok plan' ∧ plan.Grows plan' := by
  obtain ⟨placed, hplaced, rfl, hwrites⟩ := build_eq_ok_iff.mp h
  obtain ⟨placed', hplaced', hgains⟩ := placements_gains hend hflash hplaced
  have hgrows := grows_gather image.header.entry hgains
  refine ⟨_, build_eq_ok_iff.mpr ⟨placed', hplaced', rfl, fun _ => ?_⟩, hgrows⟩
  exact hgrows.isEmpty_eq_false (hwrites rfl)

end Image

/-! ### The statement -/

/-- **What a plan for one layout says of another** that has more SRAM. -/
structure FitsInMore (image : Elf.Image) (small large : Layout) : Prop where
  build_eq : build image large true = build image small true
  exists_build : ∀ plan, build image small false = .ok plan →
    ∃ plan', build image large false = .ok plan' ∧ plan.Grows plan'
  /-- The image is started where it was, if both layouts say of the entry point whether it is in
  flash. -/
  startAddress_eq :
    (large.FlashAt image.header.entry.toNat ↔ small.FlashAt image.header.entry.toNat) →
    ∀ plan plan', build image small false = .ok plan → build image large false = .ok plan' →
    ∀ addr, plan.startAddress small false = .ok addr → plan'.startAddress large false = .ok addr

/-- **An image that is accepted for one layout is accepted for any with more SRAM**, if both count
the same segments as flash. -/
theorem fitsInMore (hend : small.sramEnd ≤ large.sramEnd)
    (hflash : ∀ segment ∈ image.segments, segment.Loaded →
      (large.FlashAt segment.home.toNat ↔ small.FlashAt segment.home.toNat)) :
    FitsInMore image small large where
  build_eq := build_eq_of_allowFlash hflash
  exists_build _ h := exists_build_grows hflash hend h
  startAddress_eq hentry plan plan' h h' addr hstart := by
    obtain ⟨other, hother, hgrows⟩ := exists_build_grows hflash hend h
    obtain rfl := Except.ok.inj (h'.symm.trans hother)
    rw [← isFlash_eq_iff, ← entry_of_build h] at hentry
    exact hgrows.startAddress_eq hend hentry hstart

/-- A file with a segment of SRAM and one of flash, and an entry point in flash. The segment of
flash is as far into flash as the smaller SRAM is long. -/
def highFlash : Elf.Image where
  header := ⟨2, 40, 1, 0x10000001, 52, 0, 0, 32, 2, 0⟩
  segments := [⟨1, 0, 0x10042000, 0x10042000, 2, 2, 5, 4⟩,
    ⟨1, 2, 0x20000000, 0x20000000, 4, 4, 5, 4⟩]
  bytes := [0xA0, 0xA1, 0xB0, 0xB1, 0xB2, 0xB3]

/-- In the smaller SRAM there is no room for a copy, in the larger one there is. The start is the
same. -/
theorem fitsInMore_highFlash :
    Layout.rp2040.sramEnd ≤ Layout.rp2350.sramEnd ∧
    (∀ segment ∈ highFlash.segments, segment.Loaded →
      (Layout.rp2350.FlashAt segment.home.toNat ↔ Layout.rp2040.FlashAt segment.home.toNat)) ∧
    (∃ segment ∈ highFlash.segments, segment.Loaded) ∧
    build highFlash .rp2040 false = .ok (gather 0x10000001
      [.skipped 0x10042000 2, .ram ⟨0x20000000, [0xB0, 0xB1, 0xB2, 0xB3]⟩]) ∧
    build highFlash .rp2350 false = .ok (gather 0x10000001
      [.mirrored 0x10042000 ⟨0x20042000, [0xA0, 0xA1]⟩,
        .ram ⟨0x20000000, [0xB0, 0xB1, 0xB2, 0xB3]⟩]) ∧
    (gather 0x10000001 [.skipped 0x10042000 2,
      .ram ⟨0x20000000, [0xB0, 0xB1, 0xB2, 0xB3]⟩]).startAddress .rp2040 false =
        .ok 0x20000001 ∧
    FitsInMore highFlash .rp2040 .rp2350 := by
  have hend : Layout.rp2040.sramEnd ≤ Layout.rp2350.sramEnd := by decide
  have hflash : ∀ segment ∈ highFlash.segments, segment.Loaded →
      (Layout.rp2350.FlashAt segment.home.toNat ↔ Layout.rp2040.FlashAt segment.home.toNat) := by
    decide
  exact ⟨hend, hflash, by decide, rfl, rfl, rfl, fitsInMore hend hflash⟩

end Plan

end PicoLoader
