import PicoLoader.Proofs.Load.RamLoad
import PicoLoader.Proofs.Plan.Paging

/-!
# What a load leaves in flash

A load that may write flash puts the segments of flash where they belong. Flash is erased by sectors
and written by pages, so it has to touch more than the segments: this file says what a load leaves
at *every* address, from the program headers and the bytes of the file alone.

| address | byte left |
|---|---|
| covered by a segment of flash | that of the last of them |
| else, in a page that one touches | `0` |
| else, in a sector that one touches | `0xFF` |
| else, covered by a segment of RAM | that of the last of them |
| any other | the old one |

A write to erased flash can only clear bits (`PicoLoader.Load.Device.store`), so this rests on the
order of the calls: every page is written once, as a whole, behind all erasing, and nothing else is
written to it. The one thing to ask for is that no segment of RAM reaches into an erased sector.
`PicoLoader.Load.FillsFlash` puts the statements together.
-/

namespace PicoLoader.Load

open Memory Plan

/-- No segment of RAM reaches into what is erased. -/
def RamApart (image : Elf.Image) (layout : Layout) (plan : Plan) : Prop :=
  ∀ x, (∃ span ∈ plan.erase, span.Covers x) →
    ∀ segment ∈ image.segments, ¬Covers (ramTarget? layout true) segment x

variable {image : Elf.Image} {layout : Layout} {allowFlash : Bool} {plan : Plan} {x : Nat}

/-! ### The calls -/

/-- A plan with a segment of flash writes flash. -/
theorem writesFlash_of_touched (h : build image layout allowFlash = .ok plan)
    (hx : Touched image (flashTarget? layout allowFlash) 4096 x) : plan.writesFlash = true := by
  obtain ⟨segment, hmem, y, hcovers, -⟩ := hx
  obtain ⟨page, hpage, -⟩ := (exists_mem_pages_iff h).mpr ⟨segment, hmem, y, hcovers, rfl⟩
  exact writesFlash_iff.mpr ⟨page, hpage⟩

/-- The calls that prepare flash. -/
def preparing (plan : Plan) : List Call :=
  if plan.writesFlash then
    .exitXip :: plan.erase.map fun span => .erase span.start span.length
  else []

/-- **The calls of a load** on which nothing fails: preparing flash, then RAM, then the pages. -/
theorem calls_of_build (h : build image layout allowFlash = .ok plan) :
    (ideal plan layout allowFlash false).calls =
      .resetInterface :: (preparing plan ++ (plan.ram.flatMap Block.chunks).map writeOf ++
        plan.pages.pages.map writeOf) := by
  rw [(ideal_of_build h).2, flatMap_calls_loading]
  rfl

/-- **Preparing flash** erases the sectors that segments of flash touch. -/
theorem play_preparing_of_touched (h : build image layout allowFlash = .ok plan)
    (hx : Touched image (flashTarget? layout allowFlash) 4096 x) (device : Device) :
    (device.play (preparing plan)).cell x = 0xFF ∧
      (device.play (preparing plan)).erased x = true := by
  rw [preparing, if_pos (writesFlash_of_touched h hx)]
  exact Device.play_erases_of_covers device (loadable_of_build h).start_le_stop
    ((exists_mem_erase_iff h).mpr hx)

/-- Preparing flash changes nothing else. -/
theorem play_preparing_of_not_touched (h : build image layout allowFlash = .ok plan)
    (hx : ¬Touched image (flashTarget? layout allowFlash) 4096 x) (device : Device) :
    (device.play (preparing plan)).cell x = device.cell x ∧
      (device.play (preparing plan)).erased x = device.erased x := by
  rw [preparing]
  split
  · exact Device.play_erases_of_not_covers device (loadable_of_build h).start_le_stop
      fun span hspan hc => hx ((exists_mem_erase_iff h).mp ⟨span, hspan, hc⟩)
  · exact ⟨rfl, rfl⟩

/-- Where no block for RAM is, there is no chunk of one. -/
theorem not_covers_of_mem_chunks (h : build image layout allowFlash = .ok plan)
    (hclear : ∀ block ∈ plan.ram, ¬block.Covers x) :
    ∀ chunk ∈ plan.ram.flatMap Block.chunks, ¬chunk.Covers x := by
  rw [← lastByte?_eq_none_iff, Block.lastByte?_flatMap_chunks (stop_le_of_mem_ram h)]
  exact lastByte?_eq_none_iff.mpr hclear

/-- In an erased sector no block for RAM covers an address. -/
theorem not_covers_of_mem_ram (h : build image layout true = .ok plan)
    (hapart : RamApart image layout plan)
    (hx : Touched image (flashTarget? layout true) 4096 x) :
    ∀ block ∈ plan.ram, ¬block.Covers x := by
  rw [← lastByte?_eq_none_iff, ram_of_build h]
  exact lastByte?_blocks_eq_none (soundTargets_ram h) (hapart x ((exists_mem_erase_iff h).mpr hx))

/-! ### The memory -/

/-- The three parts of a load, one after the other. -/
theorem cell_play_ideal (h : build image layout allowFlash = .ok plan) (device : Device) :
    (device.play (ideal plan layout allowFlash false).calls).cell =
      (((device.play (preparing plan)).play
        ((plan.ram.flatMap Block.chunks).map writeOf)).play
          (plan.pages.pages.map writeOf)).cell := by
  rw [calls_of_build h, Device.play_cons, Device.play_append, Device.play_append]
  rfl

/-- **In a sector that is touched** the pages are what is left, and `0xFF` around them, whatever the
device was like before. -/
theorem cell_play_ideal_of_touched (h : build image layout allowFlash = .ok plan)
    (hclear : ∀ block ∈ plan.ram, ¬block.Covers x)
    (hx : Touched image (flashTarget? layout allowFlash) 4096 x) (device : Device) :
    (device.play (ideal plan layout allowFlash false).calls).cell x =
      (lastByte? plan.pages.pages x).getD 0xFF := by
  obtain ⟨hcell, herased⟩ := play_preparing_of_touched h hx device
  rw [cell_play_ideal h]
  -- The chunks for RAM leave the byte erased, so the pages find `0xFF`.
  refine Device.cell_play_writes_erased _ ?_ ?_ (pairwise_pages h x)
  · rw [Device.erased_play_writes]
    exact herased
  · rw [Device.cell_play_writes_of_not_covers _ (not_covers_of_mem_chunks h hclear)]
    exact hcell

/-- **Elsewhere** the blocks for RAM are, unless the address was erased flash already. -/
theorem cell_play_ideal_of_not_touched (h : build image layout allowFlash = .ok plan)
    (hx : ¬Touched image (flashTarget? layout allowFlash) 4096 x) {device : Device}
    (hdevice : device.erased x = false) :
    (device.play (ideal plan layout allowFlash false).calls).cell x =
      (lastByte? plan.ram x).getD (device.cell x) := by
  obtain ⟨hcell, herased⟩ := play_preparing_of_not_touched h hx device
  have hpages : ∀ page ∈ plan.pages.pages, ¬page.Covers x := fun page hpage hc =>
    hx ((exists_mem_pages_iff h).mp ⟨page, hpage, hc⟩).sector
  rw [cell_play_ideal h, Device.cell_play_writes_of_not_covers _ hpages,
    Device.cell_play_writes _ (herased.trans hdevice),
    Block.lastByte?_flatMap_chunks (stop_le_of_mem_ram h), hcell]

/-- In a sector that is touched, a load into flash leaves the pages. -/
theorem memoryAfter_of_touched (h : build image layout true = .ok plan)
    (hapart : RamApart image layout plan)
    (hx : Touched image (flashTarget? layout true) 4096 x) (memory : Nat → UInt8) :
    memoryAfter plan layout true memory x = (lastByte? plan.pages.pages x).getD 0xFF :=
  cell_play_ideal_of_touched h (not_covers_of_mem_ram h hapart hx) hx _

/-- Elsewhere it leaves the blocks for RAM. -/
theorem memoryAfter_of_not_touched (h : build image layout true = .ok plan)
    (hx : ¬Touched image (flashTarget? layout true) 4096 x) (memory : Nat → UInt8) :
    memoryAfter plan layout true memory x =
      (lastByte? (blocks image (ramTarget? layout true)) x).getD (memory x) := by
  rw [← ram_of_build h]
  exact cell_play_ideal_of_not_touched h hx rfl

/-! ### The order of the calls -/

/-- The address and the bytes that a call writes, as a block. -/
def Call.written? : Call → Option Block
  | write addr bytes => some ⟨addr, bytes⟩
  | _ => none

/-- **The page of an address is written once**: as a whole, when flash has been left and the sector
has been erased. After it nothing but pages is written, and no other call writes to the page. -/
def WrittenOnce (plan : Plan) (layout : Layout) (x : Nat) : Prop :=
  ∃ (before after : List Call) (page : Block),
    (ideal plan layout true false).calls = before ++ writeOf page :: after ∧
    page.addr.toNat = 256 * (x / 256) ∧ page.size = 256 ∧
    .exitXip ∈ before ∧
    (∃ addr size, .erase addr size ∈ before ∧
      ∀ y, y / 4096 = x / 4096 → addr.toNat ≤ y ∧ y < addr.toNat + size.toNat) ∧
    (∀ call ∈ after, ∃ block ∈ plan.pages.pages, call = writeOf block) ∧
    ∀ call ∈ before ++ after, ∀ block, call.written? = some block →
      ∀ y, y / 256 = x / 256 → ¬block.Covers y

/-- What prepares flash writes nothing. -/
theorem written?_of_mem_preparing {call : Call} (h : call ∈ preparing plan) :
    call.written? = none := by
  rw [preparing] at h
  split at h
  · rcases List.mem_cons.mp h with rfl | h
    · rfl
    · obtain ⟨span, -, rfl⟩ := List.mem_map.mp h
      rfl
  · cases h

/-- Flash is left and the sector erased when the preparation is over. -/
theorem mem_preparing_of_touched (h : build image layout true = .ok plan)
    (hx : Touched image (flashTarget? layout true) 4096 x) :
    .exitXip ∈ preparing plan ∧
    ∃ addr size, .erase addr size ∈ preparing plan ∧
      ∀ y, y / 4096 = x / 4096 → addr.toNat ≤ y ∧ y < addr.toNat + size.toNat := by
  rw [preparing, if_pos (writesFlash_of_touched h hx)]
  refine ⟨List.mem_cons_self, ?_⟩
  obtain ⟨span, hspan, hsector⟩ := exists_mem_erase_sector h hx
  refine ⟨span.start, span.length, List.mem_cons_of_mem _ (List.mem_map_of_mem hspan), ?_⟩
  intro y hy
  exact (Device.covers_iff_of_le ((loadable_of_build h).start_le_stop span hspan)).mp (hsector y hy)

/-- Nothing is written to a page but the page itself. -/
theorem not_covers_of_written? (h : build image layout true = .ok plan)
    (hapart : RamApart image layout plan)
    (hx : Touched image (flashTarget? layout true) 256 x) {pages : List Block}
    (hpages : ∀ page ∈ pages, ¬page.Covers x) {call : Call}
    (hcall : call ∈ .resetInterface :: (preparing plan ++
      (plan.ram.flatMap Block.chunks).map writeOf ++ pages.map writeOf))
    {block : Block} (hwritten : call.written? = some block) : ¬block.Covers x := by
  rw [List.mem_cons, List.mem_append, List.mem_append] at hcall
  rcases hcall with rfl | (hcall | hcall) | hcall
  · cases hwritten
  · rw [written?_of_mem_preparing hcall] at hwritten
    cases hwritten
  · obtain ⟨chunk, hchunk, rfl⟩ := List.mem_map.mp hcall
    obtain rfl := Option.some.inj hwritten
    exact not_covers_of_mem_chunks h (not_covers_of_mem_ram h hapart hx.sector) chunk hchunk
  · obtain ⟨page, hpage, rfl⟩ := List.mem_map.mp hcall
    obtain rfl := Option.some.inj hwritten
    exact hpages page hpage

/-- **Each page that is touched is written once.** -/
theorem writtenOnce_of_touched (h : build image layout true = .ok plan)
    (hapart : RamApart image layout plan)
    (hx : Touched image (flashTarget? layout true) 256 x) : WrittenOnce plan layout x := by
  obtain ⟨page, hpage, hcovers⟩ := (exists_mem_pages_iff h).mpr hx
  obtain ⟨haligned, hsize⟩ := whole_pages h page hpage
  obtain ⟨earlier, later, hsplit⟩ := List.append_of_mem hpage
  obtain ⟨hexit, addr, size, herase, hsector⟩ := mem_preparing_of_touched h hx.sector
  refine ⟨.resetInterface :: (preparing plan ++ (plan.ram.flatMap Block.chunks).map writeOf ++
    earlier.map writeOf), later.map writeOf, page, ?_, ?_, hsize, ?_, ⟨addr, size, ?_, hsector⟩,
    ?_, ?_⟩
  · rw [calls_of_build h, hsplit, List.map_append, List.map_cons, List.cons_append,
      List.append_assoc _ (earlier.map writeOf)]
  · rw [Block.Covers, Block.stop, hsize] at hcovers
    omega
  · exact List.mem_cons_of_mem _ (List.mem_append_left _ (List.mem_append_left _ hexit))
  · exact List.mem_cons_of_mem _ (List.mem_append_left _ (List.mem_append_left _ herase))
  · intro call hcall
    obtain ⟨block, hblock, rfl⟩ := List.mem_map.mp hcall
    exact ⟨block, hsplit ▸ List.mem_append_right _ (List.mem_cons_of_mem _ hblock), rfl⟩
  · intro call hcall block hwritten y hy
    -- The calls around the page are those of a load that has no such page.
    have hothers := not_covers_of_other_page h hsplit (covers_of_mem_pages h hpage hcovers hy)
    refine not_covers_of_written? h hapart (hx.congr hy) hothers ?_ hwritten
    rwa [List.map_append, ← List.append_assoc, ← List.cons_append]

/-! ### The statement -/

/-- **What is left of a load into flash.** -/
structure FillsFlash (image : Elf.Image) (layout : Layout) (plan : Plan) : Prop where
  result_ok : (ideal plan layout true false).result = .ok ()
  /-- An address that segments of flash cover has the byte of the last of them. -/
  memoryAfter_of_flash : ∀ (memory : Nat → UInt8) (segment : Elf.ProgramHeader) (x : Nat),
    LastCovers (flashTarget? layout true) image.segments segment x →
    image.bytes[segment.offset.toNat + (x - segment.home.toNat)]? =
      some (memoryAfter plan layout true memory x)
  /-- The rest of a page that one touches is zero. -/
  memoryAfter_of_page : ∀ (memory : Nat → UInt8) (x : Nat),
    Touched image (flashTarget? layout true) 256 x →
    (∀ segment ∈ image.segments, ¬Covers (flashTarget? layout true) segment x) →
    memoryAfter plan layout true memory x = 0
  /-- The rest of a sector that one touches is erased. -/
  memoryAfter_of_sector : ∀ (memory : Nat → UInt8) (x : Nat),
    Touched image (flashTarget? layout true) 4096 x →
    ¬Touched image (flashTarget? layout true) 256 x →
    memoryAfter plan layout true memory x = 0xFF
  /-- An address that segments of RAM cover has the byte of the last of them. -/
  memoryAfter_of_ram : ∀ (memory : Nat → UInt8) (segment : Elf.ProgramHeader) (target x : Nat),
    ramTarget? layout true segment = some target →
    LastCovers (ramTarget? layout true) image.segments segment x →
    image.bytes[segment.offset.toNat + (x - target)]? =
      some (memoryAfter plan layout true memory x)
  /-- Any other address keeps its byte. -/
  memoryAfter_of_none : ∀ (memory : Nat → UInt8) (x : Nat),
    ¬Touched image (flashTarget? layout true) 4096 x →
    (∀ segment ∈ image.segments, ¬Covers (ramTarget? layout true) segment x) →
    memoryAfter plan layout true memory x = memory x
  /-- Each page that a segment of flash touches is written once. -/
  writtenOnce : ∀ x, Touched image (flashTarget? layout true) 256 x → WrittenOnce plan layout x

/-- **A load into flash** leaves what the segments say. -/
theorem fillsFlash_of_build (h : build image layout true = .ok plan)
    (hapart : RamApart image layout plan) : FillsFlash image layout plan := by
  refine ⟨(ideal_of_build h).1, ?_, ?_, ?_, ?_, ?_, fun x hx => writtenOnce_of_touched h hapart hx⟩
  · intro memory segment x hlast
    have htouched : Touched image (flashTarget? layout true) 256 x :=
      ⟨segment, hlast.mem, x, hlast.covers, rfl⟩
    obtain ⟨target, htarget, -⟩ := hlast.covers
    obtain ⟨byte, hbyte, hfile⟩ := exists_lastByte?_blocks (soundTargets_flash h) hlast htarget
    obtain ⟨-, -, -, rfl⟩ := flashTarget?_eq_some_iff.mp htarget
    rw [hfile, memoryAfter_of_touched h hapart htouched.sector,
      lastByte?_pages_of_touched h htouched, hbyte]
    rfl
  · intro memory x hx hnone
    rw [memoryAfter_of_touched h hapart hx.sector, lastByte?_pages_of_touched h hx,
      lastByte?_blocks_eq_none (soundTargets_flash h) hnone]
    rfl
  · intro memory x hsector hpage
    rw [memoryAfter_of_touched h hapart hsector, lastByte?_pages_of_not_touched h hpage]
    rfl
  · intro memory segment target x htarget hlast
    have hsector : ¬Touched image (flashTarget? layout true) 4096 x := fun hx =>
      hapart x ((exists_mem_erase_iff h).mpr hx) segment hlast.mem hlast.covers
    obtain ⟨byte, hbyte, hfile⟩ := exists_lastByte?_blocks (soundTargets_ram h) hlast htarget
    rw [hfile, memoryAfter_of_not_touched h hsector, hbyte, Option.getD_some]
  · intro memory x hsector hnone
    rw [memoryAfter_of_not_touched h hsector, lastByte?_blocks_eq_none (soundTargets_ram h) hnone,
      Option.getD_none]

/-- A file with two segments of flash that overlap in one page, and a segment of RAM. The first and
the last are used at other addresses than they are stored at, the second has one address only. -/
def mixed : Elf.Image where
  header := ⟨2, 40, 1, 0x10000011, 52, 0, 0, 32, 3, 0⟩
  segments := [⟨1, 1, 0x20003000, 0x10000010, 4, 4, 5, 4⟩, ⟨1, 5, 0x10000012, 0, 3, 3, 5, 4⟩,
    ⟨1, 0, 0x20003100, 0x20000000, 2, 2, 6, 4⟩]
  bytes := [0xA0, 0xA1, 0xA2, 0xA3, 0xA4, 0xB1, 0xB2, 0xB3]

/-- The plan of this file has one page, one span and one block for RAM. What its load leaves is
known, because the block is far from flash: where both segments of flash are, it is the second. -/
theorem fillsFlash_mixed :
    ∃ plan, build mixed .rp2040 true = .ok plan ∧
      plan.pages.pages = [⟨0x10000000, List.replicate 16 0 ++ [0xA1, 0xA2, 0xB1, 0xB2, 0xB3] ++
        List.replicate 235 0⟩] ∧
      plan.erase = [⟨0x10000000, 0x10001000⟩] ∧ plan.ram = [⟨0x20000000, [0xA0, 0xA1]⟩] ∧
      RamApart mixed .rp2040 plan ∧ FillsFlash mixed .rp2040 plan ∧
      ∀ memory : Nat → UInt8, memoryAfter plan .rp2040 true memory 0x10000012 = 0xB1 := by
  let placed : List Placement := [.flash ⟨0x10000010, [0xA1, 0xA2, 0xA3, 0xA4]⟩,
    .flash ⟨0x10000012, [0xB1, 0xB2, 0xB3]⟩, .ram ⟨0x20000000, [0xA0, 0xA1]⟩]
  have hbuild : build mixed .rp2040 true = .ok (gather 0x10000011 placed) := rfl
  have hapart : RamApart mixed .rp2040 (gather 0x10000011 placed) := by
    rintro x ⟨span, hspan, hx⟩ segment hmem ⟨target, htarget, hle, -⟩
    have herase : (gather 0x10000011 placed).erase = [⟨0x10000000, 0x10001000⟩] := rfl
    rw [herase] at hspan
    obtain rfl := List.mem_singleton.mp hspan
    have hx : x < 0x10001000 := hx.2
    have hcases : ramTarget? .rp2040 true segment = none ∨
        ramTarget? .rp2040 true segment = some 0x20000000 := by
      rcases List.mem_cons.mp hmem with rfl | hmem
      · exact Or.inl rfl
      rcases List.mem_cons.mp hmem with rfl | hmem
      · exact Or.inl rfl
      · obtain rfl := List.mem_singleton.mp hmem
        exact Or.inr rfl
    rcases hcases with hnone | hsome
    · rw [hnone] at htarget
      cases htarget
    · rw [hsome] at htarget
      obtain rfl := Option.some.inj htarget
      omega
  have hfills := fillsFlash_of_build hbuild hapart
  refine ⟨_, hbuild, by decide +kernel, rfl, rfl, hapart, hfills, fun memory => ?_⟩
  -- Both segments of flash cover this address, and the second is the last that does.
  have hbyte := hfills.memoryAfter_of_flash memory ⟨1, 5, 0x10000012, 0, 3, 3, 5, 4⟩ 0x10000012
    ⟨[_], [_], rfl, by decide, by decide⟩
  exact (Option.some.inj hbyte).symm

end PicoLoader.Load
