import Mathlib.Data.List.Basic
import PicoLoader.Plan.Basic
import PicoLoader.Proofs.Plan.Belonging

/-!
# What is in the plan of an image

`PicoLoader.Plan.build` places the segments one by one and gathers the placements. This file says
what the gathered plan holds in terms of the *program headers* alone, without placements in between:

* `PicoLoader.Plan.ramTarget?` – where in RAM the bytes of a segment go, if they go there;
* `PicoLoader.Plan.flashTarget?` – where in flash they go, if they go there;
* `PicoLoader.Plan.Placeable` – what has to hold of a segment with bytes, so that it can be placed.

`build_eq_ok_iff` says when a plan is built, and which. Then every segment with bytes is placeable
(`placeable_of_build`); the blocks for RAM are those of the segments with a target in RAM, in file
order (`ram_of_build`); the pages are those that the segments with a target in flash are scattered
into (`pages_of_build`), and the spans to erase are their sectors, merged (`erase_of_build`).
-/

namespace PicoLoader

open Memory

/-- The bytes of the file that a segment names. -/
def Elf.Image.slice (image : Elf.Image) (segment : Elf.ProgramHeader) : List UInt8 :=
  (image.bytes.drop segment.offset.toNat).take segment.fileSize.toNat

/-- The bytes of a segment, as a block that begins at `target`. -/
def Elf.Image.blockAt (image : Elf.Image) (segment : Elf.ProgramHeader) (target : Nat) : Block :=
  ⟨UInt32.ofNat target, image.slice segment⟩

namespace Plan

/-! ### Targets -/

/-- Where in RAM the bytes of a segment go: to its home if that is not in flash. A segment of flash
goes to its copy in SRAM if flash may not be written and all of the copy fits; otherwise it does not
go to RAM. -/
def ramTarget? (layout : Layout) (allowFlash : Bool) (segment : Elf.ProgramHeader) : Option Nat :=
  if ¬segment.Loaded then none
  else if ¬layout.FlashAt segment.home.toNat then some segment.home.toNat
  else if allowFlash then none
  else if copyPlace segment.home.toNat + segment.fileSize.toNat ≤ layout.sramEnd.toNat then
    some (copyPlace segment.home.toNat)
  else none

/-- Where in flash the bytes of a segment go: to its home if that is in flash and flash may be
written. -/
def flashTarget? (layout : Layout) (allowFlash : Bool) (segment : Elf.ProgramHeader) : Option Nat :=
  if segment.Loaded ∧ layout.FlashAt segment.home.toNat ∧ allowFlash then some segment.home.toNat
  else none

/-- What placing asks of a segment with bytes: it names an address, its bytes are in the file, and
it ends inside the address space – a segment of flash, a sector before its end. -/
structure Placeable (image : Elf.Image) (layout : Layout) (allowFlash : Bool)
    (segment : Elf.ProgramHeader) : Prop where
  named : segment.home ≠ 0
  inFile : segment.offset.toNat + segment.fileSize.toNat ≤ image.bytes.length
  ramFits : ¬layout.FlashAt segment.home.toNat →
    segment.home.toNat + segment.fileSize.toNat < UInt32.size
  flashFits : layout.FlashAt segment.home.toNat → allowFlash = true →
    segment.home.toNat + segment.fileSize.toNat ≤ flashLimit

variable {image : Elf.Image} {layout : Layout} {allowFlash : Bool} {segment : Elf.ProgramHeader}

/-- **The targets in RAM**: the home, or the copy of a home in flash that fits. -/
theorem ramTarget?_eq_some_iff {target : Nat} :
    ramTarget? layout allowFlash segment = some target ↔
      segment.Loaded ∧
      ((¬layout.FlashAt segment.home.toNat ∧ target = segment.home.toNat) ∨
        (layout.FlashAt segment.home.toNat ∧ allowFlash = false ∧
          copyPlace segment.home.toNat + segment.fileSize.toNat ≤ layout.sramEnd.toNat ∧
          target = copyPlace segment.home.toNat)) := by
  rw [ramTarget?]
  by_cases hbytes : segment.Loaded <;> by_cases hflash : layout.FlashAt segment.home.toNat <;>
    cases allowFlash <;> simp [hbytes, hflash, eq_comm]

/-- **The targets in flash**: the home, if flash may be written. -/
theorem flashTarget?_eq_some_iff {target : Nat} :
    flashTarget? layout allowFlash segment = some target ↔
      segment.Loaded ∧ layout.FlashAt segment.home.toNat ∧ allowFlash = true ∧
        target = segment.home.toNat := by
  rw [flashTarget?, Option.ite_none_right_eq_some, Option.some.injEq]
  simp only [and_assoc, eq_comm]

/-! ### One segment -/

theorem length_slice (image : Elf.Image) (segment : Elf.ProgramHeader) :
    (image.slice segment).length =
      min segment.fileSize.toNat (image.bytes.length - segment.offset.toNat) := by
  rw [Elf.Image.slice, List.length_take, List.length_drop]

/-- The slice that a segment names is as long as it says, if the file has all of it. -/
theorem length_slice_of_le
    (h : segment.offset.toNat + segment.fileSize.toNat ≤ image.bytes.length) :
    (image.slice segment).length = segment.fileSize.toNat := by
  rw [length_slice]
  omega

/-- The content of a segment with bytes is the slice that it names, if the file has all of it. -/
theorem content_eq_ok_iff (h : segment.Loaded) {bytes : List UInt8} :
    image.content segment = .ok bytes ↔
      segment.offset.toNat + segment.fileSize.toNat ≤ image.bytes.length ∧
        bytes = image.slice segment := by
  have hpos := h.fileSize_pos
  have hlength := length_slice image segment
  change (if (image.slice segment).length < segment.fileSize.toNat then
    .error (Elf.Error.segmentOutside segment.offset segment.fileSize)
    else Except.ok (image.slice segment)) = Except.ok bytes ↔ _
  split
  case isTrue hshort =>
    simp only [reduceCtorEq, false_iff, not_and]
    omega
  case isFalse hlong =>
    rw [Except.ok.injEq, eq_comm]
    exact (and_iff_right (by omega)).symm

/-- The copy of a place in flash, where there is one, is where its distance from the start of flash
says. -/
theorem mirror?_of_flashAt (h : layout.FlashAt segment.home.toNat) :
    layout.mirror? segment.home segment.fileSize =
      if copyPlace segment.home.toNat + segment.fileSize.toNat ≤ layout.sramEnd.toNat then
        some (UInt32.ofNat (copyPlace segment.home.toNat))
      else none := by
  have hstart : flashStart ≤ segment.home := UInt32.le_iff_toNat_le.mpr h.1
  simp only [Layout.mirror?, hstart, true_and, ← copyPlace_eq_mirrored]

/-- Bytes that are not for flash go to RAM, if they end inside the address space. -/
theorem placeBytes_of_not_flashAt (h : ¬layout.FlashAt segment.home.toNat) (bytes : List UInt8) :
    placeBytes layout allowFlash segment bytes =
      if segment.home.toNat + bytes.length < UInt32.size then .ok (.ram ⟨segment.home, bytes⟩)
      else .error (.pastAddressSpace segment.home) := by
  simp only [placeBytes, ← Elf.ProgramHeader.home_eq_loadAddress, not_flashAt_iff.mp h,
    Bool.not_false, if_true]
  rfl

/-- If flash may not be written, bytes of flash go to their copy or are left out, and are never
refused. -/
theorem placeBytes_of_flashAt (h : layout.FlashAt segment.home.toNat) (bytes : List UInt8) :
    placeBytes layout false segment bytes =
      .ok ((layout.mirror? segment.home segment.fileSize).elim
        (.skipped segment.home segment.fileSize)
        fun copy => .mirrored segment.home ⟨copy, bytes⟩) := by
  simp only [placeBytes, ← Elf.ProgramHeader.home_eq_loadAddress, flashAt_iff.mp h, Bool.not_true,
    Bool.not_false, Bool.false_eq_true, if_false, if_true]
  cases layout.mirror? segment.home segment.fileSize <;> rfl

/-- If it may be written, they go there, if they end a sector before the end of the address
space. -/
theorem placeBytes_of_flashAt_of_allowFlash (h : layout.FlashAt segment.home.toNat)
    (bytes : List UInt8) :
    placeBytes layout true segment bytes =
      if segment.home.toNat + bytes.length ≤ flashLimit then .ok (.flash ⟨segment.home, bytes⟩)
      else .error (.pastAddressSpace segment.home) := by
  simp only [placeBytes, ← Elf.ProgramHeader.home_eq_loadAddress, flashAt_iff.mp h, Bool.not_true,
    Bool.false_eq_true, if_false]
  rfl

/-- **What a segment with bytes is placed as**, case by case. -/
theorem placeBytes_cases {bytes : List UInt8} {placed : Placement}
    (h : placeBytes layout allowFlash segment bytes = .ok placed) :
    (¬layout.FlashAt segment.home.toNat ∧ placed = .ram ⟨segment.home, bytes⟩ ∧
      segment.home.toNat + bytes.length < UInt32.size) ∨
    (layout.FlashAt segment.home.toNat ∧ allowFlash = false ∧
      ((∃ copy, layout.mirror? segment.home segment.fileSize = some copy ∧
          placed = .mirrored segment.home ⟨copy, bytes⟩) ∨
        (layout.mirror? segment.home segment.fileSize = none ∧
          placed = .skipped segment.home segment.fileSize))) ∨
    (layout.FlashAt segment.home.toNat ∧ allowFlash = true ∧
      placed = .flash ⟨segment.home, bytes⟩ ∧
      segment.home.toNat + bytes.length ≤ flashLimit) := by
  by_cases hflash : layout.FlashAt segment.home.toNat
  · cases allowFlash with
    | false =>
      rw [placeBytes_of_flashAt hflash, Except.ok.injEq] at h
      refine Or.inr (Or.inl ⟨hflash, rfl, ?_⟩)
      cases hmirror : layout.mirror? segment.home segment.fileSize with
      | some copy => exact Or.inl ⟨copy, rfl, by rw [← h, hmirror, Option.elim_some]⟩
      | none => exact Or.inr ⟨rfl, by rw [← h, hmirror, Option.elim_none]⟩
    | true =>
      rw [placeBytes_of_flashAt_of_allowFlash hflash] at h
      split at h
      case isTrue hfits => exact Or.inr (Or.inr ⟨hflash, rfl, (Except.ok.inj h).symm, hfits⟩)
      case isFalse => cases h
  · rw [placeBytes_of_not_flashAt hflash] at h
    split at h
    case isTrue hfits => exact Or.inl ⟨hflash, (Except.ok.inj h).symm, hfits⟩
    case isFalse => cases h

/-- A segment without bytes has no placement. -/
theorem place_of_not_loaded (h : ¬segment.Loaded) :
    place image layout allowFlash segment = .ok none := by
  simp only [place, Elf.ProgramHeader.not_loaded_iff.mp h, Bool.not_false, if_true]

/-- A segment with bytes is placed as these are, if it names an address and the bytes are in the
file. -/
theorem place_of_loaded (h : segment.Loaded) :
    place image layout allowFlash segment =
      if segment.home = 0 then .error (.image .noLoadAddress)
      else
        match image.content segment with
        | .error error => .error (.image error)
        | .ok bytes =>
          match placeBytes layout allowFlash segment bytes with
          | .error problem => .error (.plan problem)
          | .ok placement => .ok (some placement) := by
  have hbytes : ¬(!segment.hasBytes) = true := by simp [Elf.ProgramHeader.loaded_iff.mp h]
  rw [Elf.ProgramHeader.home_eq_loadAddress]
  exact if_neg hbytes

/-- **When a segment is placed**: there is nothing to load, or it names an address, its bytes are in
the file, and there is a place for them. -/
theorem place_cases {placed? : Option Placement}
    (h : place image layout allowFlash segment = .ok placed?) :
    (¬segment.Loaded ∧ placed? = none) ∨
    (segment.Loaded ∧ segment.home ≠ 0 ∧
      segment.offset.toNat + segment.fileSize.toNat ≤ image.bytes.length ∧
      ∃ placed, placeBytes layout allowFlash segment (image.slice segment) = .ok placed ∧
        placed? = some placed) := by
  by_cases hbytes : segment.Loaded
  · rw [place_of_loaded hbytes] at h
    split at h
    case isTrue => cases h
    case isFalse hnamed =>
    split at h
    case h_1 => cases h
    case h_2 bytes hcontent =>
    obtain ⟨hfile, rfl⟩ := (content_eq_ok_iff hbytes).mp hcontent
    split at h
    case h_1 => cases h
    case h_2 placed hplaced =>
    exact Or.inr ⟨hbytes, hnamed, hfile, placed, hplaced, (Except.ok.inj h).symm⟩
  · rw [place_of_not_loaded hbytes, Except.ok.injEq] at h
    exact Or.inl ⟨hbytes, h.symm⟩

/-- What a segment is placed as depends on its bytes, and on nothing else of the file. -/
theorem place_eq_of_content_eq {image' : Elf.Image}
    (h : segment.Loaded → image'.content segment = image.content segment) :
    place image' layout allowFlash segment = place image layout allowFlash segment := by
  by_cases hbytes : segment.Loaded
  · rw [place_of_loaded hbytes, place_of_loaded hbytes, h hbytes]
  · rw [place_of_not_loaded hbytes, place_of_not_loaded hbytes]

section PlaceBytes

variable {placed : Placement}

/-- A segment that names an address, and whose bytes are in the file, is placed as its bytes are. -/
theorem place_of_placeBytes (hbytes : segment.Loaded) (hnamed : segment.home ≠ 0)
    (hfile : segment.offset.toNat + segment.fileSize.toNat ≤ image.bytes.length)
    (h : placeBytes layout allowFlash segment (image.slice segment) = .ok placed) :
    place image layout allowFlash segment = .ok (some placed) := by
  rw [place_of_loaded hbytes, if_neg hnamed, (content_eq_ok_iff hbytes).mpr ⟨hfile, rfl⟩]
  simp only [h]

/-- A segment whose bytes are placed is placeable. -/
theorem placeable_of_placeBytes (hnamed : segment.home ≠ 0)
    (hfile : segment.offset.toNat + segment.fileSize.toNat ≤ image.bytes.length)
    (h : placeBytes layout allowFlash segment (image.slice segment) = .ok placed) :
    Placeable image layout allowFlash segment := by
  have hlength := length_slice_of_le hfile
  refine ⟨hnamed, hfile, ?_, ?_⟩
  · intro hram
    rcases placeBytes_cases h with ⟨-, -, hfits⟩ | ⟨hflash, -⟩ | ⟨hflash, -⟩
    · exact hlength ▸ hfits
    · exact absurd hflash hram
    · exact absurd hflash hram
  · intro hflash hallow
    rcases placeBytes_cases h with ⟨hram, -⟩ | ⟨-, hnot, -⟩ | ⟨-, -, -, hfits⟩
    · exact absurd hflash hram
    · exact absurd (hnot.symm.trans hallow) Bool.false_ne_true
    · exact hlength ▸ hfits

/-- The block for RAM of a segment whose bytes are placed begins at its target in RAM. -/
theorem ramBlock?_of_placeBytes (hbytes : segment.Loaded)
    (h : placeBytes layout allowFlash segment (image.slice segment) = .ok placed) :
    placed.ramBlock? = (ramTarget? layout allowFlash segment).map (image.blockAt segment) := by
  rcases placeBytes_cases h with
    ⟨hflash, rfl, -⟩ | ⟨hflash, rfl, hmirror⟩ | ⟨hflash, rfl, rfl, -⟩
  · have haddr : UInt32.ofNat segment.home.toNat = segment.home := UInt32.ofNat_toNat
    simp [ramTarget?, hbytes, hflash, Placement.ramBlock?, Elf.Image.blockAt, haddr]
  · -- Both sides ask whether the copy fits, so the two answers go together.
    rw [mirror?_of_flashAt hflash] at hmirror
    rcases hmirror with ⟨copy, hcopy, rfl⟩ | ⟨hnone, rfl⟩
    · split at hcopy
      case isTrue hfits =>
        obtain rfl := Option.some.inj hcopy
        simp [ramTarget?, hbytes, hflash, hfits, Placement.ramBlock?, Elf.Image.blockAt]
      case isFalse => cases hcopy
    · split at hnone
      case isTrue => cases hnone
      case isFalse hfits => simp [ramTarget?, hbytes, hflash, hfits, Placement.ramBlock?]
  · simp [ramTarget?, hbytes, hflash, Placement.ramBlock?]

/-- Its block for flash begins at its target in flash. -/
theorem flashBlock?_of_placeBytes (hbytes : segment.Loaded)
    (h : placeBytes layout allowFlash segment (image.slice segment) = .ok placed) :
    placed.flashBlock? = (flashTarget? layout allowFlash segment).map (image.blockAt segment) := by
  rcases placeBytes_cases h with
    ⟨hflash, rfl, -⟩ | ⟨-, rfl, hmirror⟩ | ⟨hflash, rfl, rfl, -⟩
  · simp [flashTarget?, hflash, Placement.flashBlock?]
  · rcases hmirror with ⟨copy, -, rfl⟩ | ⟨-, rfl⟩
    · simp [flashTarget?, Placement.flashBlock?]
    · simp [flashTarget?, Placement.flashBlock?]
  · have haddr : UInt32.ofNat segment.home.toNat = segment.home := UInt32.ofNat_toNat
    simp [flashTarget?, hbytes, hflash, Placement.flashBlock?, Elf.Image.blockAt, haddr]

end PlaceBytes

/-- **What is placed where**, by the targets: a segment that is placed is placeable, its block for
RAM begins at its target in RAM, and its block for flash at its target in flash. -/
theorem place_spec {placed? : Option Placement}
    (h : place image layout allowFlash segment = .ok placed?) :
    (segment.Loaded → Placeable image layout allowFlash segment) ∧
    placed?.bind Placement.ramBlock? =
      (ramTarget? layout allowFlash segment).map (image.blockAt segment) ∧
    placed?.bind Placement.flashBlock? =
      (flashTarget? layout allowFlash segment).map (image.blockAt segment) := by
  rcases place_cases h with ⟨hbytes, rfl⟩ | ⟨hbytes, hnamed, hfile, placed, hplaced, rfl⟩
  · simp [ramTarget?, flashTarget?, hbytes]
  · exact ⟨fun _ => placeable_of_placeBytes hnamed hfile hplaced,
      ramBlock?_of_placeBytes hbytes hplaced, flashBlock?_of_placeBytes hbytes hplaced⟩

/-! ### All segments -/

/-- A segment that is placed comes before the others. -/
theorem placements_cons {segments : List Elf.ProgramHeader} {placed? : Option Placement}
    (h : place image layout allowFlash segment = .ok placed?) :
    placements image layout allowFlash (segment :: segments) =
      (placed?.toList ++ (placements image layout allowFlash segments).1,
        (placements image layout allowFlash segments).2) := by
  cases placed? <;> simp [placements, h]

/-- Segments that are placed alike, one by one, are placed alike all together. -/
theorem placements_map_congr {image' : Elf.Image} {layout' : Layout} {α : Type} {items : List α}
    {segment segment' : α → Elf.ProgramHeader}
    (h : ∀ item ∈ items, place image' layout' allowFlash (segment' item) =
      place image layout allowFlash (segment item)) :
    placements image' layout' allowFlash (items.map segment') =
      placements image layout allowFlash (items.map segment) := by
  induction items with
  | nil => rfl
  | cons item items ih =>
    have hrest := ih fun i hi => h i (List.mem_cons_of_mem _ hi)
    rw [List.map_cons, List.map_cons, placements, placements, h item List.mem_cons_self, hrest]

/-- Segments are all placed if the first is and the others are. -/
theorem exists_of_placements_cons {segments : List Elf.ProgramHeader} {placed : List Placement}
    (h : placements image layout allowFlash (segment :: segments) = (placed, none)) :
    ∃ placed? rest, place image layout allowFlash segment = .ok placed? ∧
      placements image layout allowFlash segments = (rest, none) ∧
      placed = placed?.toList ++ rest := by
  cases hplace : place image layout allowFlash segment with
  | error fault =>
    rw [placements, hplace] at h
    cases congrArg Prod.snd h
  | ok placed? =>
    rw [placements_cons hplace, Prod.mk.injEq] at h
    exact ⟨placed?, _, rfl, Prod.ext rfl h.2, h.1.symm⟩

section FilterMap

variable {α β : Type} (f : α → Option β)

theorem filterMap_cons_toList (item : α) (items : List α) :
    (item :: items).filterMap f = (f item).toList ++ items.filterMap f := by
  simp only [List.filterMap_eq_flatMap_toList, List.flatMap_cons]

theorem filterMap_toList_append (item? : Option α) (items : List α) :
    (item?.toList ++ items).filterMap f = (item?.bind f).toList ++ items.filterMap f := by
  cases item? with
  | none => rfl
  | some item => exact filterMap_cons_toList f item items

end FilterMap

/-- Segments that are all placed: each of them is placed, and what the placements hold for RAM and
for flash is what the targets say, in file order. -/
theorem placements_spec {segments : List Elf.ProgramHeader} {placed : List Placement}
    (h : placements image layout allowFlash segments = (placed, none)) :
    (∀ segment ∈ segments, segment.Loaded → Placeable image layout allowFlash segment) ∧
    placed.filterMap Placement.ramBlock? = segments.filterMap (fun segment =>
      (ramTarget? layout allowFlash segment).map (image.blockAt segment)) ∧
    placed.filterMap Placement.flashBlock? = segments.filterMap (fun segment =>
      (flashTarget? layout allowFlash segment).map (image.blockAt segment)) := by
  induction segments generalizing placed with
  | nil =>
    obtain rfl : [] = placed := congrArg Prod.fst h
    exact ⟨fun segment hmem => absurd hmem List.not_mem_nil, rfl, rfl⟩
  | cons segment segments ih =>
    obtain ⟨placed?, rest, hplace, hrest, rfl⟩ := exists_of_placements_cons h
    obtain ⟨hplaceable, hram, hflash⟩ := place_spec hplace
    obtain ⟨hall, hramAll, hflashAll⟩ := ih hrest
    refine ⟨?_, ?_, ?_⟩
    · intro s hs
      rcases List.mem_cons.mp hs with rfl | hs
      · exact hplaceable
      · exact hall s hs
    · rw [filterMap_toList_append, hram, hramAll, filterMap_cons_toList]
    · rw [filterMap_toList_append, hflash, hflashAll, filterMap_cons_toList]

/-! ### The plan -/

/-- The blocks that an image has for the targets of its segments, in file order. -/
def blocks (image : Elf.Image) (target? : Elf.ProgramHeader → Option Nat) : List Block :=
  image.segments.filterMap fun segment => (target? segment).map (image.blockAt segment)

variable {plan : Plan}

/-- **When a plan is built, and which**: all segments are placed, the plan gathers the placements,
and there is something to write unless flash may be written. -/
theorem build_eq_ok_iff : build image layout allowFlash = .ok plan ↔
    ∃ placed, placements image layout allowFlash image.segments = (placed, none) ∧
      plan = gather image.header.entry placed ∧ (allowFlash = false → plan.isEmpty = false) := by
  rcases hplaced : placements image layout allowFlash image.segments with ⟨placed, _ | fault⟩
  · simp only [build, hplaced, Prod.mk.injEq, and_true, exists_eq_left']
    split
    case isTrue hempty =>
      rw [Bool.and_eq_true, Bool.not_eq_true'] at hempty
      refine iff_of_false (fun h => by cases h) ?_
      rintro ⟨rfl, hwrites⟩
      exact Bool.false_ne_true ((hwrites hempty.1).symm.trans hempty.2)
    case isFalse hwrites =>
      rw [Bool.and_eq_true, Bool.not_eq_true', not_and, Bool.not_eq_true] at hwrites
      rw [Except.ok.injEq]
      constructor
      · rintro rfl
        exact ⟨rfl, hwrites⟩
      · rintro ⟨rfl, -⟩
        rfl
  · simp [build, hplaced]

/-- A plan that is built gathers the placements of all segments. -/
theorem exists_gather_of_build (h : build image layout allowFlash = .ok plan) :
    ∃ placed, placements image layout allowFlash image.segments = (placed, none) ∧
      plan = gather image.header.entry placed := by
  obtain ⟨placed, hplaced, hplan, -⟩ := build_eq_ok_iff.mp h
  exact ⟨placed, hplaced, hplan⟩

/-- Images with one entry point whose segments are placed alike have one plan. -/
theorem build_congr {image' : Elf.Image} {layout' : Layout}
    (hentry : image'.header.entry = image.header.entry)
    (h : placements image' layout' allowFlash image'.segments =
      placements image layout allowFlash image.segments) :
    build image' layout' allowFlash = build image layout allowFlash := by
  rw [build, build, h, hentry]

/-- The plan of an image has its entry point. -/
theorem entry_of_build (h : build image layout allowFlash = .ok plan) :
    plan.entry = image.header.entry := by
  obtain ⟨placed, -, rfl⟩ := exists_gather_of_build h
  rfl

/-- **Every segment with bytes of a plan that is built is placeable.** -/
theorem placeable_of_build (h : build image layout allowFlash = .ok plan) :
    ∀ segment ∈ image.segments, segment.Loaded →
      Placeable image layout allowFlash segment := by
  obtain ⟨placed, hplaced, -⟩ := exists_gather_of_build h
  exact (placements_spec hplaced).1

/-- **The blocks for RAM** are those of the segments with a target in RAM. -/
theorem ram_of_build (h : build image layout allowFlash = .ok plan) :
    plan.ram = blocks image (ramTarget? layout allowFlash) := by
  obtain ⟨placed, hplaced, rfl⟩ := exists_gather_of_build h
  exact (placements_spec hplaced).2.1

/-- **The pages** are those that the segments with a target in flash are scattered into. -/
theorem pages_of_build (h : build image layout allowFlash = .ok plan) :
    plan.pages = (blocks image (flashTarget? layout allowFlash)).foldl PageMap.scatter .empty := by
  obtain ⟨placed, hplaced, rfl⟩ := exists_gather_of_build h
  rw [blocks, ← (placements_spec hplaced).2.2]
  rfl

/-- **The spans to erase** are the sectors of these segments, merged. -/
theorem erase_of_build (h : build image layout allowFlash = .ok plan) :
    plan.erase = Span.merge ((blocks image (flashTarget? layout allowFlash)).map sectors) := by
  obtain ⟨placed, hplaced, rfl⟩ := exists_gather_of_build h
  rw [blocks, ← (placements_spec hplaced).2.2]
  rfl

end Plan

end PicoLoader
