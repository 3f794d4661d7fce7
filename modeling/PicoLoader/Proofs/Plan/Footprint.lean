import PicoLoader.Proofs.Elf.Entries
import PicoLoader.Proofs.Plan.Building

/-!
# What of a file a plan depends on

A file has much that no plan is made of: section headers, symbols, what the segments have in memory
beyond their bytes, padding, and whatever is appended. This file says which bytes are left. The
*footprint* of a file (`PicoLoader.Elf.Footprint`) has

* what identifies the file, and where its header gives the entry point and the table;
* of every program header the first twenty bytes: kind, place in the file, addresses and size there;
* the bytes of the segments that are loaded.

The parts may overlap, as a file may put its program headers and its segments anywhere. A file that
agrees with another on the footprint of that one, and is no shorter, is read as an image with the
same entry point, whose program headers differ at most in what comes after the first twenty bytes
(`PicoLoader.Elf.AgreesOn.entryAt_eq`). What is placed does not depend on that (`place_congr`), so
the plans are the same: `build_eq_ok_of_agreesOn`.
-/

namespace PicoLoader

open Memory

namespace Elf

/-! ### Footprints -/

/-- The places of a file that its plan depends on. -/
inductive Footprint (bytes : List UInt8) (x : Nat) : Prop where
  /-- The magic bytes, the class and the byte order. -/
  | identification (h : x < 6)
  /-- The entry point, and where the table begins. -/
  | entryAndTable (hlow : 24 ≤ x) (hhigh : x < 32)
  /-- How far apart the program headers are, and how many there are. -/
  | tableSize (hlow : 42 ≤ x) (hhigh : x < 46)
  /-- The front of a program header. -/
  | programHeader (i : Nat) (hi : i < entryCount bytes) (hlow : entryStart bytes i ≤ x)
    (hhigh : x < entryStart bytes i + 20)
  /-- The bytes of a segment that is loaded and has any. -/
  | content (i : Nat) (hi : i < entryCount bytes) (hload : word bytes (entryStart bytes i) = 1)
    (hsize : word bytes (entryStart bytes i + 16) ≠ 0)
    (hlow : word bytes (entryStart bytes i + 4) ≤ x)
    (hhigh : x < word bytes (entryStart bytes i + 4) + word bytes (entryStart bytes i + 16))

/-- A file that is no shorter than another and agrees with it on its footprint. -/
structure AgreesOn (bytes other : List UInt8) : Prop where
  length_le : bytes.length ≤ other.length
  getElem?_eq : ∀ x, Footprint bytes x → other[x]? = bytes[x]?

variable {bytes other : List UInt8} {offset : Nat}

theorem getD_congr {x : Nat} (h : other[x]? = bytes[x]?) : other.getD x 0 = bytes.getD x 0 := by
  rw [List.getD_eq_getElem?_getD, List.getD_eq_getElem?_getD, h]

theorem half_congr (h : ∀ x, offset ≤ x → x < offset + 2 → other[x]? = bytes[x]?) :
    half other offset = half bytes offset := by
  rw [half, half, getD_congr (h offset (Nat.le_refl _) (by omega)),
    getD_congr (h (offset + 1) (by omega) (by omega))]

theorem word_congr (h : ∀ x, offset ≤ x → x < offset + 4 → other[x]? = bytes[x]?) :
    word other offset = word bytes offset := by
  rw [word, word, half_congr fun x hlow hhigh => h x hlow (by omega),
    half_congr fun x hlow hhigh => h x (by omega) (by omega)]

/-- Lists that agree on some places have the same part there. -/
theorem take_drop_congr {size : Nat}
    (h : ∀ x, offset ≤ x → x < offset + size → other[x]? = bytes[x]?) :
    (other.drop offset).take size = (bytes.drop offset).take size := by
  refine List.ext_getElem? fun x => ?_
  simp only [List.getElem?_take, List.getElem?_drop]
  split
  case isTrue hx => exact h (offset + x) (by omega) (by omega)
  case isFalse => rfl

/-! ### The header and the table -/

namespace AgreesOn

variable (h : AgreesOn bytes other)

include h

theorem tableStart_eq : tableStart other = tableStart bytes := word_congr fun x _ _ =>
  h.getElem?_eq x (.entryAndTable (by omega) (by omega))

theorem entryStride_eq : entryStride other = entryStride bytes := half_congr fun x _ _ =>
  h.getElem?_eq x (.tableSize (by omega) (by omega))

theorem entryCount_eq : entryCount other = entryCount bytes := half_congr fun x _ _ =>
  h.getElem?_eq x (.tableSize (by omega) (by omega))

theorem entryStart_eq (i : Nat) : entryStart other i = entryStart bytes i := by
  rw [entryStart, entryStart, h.tableStart_eq, h.entryStride_eq]

theorem entry_eq : (Header.ofBytes other).entry = (Header.ofBytes bytes).entry := by
  simp only [Header.ofBytes, field_four]
  rw [word_congr fun x _ _ => h.getElem?_eq x (.entryAndTable (by omega) (by omega))]

/-- **The other file is an image**, if the first one is. -/
theorem holds (hall : ∀ condition : Condition, condition.Holds bytes) :
    ∀ condition : Condition, condition.Holds other := by
  obtain ⟨hheader, hmagic, hclass, horder, hstart, hstride, htable, hentries⟩ :=
    forall_holds_iff.mp hall
  have hlength := h.length_le
  have hident : ∀ x, x < 6 → other[x]? = bytes[x]? := fun x hx =>
    h.getElem?_eq x (.identification hx)
  refine forall_holds_iff.mpr ⟨Nat.le_trans hheader hlength, ?_, ?_, ?_, ?_, ?_, ?_, ?_⟩
  · have hfront : (other.drop 0).take 4 = (bytes.drop 0).take 4 :=
      take_drop_congr fun x _ hx => hident x (by omega)
    exact hfront.trans hmagic
  · rw [getD_congr (hident 4 (by decide)), hclass]
  · rw [getD_congr (hident 5 (by decide)), horder]
  · rwa [h.tableStart_eq]
  · rwa [h.entryStride_eq]
  · rw [h.tableStart_eq, h.entryStride_eq, h.entryCount_eq]
    exact Nat.le_trans htable hlength
  · rw [h.tableStart_eq, h.entryStride_eq, h.entryCount_eq]
    exact fun i hi => Nat.le_trans (hentries i hi) hlength

/-- **The program headers of the two files** are the same, but for what no plan depends on. -/
theorem entryAt_eq {i : Nat} (hi : i < entryCount bytes) : ∃ memorySize flags align,
    entryAt other i = { entryAt bytes i with memorySize, flags, align } := by
  have hword : ∀ offset, offset + 4 ≤ 20 →
      word other (entryStart bytes i + offset) = word bytes (entryStart bytes i + offset) :=
    fun offset hle => word_congr fun x _ _ =>
      h.getElem?_eq x (.programHeader i hi (by omega) (by omega))
  have hkind := hword 0 (by decide)
  have hoffset := hword 4 (by decide)
  have hvirtual := hword 8 (by decide)
  have hphysical := hword 12 (by decide)
  have hsize := hword 16 (by decide)
  rw [Elf.entryAt_eq other, Elf.entryAt_eq bytes, h.entryStart_eq]
  rw [Nat.add_zero] at hkind
  rw [hkind, hoffset, hvirtual, hphysical, hsize]
  exact ⟨_, _, _, rfl⟩

/-- **The bytes of a segment** are the same, if it has any. -/
theorem slice_eq {i : Nat} (hi : i < entryCount bytes) (hbytes : (entryAt bytes i).Loaded) :
    (imageOf other).slice (entryAt bytes i) = (imageOf bytes).slice (entryAt bytes i) := by
  have htoNat : ∀ offset, (UInt32.ofNat (word bytes offset)).toNat = word bytes offset :=
    fun offset => UInt32.toNat_ofNat_of_lt' (word_lt bytes offset)
  have hpos := hbytes.fileSize_pos
  have hload := congrArg UInt32.toNat hbytes.1
  rw [Elf.entryAt_eq] at hload hpos
  simp only [htoNat] at hload hpos
  refine take_drop_congr fun x hlow hhigh => ?_
  rw [Elf.entryAt_eq] at hlow hhigh
  simp only [htoNat] at hlow hhigh
  exact h.getElem?_eq x (.content i hi hload (Nat.ne_of_gt hpos) hlow hhigh)

end AgreesOn

end Elf

/-! ### Plans -/

namespace Plan

variable {image image' : Elf.Image} {layout : Layout} {allowFlash : Bool}

/-- **What a segment is placed as** depends on its bytes, and on the fields of its program header
that its footprint has. -/
theorem place_congr {segment : Elf.ProgramHeader}
    (h : segment.Loaded → image'.content segment = image.content segment)
    (memorySize flags align : UInt32) :
    place image' layout allowFlash { segment with memorySize, flags, align } =
      place image layout allowFlash segment := by
  change place image' layout allowFlash segment = _
  exact place_eq_of_content_eq h

/-- **What is placed of the two files** is the same, if all of it is in the first one. -/
theorem placements_eq_of_agreesOn {bytes other : List UInt8} (h : Elf.AgreesOn bytes other)
    (hfile : ∀ segment ∈ (Elf.imageOf bytes).segments, segment.Loaded →
      segment.offset.toNat + segment.fileSize.toNat ≤ bytes.length) :
    placements (Elf.imageOf other) layout allowFlash (Elf.imageOf other).segments =
      placements (Elf.imageOf bytes) layout allowFlash (Elf.imageOf bytes).segments := by
  rw [Elf.imageOf, Elf.imageOf, h.entryCount_eq]
  refine placements_map_congr fun i hi => ?_
  have hi := List.mem_range.mp hi
  obtain ⟨memorySize, flags, align, heq⟩ := h.entryAt_eq hi
  rw [heq]
  refine place_congr (fun hbytes => ?_) memorySize flags align
  have hinside := hfile _ (List.mem_map_of_mem (List.mem_range.mpr hi)) hbytes
  rw [(content_eq_ok_iff hbytes).mpr ⟨Nat.le_trans hinside h.length_le, rfl⟩, eq_comm,
    content_eq_ok_iff hbytes]
  exact ⟨hinside, h.slice_eq hi hbytes⟩

/-- **A plan depends on the footprint of its file**: a file that agrees with another on the
footprint of that one, and is no shorter, has the plan that the other has. -/
theorem build_eq_ok_of_agreesOn {bytes other : List UInt8} {plan : Plan}
    (hread : Elf.Image.ofBytes bytes = .ok image)
    (hbuild : build image layout allowFlash = .ok plan) (h : Elf.AgreesOn bytes other) :
    ∃ image', Elf.Image.ofBytes other = .ok image' ∧
      build image' layout allowFlash = .ok plan := by
  obtain ⟨hall, rfl⟩ := Elf.ofBytes_eq_ok_iff.mp hread
  refine ⟨Elf.imageOf other, Elf.ofBytes_eq_ok_iff.mpr ⟨h.holds hall, rfl⟩, ?_⟩
  rw [build_congr h.entry_eq (placements_eq_of_agreesOn h fun segment hmem hbytes =>
    (placeable_of_build hbuild segment hmem hbytes).inFile), hbuild]

/-- A file with one segment of four bytes for SRAM, and one byte over and over wherever no plan
looks. -/
def sparseFile (unused : UInt8) : List UInt8 :=
  [0x7f, 0x45, 0x4c, 0x46, 1, 1] ++ List.replicate 18 unused ++
    [1, 0, 0, 0x20, 52, 0, 0, 0] ++ List.replicate 10 unused ++
    [32, 0, 1, 0] ++ List.replicate 6 unused ++
    [1, 0, 0, 0, 84, 0, 0, 0, 0, 0, 0, 0x20, 0, 0, 0, 0x20, 4, 0, 0, 0] ++
    List.replicate 12 unused ++ [0xA0, 0xA1, 0xA2, 0xA3]

/-- With another such byte, and with something appended, the plan is the same. -/
theorem build_sparseFile_appended :
    ∃ image plan, Elf.Image.ofBytes (sparseFile 0) = .ok image ∧
      build image .rp2040 false = .ok plan ∧
      Elf.AgreesOn (sparseFile 0) (sparseFile 0xFF ++ [1, 2, 3]) ∧
      ∃ image', Elf.Image.ofBytes (sparseFile 0xFF ++ [1, 2, 3]) = .ok image' ∧
        build image' .rp2040 false = .ok plan := by
  have hread : Elf.Image.ofBytes (sparseFile 0) = .ok (Elf.imageOf (sparseFile 0)) := rfl
  have hbuild : build (Elf.imageOf (sparseFile 0)) .rp2040 false =
      .ok (gather 0x20000001 [.ram ⟨0x20000000, [0xA0, 0xA1, 0xA2, 0xA3]⟩]) := rfl
  have hsame : ∀ x < 88, x < 6 ∨ (24 ≤ x ∧ x < 32) ∨ (42 ≤ x ∧ x < 46) ∨ (52 ≤ x ∧ x < 72) ∨
      84 ≤ x → (sparseFile 0xFF ++ [1, 2, 3])[x]? = (sparseFile 0)[x]? := by decide
  have hagrees : Elf.AgreesOn (sparseFile 0) (sparseFile 0xFF ++ [1, 2, 3]) := by
    refine ⟨by decide, fun x hx => ?_⟩
    have hcount : Elf.entryCount (sparseFile 0) = 1 := rfl
    have hstart : Elf.entryStart (sparseFile 0) 0 = 52 := rfl
    have hoffset : Elf.word (sparseFile 0) (Elf.entryStart (sparseFile 0) 0 + 4) = 84 := rfl
    have hsize : Elf.word (sparseFile 0) (Elf.entryStart (sparseFile 0) 0 + 16) = 4 := rfl
    cases hx with
    | identification h => exact hsame x (by omega) (by omega)
    | entryAndTable hlow hhigh => exact hsame x (by omega) (by omega)
    | tableSize hlow hhigh => exact hsame x (by omega) (by omega)
    | programHeader i hi hlow hhigh =>
      obtain rfl : i = 0 := by omega
      exact hsame x (by omega) (by omega)
    | content i hi _ _ hlow hhigh =>
      obtain rfl : i = 0 := by omega
      exact hsame x (by omega) (by omega)
  exact ⟨_, _, hread, hbuild, hagrees, build_eq_ok_of_agreesOn hread hbuild hagrees⟩

end Plan

end PicoLoader
