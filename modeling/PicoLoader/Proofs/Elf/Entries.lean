import Mathlib.Data.List.Basic
import PicoLoader.Proofs.Elf.Vetting

/-!
# What is read from an image file

Vetting says which files are images. This file says which image such a file is, from its bytes
alone: the program header with index `i` is the 32 bytes at `PicoLoader.Elf.entryStart`, and each of
its fields is a word at a fixed place among them (`entryAt_eq`). `PicoLoader.Elf.imageOf` puts the
numbers of the file header and the program headers together, and `ofBytes_eq_ok_iff` says that this
is what is read, of all files that are images and of no other.
-/

namespace PicoLoader.Elf

open LittleEndian (field)

variable {bytes : List UInt8}

/-! ### Entries of the table -/

/-- Where a file has the program header with an index. -/
def entryStart (bytes : List UInt8) (i : Nat) : Nat := tableStart bytes + entryStride bytes * i

/-- The program header with an index. -/
def entryAt (bytes : List UInt8) (i : Nat) : ProgramHeader :=
  ProgramHeader.ofBytes ((bytes.drop (entryStart bytes i)).take 32)

/-- A field of a part of a list is a field of the list. -/
theorem field_take_drop {start size offset width : Nat} (h : offset + width ≤ size) :
    field ((bytes.drop start).take size) offset width = field bytes (start + offset) width := by
  rw [field, field, List.drop_take, List.take_take, List.drop_drop,
    Nat.min_eq_left (Nat.le_sub_of_add_le (Nat.add_comm offset width ▸ h))]

/-- **The fields of a program header** are the words from its start on. -/
theorem entryAt_eq (bytes : List UInt8) (i : Nat) : entryAt bytes i =
    { kind := UInt32.ofNat (word bytes (entryStart bytes i))
      offset := UInt32.ofNat (word bytes (entryStart bytes i + 4))
      virtualAddr := UInt32.ofNat (word bytes (entryStart bytes i + 8))
      physicalAddr := UInt32.ofNat (word bytes (entryStart bytes i + 12))
      fileSize := UInt32.ofNat (word bytes (entryStart bytes i + 16))
      memorySize := UInt32.ofNat (word bytes (entryStart bytes i + 20))
      flags := UInt32.ofNat (word bytes (entryStart bytes i + 24))
      align := UInt32.ofNat (word bytes (entryStart bytes i + 28)) } := by
  have hfield : ∀ offset, offset + 4 ≤ 32 →
      field ((bytes.drop (entryStart bytes i)).take 32) offset 4 =
        word bytes (entryStart bytes i + offset) :=
    fun offset h => (field_take_drop h).trans (field_four _ _)
  simp only [entryAt, ProgramHeader.ofBytes, hfield 0 (by decide), hfield 4 (by decide),
    hfield 8 (by decide), hfield 12 (by decide), hfield 16 (by decide), hfield 20 (by decide),
    hfield 24 (by decide), hfield 28 (by decide), Nat.add_zero]

/-! ### The image of a file -/

/-- The image that a file is, if it is one. -/
def imageOf (bytes : List UInt8) : Image where
  header := Header.ofBytes bytes
  segments := (List.range (entryCount bytes)).map (entryAt bytes)
  bytes := bytes

/-- **Entries that are all there are read** at their distance from each other. -/
theorem readEntries_eq (stride count index : Nat) (rest : List UInt8)
    (h : ∀ i < count, stride * i + 32 ≤ rest.length) :
    readEntries stride count index rest = .ok ((List.range count).map fun i =>
      ProgramHeader.ofBytes ((rest.drop (stride * i)).take 32)) := by
  induction count generalizing index rest with
  | zero => rfl
  | succ count ih =>
    have hfirst : ¬(rest.take programHeaderSize).length < programHeaderSize := by
      have := h 0 (Nat.succ_pos count)
      rw [List.length_take, programHeaderSize]
      omega
    have hrest := ih (index + 1) (rest.drop stride) fun i hi => by
      have := h (i + 1) (Nat.succ_lt_succ hi)
      rw [Nat.mul_succ] at this
      rw [List.length_drop]
      omega
    have hnext : ∀ i, (rest.drop stride).drop (stride * i) = rest.drop (stride * (i + 1)) := by
      intro i
      rw [List.drop_drop, Nat.mul_succ, Nat.add_comm]
    rw [readEntries, if_neg hfirst, hrest, List.range_succ_eq_map, List.map_cons, List.map_map]
    simp only [hnext]
    rfl

/-- **The table of an image is read**, entry by entry. -/
theorem readTable_eq (h : ∀ condition : Condition, condition.Holds bytes) :
    (Header.ofBytes bytes).readTable bytes =
      .ok ((List.range (entryCount bytes)).map (entryAt bytes)) := by
  obtain ⟨-, -, -, -, hstart, hstride, htable, hentries⟩ := forall_holds_iff.mp h
  obtain ⟨hstartEq, hstrideEq, hcountEq⟩ := toNat_table_ofBytes bytes
  simp only [Header.readTable, hstartEq, hstrideEq, hcountEq, identSize]
  rw [if_neg (by omega), if_neg (by omega), readEntries_eq _ _ _ _ fun i hi => ?_]
  · simp only [List.drop_drop]
    rfl
  · have := hentries i hi
    rw [List.length_drop]
    omega

/-- **Which image a file is.** -/
theorem ofBytes_eq_ok_iff {image : Image} : Image.ofBytes bytes = .ok image ↔
    (∀ condition : Condition, condition.Holds bytes) ∧ image = imageOf bytes := by
  have hread (h : ∀ condition : Condition, condition.Holds bytes) :
      Image.ofBytes bytes = .ok (imageOf bytes) := by
    have hheader : Header.read bytes = .ok (Header.ofBytes bytes) := by
      rcases read_cases bytes with ⟨hok, -⟩ | ⟨condition, hfirst, -⟩
      · exact hok
      · exact absurd (h condition) hfirst.violated
    simp only [Image.ofBytes, hheader, bind, Except.bind, readTable_eq h]
    rfl
  constructor
  · intro himage
    have hall := exists_ofBytes_eq_ok_iff.mp ⟨image, himage⟩
    exact ⟨hall, (Except.ok.inj ((hread hall).symm.trans himage)).symm⟩
  · rintro ⟨hall, rfl⟩
    exact hread hall

end PicoLoader.Elf
