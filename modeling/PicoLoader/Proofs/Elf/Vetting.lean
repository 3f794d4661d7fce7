import Mathlib.Algebra.Group.Nat.Even
import Mathlib.Data.List.Basic
import PicoLoader.Elf.Image

/-!
# Which files are images

`PicoLoader.Elf.Image.ofBytes` looks at a file field by field and stops at the first thing wrong.
This file says, from the bytes alone, which files it accepts and what it says about the others.

A `PicoLoader.Elf.Condition` is one thing that has to hold of a file; there is one for every check,
and one for every entry of the table of program headers. The conditions have an order
(`PicoLoader.Elf.Condition.rank`), and each has the error of a file that violates it. Reading comes
to one of two ends (`ofBytes_cases`): all conditions hold, or the error is that of the *first*
condition that is violated. Since no two conditions have the same rank, there is only one first, and
so both ends are exact. `PicoLoader.Elf.Vetting` puts the statements together.

The condition on the whole table and those on its entries overlap: where an entry takes no less room
than it has bytes, a table inside the file has all of its entries inside the file
(`entryStride_lt_of_entry`).
-/

namespace PicoLoader.Elf

open LittleEndian (field)

/-! ### The numbers that conditions are about -/

/-- The number in the two bytes at an offset, the least significant first. -/
def half (bytes : List UInt8) (offset : Nat) : Nat :=
  (bytes.getD offset 0).toNat + 2 ^ 8 * (bytes.getD (offset + 1) 0).toNat

/-- The number in the four bytes at an offset, the least significant first. -/
def word (bytes : List UInt8) (offset : Nat) : Nat :=
  half bytes offset + 2 ^ 16 * half bytes (offset + 2)

/-- Where a file says that its program headers begin. -/
def tableStart (bytes : List UInt8) : Nat := word bytes 28

/-- How far apart a file says that its program headers are. -/
def entryStride (bytes : List UInt8) : Nat := half bytes 42

/-- How many program headers a file says that it has. -/
def entryCount (bytes : List UInt8) : Nat := half bytes 44

theorem half_lt (bytes : List UInt8) (offset : Nat) : half bytes offset < 2 ^ 16 := by
  have hlow := (bytes.getD offset 0).toNat_lt
  have hhigh := (bytes.getD (offset + 1) 0).toNat_lt
  rw [half]
  omega

theorem word_lt (bytes : List UInt8) (offset : Nat) : word bytes offset < 2 ^ 32 := by
  have hlow := half_lt bytes offset
  have hhigh := half_lt bytes (offset + 2)
  rw [word]
  omega

/-- A field is read byte by byte. -/
theorem field_succ (bytes : List UInt8) (offset width : Nat) :
    field bytes offset (width + 1) =
      (bytes.getD offset 0).toNat + 2 ^ 8 * field bytes (offset + 1) width := by
  have hdrop : bytes.drop (offset + 1) = (bytes.drop offset).tail := by rw [List.tail_drop]
  have hhead : bytes.getD offset 0 = (bytes.drop offset).headD 0 := by
    rw [List.headD_eq_head?_getD, List.head?_drop, List.getD_eq_getElem?_getD]
  rw [field, field, hdrop, hhead]
  cases bytes.drop offset with
  | nil => simp [LittleEndian.decode]
  | cons byte rest => rfl

theorem field_two (bytes : List UInt8) (offset : Nat) :
    field bytes offset 2 = half bytes offset := by
  rw [field_succ, field_succ, field, List.take_zero, LittleEndian.decode, half]
  omega

theorem field_four (bytes : List UInt8) (offset : Nat) :
    field bytes offset 4 = word bytes offset := by
  have hlow : half bytes offset =
      (bytes.getD offset 0).toNat + 2 ^ 8 * (bytes.getD (offset + 1) 0).toNat := rfl
  have hhigh : field bytes (offset + 1 + 1) 2 = half bytes (offset + 2) := field_two _ _
  rw [field_succ, field_succ, hhigh, word, hlow]
  omega

/-- **What the header says about the table** is what the file says at the offsets of its fields. -/
theorem toNat_table_ofBytes (bytes : List UInt8) :
    (Header.ofBytes bytes).tableOffset.toNat = tableStart bytes ∧
    (Header.ofBytes bytes).entrySize.toNat = entryStride bytes ∧
    (Header.ofBytes bytes).entryCount.toNat = entryCount bytes := by
  simp only [Header.ofBytes, field_two, field_four]
  refine ⟨UInt32.toNat_ofNat_of_lt' (word_lt _ _), ?_, ?_⟩
  · exact UInt16.toNat_ofNat_of_lt' (half_lt _ _)
  · exact UInt16.toNat_ofNat_of_lt' (half_lt _ _)

/-! ### Conditions -/

/-- One thing that has to hold of an image file. -/
inductive Condition where
  /-- There are bytes. -/
  | nonempty
  /-- The file header is in the file. -/
  | headerInside
  /-- The magic bytes are at the front. -/
  | magicBytes
  /-- The file is a 32-bit file. -/
  | wordSize
  /-- The file is a little-endian file. -/
  | byteOrder
  /-- The header gives a table of program headers. -/
  | table
  /-- The table is in the file. -/
  | tableInside
  /-- The bytes of the entry with this index, if there is one, are in the file. -/
  | entryInside (index : UInt16)
deriving DecidableEq

namespace Condition

/-- What a condition says of a file. -/
def Holds (bytes : List UInt8) : Condition → Prop
  | nonempty => bytes.length ≠ 0
  | headerInside => 52 ≤ bytes.length
  | magicBytes => bytes.take 4 = [0x7f, 0x45, 0x4c, 0x46]
  | wordSize => bytes.getD 4 0 = 1
  | byteOrder => bytes.getD 5 0 = 1
  | table => 16 ≤ tableStart bytes ∧ entryStride bytes ≠ 0
  | tableInside => tableStart bytes + entryStride bytes * entryCount bytes ≤ bytes.length
  | entryInside index => index.toNat < entryCount bytes →
      tableStart bytes + entryStride bytes * index.toNat + 32 ≤ bytes.length

/-- The place of a condition in the order in which conditions are looked at. -/
def rank : Condition → Nat
  | nonempty => 0
  | headerInside => 1
  | magicBytes => 2
  | wordSize => 3
  | byteOrder => 4
  | table => 5
  | tableInside => 6
  | entryInside index => 7 + index.toNat

/-- What is reported of a file that violates a condition. -/
def error (bytes : List UInt8) : Condition → Error
  | nonempty => .empty
  | headerInside => .headerTruncated
  | magicBytes => .wrongMagic
  | wordSize => .wrongClass (bytes.getD 4 0)
  | byteOrder => .wrongByteOrder (bytes.getD 5 0)
  | table => .tableMissing
  | tableInside => .tableTruncated
  | entryInside index => .entryTruncated index

/-- No two conditions are looked at in the same place. -/
theorem rank_injective : Function.Injective rank := by
  intro first second h
  cases first <;> cases second <;> grind [rank, UInt16.toNat_inj]

/-- The first condition that a file violates: those before it hold. -/
structure FirstViolated (bytes : List UInt8) (condition : Condition) : Prop where
  violated : ¬condition.Holds bytes
  holds_before : ∀ earlier : Condition, earlier.rank < condition.rank → earlier.Holds bytes

variable {bytes : List UInt8}

/-- **Only one condition is the first violated.** -/
theorem FirstViolated.unique {first second : Condition} (hfirst : FirstViolated bytes first)
    (hsecond : FirstViolated bytes second) : first = second := by
  refine rank_injective (Nat.le_antisymm ?_ ?_)
  · exact Nat.le_of_not_lt fun hlt => hsecond.violated (hfirst.holds_before second hlt)
  · exact Nat.le_of_not_lt fun hlt => hfirst.violated (hsecond.holds_before first hlt)

end Condition

open Condition

variable {bytes : List UInt8}

/-! ### Reading -/

/-- All conditions that are looked at before some place hold. -/
def HoldBelow (bytes : List UInt8) (limit : Nat) : Prop :=
  ∀ condition : Condition, condition.rank < limit → condition.Holds bytes

/-- One more condition holds, if it is the one at the limit. -/
theorem HoldBelow.succ (condition : Condition) (hbelow : HoldBelow bytes condition.rank)
    (h : condition.Holds bytes) : HoldBelow bytes (condition.rank + 1) := by
  intro earlier hearlier
  rcases Nat.lt_succ_iff_lt_or_eq.mp hearlier with hlt | heq
  · exact hbelow earlier hlt
  · exact rank_injective heq ▸ h

/-- **The file header is read** if the first five conditions hold; otherwise the error is that of
the first of them that is violated. -/
theorem read_cases (bytes : List UInt8) :
    (Header.read bytes = .ok (Header.ofBytes bytes) ∧ HoldBelow bytes table.rank) ∨
    ∃ condition, FirstViolated bytes condition ∧
      Header.read bytes = .error (condition.error bytes) := by
  have hnone : HoldBelow bytes nonempty.rank := fun condition h => absurd h (Nat.not_lt_zero _)
  rw [Header.read]
  split
  case isTrue h => exact Or.inr ⟨nonempty, ⟨fun hne => hne h, hnone⟩, rfl⟩
  case isFalse h =>
  have hnonempty := HoldBelow.succ nonempty hnone h
  split
  case isTrue h => exact Or.inr ⟨headerInside, ⟨Nat.not_le_of_lt h, hnonempty⟩, rfl⟩
  case isFalse h =>
  have hheader := HoldBelow.succ headerInside hnonempty (Nat.le_of_not_lt h)
  split
  case isTrue h => exact Or.inr ⟨magicBytes, ⟨h, hheader⟩, rfl⟩
  case isFalse h =>
  have hmagic := HoldBelow.succ magicBytes hheader (not_not.mp h)
  split
  case isTrue h => exact Or.inr ⟨wordSize, ⟨h, hmagic⟩, rfl⟩
  case isFalse h =>
  have hwordSize := HoldBelow.succ wordSize hmagic (not_not.mp h)
  split
  case isTrue h => exact Or.inr ⟨byteOrder, ⟨h, hwordSize⟩, rfl⟩
  case isFalse h =>
  exact Or.inl ⟨rfl, HoldBelow.succ byteOrder hwordSize (not_not.mp h)⟩

/-- **Entries are read** if all of their bytes are there; otherwise the error names the first entry
that is not all there. -/
theorem readEntries_cases (stride count index : Nat) (rest : List UInt8) :
    (∃ segments, readEntries stride count index rest = .ok segments ∧
      ∀ i < count, stride * i + 32 ≤ rest.length) ∨
    ∃ i < count, (∀ j < i, stride * j + 32 ≤ rest.length) ∧ ¬stride * i + 32 ≤ rest.length ∧
      readEntries stride count index rest =
        .error (.entryTruncated (UInt16.ofNat (index + i))) := by
  induction count generalizing index rest with
  | zero => exact Or.inl ⟨[], rfl, fun i hi => absurd hi (Nat.not_lt_zero i)⟩
  | succ count ih =>
    have hlength : (rest.take programHeaderSize).length < programHeaderSize ↔
        ¬stride * 0 + 32 ≤ rest.length := by
      rw [List.length_take, programHeaderSize]
      omega
    -- Entry `i` behind the first one is entry `i + 1`.
    have hnext : ∀ i, stride * i + 32 ≤ (rest.drop stride).length ↔
        stride * (i + 1) + 32 ≤ rest.length := by
      intro i
      rw [List.length_drop, Nat.mul_succ]
      omega
    rw [readEntries]
    split
    case isTrue hshort =>
      exact Or.inr ⟨0, Nat.succ_pos count, fun j hj => absurd hj (Nat.not_lt_zero j),
        hlength.mp hshort, rfl⟩
    case isFalse hwhole =>
    have hfirst : stride * 0 + 32 ≤ rest.length := not_not.mp fun h => hwhole (hlength.mpr h)
    rcases ih (index + 1) (rest.drop stride) with
      ⟨segments, hok, hall⟩ | ⟨i, hi, hbefore, hend, herror⟩
    · refine Or.inl ⟨_, by rw [hok]; rfl, fun i hi => ?_⟩
      cases i with
      | zero => exact hfirst
      | succ i => exact (hnext i).mp (hall i (Nat.lt_of_succ_lt_succ hi))
    · refine Or.inr ⟨i + 1, Nat.succ_lt_succ hi, fun j hj => ?_, mt (hnext i).mpr hend, ?_⟩
      · cases j with
        | zero => exact hfirst
        | succ j => exact (hnext j).mp (hbefore j (Nat.lt_of_succ_lt_succ hj))
      · rw [herror, Nat.add_right_comm, Nat.add_assoc]
        rfl

/-- An entry with an index below the count has a number of 16 bits. -/
theorem toNat_ofNat_of_lt_entryCount {i : Nat} (h : i < entryCount bytes) :
    (UInt16.ofNat i).toNat = i :=
  UInt16.toNat_ofNat_of_lt' (Nat.lt_trans h (half_lt bytes 44))

/-- **The table is read** if the other conditions hold; otherwise the error is that of the first of
them that is violated. -/
theorem readTable_cases (hbelow : HoldBelow bytes table.rank) :
    (∃ segments, (Header.ofBytes bytes).readTable bytes = .ok segments ∧
      ∀ condition : Condition, condition.Holds bytes) ∨
    ∃ condition, FirstViolated bytes condition ∧
      (Header.ofBytes bytes).readTable bytes = .error (condition.error bytes) := by
  obtain ⟨hstart, hsize, hcount⟩ := toNat_table_ofBytes bytes
  simp only [Header.readTable, hstart, hsize, hcount, identSize]
  split
  case isTrue h =>
    refine Or.inr ⟨table, ⟨fun hholds => ?_, hbelow⟩, rfl⟩
    rcases h with h | h
    · exact absurd hholds.1 (Nat.not_le_of_lt h)
    · exact hholds.2 h
  case isFalse h =>
  have htable := HoldBelow.succ table hbelow
    ⟨Nat.le_of_not_lt fun hlt => h (Or.inl hlt), fun hzero => h (Or.inr hzero)⟩
  split
  case isTrue h => exact Or.inr ⟨tableInside, ⟨Nat.not_le_of_lt h, htable⟩, rfl⟩
  case isFalse hinside =>
  have htableInside := HoldBelow.succ tableInside htable (Nat.le_of_not_lt hinside)
  have hrest : (bytes.drop (tableStart bytes)).length = bytes.length - tableStart bytes :=
    List.length_drop
  -- An entry lies in the file if it lies in what is behind the start of the table.
  rcases readEntries_cases (entryStride bytes) (entryCount bytes) 0
    (bytes.drop (tableStart bytes)) with
    ⟨segments, hok, hall⟩ | ⟨i, hi, hbefore, hend, herror⟩
  · refine Or.inl ⟨segments, hok, fun condition => ?_⟩
    cases condition with
    | entryInside index =>
      intro hindex
      have := hall index.toNat hindex
      omega
    | _ => exact htableInside _ (by simp only [rank]; omega)
  · rw [Nat.zero_add] at herror
    have hindex := toNat_ofNat_of_lt_entryCount hi
    refine Or.inr ⟨entryInside (UInt16.ofNat i),
      ⟨fun hholds => ?_, fun earlier hearlier => ?_⟩, herror⟩
    · have := hholds (hindex.symm ▸ hi)
      rw [hindex] at this
      omega
    · cases earlier with
      | entryInside index =>
        intro _
        simp only [rank, hindex] at hearlier
        have := hbefore index.toNat (by omega)
        omega
      | _ => exact htableInside _ (by simp only [rank]; omega)

/-- **Reading comes to one of two ends**: all conditions hold, and there is an image, or there is an
error, that of the first condition that is violated. -/
theorem ofBytes_cases (bytes : List UInt8) :
    (∃ image, Image.ofBytes bytes = .ok image ∧ ∀ condition : Condition, condition.Holds bytes) ∨
    ∃ condition, FirstViolated bytes condition ∧
      Image.ofBytes bytes = .error (condition.error bytes) := by
  rcases read_cases bytes with ⟨hread, hbelow⟩ | ⟨condition, hfirst, hread⟩
  · rcases readTable_cases hbelow with ⟨segments, htable, hall⟩ | ⟨condition, hfirst, htable⟩
    · exact Or.inl ⟨⟨Header.ofBytes bytes, segments, bytes⟩, by
        simp [Image.ofBytes, hread, htable, bind, Except.bind, pure, Except.pure], hall⟩
    · exact Or.inr ⟨condition, hfirst, by
        simp [Image.ofBytes, hread, htable, bind, Except.bind]⟩
  · exact Or.inr ⟨condition, hfirst, by simp [Image.ofBytes, hread, bind, Except.bind]⟩

/-- A file has an error if and only if it is that of the first condition that the file violates. -/
theorem ofBytes_eq_error_iff {error : Error} : Image.ofBytes bytes = .error error ↔
    ∃ condition, FirstViolated bytes condition ∧ error = condition.error bytes := by
  rcases ofBytes_cases bytes with ⟨image, hok, hall⟩ | ⟨condition, hfirst, heq⟩
  · rw [hok]
    refine iff_of_false (by simp) ?_
    rintro ⟨condition, hfirst, -⟩
    exact hfirst.violated (hall condition)
  · rw [heq, Except.error.injEq]
    constructor
    · exact fun h => ⟨condition, hfirst, h.symm⟩
    · rintro ⟨other, hother, rfl⟩
      rw [hfirst.unique hother]

/-- A file is an image if and only if all conditions hold of it. -/
theorem exists_ofBytes_eq_ok_iff : (∃ image, Image.ofBytes bytes = .ok image) ↔
    ∀ condition : Condition, condition.Holds bytes := by
  rcases ofBytes_cases bytes with ⟨image, hok, hall⟩ | ⟨condition, hfirst, heq⟩
  · exact iff_of_true ⟨image, hok⟩ hall
  · refine iff_of_false ?_ fun hall => hfirst.violated (hall condition)
    rintro ⟨image, hok⟩
    cases hok.symm.trans heq

/-- All conditions, one by one. That there are bytes follows from the next condition. -/
theorem forall_holds_iff : (∀ condition : Condition, condition.Holds bytes) ↔
    52 ≤ bytes.length ∧ bytes.take 4 = [0x7f, 0x45, 0x4c, 0x46] ∧ bytes.getD 4 0 = 1 ∧
    bytes.getD 5 0 = 1 ∧ 16 ≤ tableStart bytes ∧ entryStride bytes ≠ 0 ∧
    tableStart bytes + entryStride bytes * entryCount bytes ≤ bytes.length ∧
    ∀ i < entryCount bytes, tableStart bytes + entryStride bytes * i + 32 ≤ bytes.length := by
  constructor
  · intro hall
    refine ⟨hall headerInside, hall magicBytes, hall wordSize, hall byteOrder, (hall table).1,
      (hall table).2, hall tableInside, fun i hi => ?_⟩
    have hindex := toNat_ofNat_of_lt_entryCount hi
    have hentry := hall (entryInside (UInt16.ofNat i)) (hindex.symm ▸ hi)
    rwa [hindex] at hentry
  · rintro ⟨hheader, hmagic, hwordSize, hbyteOrder, hstart, hsize, htable, hentries⟩ condition
    cases condition with
    | nonempty => exact Nat.ne_of_gt (Nat.lt_of_lt_of_le (by decide) hheader)
    | headerInside => exact hheader
    | magicBytes => exact hmagic
    | wordSize => exact hwordSize
    | byteOrder => exact hbyteOrder
    | table => exact ⟨hstart, hsize⟩
    | tableInside => exact htable
    | entryInside index => exact hentries index.toNat

/-- **A table inside the file has an entry outside only if its entries overlap.** -/
theorem entryStride_lt_of_entry {index : UInt16} (htable : tableInside.Holds bytes)
    (hentry : ¬(entryInside index).Holds bytes) : entryStride bytes < 32 := by
  simp only [Holds, Classical.not_imp, Nat.not_le] at htable hentry
  obtain ⟨hindex, hend⟩ := hentry
  have hmul : entryStride bytes * (index.toNat + 1) ≤ entryStride bytes * entryCount bytes :=
    Nat.mul_le_mul_left _ hindex
  rw [Nat.mul_succ] at hmul
  omega

/-! ### The statement -/

/-- **Which files are images**, and what is wrong with the others. -/
structure Vetting (bytes : List UInt8) : Prop where
  /-- A file is an image if and only if its header is in the file and identifies it, the header
  gives a table of program headers that is in the file, and all entries are in the file. -/
  ok_iff : (∃ image, Image.ofBytes bytes = .ok image) ↔
    52 ≤ bytes.length ∧ bytes.take 4 = [0x7f, 0x45, 0x4c, 0x46] ∧ bytes.getD 4 0 = 1 ∧
    bytes.getD 5 0 = 1 ∧ 16 ≤ tableStart bytes ∧ entryStride bytes ≠ 0 ∧
    tableStart bytes + entryStride bytes * entryCount bytes ≤ bytes.length ∧
    ∀ i < entryCount bytes, tableStart bytes + entryStride bytes * i + 32 ≤ bytes.length
  /-- Any other file has the error of the first condition that it violates. -/
  error_iff : ∀ error, Image.ofBytes bytes = .error error ↔
    ∃ condition, FirstViolated bytes condition ∧ error = condition.error bytes
  /-- An entry runs past the end of the file only where entries overlap. -/
  entryStride_lt : ∀ index, Image.ofBytes bytes = .error (.entryTruncated index) →
    entryStride bytes < 32

/-- **Every file is vetted**: what is accepted, and what is said of the rest, is exactly this. -/
theorem vetting (bytes : List UInt8) : Vetting bytes where
  ok_iff := exists_ofBytes_eq_ok_iff.trans forall_holds_iff
  error_iff _ := ofBytes_eq_error_iff
  entryStride_lt index h := by
    obtain ⟨condition, hfirst, heq⟩ := ofBytes_eq_error_iff.mp h
    cases condition with
    | entryInside i =>
      exact entryStride_lt_of_entry (hfirst.holds_before tableInside (by simp only [rank]; omega))
        hfirst.violated
    | _ => cases heq

end PicoLoader.Elf
