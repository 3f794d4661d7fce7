import Mathlib.Logic.Basic
import PicoLoader.Memory.Block

/-!
# Which byte a list of blocks leaves where

Blocks are stored one after the other, and a later block may cover a part of an earlier one. What is
left at an address is then the byte of the *last* block that covers it. This file holds that
reading, apart from how blocks are stored:

* `PicoLoader.Memory.Block.Covers` – the addresses of a block, as numbers;
* `PicoLoader.Memory.Block.byte?` – the byte that a block has for an address;
* `PicoLoader.Memory.lastByte?` – the byte of the last of some blocks that covers an address;
* `PicoLoader.Memory.Block.Touches` – the units (pages, sectors) that a block reaches into.

A block may be cut, and its parts stored in order: `byte?_split` says that nothing changes by it, as
long as the block ends inside the address space.
-/

namespace PicoLoader.Memory

namespace Block

/-- Whether the block has a byte for the address. -/
def Covers (block : Block) (x : Nat) : Prop := block.addr.toNat ≤ x ∧ x < block.stop

instance (block : Block) (x : Nat) : Decidable (block.Covers x) :=
  inferInstanceAs (Decidable (_ ∧ _))

/-- The byte that the block has for the address. -/
def byte? (block : Block) (x : Nat) : Option UInt8 :=
  if block.addr.toNat ≤ x then block.bytes[x - block.addr.toNat]? else none

/-- Whether the block reaches into the unit of `unit` addresses that `x` lies in. -/
def Touches (unit : Nat) (block : Block) (x : Nat) : Prop :=
  ∃ y, block.Covers y ∧ y / unit = x / unit

theorem Covers.touches {block : Block} {x : Nat} (h : block.Covers x) (unit : Nat) :
    block.Touches unit x := ⟨x, h, rfl⟩

/-- **A block has a byte for the addresses that it covers**, and for no other. -/
theorem byte?_eq_none_iff {block : Block} {x : Nat} : block.byte? x = none ↔ ¬block.Covers x := by
  simp only [byte?, Covers, stop, size]
  split
  · rw [List.getElem?_eq_none_iff]
    omega
  · exact iff_of_true rfl (by omega)

theorem isSome_byte?_iff {block : Block} {x : Nat} : (block.byte? x).isSome ↔ block.Covers x := by
  rw [← Option.ne_none_iff_isSome, ne_eq, byte?_eq_none_iff, not_not]

theorem byte?_of_covers {block : Block} {x : Nat} (h : block.Covers x) :
    block.byte? x = block.bytes[x - block.addr.toNat]? := if_pos h.1

/-- An empty block covers nothing. -/
theorem not_covers_of_nil {block : Block} (h : block.bytes = []) (x : Nat) : ¬block.Covers x := by
  simp only [Covers, stop, size, h, List.length_nil]
  omega

/-- **A block is where it begins and the bytes that it has.** -/
theorem eq_of_byte? {block other : Block} (haddr : other.addr = block.addr)
    (h : ∀ x, other.byte? x = block.byte? x) : other = block := by
  obtain ⟨addr, bytes⟩ := block
  obtain ⟨addr', bytes'⟩ := other
  obtain rfl : addr' = addr := haddr
  refine congrArg (Block.mk addr') (List.ext_getElem? fun j => ?_)
  simpa [byte?] using h (addr'.toNat + j)

/-! ### Cutting a block -/

/-- The block without its first `n` bytes. -/
def tail (block : Block) (n : Nat) : Block :=
  ⟨block.addr + UInt32.ofNat n, block.bytes.drop n⟩

/-- The first `n` bytes of the block. -/
def head (block : Block) (n : Nat) : Block :=
  ⟨block.addr, block.bytes.take n⟩

theorem toNat_addr_tail {block : Block} {n : Nat} (h : block.addr.toNat + n < UInt32.size) :
    (block.tail n).addr.toNat = block.addr.toNat + n := by
  rw [tail, UInt32.toNat_add, UInt32.toNat_ofNat', Nat.add_mod_mod]
  exact Nat.mod_eq_of_lt h

theorem stop_tail_le {block : Block} (n : Nat) (h : block.stop ≤ UInt32.size) :
    (block.tail n).stop ≤ UInt32.size := by
  have htail := (block.tail n).addr.toNat_lt
  simp only [stop, size] at h ⊢
  rcases Nat.lt_or_ge (block.addr.toNat + n) UInt32.size with hn | hn
  · rw [toNat_addr_tail hn, tail, List.length_drop]
    omega
  · have hnil : (block.tail n).bytes.length = 0 := by
      rw [tail, List.length_drop]
      omega
    rw [hnil]
    exact Nat.le_of_lt htail

theorem stop_head_le {block : Block} (n : Nat) : (block.head n).stop ≤ block.stop := by
  simp only [stop, size, head, List.length_take]
  omega

/-- **Cutting loses nothing**: the rest of the block has the bytes from `n` on, its front the bytes
before. -/
theorem byte?_split {block : Block} (n : Nat) (h : block.stop ≤ UInt32.size) (x : Nat) :
    block.byte? x = ((block.tail n).byte? x).or ((block.head n).byte? x) := by
  rcases Nat.lt_or_ge (block.addr.toNat + n) UInt32.size with hn | hn
  · -- The rest begins `n` behind the block, as numbers.
    simp only [byte?, toNat_addr_tail hn]
    simp only [tail, head, List.getElem?_drop, List.getElem?_take]
    rcases Nat.lt_or_ge x (block.addr.toNat + n) with hx | hx
    · rw [if_neg (Nat.not_le.mpr hx), Option.none_or]
      split
      case isTrue hle => rw [if_pos (by omega)]
      case isFalse => rfl
    · rw [if_pos (by omega), if_pos hx, if_pos (by omega), if_neg (by omega), Option.or_none]
      exact congrArg (block.bytes[·]?) (by omega)
  · -- The cut lies past the end of the block, so the rest is empty and the front is the block.
    have hlen : block.bytes.length ≤ n := by
      simp only [stop, size] at h
      omega
    have hrest : (block.tail n).byte? x = none :=
      byte?_eq_none_iff.mpr (not_covers_of_nil (List.drop_eq_nil_of_le hlen) x)
    rw [hrest, Option.none_or, head, List.take_of_length_le hlen]

theorem covers_split {block : Block} (n : Nat) (h : block.stop ≤ UInt32.size) {x : Nat} :
    block.Covers x ↔ (block.tail n).Covers x ∨ (block.head n).Covers x := by
  simp only [← isSome_byte?_iff, byte?_split n h x, Option.isSome_or, Bool.or_eq_true]

end Block

/-! ### The last of several blocks -/

/-- The byte of the last of the blocks that cover the address. -/
def lastByte? : List Block → Nat → Option UInt8
  | [], _ => none
  | block :: blocks, x => (lastByte? blocks x).or (block.byte? x)

@[simp] theorem lastByte?_nil (x : Nat) : lastByte? [] x = none := rfl

@[simp] theorem lastByte?_cons (block : Block) (blocks : List Block) (x : Nat) :
    lastByte? (block :: blocks) x = (lastByte? blocks x).or (block.byte? x) := rfl

@[simp] theorem lastByte?_append (first second : List Block) (x : Nat) :
    lastByte? (first ++ second) x = (lastByte? second x).or (lastByte? first x) := by
  induction first with
  | nil => simp
  | cons block blocks ih => simp [ih, Option.or_assoc]

/-- Blocks leave a byte at the addresses that one of them covers. -/
theorem lastByte?_eq_none_iff {blocks : List Block} {x : Nat} :
    lastByte? blocks x = none ↔ ∀ block ∈ blocks, ¬block.Covers x := by
  induction blocks with
  | nil => simp
  | cons block blocks ih => simp [ih, Block.byte?_eq_none_iff, and_comm]

/-- Blocks reach into a unit if they leave a byte at one of its addresses. -/
theorem exists_touches_iff {blocks : List Block} {unit x : Nat} :
    (∃ block ∈ blocks, block.Touches unit x) ↔
      ∃ y, (lastByte? blocks y).isSome ∧ y / unit = x / unit := by
  have hcovers : ∀ y, (lastByte? blocks y).isSome ↔ ∃ block ∈ blocks, block.Covers y := by
    intro y
    rw [← Option.ne_none_iff_isSome, ne_eq, lastByte?_eq_none_iff]
    simp
  simp only [hcovers, Block.Touches]
  constructor
  · rintro ⟨block, hblock, y, hy, hunit⟩
    exact ⟨y, ⟨block, hblock, hy⟩, hunit⟩
  · rintro ⟨y, ⟨block, hblock, hy⟩, hunit⟩
    exact ⟨block, hblock, y, hy, hunit⟩

/-- **The last block that covers an address decides**, whatever the blocks before it are. -/
theorem lastByte?_of_last {earlier later : List Block} {block : Block} {x : Nat}
    (hx : block.Covers x) (hlater : ∀ b ∈ later, ¬b.Covers x) :
    lastByte? (earlier ++ block :: later) x = block.byte? x := by
  obtain ⟨b, hb⟩ := Option.isSome_iff_exists.mp (Block.isSome_byte?_iff.mpr hx)
  simp [lastByte?_eq_none_iff.mpr hlater, hb]

/-- Where no two blocks cover one address, any block that covers it decides. -/
theorem lastByte?_of_unique {blocks : List Block} {block : Block} {x : Nat} (hmem : block ∈ blocks)
    (hunique : ∀ b ∈ blocks, b.Covers x → b = block) : lastByte? blocks x = block.byte? x := by
  induction blocks with
  | nil => cases hmem
  | cons first rest ih =>
    have hrest := fun b hb => hunique b (List.mem_cons_of_mem _ hb)
    rw [lastByte?_cons]
    by_cases hin : block ∈ rest
    · rw [ih hin hrest]
      by_cases hfirst : first.Covers x
      · rw [hunique first List.mem_cons_self hfirst, Option.or_self]
      · rw [Block.byte?_eq_none_iff.mpr hfirst, Option.or_none]
    · obtain rfl : block = first := (List.mem_cons.mp hmem).resolve_right hin
      have hnone : lastByte? rest x = none :=
        lastByte?_eq_none_iff.mpr fun b hb hc => hin (hrest b hb hc ▸ hb)
      rw [hnone, Option.none_or]

/-- **The order of blocks does not matter** at an address that no two of them cover. -/
theorem lastByte?_perm {blocks others : List Block} (hperm : others.Perm blocks) {x : Nat}
    (hunique : ∀ a ∈ blocks, ∀ b ∈ blocks, a.Covers x → b.Covers x → a = b) :
    lastByte? others x = lastByte? blocks x := by
  by_cases h : ∃ block ∈ blocks, block.Covers x
  · obtain ⟨block, hblock, hcovers⟩ := h
    have hone : ∀ b ∈ blocks, b.Covers x → b = block :=
      fun b hb hc => hunique b hb block hblock hc hcovers
    rw [lastByte?_of_unique hblock hone, lastByte?_of_unique (hperm.mem_iff.mpr hblock)
      fun b hb => hone b (hperm.mem_iff.mp hb)]
  · have hnone : ∀ b ∈ blocks, ¬b.Covers x := fun b hb hc => h ⟨b, hb, hc⟩
    rw [lastByte?_eq_none_iff.mpr hnone,
      lastByte?_eq_none_iff.mpr fun b hb => hnone b (hperm.mem_iff.mp hb)]

/-- Blocks may be replaced by their parts. -/
theorem lastByte?_flatMap {blocks : List Block} (parts : Block → List Block) {x : Nat}
    (h : ∀ block ∈ blocks, lastByte? (parts block) x = block.byte? x) :
    lastByte? (blocks.flatMap parts) x = lastByte? blocks x := by
  induction blocks with
  | nil => rfl
  | cons block blocks ih =>
    rw [List.flatMap_cons, lastByte?_append, lastByte?_cons, h block List.mem_cons_self,
      ih fun b hb => h b (List.mem_cons_of_mem _ hb)]

end PicoLoader.Memory
