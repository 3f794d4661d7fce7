import PicoLoader.Load.Steps
import PicoLoader.Proofs.Load.Requests
import PicoLoader.Proofs.Memory.Covering

/-!
# The writes of a block for RAM

A block for RAM is written in chunks. `PicoLoader.Load.chunkSteps` cuts it on the way, with an
address that it checks before each write; here the chunks are given outright: chunk number `i` is
what is left of the block behind `i` full chunks, up to the size of a chunk
(`PicoLoader.Memory.Block.chunk`), and there are as many as it takes to use the block up
(`PicoLoader.Memory.Block.chunkCount`).

* `exists_ramSteps_eq` – the steps of a block are its chunks in order; where the block leaves the
  address space, the first few chunks and then a step that stops;
* `lastByte?_chunks` – the chunks in order store what the block stores;
* `size_chunk_pos`, `size_chunk_le`, `stop_chunk_le` – a chunk has some bytes, no more than one
  write may carry, and does not leave the block.
-/

namespace PicoLoader

open Load (chunkSize)

namespace Memory.Block

/-- Chunk number `i` of a block. -/
def chunk (block : Block) (i : Nat) : Block := (block.tail (i * chunkSize)).head chunkSize

/-- The number of chunks: the size in chunks, rounded up. -/
def chunkCount (block : Block) : Nat := (block.size + (chunkSize - 1)) / chunkSize

/-- The chunks of a block, in order. -/
def chunks (block : Block) : List Block := (List.range block.chunkCount).map block.chunk

variable {block : Block} {i : Nat}

/-- There is a chunk with a number exactly if the block reaches behind the chunks before. -/
theorem lt_chunkCount_iff : i < block.chunkCount ↔ i * chunkSize < block.size := by
  simp only [chunkCount, chunkSize]
  omega

theorem size_chunk : (block.chunk i).size = min chunkSize (block.size - i * chunkSize) := by
  simp only [chunk, head, tail, size, List.length_take, List.length_drop]

/-- A chunk has at least one byte. -/
theorem size_chunk_pos (h : i < block.chunkCount) : 0 < (block.chunk i).size := by
  rw [lt_chunkCount_iff] at h
  rw [size_chunk, Nat.lt_min]
  exact ⟨by decide, by omega⟩

theorem size_chunk_le : (block.chunk i).size ≤ chunkSize := by
  rw [size_chunk]
  exact Nat.min_le_left _ _

theorem toNat_addr_chunk_of_lt (h : block.addr.toNat + i * chunkSize < UInt32.size) :
    (block.chunk i).addr.toNat = block.addr.toNat + i * chunkSize := toNat_addr_tail h

theorem toNat_addr_chunk (hfits : block.stop ≤ UInt32.size) (h : i < block.chunkCount) :
    (block.chunk i).addr.toNat = block.addr.toNat + i * chunkSize := by
  rw [lt_chunkCount_iff] at h
  refine toNat_addr_chunk_of_lt ?_
  rw [stop] at hfits
  omega

/-- A chunk does not leave the block. -/
theorem stop_chunk_le (hfits : block.stop ≤ UInt32.size) (h : i < block.chunkCount) :
    (block.chunk i).stop ≤ block.stop := by
  rw [stop, toNat_addr_chunk hfits h, size_chunk, stop]
  rw [lt_chunkCount_iff] at h
  omega

/-! ### The chunks store what the block stores -/

theorem tail_tail (m n : Nat) : (block.tail m).tail n = block.tail (m + n) := by
  simp only [tail, List.drop_drop, UInt32.ofNat_add, UInt32.add_assoc]

theorem tail_zero (block : Block) : block.tail 0 = block := by
  rw [tail, List.drop_zero]
  exact congrArg (fun addr => Block.mk addr block.bytes) (UInt32.add_zero block.addr)

/-- The chunks from number `i` on store what the block has left behind `i` chunks. -/
theorem lastByte?_chunks_from (hfits : block.stop ≤ UInt32.size) (x : Nat) {k : Nat}
    (h : block.chunkCount = i + k) :
    lastByte? ((List.range' i k).map block.chunk) x = (block.tail (i * chunkSize)).byte? x := by
  induction k generalizing i with
  | zero =>
    refine (byte?_eq_none_iff.mpr (not_covers_of_nil (List.drop_eq_nil_of_le ?_) x)).symm
    exact Nat.le_of_not_lt fun hlt => absurd (lt_chunkCount_iff.mpr hlt) (by omega)
  | succ k ih =>
    have hrest :
        (block.tail (i * chunkSize)).tail chunkSize = block.tail ((i + 1) * chunkSize) := by
      rw [tail_tail, Nat.succ_mul]
    -- Chunk `i` and what is behind it are a cut of what is left behind `i` chunks.
    rw [List.range'_succ, List.map_cons, lastByte?_cons, ih (by omega), ← hrest]
    exact (byte?_split chunkSize (stop_tail_le _ hfits) x).symm

/-- **The chunks in order store what the block stores.** -/
theorem lastByte?_chunks (hfits : block.stop ≤ UInt32.size) (x : Nat) :
    lastByte? block.chunks x = block.byte? x := by
  rw [chunks, List.range_eq_range', lastByte?_chunks_from hfits x (Nat.zero_add _).symm,
    Nat.zero_mul, tail_zero]

/-- **The chunks of several blocks** store what the blocks store. -/
theorem lastByte?_flatMap_chunks {blocks : List Block}
    (hfits : ∀ block ∈ blocks, block.stop ≤ UInt32.size) (x : Nat) :
    lastByte? (blocks.flatMap chunks) x = lastByte? blocks x :=
  lastByte?_flatMap chunks fun block hblock => lastByte?_chunks (hfits block hblock) x

end Memory.Block

namespace Load

open Memory

variable {block : Block} {i k : Nat}

/-- The write of a block. -/
def writeOf (block : Block) : Call := .write block.addr block.bytes

/-- The step that stops where a block leaves the address space. -/
def tooFar (block : Block) : Step := .stop (.plan (.pastAddressSpace block.addr))

/-- The writes from chunk number `i` on: as many chunks as begin inside the address space. -/
theorem exists_chunkSteps_eq (h : block.chunkCount = i + k) :
    ∃ n ≤ k, chunkSteps block.addr (i * chunkSize) (block.bytes.drop (i * chunkSize)) =
        ((List.range' i n).map fun j => .require (writeOf (block.chunk j)) .ramWrite) ++
          (if n = k then [] else [tooFar block]) ∧
      (block.stop ≤ UInt32.size → n = k) ∧
      ∀ j < n, block.addr.toNat + (i + j) * chunkSize < UInt32.size := by
  induction k generalizing i with
  | zero =>
    have hnil : block.bytes.drop (i * chunkSize) = [] := by
      refine List.drop_eq_nil_of_le (Nat.le_of_not_lt ?_)
      intro hlt
      exact absurd (Block.lt_chunkCount_iff.mpr hlt) (by omega)
    refine ⟨0, Nat.le_refl _, ?_, fun _ => rfl, fun j hj => absurd hj (Nat.not_lt_zero j)⟩
    rw [hnil, chunkSteps, if_pos rfl]
    rfl
  | succ k ih =>
    have hlt : i * chunkSize < block.bytes.length := Block.lt_chunkCount_iff.mp (by omega)
    have hne : block.bytes.drop (i * chunkSize) ≠ [] := fun hnil => by
      have := List.drop_eq_nil_iff.mp hnil
      omega
    rw [chunkSteps, if_neg hne]
    split
    case isTrue hin =>
      obtain ⟨n, hn, heq, hall, hbegin⟩ := ih (i := i + 1) (by omega)
      refine ⟨n + 1, by omega, ?_, fun hfits => congrArg (· + 1) (hall hfits), ?_⟩
      · rw [Nat.succ_mul] at heq
        rw [List.drop_drop, heq]
        simp only [List.range'_succ, List.map_cons, List.cons_append, Nat.add_right_cancel_iff]
        rfl
      · intro j hj
        cases j with
        | zero => exact hin
        | succ j =>
          have h := hbegin j (Nat.lt_of_succ_lt_succ hj)
          rwa [Nat.add_assoc, Nat.add_comm 1 j] at h
    case isFalse hout =>
      -- The next chunk would begin outside the address space, so the block ends outside.
      refine ⟨0, Nat.zero_le _, rfl, fun hfits => absurd hfits ?_,
        fun j hj => absurd hj (Nat.not_lt_zero j)⟩
      rw [Block.stop, Block.size]
      omega

/-- **The steps of a block for RAM** write its first chunks in order: all of them if the block ends
inside the address space. Otherwise they may stop before the first chunk that begins outside. -/
theorem exists_ramSteps_eq (block : Block) :
    ∃ entry, ∃ n ≤ block.chunkCount, ramSteps block =
        .note entry :: ((List.range n).map fun j => .require (writeOf (block.chunk j)) .ramWrite) ++
          (if n = block.chunkCount then [] else [tooFar block]) ∧
      (block.stop ≤ UInt32.size → n = block.chunkCount) ∧
      ∀ j < n, block.addr.toNat + j * chunkSize < UInt32.size := by
  obtain ⟨n, hn, heq, hall, hbegin⟩ := exists_chunkSteps_eq (Nat.zero_add block.chunkCount).symm
  rw [Nat.zero_mul, List.drop_zero, ← List.range_eq_range'] at heq
  refine ⟨_, n, hn, congrArg (Step.note _ :: ·) heq, hall, fun j hj => ?_⟩
  exact Nat.zero_add j ▸ hbegin j hj

/-! ### What the steps of a block ask for -/

/-- The requests for the chunks of a block. -/
def ramRequests (block : Block) : List (Call × Severity) :=
  block.chunks.map fun chunk => (writeOf chunk, .fatal .ramWrite)

theorem said_ramSteps (block : Block) : said (ramSteps block) = [] := by
  obtain ⟨entry, n, -, heq, -⟩ := exists_ramSteps_eq block
  have hhalt := halt?_map_require (fun j => writeOf (block.chunk j)) .ramWrite (List.range n)
  rw [heq, List.cons_append, said, said_append _ hhalt, said_map_require]
  split <;> rfl

/-- The steps of a block that ends inside the address space do not stop. -/
theorem halt?_ramSteps_of_fits (hfits : block.stop ≤ UInt32.size) :
    halt? (ramSteps block) = none := by
  obtain ⟨entry, n, -, heq, hall, -⟩ := exists_ramSteps_eq block
  rw [heq, List.cons_append, halt?, halt?_append, halt?_map_require, if_pos (hall hfits)]
  rfl

/-- Where the steps of a block do not stop, all its chunks begin inside the address space. -/
theorem begins_of_halt (h : halt? (ramSteps block) = none) (hi : i < block.chunkCount) :
    block.addr.toNat + i * chunkSize < UInt32.size := by
  obtain ⟨entry, n, -, heq, -, hbegin⟩ := exists_ramSteps_eq block
  have hhalt := halt?_map_require (fun j => writeOf (block.chunk j)) .ramWrite (List.range n)
  rw [heq, List.cons_append, halt?, halt?_append, hhalt, Option.none_or] at h
  split at h
  case isTrue hall => exact hbegin i (hall ▸ hi)
  case isFalse => cases h

/-- **The steps of a block amount to writes of its chunks.** -/
theorem amountsTo_ramSteps (block : Block) : AmountsTo (ramSteps block) (ramRequests block) := by
  obtain ⟨entry, n, hn, heq, -⟩ := exists_ramSteps_eq block
  have hhalt := halt?_map_require (fun j => writeOf (block.chunk j)) .ramWrite (List.range n)
  have hrequests : requests (ramSteps block) =
      ((List.range n).map block.chunk).map fun chunk => (writeOf chunk, .fatal .ramWrite) := by
    have hrest : requests (if n = block.chunkCount then [] else [tooFar block]) = [] := by
      split <;> rfl
    rw [heq, List.cons_append, requests, requests_append _ hhalt, hrest, List.append_nil,
      requests_map_require, List.map_map]
    rfl
  constructor
  · rw [hrequests, ramRequests, Block.chunks, ← Nat.min_eq_left hn, ← List.take_range]
    exact ((List.take_prefix _ _).map _).map _
  · intro h
    rw [heq, List.cons_append, halt?, halt?_append, hhalt, Option.none_or] at h
    split at h
    case isTrue hall => rw [hrequests, hall, ramRequests, Block.chunks]
    case isFalse => cases h

end Load

end PicoLoader
