import PicoLoader.Memory.Align

/-!
# Blocks

A block is a run of bytes with the address of its first byte: what a segment asks to be stored, what
one write stores, and what a flash page holds. A block knows no end of memory;
`PicoLoader.Memory.Block.stop` is a plain number, so that a block which leaves the address space can
be told from one that ends there.

`PicoLoader.Memory.Block.pieces` cuts a block at the page bounds. Nothing is lost or moved by it:
`flatMap_pieces` says that the bytes of the pieces, in order, are the bytes of the block.
-/

namespace PicoLoader.Memory

/-- Bytes and the address of the first of them. -/
structure Block where
  addr : UInt32
  bytes : List UInt8
deriving DecidableEq, Repr

namespace Block

/-- The number of bytes. -/
def size (block : Block) : Nat := block.bytes.length

/-- One past the address of the last byte, as a number without a bound. -/
def stop (block : Block) : Nat := block.addr.toNat + block.size

/-- How far into its page an address lies. -/
def offsetInPage (addr : UInt32) : Nat :=
  addr.toNat % pageSize.toNat

/-- The bytes from `addr` to the next page bound; a whole page if `addr` is a page bound itself. -/
def roomInPage (addr : UInt32) : Nat :=
  pageSize.toNat - offsetInPage addr

/-- An address lies less than a page above its page bound, so its page has room. -/
theorem roomInPage_pos (addr : UInt32) : 0 < roomInPage addr :=
  Nat.sub_pos_of_lt (Nat.mod_lt _ (by decide))

/-- The block cut at the page bounds: the pieces in ascending order, each inside one page. -/
def pieces (block : Block) : List Block :=
  if block.bytes = [] then []
  else
    let room := roomInPage block.addr
    ⟨block.addr, block.bytes.take room⟩ ::
      pieces ⟨block.addr + UInt32.ofNat room, block.bytes.drop room⟩
termination_by block.bytes.length
decreasing_by
  rename_i hne
  have hlen : 0 < block.bytes.length := List.length_pos_iff.mpr hne
  have hroom := roomInPage_pos block.addr
  rw [List.length_drop]
  omega

/-- **Cutting loses nothing**: the bytes of the pieces are the bytes of the block, in order. -/
theorem flatMap_pieces (block : Block) : block.pieces.flatMap bytes = block.bytes := by
  fun_induction pieces block with
  | case1 block h => simp [h]
  | case2 block h room ih => simp [ih, room]

end Block

end PicoLoader.Memory
