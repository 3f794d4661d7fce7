import PicoLoader.Proofs.Strict.Scattering

/-!
# Scattering is storing byte by byte

`PicoLoader.Memory.PageMap.scatter` works in pieces: a first one up to the next page bound, whole
pages, and a last one that need not reach the end of its page. This file holds the plain way beside
it. One byte has one page and one place in it (`PicoLoader.Memory.PageMap.storeByte`), and a run of
bytes is stored one after the other (`PicoLoader.Memory.PageMap.storeBytes`), with no bound to look
out for. The two give the same map (`scatter_eq_storeBytes`).

Where the pieces end plays no part in this. A block may be cut anywhere before it is scattered
(`scatter_head_tail`), so also behind its first byte, and a block of one byte is scattered by
storing that byte (`scatter_singleton`). The rest is an induction on the bytes.

Each way is good for a part of what there is to know. Which pages there are is seen from the bytes:
every one of them adds its own page and nothing else (`isSome_page?_storeBytes`). What the pages
hold has been said of blocks already.
-/

namespace PicoLoader.Memory.PageMap

variable {map : PageMap} {block : Block} {byte : UInt8} {bytes : List UInt8} {base : UInt32}
  {x : Nat}

/-- Stores one byte into the page of its address, a page of zeros if there is none. -/
def storeByte (map : PageMap) (x : Nat) (byte : UInt8) : PageMap :=
  map.alter (baseOf x) fun page => page.set (x % 256) byte

/-- **Stores bytes one by one**, the first of them at the address `x`. -/
def storeBytes (map : PageMap) (x : Nat) (bytes : List UInt8) : PageMap :=
  (bytes.zipIdx x).foldl (fun map (byte, y) => map.storeByte y byte) map

@[simp] theorem storeBytes_nil (map : PageMap) (x : Nat) : map.storeBytes x [] = map := rfl

@[simp] theorem storeBytes_cons (map : PageMap) (x : Nat) (byte : UInt8) (bytes : List UInt8) :
    map.storeBytes x (byte :: bytes) = (map.storeByte x byte).storeBytes (x + 1) bytes := rfl

/-! ### Which pages there are -/

/-- A byte adds its own page. -/
theorem isSome_page?_storeByte :
    ((map.storeByte x byte).page? base).isSome ↔ (map.page? base).isSome ∨ baseOf x = base := by
  rw [storeByte, page?_alter]
  split
  case isTrue heq => simp [heq]
  case isFalse hne => simp [Ne.symm hne]

/-- **Bytes add the pages of their addresses**, and no other. -/
theorem isSome_page?_storeBytes : ((map.storeBytes x bytes).page? base).isSome ↔
    (map.page? base).isSome ∨ ∃ y, x ≤ y ∧ y < x + bytes.length ∧ baseOf y = base := by
  induction bytes generalizing map x with
  | nil =>
    have hnone : ¬∃ y, x ≤ y ∧ y < x + ([] : List UInt8).length ∧ baseOf y = base := by
      rintro ⟨y, hlow, hhigh, -⟩
      exact absurd hhigh (Nat.not_lt.mpr hlow)
    simp only [storeBytes_nil, hnone, or_false]
  | cons byte bytes ih =>
    rw [storeBytes_cons, ih, isSome_page?_storeByte, or_assoc, List.length_cons]
    -- The address of the first byte is `x`, those of the others lie above it.
    refine or_congr_right ⟨?_, ?_⟩
    · rintro (hbase | ⟨y, hlow, hhigh, hbase⟩)
      · exact ⟨x, Nat.le_refl x, by omega, hbase⟩
      · exact ⟨y, by omega, by omega, hbase⟩
    · rintro ⟨y, hlow, hhigh, hbase⟩
      rcases Nat.eq_or_lt_of_le hlow with rfl | hlt
      · exact Or.inl hbase
      · exact Or.inr ⟨y, hlt, by omega, hbase⟩

/-! ### The same map -/

/-- Overwriting with one byte is setting it. -/
theorem overlay_singleton {offset : Nat} {page : List UInt8} (h : offset < page.length) :
    overlay offset [byte] page = page.set offset byte := by
  rw [overlay, List.set_eq_take_append_cons_drop, if_pos h, List.append_assoc]
  rfl

/-- **A block of one byte is scattered by storing the byte.** -/
theorem scatter_singleton (hmap : map.Whole) (hx : x < UInt32.size) :
    map.scatter ⟨UInt32.ofNat x, [byte]⟩ = map.storeByte x byte := by
  let single : Block := ⟨UInt32.ofNat x, [byte]⟩
  have haddr : (UInt32.ofNat x).toNat = x := UInt32.toNat_ofNat_of_lt' hx
  have hfront : single.front = single := by
    rw [Block.front, Block.head, List.take_of_length_le (Block.roomInPage_pos _)]
  have hrest : single.rest.bytes = [] := List.drop_eq_nil_of_le (Block.roomInPage_pos _)
  have hbase : baseOf x = alignDown single.addr pageSize :=
    (baseOf_eq_alignDown_iff hx _).mpr (by rw [haddr])
  have hoffset : Block.offsetInPage single.addr = x % 256 := by
    rw [Block.offsetInPage, haddr, toNat_pageSize]
  -- The page is whole, so it has a place for the byte.
  have hlt : x % 256 < (map.target single).length := by
    rw [length_target hmap]
    exact Nat.mod_lt x (by decide)
  rw [scatter_eq map (List.cons_ne_nil _ _), scatter_of_nil _ hrest, hfront, storePiece, storeByte,
    alter_eq_insert, alter_eq_insert, hoffset, hbase]
  exact congrArg _ (overlay_singleton hlt)

/-- **Scattering is storing byte by byte**, by induction on the bytes: the first of them is cut
off. -/
theorem scatter_eq_storeBytes (hmap : map.Whole) (hfits : x + bytes.length ≤ UInt32.size) :
    map.scatter ⟨UInt32.ofNat x, bytes⟩ = map.storeBytes x bytes := by
  induction bytes generalizing map x with
  | nil => exact scatter_of_nil map rfl
  | cons byte bytes ih =>
    rw [List.length_cons] at hfits
    have hx : x < UInt32.size := by omega
    let block : Block := ⟨UInt32.ofNat x, byte :: bytes⟩
    have hstop : block.stop ≤ UInt32.size := by
      rw [Block.stop, Block.size, UInt32.toNat_ofNat_of_lt' hx, List.length_cons]
      exact hfits
    have hhead : map.scatter (block.head 1) = map.storeByte x byte := scatter_singleton hmap hx
    have htail : block.tail 1 = ⟨UInt32.ofNat (x + 1), bytes⟩ := by
      rw [UInt32.ofNat_add]
      rfl
    calc map.scatter block
      _ = (map.scatter (block.head 1)).scatter (block.tail 1) :=
        (scatter_head_tail hmap hstop 1).symm
      _ = (map.storeByte x byte).scatter ⟨UInt32.ofNat (x + 1), bytes⟩ := by rw [hhead, htail]
      _ = (map.storeByte x byte).storeBytes (x + 1) bytes :=
        ih (hhead ▸ whole_scatter hmap _) (by omega)

/-! ### What the pages hold -/

/-- Where the block covers, its bytes are in the pages. -/
theorem byte?_scatter_of_covers (hmap : map.Whole) (hstop : block.stop ≤ UInt32.size)
    (hx : block.Covers x) : (map.scatter block).byte? x = block.byte? x := by
  have hlt : x < UInt32.size := Nat.lt_of_lt_of_le hx.2 hstop
  obtain ⟨byte, hbyte⟩ := Option.isSome_iff_exists.mp (Block.isSome_byte?_iff.mpr hx)
  rw [byte?_scatter_of_touches hmap hstop hlt (hx.touches 256), hbyte, Option.getD_some]

/-- Where it does not cover, the map has what it had, or a zero where it had no page. -/
theorem byte?_scatter_of_not_covers (hmap : map.Whole) (hstop : block.stop ≤ UInt32.size)
    (hlt : x < UInt32.size) (hx : ¬block.Covers x) (h : ((map.scatter block).byte? x).isSome) :
    (map.scatter block).byte? x = some ((map.byte? x).getD 0) := by
  by_cases htouch : block.Touches 256 x
  · rw [byte?_scatter_of_touches hmap hstop hlt htouch, Block.byte?_eq_none_iff.mpr hx,
      Option.getD_none]
  · rw [byte?_scatter_of_not_touches hmap hstop hlt htouch] at h ⊢
    obtain ⟨byte, hbyte⟩ := Option.isSome_iff_exists.mp h
    rw [hbyte, Option.getD_some]

/-! ### The statement -/

/-- **Scattering a block into a map stores it byte by byte.** -/
structure StoresBytewise (map : PageMap) (block : Block) : Prop where
  /-- The loop comes to its end without a trap, and leaves what the bytes leave one by one. -/
  scatterFrom_eq : Strict.scatterFrom block.addr block.bytes 0 map =
    .ok (map.storeBytes block.addr.toNat block.bytes)
  /-- The block that is cut into pieces first leaves the same. -/
  scatter_eq : map.scatter block = map.storeBytes block.addr.toNat block.bytes
  /-- Pages stay whole. -/
  whole : (map.scatter block).Whole
  /-- The pages are those that were there and those that the block meets. -/
  isSome_page?_iff : ∀ base, ((map.scatter block).page? base).isSome ↔
    (map.page? base).isSome ∨ ∃ x, block.Covers x ∧ baseOf x = base
  /-- They hold the bytes of the block. -/
  byte?_of_covers : ∀ x, block.Covers x → (map.scatter block).byte? x = block.byte? x
  /-- Every other byte of a page that was there is unchanged. -/
  byte?_of_old : ∀ x < UInt32.size, ¬block.Covers x → (map.page? (baseOf x)).isSome →
    (map.scatter block).byte? x = map.byte? x
  /-- Every other byte of a page that was not there is zero. -/
  byte?_of_new : ∀ x < UInt32.size, ¬block.Covers x → map.page? (baseOf x) = none →
    ((map.scatter block).page? (baseOf x)).isSome → (map.scatter block).byte? x = some 0

/-- **Blocks are stored byte by byte**, into whole pages, if they end inside the address space. -/
theorem storesBytewise (hmap : map.Whole) (hstop : block.stop < UInt32.size) :
    StoresBytewise map block := by
  have hle : block.stop ≤ UInt32.size := Nat.le_of_lt hstop
  have hwhole := whole_scatter hmap block
  have hbytes : map.scatter block = map.storeBytes block.addr.toNat block.bytes := by
    rw [← scatter_eq_storeBytes hmap hle, UInt32.ofNat_toNat]
  refine ⟨?_, hbytes, hwhole, ?_, fun _ => byte?_scatter_of_covers hmap hle, ?_, ?_⟩
  · rw [Strict.scatterFrom_zero_eq hstop hmap, hbytes]
  · intro base
    simp only [hbytes, isSome_page?_storeBytes, Block.Covers, and_assoc]
    rfl
  · intro x hlt hx hold
    obtain ⟨byte, hbyte⟩ := Option.isSome_iff_exists.mp ((isSome_byte?_iff hmap).mpr hold)
    have hsome : ((map.scatter block).byte? x).isSome := by
      rw [isSome_byte?_iff hwhole, hbytes, isSome_page?_storeBytes]
      exact Or.inl hold
    rw [byte?_scatter_of_not_covers hmap hle hlt hx hsome, hbyte, Option.getD_some]
  · intro x hlt hx hnew hpage
    have hnone : map.byte? x = none := by rw [byte?, hnew, Option.bind_none]
    rw [byte?_scatter_of_not_covers hmap hle hlt hx ((isSome_byte?_iff hwhole).mpr hpage), hnone,
      Option.getD_none]

/-- Four bytes from two places before a page bound on: the page below the bound was there, the one
above it is new. -/
theorem storesBytewise_acrossPages :
    let map : PageMap := .ofList [⟨0x10000000, List.replicate 256 0xAA⟩]
    let block : Block := ⟨0x100000FE, [1, 2, 3, 4]⟩
    map.Whole ∧ block.stop < UInt32.size ∧ StoresBytewise map block ∧
      (map.scatter block).pages =
        [⟨0x10000000, List.replicate 254 0xAA ++ [1, 2]⟩,
          ⟨0x10000100, [3, 4] ++ List.replicate 254 0⟩] := by
  intro map block
  have hmap : map.Whole := by
    intro page hpage
    obtain rfl := List.mem_singleton.mp hpage
    exact ⟨rfl, List.length_replicate⟩
  have hstop : block.stop < UInt32.size := by decide
  have hstores := storesBytewise hmap hstop
  refine ⟨hmap, hstop, hstores, ?_⟩
  rw [hstores.scatter_eq]
  decide +kernel

end PicoLoader.Memory.PageMap
