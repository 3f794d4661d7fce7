import Mathlib.Data.List.Sort
import PicoLoader.Memory.PageMap
import PicoLoader.Proofs.Memory.Covering
import PicoLoader.Proofs.Memory.Rounding

/-!
# What scattering leaves in the pages

`PicoLoader.Memory.PageMap.scatter` cuts a block at the page bounds and stores each piece into its
page. This file reads a page map as a *partial memory*, `PicoLoader.Memory.PageMap.byte?`, and says
what becomes of it: in the pages that the block reaches into, the bytes of the block replace what
was there, a page that was not there counting as zeros; every other page stays as it is
(`byte?_scatter_of_touches`). The same holds of many blocks one after the other, where the last
block that covers an address decides (`byte?_foldl_scatter_of_touches`).

The reading needs pages that are whole (`PicoLoader.Memory.PageMap.Whole`): every page begins at a
page bound and has 256 bytes. Scattering keeps pages whole (`whole_scatter`), and whole pages
written one after the other leave exactly what the map reads (`lastByte?_pages`).

A whole map is no more than what it reads (`eq_of_byte?`). So blocks that leave the same bytes give
the same map (`foldl_scatter_congr`): blocks that lie apart may come in any order
(`foldl_scatter_perm`), although they may share pages, and a block may be cut anywhere
(`scatter_head_tail`).
-/

namespace PicoLoader.Memory

/-! ### Overlaying a page -/

theorem length_overlay {offset : Nat} {bytes page : List UInt8}
    (h : offset + bytes.length ≤ page.length) :
    (overlay offset bytes page).length = page.length := by
  simp only [overlay, List.length_append, List.length_take, List.length_drop]
  omega

theorem getElem?_overlay {offset : Nat} {bytes page : List UInt8}
    (h : offset + bytes.length ≤ page.length) (j : Nat) :
    (overlay offset bytes page)[j]? =
      if offset ≤ j ∧ j < offset + bytes.length then bytes[j - offset]? else page[j]? := by
  have hfront : (page.take offset).length = offset := by
    rw [List.length_take]
    omega
  rw [overlay, List.append_assoc]
  -- A place lies before the bytes, among them, or behind them.
  rcases Nat.lt_or_ge j offset with hj | hj
  · rw [if_neg (by omega), List.getElem?_append_left (by omega), List.getElem?_take_of_lt hj]
  rw [List.getElem?_append_right (by omega), hfront]
  rcases Nat.lt_or_ge j (offset + bytes.length) with hj' | hj'
  · rw [if_pos ⟨hj, hj'⟩, List.getElem?_append_left (by omega)]
  · rw [if_neg (by omega), List.getElem?_append_right (by omega), List.getElem?_drop]
    exact congrArg (page[·]?) (by omega)

/-- A blank page has a zero for every place in it. -/
theorem getElem?_blankPage {j : Nat} (h : j < 256) : blankPage[j]? = some 0 :=
  List.getElem?_replicate_of_lt h

/-! ### The front of a block and its rest -/

namespace Block

/-- The part of a block up to the next page bound. -/
def front (block : Block) : Block := block.head (roomInPage block.addr)

/-- The part of a block from the next page bound on. -/
def rest (block : Block) : Block := block.tail (roomInPage block.addr)

variable {block : Block}

theorem size_front_le (block : Block) : block.front.size ≤ roomInPage block.front.addr := by
  rw [size, front, head, List.length_take]
  exact Nat.min_le_left _ _

theorem length_rest_lt (hne : block.bytes ≠ []) : block.rest.bytes.length < block.bytes.length := by
  have hlen : 0 < block.bytes.length := List.length_pos_iff.mpr hne
  have hroom := roomInPage_pos block.addr
  rw [rest, tail, List.length_drop]
  omega

theorem stop_rest_le (h : block.stop ≤ UInt32.size) : block.rest.stop ≤ UInt32.size :=
  stop_tail_le _ h

theorem byte?_front_rest (h : block.stop ≤ UInt32.size) (x : Nat) :
    block.byte? x = (block.rest.byte? x).or (block.front.byte? x) := byte?_split _ h x

/-- The front lies in the page of the first byte. -/
theorem page_of_covers_front {x : Nat} (hx : block.front.Covers x) :
    x / 256 = block.front.addr.toNat / 256 := by
  have hlt : block.addr.toNat % 256 < 256 := Nat.mod_lt _ (by decide)
  simp only [Covers, stop, size, front, head, List.length_take, roomInPage, offsetInPage,
    toNat_pageSize] at hx ⊢
  omega

/-- A block that is not empty reaches into the page of its first byte, and into those that its rest
reaches into. -/
theorem touches_iff (hne : block.bytes ≠ []) (hstop : block.stop ≤ UInt32.size) {x : Nat} :
    block.Touches 256 x ↔
      block.rest.Touches 256 x ∨ x / 256 = block.front.addr.toNat / 256 := by
  constructor
  · rintro ⟨y, hy, hpage⟩
    rcases (covers_split (roomInPage block.addr) hstop).mp hy with hrest | hfront
    · exact Or.inl ⟨y, hrest, hpage⟩
    · exact Or.inr (hpage ▸ page_of_covers_front hfront)
  · rintro (⟨y, hy, hpage⟩ | hpage)
    · exact ⟨y, (covers_split _ hstop).mpr (Or.inl hy), hpage⟩
    · have hlen : 0 < block.bytes.length := List.length_pos_iff.mpr hne
      exact ⟨block.addr.toNat, ⟨Nat.le_refl _, Nat.lt_add_of_pos_right hlen⟩, hpage.symm⟩

end Block

namespace PageMap

/-! ### A page map as a partial memory -/

/-- The address of the page that `x` lies in. -/
def baseOf (x : Nat) : UInt32 := UInt32.ofNat (256 * (x / 256))

theorem toNat_baseOf {x : Nat} (h : x < UInt32.size) : (baseOf x).toNat = 256 * (x / 256) := by
  rw [baseOf, UInt32.toNat_ofNat']
  exact Nat.mod_eq_of_lt (show 256 * (x / 256) < UInt32.size by omega)

/-- Two addresses lie in one page exactly if their pages have one number. -/
theorem baseOf_eq_alignDown_iff {x : Nat} (h : x < UInt32.size) (addr : UInt32) :
    baseOf x = alignDown addr pageSize ↔ x / 256 = addr.toNat / 256 := by
  rw [← UInt32.toNat_inj, toNat_baseOf h, toNat_alignDown_pageSize]
  omega

/-- The byte that the map holds for an address, if it has the page. -/
def byte? (map : PageMap) (x : Nat) : Option UInt8 :=
  (map.page? (baseOf x)).bind fun page => page[x % 256]?

/-- **Every page is whole**: it begins at a page bound and has all its bytes. -/
def Whole (map : PageMap) : Prop :=
  ∀ page ∈ map.pages, page.addr.toNat % 256 = 0 ∧ page.size = 256

theorem whole_empty : empty.Whole := fun _ h => absurd h List.not_mem_nil

/-- The view of a map holds the pages of its list. -/
theorem page?_eq_some_iff {map : PageMap} {addr : UInt32} {bytes : List UInt8} :
    map.page? addr = some bytes ↔ ⟨addr, bytes⟩ ∈ map.pages := by
  obtain ⟨pages, hasc⟩ := map
  simp only [page?, lookupPage, Option.map_eq_some_iff]
  constructor
  · rintro ⟨page, hfind, rfl⟩
    have haddr := List.find?_some hfind
    rw [beq_iff_eq] at haddr
    rw [← haddr]
    exact List.mem_of_find?_eq_some hfind
  · intro hmem
    induction pages with
    | nil => cases hmem
    | cons first rest ih =>
      obtain ⟨hfirst, hrest⟩ := List.pairwise_cons.mp hasc
      rcases List.mem_cons.mp hmem with heq | hmem
      · exact ⟨first, by simp [← heq], by rw [← heq]⟩
      · have hne : (first.addr == addr) = false :=
          beq_eq_false_iff_ne.mpr (UInt32.ne_of_lt (hfirst _ hmem))
        rw [List.find?_cons, hne]
        exact ih hrest hmem

/-- The map holds a byte for every address of a page that it has. -/
theorem isSome_byte?_iff {map : PageMap} (hmap : map.Whole) {x : Nat} :
    (map.byte? x).isSome ↔ (map.page? (baseOf x)).isSome := by
  rw [byte?]
  cases h : map.page? (baseOf x) with
  | none => simp
  | some bytes =>
    have hsize : bytes.length = 256 := (hmap _ (page?_eq_some_iff.mp h)).2
    have hlt : x % 256 < bytes.length := by
      rw [hsize]
      exact Nat.mod_lt x (by decide)
    simp [List.getElem?_eq_getElem hlt]

/-! ### Storing a piece -/

variable {map : PageMap} {piece : Block}

/-- The page that a piece is stored into, before it is. -/
def target (map : PageMap) (piece : Block) : List UInt8 :=
  (map.page? (alignDown piece.addr pageSize)).getD blankPage

theorem length_target (hmap : map.Whole) (piece : Block) : (map.target piece).length = 256 := by
  rw [target]
  cases h : map.page? (alignDown piece.addr pageSize) with
  | none => exact List.length_replicate
  | some bytes => exact (hmap _ (page?_eq_some_iff.mp h)).2

/-- Before the piece is stored, its page reads as the map does, and as zero where the map has no
such page. -/
theorem getElem?_target (hmap : map.Whole) {x : Nat} (hx : x < UInt32.size)
    (hpage : x / 256 = piece.addr.toNat / 256) :
    (map.target piece)[x % 256]? = some ((map.byte? x).getD 0) := by
  have hlt : x % 256 < 256 := Nat.mod_lt x (by decide)
  have hbase := (baseOf_eq_alignDown_iff hx piece.addr).mpr hpage
  have hlen := length_target hmap piece
  rw [byte?, hbase]
  rw [target] at hlen ⊢
  cases h : map.page? (alignDown piece.addr pageSize) with
  | none => exact getElem?_blankPage hlt
  | some bytes =>
    rw [h, Option.getD_some] at hlen
    simp [List.getElem?_eq_getElem (hlen ▸ hlt : x % 256 < bytes.length)]

theorem offsetInPage_add_le (hroom : piece.size ≤ Block.roomInPage piece.addr) :
    Block.offsetInPage piece.addr + piece.bytes.length ≤ 256 := by
  have hlt : piece.addr.toNat % 256 < 256 := Nat.mod_lt _ (by decide)
  simp only [Block.roomInPage, Block.offsetInPage, toNat_pageSize, Block.size] at hroom ⊢
  omega

/-- **Storing a piece** changes the page that it lies in, and no other. -/
theorem byte?_storePiece (hmap : map.Whole) (hroom : piece.size ≤ Block.roomInPage piece.addr)
    {x : Nat} (hx : x < UInt32.size) :
    (map.storePiece piece).byte? x =
      if x / 256 = piece.addr.toNat / 256 then
        some ((piece.byte? x).getD ((map.byte? x).getD 0))
      else map.byte? x := by
  have hfits := offsetInPage_add_le hroom
  rw [byte?, storePiece, page?_alter]
  split
  case isTrue hbase =>
    have hpage := (baseOf_eq_alignDown_iff hx piece.addr).mp hbase
    have hoffset : Block.offsetInPage piece.addr = piece.addr.toNat % 256 := rfl
    rw [if_pos hpage, Option.bind_some, ← target,
      getElem?_overlay (by rw [length_target hmap piece]; exact hfits),
      getElem?_target hmap hx hpage]
    rw [hoffset] at hfits ⊢
    -- Inside one page, places in the page and addresses differ by the same number.
    split
    case isTrue hin =>
      have hplace : x % 256 - piece.addr.toNat % 256 = x - piece.addr.toNat := by omega
      have hcovers : piece.Covers x := ⟨by omega, by simp only [Block.stop, Block.size]; omega⟩
      have hlt : x - piece.addr.toNat < piece.bytes.length := by omega
      rw [hplace, Block.byte?_of_covers hcovers, List.getElem?_eq_getElem hlt, Option.getD_some]
    case isFalse hout =>
      have hnone : piece.byte? x = none :=
        Block.byte?_eq_none_iff.mpr fun hcovers => hout (by
          simp only [Block.Covers, Block.stop, Block.size] at hcovers
          omega)
      rw [hnone, Option.getD_none]
  case isFalse hbase =>
    rw [if_neg fun hpage => hbase ((baseOf_eq_alignDown_iff hx piece.addr).mpr hpage)]
    rfl

/-- Storing a piece keeps pages whole. -/
theorem whole_storePiece (hmap : map.Whole) (hroom : piece.size ≤ Block.roomInPage piece.addr) :
    (map.storePiece piece).Whole := by
  rintro ⟨addr, bytes⟩ hmem
  rw [← page?_eq_some_iff, storePiece, page?_alter] at hmem
  split at hmem
  case isTrue haddr =>
    obtain rfl := Option.some.inj hmem
    rw [haddr, toNat_alignDown_pageSize, Block.size, ← target,
      length_overlay (by rw [length_target hmap piece]; exact offsetInPage_add_le hroom)]
    exact ⟨Nat.mul_mod_right _ _, length_target hmap piece⟩
  case isFalse => exact hmap _ (page?_eq_some_iff.mp hmem)

/-! ### Scattering a block -/

variable {block : Block}

/-- Scattering stores the front of the block and goes on with the rest. -/
theorem scatter_eq (map : PageMap) (hne : block.bytes ≠ []) :
    map.scatter block = (map.storePiece block.front).scatter block.rest := by
  rw [scatter, Block.pieces, if_neg hne]
  rfl

theorem scatter_of_nil (map : PageMap) (h : block.bytes = []) : map.scatter block = map := by
  rw [scatter, Block.pieces, if_pos h]
  rfl

/-- The induction of scattering: a fact that holds of the map itself for an empty block, and of a
block if it holds of its rest after the front has been stored. -/
theorem scatter_induction {P : PageMap → Block → Prop}
    (nil : ∀ map block, block.bytes = [] → P map block)
    (cut : ∀ map block, block.bytes ≠ [] → P (map.storePiece block.front) block.rest → P map block)
    (map : PageMap) (block : Block) : P map block := by
  induction hn : block.bytes.length using Nat.strongRecOn generalizing map block with
  | ind n ih =>
    by_cases hne : block.bytes = []
    · exact nil map block hne
    · exact cut map block hne (ih _ (hn ▸ Block.length_rest_lt hne) _ _ rfl)

/-- **Scattering keeps pages whole.** -/
theorem whole_scatter (hmap : map.Whole) (block : Block) : (map.scatter block).Whole := by
  induction map, block using scatter_induction with
  | nil map block hnil =>
    rw [scatter_of_nil map hnil]
    exact hmap
  | cut map block hne ih =>
    rw [scatter_eq map hne]
    exact ih (whole_storePiece hmap (Block.size_front_le block))

/-- After the front has been stored, the map reads as the front does where it covers. -/
theorem getD_byte?_storePiece_front (hmap : map.Whole) {x : Nat} (hx : x < UInt32.size) :
    ((map.storePiece block.front).byte? x).getD 0 =
      (block.front.byte? x).getD ((map.byte? x).getD 0) := by
  rw [byte?_storePiece hmap (Block.size_front_le block) hx]
  split
  case isTrue => rfl
  case isFalse hpage =>
    have hnone : block.front.byte? x = none :=
      Block.byte?_eq_none_iff.mpr fun hcovers => hpage (Block.page_of_covers_front hcovers)
    rw [hnone, Option.getD_none]

/-- **In the pages that a block does not reach into** nothing changes. -/
theorem byte?_scatter_of_not_touches (hmap : map.Whole) (hstop : block.stop ≤ UInt32.size) {x : Nat}
    (hx : x < UInt32.size) (h : ¬block.Touches 256 x) :
    (map.scatter block).byte? x = map.byte? x := by
  induction map, block using scatter_induction with
  | nil map block hnil => rw [scatter_of_nil map hnil]
  | cut map block hne ih =>
    rw [Block.touches_iff hne hstop, not_or] at h
    rw [scatter_eq map hne, ih (whole_storePiece hmap (Block.size_front_le block))
      (Block.stop_rest_le hstop) h.1, byte?_storePiece hmap (Block.size_front_le block) hx]
    exact if_neg h.2

/-- **In the pages that a block reaches into**, its bytes replace what was there, or zeros if there
was no page. -/
theorem byte?_scatter_of_touches (hmap : map.Whole) (hstop : block.stop ≤ UInt32.size) {x : Nat}
    (hx : x < UInt32.size) (h : block.Touches 256 x) :
    (map.scatter block).byte? x = some ((block.byte? x).getD ((map.byte? x).getD 0)) := by
  induction map, block using scatter_induction with
  | nil map block hnil =>
    obtain ⟨y, hy, -⟩ := h
    exact absurd hy (Block.not_covers_of_nil hnil y)
  | cut map block hne ih =>
    have hfront := whole_storePiece hmap (Block.size_front_le block)
    have hrest := Block.stop_rest_le hstop
    rw [scatter_eq map hne, Block.byte?_front_rest hstop]
    by_cases hlater : block.rest.Touches 256 x
    · rw [ih hfront hrest hlater, getD_byte?_storePiece_front hmap hx, Option.getD_or]
    · -- The rest is stored above the page of `x`, so this page is the one of the front.
      have hpage := ((Block.touches_iff hne hstop).mp h).resolve_left hlater
      rw [byte?_scatter_of_not_touches hfront hrest hx hlater,
        byte?_storePiece hmap (Block.size_front_le block) hx,
        Block.byte?_eq_none_iff.mpr fun hcovers => hlater (hcovers.touches 256), Option.none_or]
      exact if_pos hpage

/-! ### Scattering one block after the other -/

/-- Scattering keeps pages whole, whatever the number of blocks. -/
theorem whole_foldl_scatter (hmap : map.Whole) (blocks : List Block) :
    (blocks.foldl scatter map).Whole := by
  induction blocks generalizing map with
  | nil => exact hmap
  | cons block blocks ih => exact ih (whole_scatter hmap block)

/-- In the pages that none of the blocks reaches into nothing changes. -/
theorem byte?_foldl_scatter_of_not_touches (hmap : map.Whole) {blocks : List Block}
    (hstop : ∀ block ∈ blocks, block.stop ≤ UInt32.size) {x : Nat} (hx : x < UInt32.size)
    (h : ∀ block ∈ blocks, ¬block.Touches 256 x) :
    (blocks.foldl scatter map).byte? x = map.byte? x := by
  induction blocks generalizing map with
  | nil => rfl
  | cons block blocks ih =>
    have hrest := fun b hb => hstop b (List.mem_cons_of_mem _ hb)
    rw [List.foldl_cons, ih (whole_scatter hmap block) hrest
      fun b hb => h b (List.mem_cons_of_mem _ hb)]
    exact byte?_scatter_of_not_touches hmap (hstop block List.mem_cons_self) hx
      (h block List.mem_cons_self)

/-- **Of several blocks** the last one that covers an address decides; the rest of every page that
one of them reaches into keeps what it had, or zeros. -/
theorem byte?_foldl_scatter_of_touches (hmap : map.Whole) {blocks : List Block}
    (hstop : ∀ block ∈ blocks, block.stop ≤ UInt32.size) {x : Nat} (hx : x < UInt32.size)
    (h : ∃ block ∈ blocks, block.Touches 256 x) :
    (blocks.foldl scatter map).byte? x =
      some ((lastByte? blocks x).getD ((map.byte? x).getD 0)) := by
  induction blocks generalizing map with
  | nil =>
    obtain ⟨block, hblock, -⟩ := h
    cases hblock
  | cons block blocks ih =>
    have hfirst := hstop block List.mem_cons_self
    have hrest := fun b hb => hstop b (List.mem_cons_of_mem _ hb)
    have hwhole := whole_scatter hmap block
    rw [List.foldl_cons, lastByte?_cons, Option.getD_or]
    by_cases hlater : ∃ b ∈ blocks, b.Touches 256 x
    · rw [ih hwhole hrest hlater]
      by_cases htouch : block.Touches 256 x
      · rw [byte?_scatter_of_touches hmap hfirst hx htouch, Option.getD_some]
      · rw [byte?_scatter_of_not_touches hmap hfirst hx htouch,
          Block.byte?_eq_none_iff.mpr fun hc => htouch (hc.touches 256), Option.getD_none]
    · have hnone : ∀ b ∈ blocks, ¬b.Touches 256 x := fun b hb hc => hlater ⟨b, hb, hc⟩
      obtain ⟨b, hb, hc⟩ := h
      obtain rfl : b = block := (List.mem_cons.mp hb).resolve_right fun hin => hnone b hin hc
      rw [byte?_foldl_scatter_of_not_touches hwhole hrest hx hnone,
        byte?_scatter_of_touches hmap hfirst hx hc,
        lastByte?_eq_none_iff.mpr fun b hb hcovers => hnone b hb (hcovers.touches 256),
        Option.getD_none]

/-! ### Writing the pages out -/

/-- A page of a whole map covers the addresses that share its page number. -/
theorem covers_iff_of_mem_pages (hmap : map.Whole) {page : Block} (hpage : page ∈ map.pages)
    {x : Nat} (hx : x < UInt32.size) : page.Covers x ↔ page.addr = baseOf x := by
  obtain ⟨haligned, hsize⟩ := hmap page hpage
  rw [← UInt32.toNat_inj, toNat_baseOf hx, Block.Covers, Block.stop, hsize]
  omega

/-- A page of a whole map ends inside the address space. -/
theorem lt_size_of_covers {page : Block} (haligned : page.addr.toNat % 256 = 0)
    (hsize : page.size = 256) {x : Nat} (hx : page.Covers x) : x < UInt32.size := by
  have haddr := page.addr.toNat_lt
  rw [Block.Covers, Block.stop, hsize] at hx
  exact (show x < 2 ^ 32 by omega)

/-- A page of a whole map has the bytes that the map holds for its addresses. -/
theorem byte?_of_mem_pages (hmap : map.Whole) {page : Block} (hpage : page ∈ map.pages) {x : Nat}
    (hx : page.Covers x) : map.byte? x = page.byte? x := by
  obtain ⟨haligned, hsize⟩ := hmap page hpage
  have hlt := lt_size_of_covers haligned hsize hx
  have haddr := (covers_iff_of_mem_pages hmap hpage hlt).mp hx
  have hpage? : map.page? (baseOf x) = some page.bytes := page?_eq_some_iff.mpr (haddr ▸ hpage)
  rw [byte?, hpage?, Option.bind_some, Block.byte?_of_covers hx, haddr, toNat_baseOf hlt]
  exact congrArg (page.bytes[·]?) (by omega)

/-- A whole map has one page for an address. -/
theorem eq_of_mem_pages (hmap : map.Whole) {page other : Block} (hpage : page ∈ map.pages)
    (hother : other ∈ map.pages) {x : Nat} (hx : page.Covers x) (hy : other.Covers x) :
    page = other := by
  obtain ⟨haligned, hsize⟩ := hmap page hpage
  have hlt := lt_size_of_covers haligned hsize hx
  have haddr : page.addr = other.addr :=
    ((covers_iff_of_mem_pages hmap hpage hlt).mp hx).trans
      ((covers_iff_of_mem_pages hmap hother hlt).mp hy).symm
  obtain ⟨addr, bytes⟩ := page
  obtain ⟨addr', bytes'⟩ := other
  obtain rfl : addr = addr' := haddr
  have hpage? := page?_eq_some_iff.mpr hpage
  rw [page?_eq_some_iff.mpr hother, Option.some.injEq] at hpage?
  rw [hpage?]

/-- **Whole pages leave what the map holds**, in whatever order they are written. -/
theorem lastByte?_pages (hmap : map.Whole) {x : Nat} (hx : x < UInt32.size) :
    lastByte? map.pages x = map.byte? x := by
  by_cases h : ∃ page ∈ map.pages, page.Covers x
  · obtain ⟨page, hpage, hcovers⟩ := h
    rw [byte?_of_mem_pages hmap hpage hcovers]
    exact lastByte?_of_unique hpage fun other hother hc =>
      eq_of_mem_pages hmap hother hpage hc hcovers
  · rw [lastByte?_eq_none_iff.mpr fun page hpage hc => h ⟨page, hpage, hc⟩, eq_comm,
      ← Option.not_isSome_iff_eq_none, isSome_byte?_iff hmap]
    intro hsome
    obtain ⟨bytes, hbytes⟩ := Option.isSome_iff_exists.mp hsome
    have hmem := page?_eq_some_iff.mp hbytes
    exact h ⟨_, hmem, (covers_iff_of_mem_pages hmap hmem hx).mpr rfl⟩

/-! ### The order of blocks -/

/-- **The pages of a whole map** are those that agree with what it holds. -/
theorem mem_pages_iff (hmap : map.Whole) {page : Block} : page ∈ map.pages ↔
    page.addr.toNat % 256 = 0 ∧ page.size = 256 ∧
      ∀ x, page.Covers x → map.byte? x = page.byte? x := by
  constructor
  · intro hpage
    obtain ⟨haligned, hsize⟩ := hmap page hpage
    exact ⟨haligned, hsize, fun x hx => byte?_of_mem_pages hmap hpage hx⟩
  · rintro ⟨haligned, hsize, hbyte⟩
    -- The map has a page at this address, because it holds the first byte of it.
    have hfirst : page.Covers page.addr.toNat := ⟨Nat.le_refl _, by rw [Block.stop, hsize]; omega⟩
    have hlt := lt_size_of_covers haligned hsize hfirst
    have hbase : baseOf page.addr.toNat = page.addr := by
      rw [← UInt32.toNat_inj, toNat_baseOf hlt]
      omega
    have hsome : (map.byte? page.addr.toNat).isSome := by
      rw [hbyte _ hfirst]
      exact Block.isSome_byte?_iff.mpr hfirst
    rw [isSome_byte?_iff hmap, hbase] at hsome
    obtain ⟨bytes, hbytes⟩ := Option.isSome_iff_exists.mp hsome
    have hmem := page?_eq_some_iff.mp hbytes
    have hsize' : (Block.mk page.addr bytes).size = page.size := (hmap _ hmem).2.trans hsize.symm
    have hcovers : ∀ x, (Block.mk page.addr bytes).Covers x ↔ page.Covers x := fun x => by
      rw [Block.Covers, Block.Covers, Block.stop, Block.stop, hsize']
    -- Both pages have what the map holds, so they are the same.
    have hsame : Block.mk page.addr bytes = page := by
      refine Block.eq_of_byte? rfl fun x => ?_
      by_cases hx : page.Covers x
      · rw [← byte?_of_mem_pages hmap hmem ((hcovers x).mpr hx), hbyte x hx]
      · rw [Block.byte?_eq_none_iff.mpr hx, Block.byte?_eq_none_iff, hcovers]
        exact hx
    exact hsame ▸ hmem

/-- **A whole map is what it holds.** -/
theorem eq_of_byte? {other : PageMap} (hmap : map.Whole) (hother : other.Whole)
    (h : ∀ x, x < UInt32.size → other.byte? x = map.byte? x) : other = map := by
  have hirrefl : Std.Irrefl fun a b : Block => a.addr < b.addr := ⟨fun a => UInt32.lt_irrefl _⟩
  have hantisymm : Std.Antisymm fun a b : Block => a.addr < b.addr :=
    ⟨fun a b hab hba => absurd hab (UInt32.lt_asymm hba)⟩
  have hpages : other.pages = map.pages := by
    refine other.ascending.eq_of_mem_iff map.ascending fun page => ?_
    rw [mem_pages_iff hother, mem_pages_iff hmap]
    refine and_congr_right fun haligned => and_congr_right fun hsize => ?_
    exact forall₂_congr fun x hx => by rw [h x (lt_size_of_covers haligned hsize hx)]
  cases other
  cases map
  congr

/-- **What blocks leave decides what scattering them gives**, however they were cut and in whatever
order they come: also which pages there are in the end, because a block reaches into the pages of
the addresses that it leaves a byte at. -/
theorem foldl_scatter_congr (hmap : map.Whole) {blocks others : List Block}
    (hstop : ∀ block ∈ blocks, block.stop ≤ UInt32.size)
    (hstop' : ∀ block ∈ others, block.stop ≤ UInt32.size)
    (hsame : ∀ x, lastByte? others x = lastByte? blocks x) :
    others.foldl scatter map = blocks.foldl scatter map := by
  refine eq_of_byte? (whole_foldl_scatter hmap _) (whole_foldl_scatter hmap _) fun x hx => ?_
  have htouches : (∃ block ∈ others, block.Touches 256 x) ↔
      ∃ block ∈ blocks, block.Touches 256 x := by
    simp only [exists_touches_iff, hsame]
  by_cases h : ∃ block ∈ blocks, block.Touches 256 x
  · have h' := htouches.mpr h
    rw [byte?_foldl_scatter_of_touches hmap hstop hx h,
      byte?_foldl_scatter_of_touches hmap hstop' hx h', hsame x]
  · have h' := mt htouches.mp h
    rw [byte?_foldl_scatter_of_not_touches hmap hstop hx fun b hb hc => h ⟨b, hb, hc⟩,
      byte?_foldl_scatter_of_not_touches hmap hstop' hx fun b hb hc => h' ⟨b, hb, hc⟩]

/-- **Blocks that lie apart may be scattered in any order.** They may share pages: a page is blank
only until the first of them reaches into it. -/
theorem foldl_scatter_perm (hmap : map.Whole) {blocks others : List Block}
    (hperm : others.Perm blocks) (hstop : ∀ block ∈ blocks, block.stop ≤ UInt32.size)
    (hunique : ∀ x, ∀ a ∈ blocks, ∀ b ∈ blocks, a.Covers x → b.Covers x → a = b) :
    others.foldl scatter map = blocks.foldl scatter map :=
  foldl_scatter_congr hmap hstop (fun block hblock => hstop block (hperm.mem_iff.mp hblock))
    fun x => lastByte?_perm hperm (hunique x)

/-- **A block may be cut anywhere** before it is scattered, and not only at the page bounds. -/
theorem scatter_head_tail (hmap : map.Whole) (hstop : block.stop ≤ UInt32.size) (n : Nat) :
    (map.scatter (block.head n)).scatter (block.tail n) = map.scatter block := by
  have hparts : ∀ part ∈ [block.head n, block.tail n], part.stop ≤ UInt32.size := by
    intro part hpart
    rcases List.mem_cons.mp hpart with rfl | hpart
    · exact Nat.le_trans (Block.stop_head_le n) hstop
    · obtain rfl := List.mem_singleton.mp hpart
      exact Block.stop_tail_le n hstop
  have hwhole : ∀ part ∈ [block], part.stop ≤ UInt32.size := fun part hpart =>
    List.mem_singleton.mp hpart ▸ hstop
  exact foldl_scatter_congr hmap hwhole hparts fun x => by simp [Block.byte?_split n hstop x]

end PageMap

end PicoLoader.Memory
