import PicoLoader.Proofs.Load.Chunking
import PicoLoader.Proofs.Memory.Scattering
import PicoLoader.Proofs.Strict.Arithmetic

/-!
# Scattering does not halt

`PicoLoader.Memory.PageMap.scatter` cuts a block into pieces first and stores each of them then. The
loop of this file does it in one go, with a count of the bytes that are written, an address to add
the count to, and slices of the block and of the page in hand (`PicoLoader.Strict.scatterFrom`). It
comes to the same, as long as the block ends below the end of the address space
(`scatterFrom_zero_eq`): no sum wraps, every slice lies inside its list, and each turn writes some
bytes.
-/

namespace PicoLoader

open Memory

/-! ### Changing a page -/

namespace Memory

/-- The lookup of an address below all pages finds nothing. -/
theorem lookupPage_eq_none {addr : UInt32} {pages : List Block}
    (h : ∀ page ∈ pages, addr < page.addr) : lookupPage addr pages = none := by
  have hfind : pages.find? (fun page => page.addr == addr) = none := by
    refine List.find?_eq_none.mpr fun page hpage => ?_
    exact fun heq => UInt32.ne_of_lt (h page hpage) (beq_iff_eq.mp heq).symm
  rw [lookupPage, hfind]
  rfl

/-- Changing a page puts the changed page in its place. -/
theorem alterPages_eq {addr : UInt32} (f : List UInt8 → List UInt8) {pages : List Block}
    (h : pages.Pairwise fun a b => a.addr < b.addr) :
    alterPages addr f pages =
      alterPages addr (fun _ => f ((lookupPage addr pages).getD blankPage)) pages := by
  induction pages with
  | nil => rfl
  | cons first rest ih =>
    obtain ⟨hfirst, hrest⟩ := List.pairwise_cons.mp h
    simp only [alterPages]
    split
    case isTrue heq => simp [lookupPage, heq]
    split
    case isTrue hlt =>
      have hnone : lookupPage addr (first :: rest) = none := by
        refine lookupPage_eq_none fun page hpage => ?_
        rcases List.mem_cons.mp hpage with rfl | hpage
        · exact hlt
        · exact UInt32.lt_trans hlt (hfirst page hpage)
      rw [hnone]
      rfl
    case isFalse hne _ =>
      have hlook : lookupPage addr (first :: rest) = lookupPage addr rest := by
        simp [lookupPage, hne]
      rw [hlook, ← ih hrest]

/-- **Changing a page** puts the changed page in its place; a page that is not there counts as
blank. -/
theorem PageMap.alter_eq_insert (map : PageMap) (addr : UInt32) (f : List UInt8 → List UInt8) :
    map.alter addr f = map.insert addr (f ((map.page? addr).getD blankPage)) := by
  obtain ⟨pages, hasc⟩ := map
  simp only [alter, insert, mk.injEq]
  exact alterPages_eq f hasc

end Memory

namespace Strict

/-! ### Scattering -/

/-- The page of an address: where it begins, how far into it the address lies, and how many bytes
there are from the address on. -/
def placeInPage (addr : UInt32) : Except Trap (UInt32 × Nat × Nat) := do
  let base ← alignDown addr pageSize
  let offset ← subWord addr base
  let room ← subSize pageSize.toNat offset.toNat
  return (base, offset.toNat, room)

/-- One turn of the loop that scatters a block of which some bytes are written: how many more are
written by it, and the pages. -/
def scatterOnce (addr : UInt32) (data : List UInt8) (written : Nat) (map : PageMap) :
    Except Trap (Nat × PageMap) := do
  let distance ← toWord written
  let here ← addWord addr distance
  let (base, offset, room) ← placeInPage here
  let left ← subSize data.length written
  let n := min room left
  let pageStop ← addSize offset n
  let dataStop ← addSize written n
  let bytes ← slice data written dataStop
  let page ← copyInto ((map.page? base).getD blankPage) offset pageStop bytes
  return (n, map.insert base page)

/-- The loop. It goes on as long as there are bytes left, and halts if a turn has written none. -/
def scatterFrom (addr : UInt32) (data : List UInt8) (written : Nat) (map : PageMap) :
    Except Trap PageMap :=
  if written < data.length then do
    let (n, map) ← scatterOnce addr data written map
    if 0 < n then scatterFrom addr data (written + n) map else .error .stuck
  else .ok map
termination_by data.length - written

theorem placeInPage_eq (addr : UInt32) : placeInPage addr =
    .ok (Memory.alignDown addr pageSize, Block.offsetInPage addr, Block.roomInPage addr) := by
  have hbase := alignDown_le addr pageSize
  have hoffset : (addr - Memory.alignDown addr pageSize).toNat = Block.offsetInPage addr := by
    rw [UInt32.toNat_sub_of_le _ _ hbase, toNat_alignDown_pageSize, Block.offsetInPage,
      toNat_pageSize]
    omega
  have hroom : Block.offsetInPage addr ≤ pageSize.toNat := Nat.le_of_lt (Nat.mod_lt _ (by decide))
  rw [placeInPage, alignDown_eq (by decide), ok_bind, subWord_eq hbase, ok_bind, hoffset,
    subSize_eq hroom, ok_bind, pure_eq_ok, Block.roomInPage]

variable {block : Block} {map : PageMap} {written : Nat}

/-- **One turn** stores the front of what is left of the block, and gets as far as that reaches. -/
theorem scatterOnce_eq (hstop : block.stop < UInt32.size) (hmap : map.Whole)
    (hlt : written < block.bytes.length) :
    scatterOnce block.addr block.bytes written map =
      .ok ((block.tail written).front.size, map.storePiece (block.tail written).front) := by
  let left := block.tail written
  have hlast : block.addr.toNat + block.bytes.length < UInt32.size := hstop
  have hsum : block.addr.toNat + written < UInt32.size := by omega
  have haddr : addWord block.addr (UInt32.ofNat written) = .ok left.addr := by
    refine addWord_eq ?_
    rwa [UInt32.toNat_ofNat_of_lt' (Nat.lt_of_le_of_lt (Nat.le_add_left _ _) hsum)]
  have hsize : min (Block.roomInPage left.addr) (block.bytes.length - written) =
      left.front.size := by
    rw [Block.size, Block.front, Block.head, List.length_take]
    exact congrArg (min _) List.length_drop.symm
  have hdata : written + left.front.size ≤ block.bytes.length := by omega
  have hbytes : (block.bytes.drop written).take left.front.size = left.front.bytes := by
    rw [Block.size, Block.front, Block.head, List.length_take]
    exact List.take_eq_take_min.symm
  have hoffset : Block.offsetInPage left.addr + left.front.size ≤ 256 :=
    PageMap.offsetInPage_add_le (Block.size_front_le left)
  have hlength := PageMap.length_target hmap left.front
  rw [PageMap.target] at hlength
  have hpage : copyInto ((map.page? (Memory.alignDown left.addr pageSize)).getD blankPage)
      (Block.offsetInPage left.addr) (Block.offsetInPage left.addr + left.front.size)
      left.front.bytes = .ok (overlay (Block.offsetInPage left.addr) left.front.bytes
        ((map.page? (Memory.alignDown left.addr pageSize)).getD blankPage)) :=
    copyInto_eq (hlength.symm ▸ hoffset) rfl
  have hlimit : 256 < UInt32.size := by decide
  rw [scatterOnce, toWord_eq (by omega), ok_bind, haddr, ok_bind, placeInPage_eq]
  simp only [ok_bind, subSize_eq (Nat.le_of_lt hlt), hsize]
  rw [addSize_eq (by omega), ok_bind, addSize_eq (by omega), ok_bind, slice_eq hdata, ok_bind,
    hbytes, hpage, ok_bind, pure_eq_ok, PageMap.storePiece,
    PageMap.alter_eq_insert]
  rfl

/-- Behind the front of what is left there is what is left of it. -/
theorem scatter_tail_front (map : PageMap) (block : Block) (written : Nat) :
    map.scatter (block.tail (written + (block.tail written).front.size)) =
      map.scatter (block.tail written).rest := by
  rw [Block.rest, Block.tail_tail, Block.size, Block.front, Block.head, List.length_take]
  rcases Nat.le_total (Block.roomInPage (block.tail written).addr)
    (block.tail written).bytes.length with hle | hge
  · rw [Nat.min_eq_left hle]
  · -- The front is all that is left, so both are empty.
    have hlength : (block.tail written).bytes.length = block.bytes.length - written :=
      List.length_drop
    rw [Nat.min_eq_right hge, PageMap.scatter_of_nil, PageMap.scatter_of_nil]
    · exact List.drop_eq_nil_of_le (by omega)
    · exact List.drop_eq_nil_of_le (by omega)

/-- **The loop scatters what is left of the block**, by induction on its length. -/
theorem scatterFrom_eq (hstop : block.stop < UInt32.size) (hmap : map.Whole) :
    scatterFrom block.addr block.bytes written map = .ok (map.scatter (block.tail written)) := by
  induction hn : block.bytes.length - written using Nat.strongRecOn generalizing written map with
  | ind n ih =>
    rw [scatterFrom]
    split
    case isTrue hlt =>
      have hne : (block.tail written).bytes ≠ [] := fun hnil => by
        have := List.drop_eq_nil_iff.mp hnil
        omega
      have hpos : 0 < (block.tail written).front.size := by
        rw [Block.size, Block.front, Block.head, List.length_take, Nat.lt_min]
        exact ⟨Block.roomInPage_pos _, List.length_pos_iff.mpr hne⟩
      rw [scatterOnce_eq hstop hmap hlt, ok_bind]
      simp only [if_pos hpos]
      rw [ih _ (by omega) (PageMap.whole_storePiece hmap (Block.size_front_le _)) rfl,
        scatter_tail_front, ← PageMap.scatter_eq map hne]
    case isFalse hge =>
      rw [PageMap.scatter_of_nil]
      exact List.drop_eq_nil_of_le (Nat.le_of_not_lt hge)

/-- The loop from the start scatters the whole block. -/
theorem scatterFrom_zero_eq (hstop : block.stop < UInt32.size) (hmap : map.Whole) :
    scatterFrom block.addr block.bytes 0 map = .ok (map.scatter block) := by
  rw [scatterFrom_eq hstop hmap, Block.tail_zero]

end Strict

end PicoLoader
