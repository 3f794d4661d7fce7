import PicoLoader.Memory.Block

/-!
# Page maps

The flash content of an image is a map from page addresses to pages, kept as the list of its pages
in ascending order of address. The order is part of the type: pages are written in this order, and
no address comes twice.

* `PicoLoader.Memory.PageMap.alter` – changes the page at an address, a page of zeros if it is new;
* `PicoLoader.Memory.PageMap.scatter` – stores a block, piece by piece, into the pages it meets;
* `PicoLoader.Memory.PageMap.insert` – stores a whole page of any length.

The view of a map is `PicoLoader.Memory.PageMap.page?`, the bytes of the page at an address.
Main statement: `page?_alter`, one equation for the one change there is.
-/

namespace PicoLoader.Memory

/-- The bytes of a page that nothing has been stored into. -/
def blankPage : List UInt8 := List.replicate pageSize.toNat 0

/-- Overwrites `page` from `offset` on with `bytes`. -/
def overlay (offset : Nat) (bytes page : List UInt8) : List UInt8 :=
  page.take offset ++ bytes ++ page.drop (offset + bytes.length)

/-! ### Lists of pages in ascending order -/

/-- Changes the page at `addr` by `f`, starting from a blank page if there is none, and keeps the
order of the pages. -/
def alterPages (addr : UInt32) (f : List UInt8 → List UInt8) : List Block → List Block
  | [] => [⟨addr, f blankPage⟩]
  | page :: pages =>
    if page.addr = addr then ⟨addr, f page.bytes⟩ :: pages
    else if addr < page.addr then ⟨addr, f blankPage⟩ :: page :: pages
    else page :: alterPages addr f pages

/-- The bytes of the first page at `addr`. -/
def lookupPage (addr : UInt32) (pages : List Block) : Option (List UInt8) :=
  (pages.find? fun page => page.addr == addr).map Block.bytes

/-- A page of the changed list is the changed page or one that was there. -/
theorem addr_of_mem_alterPages {addr : UInt32} {f : List UInt8 → List UInt8} {pages : List Block}
    {page : Block} (h : page ∈ alterPages addr f pages) : page.addr = addr ∨ page ∈ pages := by
  induction pages with
  | nil =>
    obtain rfl := List.mem_singleton.mp h
    exact Or.inl rfl
  | cons first rest ih =>
    simp only [alterPages] at h
    split at h
    · rcases List.mem_cons.mp h with rfl | h
      · exact Or.inl rfl
      · exact Or.inr (List.mem_cons_of_mem _ h)
    split at h
    · rcases List.mem_cons.mp h with rfl | h
      · exact Or.inl rfl
      · exact Or.inr h
    · rcases List.mem_cons.mp h with rfl | h
      · exact Or.inr List.mem_cons_self
      · exact (ih h).imp_right (List.mem_cons_of_mem _)

/-- Changing a page keeps the pages in ascending order. -/
theorem pairwise_alterPages (addr : UInt32) (f : List UInt8 → List UInt8) {pages : List Block}
    (h : pages.Pairwise fun a b => a.addr < b.addr) :
    (alterPages addr f pages).Pairwise fun a b => a.addr < b.addr := by
  induction pages with
  | nil => exact List.pairwise_singleton _ _
  | cons first rest ih =>
    obtain ⟨hfirst, hrest⟩ := List.pairwise_cons.mp h
    simp only [alterPages]
    split
    case isTrue heq => exact List.pairwise_cons.mpr ⟨fun b hb => heq ▸ hfirst b hb, hrest⟩
    split
    case isTrue hlt =>
      refine List.pairwise_cons.mpr ⟨fun b hb => ?_, h⟩
      rcases List.mem_cons.mp hb with rfl | hb
      · exact hlt
      · exact UInt32.lt_trans hlt (hfirst b hb)
    case isFalse hne hge =>
      refine List.pairwise_cons.mpr ⟨fun b hb => ?_, ih hrest⟩
      rcases addr_of_mem_alterPages hb with heq | hb
      · rw [heq]
        exact UInt32.lt_of_le_of_ne (UInt32.not_lt.mp hge) hne
      · exact hfirst b hb

/-! ### Page maps -/

/-- Pages in ascending order of address, no two at one address. -/
structure PageMap where
  pages : List Block
  ascending : pages.Pairwise fun a b => a.addr < b.addr
deriving DecidableEq

namespace PageMap

/-- No pages. -/
def empty : PageMap := ⟨[], List.Pairwise.nil⟩

instance : Inhabited PageMap := ⟨empty⟩

/-- Whether there are no pages. -/
def isEmpty (map : PageMap) : Bool := map.pages.isEmpty

/-- The bytes of the page at `addr`. -/
def page? (map : PageMap) (addr : UInt32) : Option (List UInt8) := lookupPage addr map.pages

/-- Changes the page at `addr` by `f`, starting from a blank page if there is none. -/
def alter (map : PageMap) (addr : UInt32) (f : List UInt8 → List UInt8) : PageMap :=
  ⟨alterPages addr f map.pages, pairwise_alterPages addr f map.ascending⟩

/-- Puts a page at `addr`, in place of any page there. -/
def insert (map : PageMap) (addr : UInt32) (bytes : List UInt8) : PageMap :=
  map.alter addr fun _ => bytes

/-- The map of some pages; of pages at one address the last stays. -/
def ofList (pages : List Block) : PageMap :=
  pages.foldl (fun map page => map.insert page.addr page.bytes) empty

/-- Stores a piece that lies inside one page. -/
def storePiece (map : PageMap) (piece : Block) : PageMap :=
  map.alter (alignDown piece.addr pageSize) (overlay (Block.offsetInPage piece.addr) piece.bytes)

/-- **Stores a block**: cut at the page bounds, each piece goes into its page. -/
def scatter (map : PageMap) (block : Block) : PageMap :=
  block.pieces.foldl storePiece map

@[simp] theorem page?_empty (addr : UInt32) : empty.page? addr = none := rfl

/-- **What changing a page does to the view**: the page at the address is changed, or is the changed
blank page if there was none, and every other page stays. -/
theorem page?_alter (map : PageMap) (addr : UInt32) (f : List UInt8 → List UInt8) (a : UInt32) :
    (map.alter addr f).page? a =
      if a = addr then some (f ((map.page? addr).getD blankPage)) else map.page? a := by
  obtain ⟨pages, hasc⟩ := map
  simp only [page?, alter, lookupPage]
  induction pages with
  | nil =>
    by_cases ha : a = addr
    · simp [alterPages, ha]
    · simp [alterPages, ha, Ne.symm ha]
  | cons first rest ih =>
    obtain ⟨hfirst, hrest⟩ := List.pairwise_cons.mp hasc
    have ih := ih hrest
    simp only [alterPages]
    split
    case isTrue heq =>
      by_cases ha : a = addr
      · simp [ha, heq]
      · simp [ha, heq, Ne.symm ha]
    split
    case isTrue hne hlt =>
      have hnone : rest.find? (fun page => page.addr == addr) = none := by
        refine List.find?_eq_none.mpr fun b hb => ?_
        have hb := UInt32.lt_trans hlt (hfirst b hb)
        simpa using fun heq => UInt32.lt_irrefl _ (heq ▸ hb)
      by_cases ha : a = addr
      · simp [ha, hne, hnone]
      · simp [ha, Ne.symm ha]
    case isFalse hne hge =>
      by_cases ha : a = addr
      · subst ha
        simpa [hne] using ih
      · by_cases hfa : first.addr = a
        · simp [hfa, ha]
        · simpa [hfa, ha] using ih

end PageMap

end PicoLoader.Memory
