import PicoLoader.Proofs.Plan.Erasing
import PicoLoader.Proofs.Strict.Scattering

/-!
# Planning does not halt

`PicoLoader.Plan.build` places all segments and gathers the placements when all are there. Here the
segments are gone through one by one, and each placement goes into a `PicoLoader.Strict.Draft` of
the plan at once: the sectors of a block for flash are worked out, and the block is scattered, also
if a later segment turns out to have no place.

Placing has no arithmetic that could go wrong. Its sums are asked whether they are too large, and
that is a fault and not a trap. What it asks for is just enough for the rest: a block for flash ends
a sector before the end of the address space, so that its end can be rounded up (`sectors_eq`). So
planning gives what `PicoLoader.Plan.build` gives, for every image, every layout and either flag
(`build_eq`).
-/

namespace PicoLoader.Strict

open Memory Plan

/-! ### Drafts -/

/-- A plan in the making. Spans are kept as they come. -/
structure Draft where
  ram : List Block
  pages : PageMap
  spans : List Span
  mirrored : Bool
  skipped : Bool

namespace Draft

/-- Nothing has been placed. -/
def blank : Draft := ⟨[], .empty, [], false, false⟩

/-- The plan when all is placed. -/
def plan (draft : Draft) (entry : UInt32) : Plan :=
  ⟨draft.ram, draft.pages, Span.merge draft.spans, draft.mirrored, draft.skipped, entry⟩

end Draft

/-- The sectors that a block meets. -/
def sectors (block : Block) : Except Trap Span := do
  let size ← toWord block.size
  let stop ← addWord block.addr size
  let first ← alignDown block.addr sectorSize
  let last ← alignUp stop sectorSize
  return ⟨first, last⟩

/-- Takes one placement into a draft. -/
def Draft.take (draft : Draft) : Placement → Except Trap Draft
  | .ram block => .ok { draft with ram := draft.ram ++ [block] }
  | .mirrored _ block => .ok { draft with ram := draft.ram ++ [block], mirrored := true }
  | .skipped _ _ => .ok { draft with skipped := true }
  | .flash block => do
    let span ← sectors block
    let pages ← scatterFrom block.addr block.bytes 0 draft.pages
    return { draft with spans := draft.spans ++ [span], pages }

/-- Goes through segments in order, up to the first fault. -/
def takeAll (image : Elf.Image) (layout : Layout) (allowFlash : Bool) :
    List Elf.ProgramHeader → Draft → Except Trap (Except Fault Draft)
  | [], draft => .ok (.ok draft)
  | segment :: segments, draft =>
    match place image layout allowFlash segment with
    | .error fault => .ok (.error fault)
    | .ok none => takeAll image layout allowFlash segments draft
    | .ok (some placement) => do
      let draft ← draft.take placement
      takeAll image layout allowFlash segments draft

/-- **The plan of an image**, worked out segment by segment. -/
def build (image : Elf.Image) (layout : Layout) (allowFlash : Bool) :
    Except Trap (Except Fault Plan) := do
  match ← takeAll image layout allowFlash image.segments .blank with
  | .error fault => return .error fault
  | .ok draft =>
    let plan := draft.plan image.header.entry
    return if !allowFlash && plan.isEmpty then .error (.plan .nothingForRam) else .ok plan

/-! ### One placement -/

section Placing

variable {image : Elf.Image} {layout : Layout} {allowFlash : Bool}

/-- The draft in which some placements are. -/
def Draft.of (placed : List Placement) : Draft where
  ram := placed.filterMap Placement.ramBlock?
  pages := (placed.filterMap Placement.flashBlock?).foldl PageMap.scatter .empty
  spans := (placed.filterMap Placement.flashBlock?).map Plan.sectors
  mirrored := placed.any Placement.isMirrored
  skipped := placed.any Placement.isSkipped

/-- One placement more adds what it has for RAM and for flash. -/
theorem of_snoc (placed : List Placement) (placement : Placement) :
    Draft.of (placed ++ [placement]) =
      { ram := (Draft.of placed).ram ++ placement.ramBlock?.toList
        pages := placement.flashBlock?.toList.foldl PageMap.scatter (Draft.of placed).pages
        spans := (Draft.of placed).spans ++ placement.flashBlock?.toList.map Plan.sectors
        mirrored := (Draft.of placed).mirrored || placement.isMirrored
        skipped := (Draft.of placed).skipped || placement.isSkipped } := by
  simp only [Draft.of, List.filterMap_append, filterMap_cons_toList, List.filterMap_nil,
    List.append_nil, List.foldl_append, List.map_append, List.any_append, List.any_cons,
    List.any_nil, Bool.or_false]

/-- **The end of a block for flash can be rounded up.** -/
theorem sectors_eq {block : Block} (hstop : block.stop ≤ flashLimit) :
    sectors block = .ok (Plan.sectors block) := by
  have hlimit : flashLimit + sectorSize.toNat < UInt32.size := by decide
  have hlast : block.addr.toNat + block.size ≤ flashLimit := hstop
  have hsize : (UInt32.ofNat block.size).toNat = block.size :=
    UInt32.toNat_ofNat_of_lt' (by omega)
  have hsum : block.addr.toNat + (UInt32.ofNat block.size).toNat < UInt32.size := by omega
  have hend : (block.addr + UInt32.ofNat block.size).toNat + sectorSize.toNat < UInt32.size := by
    rw [UInt32.toNat_add, Nat.mod_eq_of_lt hsum]
    omega
  rw [sectors, toWord_eq (by omega), ok_bind, addWord_eq hsum, ok_bind, alignDown_eq (by decide),
    ok_bind, alignUp_eq (by decide) hend, ok_bind, pure_eq_ok, Plan.sectors]

/-- A block that ends in the last sector is one whose end cannot. -/
example : sectors ⟨0xFFFFF000, [0]⟩ = .error .overflow := by decide

/-- A placement that has nothing for flash goes into the draft as it is. -/
theorem take_of_flashBlock?_eq_none {placement : Placement} (h : placement.flashBlock? = none)
    (placed : List Placement) :
    (Draft.of placed).take placement = .ok (.of (placed ++ [placement])) := by
  rw [of_snoc, h]
  cases placement with
  | flash block => cases h
  | _ => simp [Draft.take, Placement.ramBlock?, Placement.isMirrored, Placement.isSkipped]

/-- **A placement of a segment goes into the draft** without a trap. -/
theorem take_eq {segment : Elf.ProgramHeader} {bytes : List UInt8} {placement : Placement}
    (h : placeBytes layout allowFlash segment bytes = .ok placement) (placed : List Placement) :
    (Draft.of placed).take placement = .ok (.of (placed ++ [placement])) := by
  rcases placeBytes_cases h with ⟨-, rfl, -⟩ | ⟨-, -, ⟨copy, -, rfl⟩ | ⟨-, rfl⟩⟩ |
    ⟨-, -, rfl, hstop⟩
  · exact take_of_flashBlock?_eq_none rfl placed
  · exact take_of_flashBlock?_eq_none rfl placed
  · exact take_of_flashBlock?_eq_none rfl placed
  · have hwhole : (Draft.of placed).pages.Whole :=
      PageMap.whole_foldl_scatter PageMap.whole_empty _
    have hstop : Block.stop ⟨segment.home, bytes⟩ ≤ flashLimit := hstop
    generalize Block.mk segment.home bytes = block at hstop
    have hlast : block.stop < UInt32.size := Nat.lt_of_le_of_lt hstop (by decide)
    rw [Draft.take, sectors_eq hstop, ok_bind, scatterFrom_zero_eq hlast hwhole, ok_bind,
      pure_eq_ok, of_snoc]
    simp [Placement.ramBlock?, Placement.flashBlock?, Placement.isMirrored, Placement.isSkipped]

/-! ### All placements -/

/-- **Segments are gone through as they are placed**, by induction on the segments. -/
theorem takeAll_eq (segments : List Elf.ProgramHeader) (placed : List Placement) :
    takeAll image layout allowFlash segments (.of placed) =
      .ok (match placements image layout allowFlash segments with
        | (_, some fault) => .error fault
        | (rest, none) => .ok (.of (placed ++ rest))) := by
  induction segments generalizing placed with
  | nil => simp [takeAll, placements]
  | cons segment segments ih =>
    simp only [takeAll, placements]
    cases hplace : place image layout allowFlash segment with
    | error fault => rfl
    | ok placed? =>
      rcases place_cases hplace with ⟨-, rfl⟩ | ⟨-, -, -, placement, hbytes, rfl⟩
      · exact ih placed
      · simp only [take_eq hbytes, ok_bind, ih]
        rcases placements image layout allowFlash segments with ⟨rest, fault?⟩
        cases fault? with
        | none => simp only [List.append_assoc, List.singleton_append]
        | some fault => rfl

/-- **Planning does not halt**, and gives the plan of the image, whatever the image. -/
theorem build_eq (image : Elf.Image) (layout : Layout) (allowFlash : Bool) :
    build image layout allowFlash = .ok (Plan.build image layout allowFlash) := by
  have hblank : Draft.blank = .of [] := rfl
  rw [build, hblank, takeAll_eq, ok_bind, Plan.build]
  rcases placements image layout allowFlash image.segments with ⟨placed, fault?⟩
  cases fault? with
  | none => rfl
  | some fault => rfl

end Placing

end PicoLoader.Strict
