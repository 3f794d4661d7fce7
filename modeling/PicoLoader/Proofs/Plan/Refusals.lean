import PicoLoader.Proofs.Plan.Building

/-!
# When there is no plan

Planning goes through the segments in file order and ends at the first that cannot be placed. This
file says which segments these are, by numbers that cannot overflow, and what is reported of them.

A `PicoLoader.Plan.Flaw` is one thing that can be wrong with a segment. A segment may have several;
they are looked for in an order (`PicoLoader.Plan.Flaw.rank`), and the first one found is reported.
`place_eq_error_iff` says this of one segment, `snd_placements_eq_some_iff` of a list of segments,
by induction on the list. If there is no bad segment, planning can still fail for want of anything
to do: flash may not be written, and no segment goes to RAM. `PicoLoader.Plan.Refusals` puts the
statements together.
-/

namespace PicoLoader.Plan

open Memory

/-! ### Flaws -/

/-- One thing that can be wrong with a segment that has bytes. -/
inductive Flaw where
  /-- It names no address. -/
  | unnamed
  /-- Its bytes are not all in the file. -/
  | outside
  /-- It ends past the last address at which it may end. -/
  | overlong
deriving DecidableEq

namespace Flaw

/-- The place of a flaw in the order in which flaws are looked for. -/
def rank : Flaw → Nat
  | unnamed => 0
  | outside => 1
  | overlong => 2

/-- What is reported of a segment with a flaw. -/
def fault (segment : Elf.ProgramHeader) : Flaw → Fault
  | unnamed => .image .noLoadAddress
  | outside => .image (.segmentOutside segment.offset segment.fileSize)
  | overlong => .plan (.pastAddressSpace segment.home)

variable (image : Elf.Image) (layout : Layout) (allowFlash : Bool) (segment : Elf.ProgramHeader)

/-- Whether a segment has a flaw. A segment of flash has to leave room for a sector above it if
flash may be written; otherwise it may have any length. -/
def Spoils : Flaw → Prop
  | unnamed => segment.home = 0
  | outside => image.bytes.length < segment.offset.toNat + segment.fileSize.toNat
  | overlong =>
    (¬layout.FlashAt segment.home.toNat ∧
      0xFFFFFFFF < segment.home.toNat + segment.fileSize.toNat) ∨
    (layout.FlashAt segment.home.toNat ∧ allowFlash = true ∧
      0xFFFFFFFF - 4096 < segment.home.toNat + segment.fileSize.toNat)

/-- The first flaw of a segment: it has this one, and none that is looked for before. -/
structure First (flaw : Flaw) : Prop where
  spoils : flaw.Spoils image layout allowFlash segment
  not_spoils_before : ∀ earlier : Flaw, earlier.rank < flaw.rank →
    ¬earlier.Spoils image layout allowFlash segment

end Flaw

/-- Whether a segment cannot be placed: it has bytes, and a flaw. -/
def Bad (image : Elf.Image) (layout : Layout) (allowFlash : Bool) (segment : Elf.ProgramHeader) :
    Prop :=
  segment.Loaded ∧ ∃ flaw : Flaw, flaw.Spoils image layout allowFlash segment

open Flaw

variable {image : Elf.Image} {layout : Layout} {allowFlash : Bool} {segment : Elf.ProgramHeader}
  {fault : Fault}

theorem Flaw.rank_injective : Function.Injective rank := by
  intro first second h
  cases first <;> cases second <;> first | rfl | cases h

/-- **Only one flaw is the first.** -/
theorem Flaw.First.unique {first second : Flaw}
    (hfirst : first.First image layout allowFlash segment)
    (hsecond : second.First image layout allowFlash segment) : first = second := by
  refine rank_injective (Nat.le_antisymm ?_ ?_)
  · exact Nat.le_of_not_lt fun hlt => hfirst.not_spoils_before second hlt hsecond.spoils
  · exact Nat.le_of_not_lt fun hlt => hsecond.not_spoils_before first hlt hfirst.spoils

/-- A segment of flash is never too long if flash may not be written. -/
theorem Flaw.not_spoils_overlong (hflash : layout.FlashAt segment.home.toNat)
    (hnot : allowFlash = false) : ¬overlong.Spoils image layout allowFlash segment := by
  rintro (⟨hram, -⟩ | ⟨-, hallow, -⟩)
  · exact hram hflash
  · exact Bool.false_ne_true (hnot.symm.trans hallow)

/-! ### One segment -/

/-- **Bytes are placed** unless they end past the last address at which they may end. -/
theorem placeBytes_flaw (image : Elf.Image) (layout : Layout) (allowFlash : Bool)
    {bytes : List UInt8} (hlength : bytes.length = segment.fileSize.toNat) :
    (¬overlong.Spoils image layout allowFlash segment ∧
      ∃ placed, placeBytes layout allowFlash segment bytes = .ok placed) ∨
    (overlong.Spoils image layout allowFlash segment ∧
      placeBytes layout allowFlash segment bytes =
        .error (.pastAddressSpace segment.home)) := by
  have hsize : UInt32.size = 0xFFFFFFFF + 1 := rfl
  have hlimit : flashLimit = 0xFFFFFFFF - 4096 := rfl
  by_cases hflash : layout.FlashAt segment.home.toNat
  · cases allowFlash with
    | false =>
      exact Or.inl ⟨not_spoils_overlong hflash rfl, _, placeBytes_of_flashAt hflash bytes⟩
    | true =>
      rw [placeBytes_of_flashAt_of_allowFlash hflash, hlength, hlimit]
      split
      case isTrue hfits =>
        refine Or.inl ⟨?_, _, rfl⟩
        rintro (⟨hnot, -⟩ | ⟨-, -, hlong⟩)
        · exact hnot hflash
        · omega
      case isFalse hlong => exact Or.inr ⟨Or.inr ⟨hflash, rfl, by omega⟩, rfl⟩
  · rw [placeBytes_of_not_flashAt hflash, hlength, hsize]
    split
    case isTrue hfits =>
      refine Or.inl ⟨?_, _, rfl⟩
      rintro (⟨-, hlong⟩ | ⟨hflash', -⟩)
      · omega
      · exact hflash hflash'
    case isFalse hlong => exact Or.inr ⟨Or.inl ⟨hflash, by omega⟩, rfl⟩

/-- **A segment is placed**, unless it has bytes and a flaw; then its first flaw is reported. -/
theorem place_flaw (image : Elf.Image) (layout : Layout) (allowFlash : Bool)
    (segment : Elf.ProgramHeader) :
    (¬Bad image layout allowFlash segment ∧
      ∃ placed?, place image layout allowFlash segment = .ok placed?) ∨
    (segment.Loaded ∧ ∃ flaw : Flaw, flaw.First image layout allowFlash segment ∧
      place image layout allowFlash segment = .error (flaw.fault segment)) := by
  by_cases hbytes : segment.Loaded
  · rw [place_of_loaded hbytes]
    split
    case isTrue hunnamed =>
      exact Or.inr ⟨hbytes, unnamed, ⟨hunnamed, fun _ h => absurd h (Nat.not_lt_zero _)⟩, rfl⟩
    case isFalse hnamed =>
    cases hcontent : image.content segment with
    | error error =>
      obtain ⟨⟨-, houtside⟩, rfl⟩ := Elf.Image.content_eq_error_iff.mp hcontent
      refine Or.inr ⟨hbytes, outside, ⟨houtside, fun earlier h => ?_⟩, rfl⟩
      cases earlier with
      | unnamed => exact hnamed
      | outside => exact absurd h (Nat.lt_irrefl _)
      | overlong => exact absurd h (by decide)
    | ok bytes =>
    have hinside := ((content_eq_ok_iff hbytes).mp hcontent).1
    rcases placeBytes_flaw image layout allowFlash (Elf.Image.length_of_content hcontent) with
      ⟨hfits, placed, hplaced⟩ | ⟨hlong, herror⟩
    · refine Or.inl ⟨?_, some placed, by simp only [hplaced]⟩
      rintro ⟨-, flaw, hflaw⟩
      cases flaw with
      | unnamed => exact hnamed hflaw
      | outside => exact Nat.not_lt_of_le hinside hflaw
      | overlong => exact hfits hflaw
    · refine Or.inr ⟨hbytes, overlong, ⟨hlong, fun earlier h => ?_⟩, by simp only [herror]; rfl⟩
      cases earlier with
      | unnamed => exact hnamed
      | outside => exact Nat.not_lt_of_le hinside
      | overlong => exact absurd h (Nat.lt_irrefl _)
  · exact Or.inl ⟨fun hbad => hbytes hbad.1, none, place_of_not_loaded hbytes⟩

/-- A segment is not placed if and only if it has bytes and a flaw; what is reported is its first
flaw. -/
theorem place_eq_error_iff : place image layout allowFlash segment = .error fault ↔
    segment.Loaded ∧ ∃ flaw : Flaw, flaw.First image layout allowFlash segment ∧
      fault = flaw.fault segment := by
  rcases place_flaw image layout allowFlash segment with
    ⟨hgood, placed?, hok⟩ | ⟨hbytes, flaw, hfirst, herror⟩
  · rw [hok]
    refine iff_of_false (by simp) ?_
    rintro ⟨hbytes, flaw, hfirst, -⟩
    exact hgood ⟨hbytes, flaw, hfirst.spoils⟩
  · rw [herror, Except.error.injEq]
    constructor
    · exact fun h => ⟨hbytes, flaw, hfirst, h.symm⟩
    · rintro ⟨-, other, hother, rfl⟩
      rw [hfirst.unique hother]

theorem exists_place_eq_ok_iff : (∃ placed?, place image layout allowFlash segment = .ok placed?) ↔
    ¬Bad image layout allowFlash segment := by
  rcases place_flaw image layout allowFlash segment with
    ⟨hgood, hok⟩ | ⟨hbytes, flaw, hfirst, herror⟩
  · exact iff_of_true hok hgood
  · refine iff_of_false ?_ fun hgood => hgood ⟨hbytes, flaw, hfirst.spoils⟩
    rintro ⟨placed?, hok⟩
    cases hok.symm.trans herror

/-! ### All segments -/

section Placements

variable {first : Elf.ProgramHeader} {rest segments : List Elf.ProgramHeader}

/-- A segment that is placed leaves it to the others whether there is a fault. -/
theorem snd_placements_cons (h : ¬Bad image layout allowFlash first) :
    (placements image layout allowFlash (first :: rest)).2 =
      (placements image layout allowFlash rest).2 := by
  obtain ⟨placed?, hplace⟩ := exists_place_eq_ok_iff.mpr h
  rw [placements_cons hplace]

/-- **All segments are placed** if none is bad. -/
theorem snd_placements_eq_none_iff : (placements image layout allowFlash segments).2 = none ↔
    ∀ segment ∈ segments, ¬Bad image layout allowFlash segment := by
  induction segments with
  | nil => simp [placements]
  | cons first rest ih =>
    rw [List.forall_mem_cons, ← exists_place_eq_ok_iff]
    cases hplace : place image layout allowFlash first with
    | error fault => simp [placements, hplace]
    | ok placed? =>
      rw [snd_placements_cons (exists_place_eq_ok_iff.mp ⟨placed?, hplace⟩), ih]
      exact (and_iff_right ⟨placed?, rfl⟩).symm

/-- **Placing ends at the first segment that is bad**, with what is reported of it. -/
theorem snd_placements_eq_some_iff : (placements image layout allowFlash segments).2 = some fault ↔
    ∃ earlier segment later, segments = earlier ++ segment :: later ∧
      (∀ s ∈ earlier, ¬Bad image layout allowFlash s) ∧
      place image layout allowFlash segment = .error fault := by
  induction segments with
  | nil =>
    refine iff_of_false (by simp [placements]) ?_
    rintro ⟨earlier, segment, later, hnil, -⟩
    simp at hnil
  | cons first rest ih =>
    constructor
    · intro h
      by_cases hbad : Bad image layout allowFlash first
      · refine ⟨[], first, rest, rfl, fun s hs => absurd hs List.not_mem_nil, ?_⟩
        cases hplace : place image layout allowFlash first with
        | error found =>
          simp only [placements, hplace] at h
          rw [Option.some.inj h]
        | ok placed? => exact absurd hbad (exists_place_eq_ok_iff.mp ⟨placed?, hplace⟩)
      · rw [snd_placements_cons hbad, ih] at h
        obtain ⟨earlier, segment, later, rfl, hgood, hplace⟩ := h
        exact ⟨first :: earlier, segment, later, rfl,
          List.forall_mem_cons.mpr ⟨hbad, hgood⟩, hplace⟩
    · rintro ⟨earlier, segment, later, hsplit, hgood, hplace⟩
      cases earlier with
      | nil =>
        obtain ⟨rfl, -⟩ := List.cons.inj hsplit
        simp only [placements, hplace]
      | cons before earlier =>
        obtain ⟨rfl, rfl⟩ := List.cons.inj hsplit
        obtain ⟨hbefore, hgood⟩ := List.forall_mem_cons.mp hgood
        rw [snd_placements_cons hbefore, ih]
        exact ⟨earlier, segment, later, rfl, hgood, hplace⟩

/-- **There is nothing to write** if flash may not be written and no segment goes to RAM. -/
theorem isEmpty_gather_iff {placed : List Placement} (entry : UInt32)
    (h : placements image layout false segments = (placed, none)) :
    (gather entry placed).isEmpty = true ↔
      ∀ segment ∈ segments, ramTarget? layout false segment = none := by
  obtain ⟨-, hram, hflash⟩ := placements_spec h
  have hnone : placed.filterMap Placement.flashBlock? = [] := by
    rw [hflash, List.filterMap_eq_nil_iff]
    intro segment _
    simp [flashTarget?]
  simp only [isEmpty, gather, hnone, hram, List.foldl_nil, Bool.and_eq_true, List.isEmpty_iff,
    List.filterMap_eq_nil_iff, Option.map_eq_none_iff]
  exact and_iff_right rfl

end Placements

/-! ### The plan -/

/-- **There is no plan** if a segment is not placed, or if all are and there is nothing to do. -/
theorem build_eq_error_iff : build image layout allowFlash = .error fault ↔
    (placements image layout allowFlash image.segments).2 = some fault ∨
    ((placements image layout allowFlash image.segments).2 = none ∧ allowFlash = false ∧
      (∀ segment ∈ image.segments, ramTarget? layout allowFlash segment = none) ∧
      fault = .plan .nothingForRam) := by
  rcases hplaced : placements image layout allowFlash image.segments with ⟨placed, _ | found⟩
  · cases allowFlash with
    | true => simp [build, hplaced]
    | false =>
      have hempty := isEmpty_gather_iff image.header.entry hplaced
      simp only [build, hplaced, Bool.not_false, Bool.true_and, hempty, reduceCtorEq, true_and,
        false_or]
      split
      case isTrue hnone =>
        rw [Except.error.injEq, eq_comm]
        exact (and_iff_right hnone).symm
      case isFalse hsome => simp only [reduceCtorEq, hsome, false_and]
  · simp [build, hplaced]

/-- **When there is no plan, and why.** -/
structure Refusals (image : Elf.Image) (layout : Layout) (allowFlash : Bool) : Prop where
  /-- There is no plan if and only if a segment is bad, or none is but there is nothing to do: flash
  may not be written, and no segment goes to RAM. -/
  exists_error_iff : (∃ fault, build image layout allowFlash = .error fault) ↔
    (∃ segment ∈ image.segments, Bad image layout allowFlash segment) ∨
    ((∀ segment ∈ image.segments, ¬Bad image layout allowFlash segment) ∧ allowFlash = false ∧
      ∀ segment ∈ image.segments, ramTarget? layout allowFlash segment = none)
  /-- A bad segment has a first flaw. -/
  exists_first : ∀ segment, Bad image layout allowFlash segment →
    ∃ flaw : Flaw, flaw.First image layout allowFlash segment
  /-- What is reported is the first flaw of the first bad segment. -/
  error_of_bad : ∀ earlier segment later (flaw : Flaw),
    image.segments = earlier ++ segment :: later →
    (∀ s ∈ earlier, ¬Bad image layout allowFlash s) → segment.Loaded →
    flaw.First image layout allowFlash segment →
    build image layout allowFlash = .error (flaw.fault segment)
  /-- If no segment is bad, it is that there is nothing for RAM. -/
  error_of_not_bad : (∀ segment ∈ image.segments, ¬Bad image layout allowFlash segment) →
    ∀ fault, build image layout allowFlash = .error fault → fault = .plan .nothingForRam
  /-- A segment of flash is never too long if flash may not be written. -/
  not_overlong : ∀ segment : Elf.ProgramHeader, layout.FlashAt segment.home.toNat →
    allowFlash = false → ¬overlong.Spoils image layout allowFlash segment
  /-- What is said of a segment that is too long names its address. -/
  message_overlong : ∀ segment, (overlong.fault segment).message =
    "Segment at " ++ Hex.number segment.home.toNat ++
      " runs past the end of the address space."
  /-- What is said when there is nothing for RAM. -/
  message_nothingForRam : (Fault.plan .nothingForRam).message =
    "No loadable RAM segments found (flash segments skipped). Use --flash to enable flash writes."

/-- **There is a plan unless planning is refused** for one of these reasons. -/
theorem refusals (image : Elf.Image) (layout : Layout) (allowFlash : Bool) :
    Refusals image layout allowFlash where
  exists_error_iff := by
    simp only [build_eq_error_iff, exists_or, snd_placements_eq_none_iff]
    refine or_congr ?_ ⟨?_, ?_⟩
    · rw [← Option.isSome_iff_exists, ← Option.ne_none_iff_isSome, Ne, snd_placements_eq_none_iff]
      push Not
      rfl
    · rintro ⟨-, hgood, hnot, hnone, -⟩
      exact ⟨hgood, hnot, hnone⟩
    · rintro ⟨hgood, hnot, hnone⟩
      exact ⟨_, hgood, hnot, hnone, rfl⟩
  exists_first segment hbad := by
    rcases place_flaw image layout allowFlash segment with ⟨hgood, -⟩ | ⟨-, flaw, hfirst, -⟩
    · exact absurd hbad hgood
    · exact ⟨flaw, hfirst⟩
  error_of_bad earlier segment later flaw hsplit hgood hbytes hfirst := by
    have hplace := place_eq_error_iff.mpr ⟨hbytes, flaw, hfirst, rfl⟩
    exact build_eq_error_iff.mpr (Or.inl (snd_placements_eq_some_iff.mpr
      ⟨earlier, segment, later, hsplit, hgood, hplace⟩))
  error_of_not_bad hgood fault h := by
    rcases build_eq_error_iff.mp h with hsome | ⟨-, -, -, hfault⟩
    · cases (snd_placements_eq_none_iff.mpr hgood).symm.trans hsome
    · exact hfault
  not_overlong _ hflash hnot := not_spoils_overlong hflash hnot
  message_overlong segment := rfl
  message_nothingForRam := rfl

end PicoLoader.Plan
