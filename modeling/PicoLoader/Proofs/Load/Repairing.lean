import Mathlib.Logic.Relation
import PicoLoader.Proofs.Load.FailStop
import PicoLoader.Proofs.Load.FlashLoad
import PicoLoader.Proofs.Load.SparingFlash

/-!
# A load that failed is repaired by the next

A call that fails may have done anything to the bytes that it was for: a sector half erased, a page
of which some bits are cleared, a chunk that is there in part. `PicoLoader.Load.Device.Spoils` says
no more of it than that it stays within its own addresses. So after a load that failed the device is
in any of a great many states. It does not matter: the same load, tried again until it goes through,
leaves what it would have left on the device as it was at first (`mends_of_build`).

The reason is that a load looks at nothing that it may have spoilt before. Of an address that some
call of it reaches,

* either it lies in a sector that is erased, and then it is erased again, and again written once;
* or it is covered by a block for RAM, and then it is stored again, and not in erased flash.

The first half is `cell_play_ideal_of_touched`, where nothing is asked of the device. The second is
`cell_play_ideal_of_not_touched`, which wants the address not to be erased flash. This is what a
failed load has to keep, and why no block for RAM may reach into an erased sector: the invariant is
`PicoLoader.Load.Device.Confined`, kept by each call (`Confined.spoils`), by the calls of one load
(`Confined.left`) and by any number of loads one after the other (`Confined.tried`).
-/

namespace PicoLoader

open Memory

/-- No block for RAM reaches into a span that is erased. -/
def Plan.SeparatesRam (plan : Plan) : Prop :=
  ∀ x, (∃ span ∈ plan.erase, span.Covers x) → ∀ block ∈ plan.ram, ¬block.Covers x

/-- Whether a plan is for the byte at an address: it erases it, or stores a block there. -/
def Plan.Concerns (plan : Plan) (x : Nat) : Prop :=
  (∃ span ∈ plan.erase, span.Covers x) ∨ ∃ block ∈ plan.ram, block.Covers x

namespace Load

open Plan

/-! ### Calls that fail -/

/-- Whether a call that fails may leave the second device where it found the first. It may do
anything to the bytes that it reaches, and nothing to others. An address may have become erased
flash or not, where it does so when the call succeeds. -/
structure Device.Spoils (call : Call) (before after : Device) : Prop where
  cell_eq : ∀ x, ¬call.Reaches x → after.cell x = before.cell x
  erased_eq_or : ∀ x,
    after.erased x = before.erased x ∨ after.erased x = (before.perform call).erased x

/-- A call that succeeds stays within its addresses too. -/
theorem Device.spoils_perform (call : Call) (device : Device) :
    device.Spoils call (device.perform call) := by
  refine ⟨fun x hx => ?_, fun x => Or.inr rfl⟩
  cases call with
  | erase addr size => exact if_neg hx
  | write addr bytes => exact Device.cell_store_of_not_covers device hx
  | resetInterface => rfl
  | exitXip => rfl
  | exec addr => rfl

/-- Only erasing makes an address erased flash, and only where it reaches. -/
theorem Device.erased_perform_of_not_reaches {call : Call} {x : Nat} (device : Device)
    (h : (∃ addr size, call = .erase addr size) → ¬call.Reaches x) :
    (device.perform call).erased x = device.erased x := by
  cases call with
  | erase addr size =>
    have hx : ¬(addr.toNat ≤ x ∧ x < addr.toNat + size.toNat) := h ⟨addr, size, rfl⟩
    rw [Device.perform, Device.erased_erase, decide_eq_false hx, Bool.false_or]
  | write addr bytes => rfl
  | resetInterface => rfl
  | exitXip => rfl
  | exec addr => rfl

/-- **What calls leave**, the first of which has number `i`: a call that does not fail does what it
should, and one that fails spoils something. -/
inductive Left (failures : Nat → Option Failure) : Nat → List Call → Device → Device → Prop where
  | nil {i : Nat} {device : Device} : Left failures i [] device device
  | done {i : Nat} {call : Call} {calls : List Call} {device after : Device} :
      failures i = none → Left failures (i + 1) calls (device.perform call) after →
      Left failures i (call :: calls) device after
  | failed {i : Nat} {call : Call} {calls : List Call} {device spoilt after : Device}
      {failure : Failure} : failures i = some failure → device.Spoils call spoilt →
      Left failures (i + 1) calls spoilt after → Left failures i (call :: calls) device after

/-- **One try of a load** that does not start the image: whatever calls fail, and wherever it has
to stop, this may be what it leaves. -/
def Tried (plan : Plan) (layout : Layout) (allowFlash : Bool) (before after : Device) : Prop :=
  ∃ (failures : Nat → Option Failure) (room : Option Nat),
    Left failures 0 (outcome plan layout allowFlash false failures room).calls before after

/-! ### What a try can spoil -/

/-- **A device that loads of a plan have been tried on**: the bytes that the plan is not for are the
old ones, and what is erased flash lies in the spans of the plan. -/
structure Device.Confined (plan : Plan) (memory : Nat → UInt8) (device : Device) : Prop where
  cell_eq : ∀ x, ¬plan.Concerns x → device.cell x = memory x
  erased_eq : ∀ x, (∀ span ∈ plan.erase, ¬span.Covers x) → device.erased x = false

variable {image : Elf.Image} {layout : Layout} {allowFlash : Bool} {plan : Plan} {x : Nat}
  {memory : Nat → UInt8} {before after : Device} {call : Call}

/-- A device is confined before the first try. -/
theorem Device.confined_withMemory (plan : Plan) (memory : Nat → UInt8) :
    (Device.withMemory memory).Confined plan memory :=
  ⟨fun _ _ => rfl, fun _ _ => rfl⟩

/-- What is erased by a load lies in a span of the plan. -/
theorem exists_span_of_reaches (h : build image layout allowFlash = .ok plan)
    (hcall : call ∈ plan.schedule.map Prod.fst) (herase : ∃ addr size, call = .erase addr size)
    (hx : call.Reaches x) : ∃ span ∈ plan.erase, span.Covers x := by
  obtain ⟨addr, size, rfl⟩ := herase
  obtain ⟨request, hrequest, heq⟩ := List.mem_map.mp hcall
  rcases mem_schedule_iff.mp hrequest with rfl | ⟨-, rfl⟩ | ⟨-, span, hspan, rfl⟩ |
    ⟨block, -, chunk, -, rfl⟩ | ⟨page, -, rfl⟩
  · cases heq
  · cases heq
  · obtain ⟨rfl, rfl⟩ := Call.erase.inj heq
    have hle := (loadable_of_build h).start_le_stop span hspan
    exact ⟨span, hspan, (Device.covers_iff_of_le hle).mpr hx⟩
  · cases heq
  · cases heq

/-- **A load reaches only what its plan is for**: pages lie in sectors that are erased. -/
theorem concerns_of_reaches (h : build image layout allowFlash = .ok plan)
    (hcall : call ∈ plan.schedule.map Prod.fst) (hx : call.Reaches x) : plan.Concerns x := by
  obtain ⟨request, hrequest, rfl⟩ := List.mem_map.mp hcall
  rcases mem_schedule_iff.mp hrequest with rfl | ⟨-, rfl⟩ | ⟨-, span, -, rfl⟩ |
    ⟨block, hblock, chunk, hchunk, rfl⟩ | ⟨page, hpage, rfl⟩
  · exact hx.elim
  · exact hx.elim
  · exact Or.inl (exists_span_of_reaches h hcall ⟨_, _, rfl⟩ hx)
  · have hchunks : chunk ∈ plan.ram.flatMap Block.chunks :=
      List.mem_flatMap.mpr ⟨block, hblock, hchunk⟩
    exact Or.inr ((exists_covers_chunks_iff (stop_le_of_mem_ram h)).mp ⟨chunk, hchunks, hx⟩)
  · have hpages := (exists_mem_pages_iff h).mp ⟨page, hpage, hx⟩
    exact Or.inl ((exists_mem_erase_iff h).mpr hpages.sector)

/-- The calls of a load that does not start the image are requests of its plan. -/
theorem mem_schedule_of_mem_calls {failures : Nat → Option Failure} {room : Option Nat}
    (hcall : call ∈ (outcome plan layout allowFlash false failures room).calls) :
    call ∈ plan.schedule.map Prod.fst := by
  obtain ⟨i, hi⟩ := List.mem_iff_getElem?.mp hcall
  obtain ⟨severity, -, hrequest, -⟩ := exists_request hi
  have hmem := List.mem_of_getElem? hrequest
  rw [Plan.requests, starting, if_neg Bool.false_ne_true, List.flatMap_nil, List.append_nil] at hmem
  exact List.mem_map_of_mem (f := Prod.fst) hmem

/-! ### The invariant -/

/-- **A call keeps a device confined**, whether it succeeds or fails. -/
theorem Device.Confined.spoils (hbefore : before.Confined plan memory)
    (h : build image layout allowFlash = .ok plan) (hcall : call ∈ plan.schedule.map Prod.fst)
    (hspoils : before.Spoils call after) : after.Confined plan memory := by
  constructor
  · intro x hx
    have hreach : ¬call.Reaches x := fun hc => hx (concerns_of_reaches h hcall hc)
    rw [hspoils.cell_eq x hreach, hbefore.cell_eq x hx]
  · intro x hx
    have hperform : (before.perform call).erased x = before.erased x := by
      refine before.erased_perform_of_not_reaches fun herase hc => ?_
      obtain ⟨span, hspan, hcovers⟩ := exists_span_of_reaches h hcall herase hc
      exact hx span hspan hcovers
    rcases hspoils.erased_eq_or x with heq | heq
    · rw [heq, hbefore.erased_eq x hx]
    · rw [heq, hperform, hbefore.erased_eq x hx]

/-- **So do the calls of a load**, by induction on what they leave. -/
theorem Device.Confined.left {failures : Nat → Option Failure} {i : Nat} {calls : List Call}
    (h : build image layout allowFlash = .ok plan) (hleft : Left failures i calls before after)
    (hcalls : ∀ call ∈ calls, call ∈ plan.schedule.map Prod.fst)
    (hbefore : before.Confined plan memory) : after.Confined plan memory := by
  induction hleft with
  | nil => exact hbefore
  | @done i call calls device after _ _ ih =>
    have hcall := hcalls call List.mem_cons_self
    exact ih (fun c hc => hcalls c (List.mem_cons_of_mem _ hc))
      (hbefore.spoils h hcall (Device.spoils_perform call device))
  | @failed i call calls device spoilt after failure _ hspoils _ ih =>
    have hcall := hcalls call List.mem_cons_self
    exact ih (fun c hc => hcalls c (List.mem_cons_of_mem _ hc)) (hbefore.spoils h hcall hspoils)

/-- **And so do tries**, however many there are. -/
theorem Device.Confined.tried (h : build image layout allowFlash = .ok plan)
    (htried : Relation.ReflTransGen (Tried plan layout allowFlash) before after)
    (hbefore : before.Confined plan memory) : after.Confined plan memory := by
  induction htried with
  | refl => exact hbefore
  | tail _ hlast ih =>
    obtain ⟨failures, room, hleft⟩ := hlast
    exact ih.left h hleft fun call hcall => mem_schedule_of_mem_calls hcall

/-! ### The next load -/

/-- **On a confined device a load leaves what it leaves on the device of before.** -/
theorem Device.Confined.cell_play_ideal (h : build image layout allowFlash = .ok plan)
    (hapart : plan.SeparatesRam) (hdevice : before.Confined plan memory) :
    (before.play (ideal plan layout allowFlash false).calls).cell =
      memoryAfter plan layout allowFlash memory := by
  funext x
  by_cases hx : ∃ span ∈ plan.erase, span.Covers x
  · have htouched := (exists_mem_erase_iff h).mp hx
    rw [memoryAfter, cell_play_ideal_of_touched h (hapart x hx) htouched,
      cell_play_ideal_of_touched h (hapart x hx) htouched]
  · have hnot : ∀ span ∈ plan.erase, ¬span.Covers x := fun span hspan hc => hx ⟨span, hspan, hc⟩
    have htouched := fun hc => hx ((exists_mem_erase_iff h).mpr hc)
    rw [memoryAfter, cell_play_ideal_of_not_touched h htouched (hdevice.erased_eq x hnot),
      cell_play_ideal_of_not_touched h htouched rfl]
    -- Either a block stores the byte again, or no try has changed it.
    by_cases hram : ∃ block ∈ plan.ram, block.Covers x
    · have hstored : lastByte? plan.ram x ≠ none := by
        intro hnone
        obtain ⟨block, hblock, hc⟩ := hram
        exact lastByte?_eq_none_iff.mp hnone block hblock hc
      obtain ⟨byte, hbyte⟩ := Option.ne_none_iff_exists'.mp hstored
      rw [hbyte]
      rfl
    · rw [hdevice.cell_eq x (not_or.mpr ⟨hx, hram⟩)]
      rfl

/-! ### The statement -/

/-- **A load mends a device**: it succeeds, and leaves what it leaves on a device with a given
memory. So it does too if the device has forgotten which of its flash is erased. -/
structure Mends (plan : Plan) (layout : Layout) (allowFlash : Bool) (memory : Nat → UInt8)
    (device : Device) : Prop where
  result_ok : (ideal plan layout allowFlash false).result = .ok ()
  cell_play : (device.play (ideal plan layout allowFlash false).calls).cell =
    memoryAfter plan layout allowFlash memory
  memoryAfter_cell : memoryAfter plan layout allowFlash device.cell =
    memoryAfter plan layout allowFlash memory

/-- **A load that failed is repaired by the next**, however often it has failed, and wherever. -/
theorem mends_of_build (h : build image layout allowFlash = .ok plan) (hapart : plan.SeparatesRam)
    {device : Device}
    (htried : Relation.ReflTransGen (Tried plan layout allowFlash) (.withMemory memory) device) :
    Mends plan layout allowFlash memory device := by
  have hdevice := (Device.confined_withMemory plan memory).tried h htried
  have hforgotten : (Device.withMemory device.cell).Confined plan memory :=
    ⟨hdevice.cell_eq, fun _ _ => rfl⟩
  exact ⟨(ideal_of_build h).1, hdevice.cell_play_ideal h hapart,
    hforgotten.cell_play_ideal h hapart⟩

/-- The last of five calls fails. -/
def fifthFails (i : Nat) : Option Failure :=
  if i = 4 then some ⟨.transfer .stall, []⟩ else none

/-- **A page that was cut off is mended**: all its bits have been cleared, so that no write alone
could bring them back. -/
theorem mends_mixed :
    ∃ plan device, build mixed .rp2040 true = .ok plan ∧ plan.SeparatesRam ∧
      Relation.ReflTransGen (Tried plan .rp2040 true) (.withMemory fun _ => 0x5A) device ∧
      device.cell 0x10000012 = 0 ∧ Mends plan .rp2040 true (fun _ => 0x5A) device := by
  let plan : Plan := gather 0x10000011 [.flash ⟨0x10000010, [0xA1, 0xA2, 0xA3, 0xA4]⟩,
    .flash ⟨0x10000012, [0xB1, 0xB2, 0xB3]⟩, .ram ⟨0x20000000, [0xA0, 0xA1]⟩]
  let before : List Call :=
    [.resetInterface, .exitXip, .erase 0x10000000 0x1000, .write 0x20000000 [0xA0, 0xA1]]
  let made : Device := (Device.withMemory fun _ => 0x5A).play before
  let page : Block := ⟨0x10000000, plan.pages.pages.flatMap Block.bytes⟩
  let device : Device := { made with
    cell := fun x => if 0x10000000 ≤ x ∧ x < 0x10000100 then 0 else made.cell x }
  have hbuild : build mixed .rp2040 true = .ok plan := rfl
  have hapart : plan.SeparatesRam := by
    rintro x ⟨span, hspan, hx⟩ block hblock hc
    obtain rfl : span = ⟨0x10000000, 0x10001000⟩ := List.mem_singleton.mp hspan
    obtain rfl : block = ⟨0x20000000, [0xA0, 0xA1]⟩ := List.mem_singleton.mp hblock
    exact absurd (Nat.lt_of_le_of_lt hc.1 hx.2) (by decide)
  have hcalls : (outcome plan .rp2040 true false fifthFails none).calls =
      before ++ [writeOf page] := by decide +kernel
  have hspoils : made.Spoils (writeOf page) device := by
    refine ⟨fun x hx => if_neg ?_, fun x => Or.inl rfl⟩
    rintro ⟨hlow, hhigh⟩
    have hstop : page.addr.toNat + page.bytes.length = 0x10000100 := by decide +kernel
    exact hx ⟨hlow, Nat.lt_of_lt_of_eq hhigh hstop.symm⟩
  have htried : Tried plan .rp2040 true (.withMemory fun _ => 0x5A) device := by
    refine ⟨fifthFails, none, hcalls ▸ ?_⟩
    exact .done rfl (.done rfl (.done rfl (.done rfl (.failed rfl hspoils .nil))))
  exact ⟨plan, device, hbuild, hapart, .single htried, rfl, mends_of_build hbuild hapart
    (.single htried)⟩

end Load

end PicoLoader
