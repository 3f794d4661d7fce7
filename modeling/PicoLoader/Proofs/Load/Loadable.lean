import PicoLoader.Proofs.Load.Actions
import PicoLoader.Proofs.Plan.Erasing

/-!
# Plans that can be carried out to the end

A load stops at a block that leaves the address space. A plan is *loadable*
(`PicoLoader.Plan.Loadable`) if it has no such block, and nothing else that makes no sense: no empty
block for RAM, and no span that ends before it starts. The plan of an image is loadable
(`loadable_of_build`).

The load of a loadable plan on which nothing fails makes all of its calls, says all of its lines,
and fails only for want of an address to start at (`ideal_of_loadable`).
-/

namespace PicoLoader

open Memory Load

/-! ### Loadable plans -/

/-- A plan is *loadable* if its blocks for RAM have bytes and end inside the address space, and no
span to erase ends before it starts. -/
structure Plan.Loadable (plan : Plan) : Prop where
  bytes_ne_nil : ∀ block ∈ plan.ram, block.bytes ≠ []
  stop_le : ∀ block ∈ plan.ram, block.stop ≤ 0xFFFFFFFF
  start_le_stop : ∀ span ∈ plan.erase, span.start ≤ span.stop

/-- **The plan of an image is loadable.** -/
theorem Plan.loadable_of_build {image : Elf.Image} {layout : Layout} {allowFlash : Bool}
    {plan : Plan} (h : build image layout allowFlash = .ok plan) : plan.Loadable := by
  have hram : ∀ block ∈ plan.ram, block.stop ≤ 0xFFFFFFFF ∧ 0 < block.size := by
    intro block hblock
    rw [ram_of_build h] at hblock
    obtain ⟨segment, hmem, target, htarget, rfl⟩ := exists_of_mem_blocks hblock
    obtain ⟨hpos, hsize, hfile⟩ := soundTargets_ram h segment hmem target htarget
    exact ⟨stop_blockAt hsize hfile ▸ Nat.le_of_lt_succ hsize, size_blockAt hfile ▸ hpos⟩
  refine ⟨?_, fun block hblock => (hram block hblock).1, ?_⟩
  · intro block hblock hnil
    have hsize := (hram block hblock).2
    rw [Block.size, hnil] at hsize
    exact Nat.lt_irrefl _ hsize
  · intro span hspan
    rw [UInt32.le_iff_toNat_le]
    exact Nat.le_of_lt (start_lt_stop_of_mem_erase h hspan)

namespace Load

variable {plan : Plan}

/-! ### The load of a loadable plan -/

/-- The lines that end a load on which nothing fails. -/
def ending (plan : Plan) (layout : Layout) (allowFlash start : Bool) : List Line :=
  if start then
    match plan.startAddress layout allowFlash with
    | .ok addr => [.executing addr, .loadComplete]
    | .error _ => []
  else [.loadComplete]

theorem said_endSteps (plan : Plan) (layout : Layout) (allowFlash start : Bool) :
    said (endSteps plan layout allowFlash start) = ending plan layout allowFlash start := by
  cases start with
  | false => rfl
  | true =>
    rw [endSteps, ending, if_pos rfl, if_pos rfl]
    cases plan.startAddress layout allowFlash with
    | ok addr => rfl
    | error problem => rfl

/-- **The load of a loadable plan**: it makes the calls of all actions, says the notes and the
lines at the end, and fails only if the image cannot be started. -/
theorem ideal_of_loadable (layout : Layout) (allowFlash start : Bool) (h : plan.Loadable) :
    (ideal plan layout allowFlash start).result =
      resultOf (halt? (endSteps plan layout allowFlash start)) ∧
    (ideal plan layout allowFlash start).calls =
      .resetInterface :: (plan.actions layout allowFlash start).flatMap Action.calls ∧
    (ideal plan layout allowFlash start).text =
      Line.chars (plan.notes ++ ending plan layout allowFlash start) := by
  have hhalt : halt? (bodySteps plan) = none :=
    halt?_bodySteps fun block hblock => Nat.le_succ_of_le (h.stop_le block hblock)
  obtain ⟨hresult, hcalls, htext⟩ := ideal_spec plan layout allowFlash start
  rw [steps_eq] at hresult hcalls htext
  refine ⟨?_, ?_, ?_⟩
  · rw [hresult, halt?_append, hhalt, Option.none_or]
  · rw [hcalls, requests_append _ hhalt, (amountsTo_bodySteps plan).eq_of_halt hhalt,
      requests_endSteps, Plan.schedule, Plan.actions, List.cons_append, ← List.flatMap_append,
      List.map_cons, List.map_flatMap]
    rfl
  · rw [htext, said_append _ hhalt, said_bodySteps, said_endSteps]

/-- **The load of an image** that is not started succeeds, with all calls that bring the image onto
the device. -/
theorem ideal_of_build {image : Elf.Image} {layout : Layout} {allowFlash : Bool}
    (h : Plan.build image layout allowFlash = .ok plan) :
    (ideal plan layout allowFlash false).result = .ok () ∧
    (ideal plan layout allowFlash false).calls =
      .resetInterface :: plan.loading.flatMap Action.calls := by
  obtain ⟨hresult, hcalls, -⟩ :=
    ideal_of_loadable layout allowFlash false (Plan.loadable_of_build h)
  refine ⟨hresult, ?_⟩
  rw [hcalls, Plan.actions]
  exact congrArg (fun actions => _ :: List.flatMap Action.calls actions)
    (List.append_nil plan.loading)

end Load

end PicoLoader
