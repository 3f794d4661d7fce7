import PicoLoader.Proofs.Load.Loadable
import PicoLoader.Proofs.Strict.Planning
import PicoLoader.Report

/-!
# No arithmetic goes wrong

A plan is printed and carried out with strict operations here: the length of a span is a difference
that may be below zero, the address of a chunk a sum that may not be a word. Each line is put into
words when its turn comes, and each step is worked out just before it is run, so that a trap leaves
done what has been done before it.

None is ever met. For a plan that is loadable every line and every step is there
(`printLines_eq`, `steps_eq`), and what is planned is loadable. `PicoLoader.Strict.NeverHalts` puts
together what that means for an image: planning it, printing the plan and carrying it out give what
they give without the checks, on every layout, every target and every sink. Then also the fault of a
block that leaves the address space, which a load looks for before each chunk, is never found.
-/

namespace PicoLoader.Strict

open Memory Load

/-! ### Printing a plan -/

/-- The text of a line. -/
def lineText : Line → Except Trap String
  | .wouldErase span => do
    let length ← subWord span.stop span.start
    return "Dry run: would erase flash " ++ Hex.number span.start.toNat ++ "-" ++
      Hex.number span.stop.toNat ++ s!" ({length.toNat} bytes).\n"
  | line => .ok line.text

/-- Gives lines to a sink, until one does not fit. -/
def printLines (sink : Sink) : List Line → Except Trap (Except Fault Unit × Sink)
  | [] => .ok (.ok (), sink)
  | line :: lines => do
    let text ← lineText line
    match sink.print text with
    | (.ok (), sink) => printLines sink lines
    | (.error fault, sink) => .ok (.error fault, sink)

/-- **Prints a plan.** -/
def print (plan : Plan) (layout : Layout) (allowFlash start : Bool) (sink : Sink) :
    Except Trap (Except Fault Unit × Sink) := do
  let (lines, problem?) := Report.lines plan layout allowFlash start
  match ← printLines sink lines, problem? with
  | (.ok (), sink), some problem => return (.error (.plan problem), sink)
  | printed, _ => return printed

/-! ### Carrying a plan out -/

/-- The writes of `bytes`, which begin `i` chunks into a block at `addr`. -/
def chunkSteps (addr : UInt32) (i : Nat) (bytes : List UInt8) : List (Except Trap Step) :=
  if bytes = [] then []
  else
    (do
      let offset ← mulSize i chunkSize
      let distance ← toWord offset
      let here ← addWord addr distance
      return .require (.write here (bytes.take chunkSize)) .ramWrite) ::
        chunkSteps addr (i + 1) (bytes.drop chunkSize)
termination_by bytes.length
decreasing_by
  rename_i hne
  have hlen : 0 < bytes.length := List.length_pos_iff.mpr hne
  rw [List.length_drop, chunkSize]
  omega

/-- The steps for a block for RAM. -/
def ramSteps (block : Block) : List (Except Trap Step) :=
  .ok (.note ⟨.debug, .load,
    s!"writing {block.size} bytes to " ++ Hex.number block.addr.toNat⟩) ::
      chunkSteps block.addr 0 block.bytes

/-- The steps that erase one span. -/
def eraseSteps (span : Span) : List (Except Trap Step) :=
  [.ok (.note ⟨.debug, .load,
      "erasing " ++ Hex.number span.start.toNat ++ "-" ++ Hex.number span.stop.toNat⟩),
    do
      let length ← subWord span.stop span.start
      return .require (.erase span.start length) .flashErase]

/-- The steps that prepare flash. -/
def flashSteps (plan : Plan) : List (Except Trap Step) :=
  if plan.writesFlash then
    .ok (.attempt .exitXip "Failed to exit XIP mode") :: plan.erase.flatMap eraseSteps
  else []

/-- The steps of a plan. -/
def steps (plan : Plan) (layout : Layout) (allowFlash start : Bool) : List (Except Trap Step) :=
  (.attempt .resetInterface "reset interface failed" :: plan.notes.map .say).map .ok ++
    flashSteps plan ++ plan.ram.flatMap ramSteps ++ (plan.pages.pages.map pageStep).map .ok ++
    (endSteps plan layout allowFlash start).map .ok

variable {σ : Type}

/-- Runs steps in order, up to the first that fails. -/
def run (target : Target σ) (state : σ) (sink : Sink) :
    List (Except Trap Step) → Except Trap (Except Fault Unit × σ × Sink)
  | [] => .ok (.ok (), state, sink)
  | step :: steps => do
    let step ← step
    match runStep target state sink step with
    | (.ok (), state, sink) => run target state sink steps
    | (.error fault, state, sink) => .ok (.error fault, state, sink)

/-- **Carries a plan out.** -/
def perform (target : Target σ) (plan : Plan) (layout : Layout) (allowFlash start : Bool)
    (state : σ) (sink : Sink) : Except Trap (Except Fault Unit × σ × Sink) :=
  run target state sink (steps plan layout allowFlash start)

/-! ### Lines and steps without a trap -/

variable {plan : Plan}

/-- The length of a span that does not end before it starts. -/
theorem subWord_eq_length {span : Span} (h : span.start ≤ span.stop) :
    subWord span.stop span.start = .ok span.length := subWord_eq h

/-- **Lines about spans that make sense are printed** as they are without the checks. -/
theorem printLines_eq {lines : List Line}
    (h : ∀ span, .wouldErase span ∈ lines → span.start ≤ span.stop) (sink : Sink) :
    printLines sink lines = .ok (sink.printLines lines) := by
  induction lines generalizing sink with
  | nil => rfl
  | cons line lines ih =>
    have htext : lineText line = .ok line.text := by
      cases line with
      | wouldErase span => rw [lineText, subWord_eq_length (h span List.mem_cons_self)]; rfl
      | _ => rfl
    rw [printLines, htext, ok_bind, Sink.printLines]
    rcases sink.print line.text with ⟨result, sink⟩
    cases result with
    | ok => exact ih (fun span hspan => h span (List.mem_cons_of_mem _ hspan)) sink
    | error fault => rfl

/-- The spans in the lines of a plan are those to erase. -/
theorem mem_erase_of_mem_lines {layout : Layout} {allowFlash start : Bool} {span : Span}
    (h : .wouldErase span ∈ (Report.lines plan layout allowFlash start).1) :
    span ∈ plan.erase := by
  have hwritten : .wouldErase span ∈ plan.notes ++ Report.flashLines plan ++
      Report.writeLines plan → span ∈ plan.erase := by
    simp only [Plan.notes, Report.flashLines, Report.writeLines]
    cases plan.mirrored <;> cases plan.skipped <;> cases plan.writesFlash <;> simp
  rw [Report.lines] at h
  split at h
  · split at h
    · exact hwritten (by simpa using h)
    · exact hwritten h
  · exact hwritten (by simpa using h)

/-- **Printing a plan that is loadable does not halt.** -/
theorem print_eq (h : plan.Loadable) (layout : Layout) (allowFlash start : Bool) (sink : Sink) :
    print plan layout allowFlash start sink =
      .ok (Report.print plan layout allowFlash start sink) := by
  have hspans : ∀ span, .wouldErase span ∈ (Report.lines plan layout allowFlash start).1 →
      span.start ≤ span.stop :=
    fun span hspan => h.start_le_stop span (mem_erase_of_mem_lines hspan)
  rw [print, Report.print]
  rcases hlines : Report.lines plan layout allowFlash start with ⟨lines, problem?⟩
  rw [hlines] at hspans
  simp only [printLines_eq hspans, ok_bind]
  rcases sink.printLines lines with ⟨result, sink⟩
  rcases result with fault | ⟨⟩ <;> cases problem? <;> rfl

/-- **Chunks of bytes that end inside the address space** are written as they are without the
checks. Behind the last chunk there need not be an address, and nothing is asked of it. -/
theorem chunkSteps_eq {addr : UInt32} {i : Nat} {bytes : List UInt8}
    (h : 0 < bytes.length → addr.toNat + i * chunkSize + bytes.length ≤ UInt32.size) :
    chunkSteps addr i bytes = (Load.chunkSteps addr (i * chunkSize) bytes).map .ok := by
  induction hn : bytes.length using Nat.strongRecOn generalizing i bytes with
  | ind n ih =>
    rw [chunkSteps, Load.chunkSteps]
    split
    case isTrue => rfl
    case isFalse hne =>
      have hlen : 0 < bytes.length := List.length_pos_iff.mpr hne
      have hlast := h hlen
      have hsum : addr.toNat + i * chunkSize < UInt32.size := by omega
      have hsize : i * chunkSize < UInt32.size := by omega
      have hword : (UInt32.ofNat (i * chunkSize)).toNat = i * chunkSize :=
        UInt32.toNat_ofNat_of_lt' hsize
      have hdrop : (bytes.drop chunkSize).length = bytes.length - chunkSize := List.length_drop
      have hpos : 0 < chunkSize := by decide
      have hrest : 0 < (bytes.drop chunkSize).length →
          addr.toNat + (i + 1) * chunkSize + (bytes.drop chunkSize).length ≤ UInt32.size := by
        rw [Nat.succ_mul]
        omega
      rw [if_pos hsum, List.map_cons, mulSize_eq hsize, ok_bind, toWord_eq hsize, ok_bind,
        addWord_eq (hword.symm ▸ hsum), ok_bind, pure_eq_ok, ih _ (by omega) hrest rfl,
        Nat.succ_mul]

theorem ramSteps_eq {block : Block} (h : block.stop ≤ UInt32.size) :
    ramSteps block = (Load.ramSteps block).map .ok := by
  have hfits : 0 < block.bytes.length →
      block.addr.toNat + 0 * chunkSize + block.bytes.length ≤ UInt32.size := by
    rw [Nat.zero_mul]
    exact fun _ => h
  rw [ramSteps, chunkSteps_eq hfits, Nat.zero_mul]
  rfl

theorem eraseSteps_eq {span : Span} (h : span.start ≤ span.stop) :
    eraseSteps span = (Load.eraseSteps span).map .ok := by
  rw [eraseSteps, subWord_eq_length h]
  rfl

/-- **No step of a plan that is loadable has a trap.** -/
theorem steps_eq (h : plan.Loadable) (layout : Layout) (allowFlash start : Bool) :
    steps plan layout allowFlash start = (Load.steps plan layout allowFlash start).map .ok := by
  have herase : plan.erase.flatMap eraseSteps =
      (plan.erase.flatMap Load.eraseSteps).map .ok := by
    rw [List.map_flatMap]
    exact List.flatMap_congr fun span hspan => eraseSteps_eq (h.start_le_stop span hspan)
  have hflash : flashSteps plan = (Load.flashSteps plan).map .ok := by
    rw [flashSteps, Load.flashSteps]
    split
    · rw [herase]
      rfl
    · rfl
  have hram : plan.ram.flatMap ramSteps = (plan.ram.flatMap Load.ramSteps).map .ok := by
    rw [List.map_flatMap]
    exact List.flatMap_congr fun block hblock =>
      ramSteps_eq (Nat.le_succ_of_le (h.stop_le block hblock))
  rw [steps, hflash, hram, Load.steps]
  simp only [List.map_append]

/-- Steps without a trap are run as they are without the checks. -/
theorem run_map_ok (target : Target σ) (state : σ) (sink : Sink) (steps : List Step) :
    run target state sink (steps.map .ok) = .ok (Load.run target state sink steps) := by
  induction steps generalizing state sink with
  | nil => rfl
  | cons step steps ih =>
    rw [List.map_cons, run, ok_bind, Load.run]
    rcases runStep target state sink step with ⟨result, state, sink⟩
    rcases result with fault | ⟨⟩
    · rfl
    · exact ih state sink

/-- **Carrying out a plan that is loadable does not halt.** -/
theorem perform_eq (h : plan.Loadable) (target : Target σ) (layout : Layout)
    (allowFlash start : Bool) (state : σ) (sink : Sink) :
    perform target plan layout allowFlash start state sink =
      .ok (Load.perform target plan layout allowFlash start state sink) := by
  rw [perform, steps_eq h, run_map_ok, Load.perform]

/-! ### The fault that is never found -/

/-- What a step fails with: the fault of a call, with its stage; a sink that is full; or what it is
told to stop with. -/
theorem runStep_error_cases {target : Target σ} {state : σ} {sink : Sink} {step : Step}
    {fault : Fault} (h : (runStep target state sink step).1 = .error fault) :
    (∃ stage addr cause, fault = .load stage addr cause) ∨ fault = Sink.full ∨
      step = .stop fault := by
  cases step with
  | attempt call warning =>
    simp only [runStep] at h
    split at h <;> cases h
  | require call stage =>
    simp only [runStep] at h
    split at h
    · cases h
    · exact Or.inl ⟨_, _, _, (Except.error.inj h).symm⟩
  | note entry => cases h
  | say line =>
    simp only [runStep, Sink.print] at h
    split at h
    · cases h
    · split at h
      · cases h
      · exact Or.inr (Or.inl (Except.error.inj h).symm)
  | stop fault' => exact Or.inr (Or.inr (congrArg Step.stop (Except.error.inj h)))

/-- **What a run fails with**: one of these, and the steps stop with no other fault. -/
theorem run_error_cases {target : Target σ} {state : σ} {sink : Sink} {steps : List Step}
    {fault : Fault} (h : (Load.run target state sink steps).1 = .error fault) :
    (∃ stage addr cause, fault = .load stage addr cause) ∨ fault = Sink.full ∨
      halt? steps = some fault := by
  induction steps generalizing state sink with
  | nil => cases h
  | cons step steps ih =>
    have hstep := @runStep_error_cases σ target state sink step
    rw [Load.run] at h
    rcases hrun : runStep target state sink step with ⟨result, state', sink'⟩
    rw [hrun] at h hstep
    rcases result with fault' | ⟨⟩
    · obtain rfl := Except.error.inj h
      exact (hstep rfl).imp_right (Or.imp_right fun hstop => by rw [hstop]; rfl)
    · refine (ih h).imp_right (Or.imp_right fun hhalt => ?_)
      cases step with
      | stop fault' => cases congrArg Prod.fst hrun
      | _ => exact hhalt

/-- An image is not refused a start because it leaves the address space. -/
theorem startAddress_ne_pastAddressSpace (plan : Plan) (layout : Layout) (allowFlash : Bool)
    (addr : UInt32) : plan.startAddress layout allowFlash ≠ .error (.pastAddressSpace addr) := by
  intro h
  rw [Plan.startAddress] at h
  split at h
  · cases h
  split at h
  · cases h
  split at h
  · split at h <;> cases h
  · split at h <;> cases h

/-- **A load of a plan that is loadable** never finds that a block leaves the address space. -/
theorem perform_ne_pastAddressSpace (h : plan.Loadable) (target : Target σ) (layout : Layout)
    (allowFlash start : Bool) (state : σ) (sink : Sink) (addr : UInt32) :
    (Load.perform target plan layout allowFlash start state sink).1 ≠
      .error (.plan (.pastAddressSpace addr)) := by
  intro hfault
  have hbody : halt? (bodySteps plan) = none :=
    halt?_bodySteps fun block hblock => Nat.le_succ_of_le (h.stop_le block hblock)
  rcases run_error_cases hfault with ⟨stage, place, cause, heq⟩ | heq | hhalt
  · cases heq
  · cases heq
  · rw [Load.steps_eq, halt?_append, hbody, Option.none_or, endSteps] at hhalt
    split at hhalt
    · split at hhalt
      · cases hhalt
      case h_2 problem hproblem =>
        obtain rfl := Fault.plan.inj (Option.some.inj hhalt)
        exact startAddress_ne_pastAddressSpace plan layout allowFlash addr hproblem
    · cases hhalt

/-! ### The statement -/

/-- **What is planned is planned, printed and carried out without a trap**, with the result that it
has without the checks, and never found to leave the address space. -/
structure NeverHalts (image : Elf.Image) (layout : Layout) (allowFlash : Bool) : Prop where
  build_eq : build image layout allowFlash = .ok (Plan.build image layout allowFlash)
  print_eq : ∀ plan, Plan.build image layout allowFlash = .ok plan →
    ∀ (layout : Layout) (allowFlash start : Bool) (sink : Sink),
      print plan layout allowFlash start sink =
        .ok (Report.print plan layout allowFlash start sink)
  perform_eq : ∀ plan, Plan.build image layout allowFlash = .ok plan →
    ∀ {σ : Type} (target : Target σ) (layout : Layout) (allowFlash start : Bool) (state : σ)
      (sink : Sink), perform target plan layout allowFlash start state sink =
        .ok (Load.perform target plan layout allowFlash start state sink)
  ne_pastAddressSpace : ∀ plan, Plan.build image layout allowFlash = .ok plan →
    ∀ {σ : Type} (target : Target σ) (layout : Layout) (allowFlash start : Bool) (state : σ)
      (sink : Sink) (addr : UInt32),
      (Load.perform target plan layout allowFlash start state sink).1 ≠
        .error (.plan (.pastAddressSpace addr))

/-- **No arithmetic goes wrong**, whatever the image, the layout and the flag. -/
theorem neverHalts (image : Elf.Image) (layout : Layout) (allowFlash : Bool) :
    NeverHalts image layout allowFlash := by
  refine ⟨build_eq image layout allowFlash, fun plan h => ?_, fun plan h => ?_, fun plan h => ?_⟩
  · exact print_eq (Plan.loadable_of_build h)
  · exact perform_eq (Plan.loadable_of_build h)
  · exact perform_ne_pastAddressSpace (Plan.loadable_of_build h)

end PicoLoader.Strict
