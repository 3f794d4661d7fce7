import PicoLoader.Proofs.Load.Actions
import PicoLoader.Proofs.Memory.Merging

/-!
# What calls leave in the memory of a device

A device is a memory of bytes, each of which is erased flash or not. Erasing sets a byte to `0xFF`
and makes it erased flash. A write stores its bytes, but in erased flash it can only clear bits:
what it leaves there is the *conjunction* of the old byte and the new one. So a page that is written
twice, or before its sector is erased, does not come out as it should.

`PicoLoader.Load.Device.play` plays calls on a device. What is left of each kind is given by one
address:

| calls | where | byte left | theorem |
|---|---|---|---|
| erasing spans | in one of them | `0xFF` | `play_erases_of_covers` |
| erasing spans | elsewhere | the old one | `play_erases_of_not_covers` |
| writing blocks | not in erased flash | that of the last block there | `cell_play_writes` |
| writing blocks | in erased flash, `0xFF` so far | the same | `cell_play_writes_erased` |

Blocks for RAM may overlap, so the third case asks for nothing. The last one asks for blocks that
are apart at the address, as pages are.
-/

namespace PicoLoader.Load

open Memory

/-- A memory, and which of its bytes are erased flash. -/
structure Device where
  cell : Nat → UInt8
  erased : Nat → Bool

namespace Device

/-- A device with a given memory, of which nothing is erased yet. -/
def withMemory (memory : Nat → UInt8) : Device := ⟨memory, fun _ => false⟩

/-- Erases `size` bytes of flash. -/
def erase (addr size : UInt32) (device : Device) : Device where
  cell x := if addr.toNat ≤ x ∧ x < addr.toNat + size.toNat then 0xFF else device.cell x
  erased x := decide (addr.toNat ≤ x ∧ x < addr.toNat + size.toNat) || device.erased x

/-- Stores a block. In erased flash, bits can only be cleared. -/
def store (block : Block) (device : Device) : Device where
  cell x :=
    match block.byte? x with
    | none => device.cell x
    | some byte => if device.erased x then device.cell x &&& byte else byte
  erased := device.erased

/-- What a call does to a device. -/
def perform (device : Device) : Call → Device
  | .resetInterface => device
  | .exitXip => device
  | .erase addr size => device.erase addr size
  | .write addr bytes => device.store ⟨addr, bytes⟩
  | .exec _ => device

/-- Plays calls on a device, one after the other. -/
def play (calls : List Call) (device : Device) : Device := calls.foldl perform device

theorem erased_erase (addr size : UInt32) (device : Device) (x : Nat) :
    (device.erase addr size).erased x =
      (decide (addr.toNat ≤ x ∧ x < addr.toNat + size.toNat) || device.erased x) := rfl

theorem cell_store (block : Block) (device : Device) (x : Nat) : (device.store block).cell x =
    match block.byte? x with
    | none => device.cell x
    | some byte => if device.erased x then device.cell x &&& byte else byte := rfl

theorem play_append (first second : List Call) (device : Device) :
    play (first ++ second) device = play second (play first device) := List.foldl_append

theorem play_cons (call : Call) (calls : List Call) (device : Device) :
    play (call :: calls) device = play calls (device.perform call) := rfl

/-! ### Erasing -/

section Erasing

variable {spans : List Span} (device : Device) {x : Nat}

/-- Erasing a span that is not inverted erases the addresses that it covers. -/
theorem covers_iff_of_le {span : Span} (hle : span.start ≤ span.stop) : span.Covers x ↔
    span.start.toNat ≤ x ∧ x < span.start.toNat + span.length.toNat := by
  have hle := UInt32.le_iff_toNat_le.mp hle
  rw [Span.Covers, Span.toNat_length hle]
  omega

/-- An address in none of the spans keeps its byte. -/
theorem play_erases_of_not_covers (hle : ∀ span ∈ spans, span.start ≤ span.stop)
    (h : ∀ span ∈ spans, ¬span.Covers x) :
    (device.play (spans.map fun span => .erase span.start span.length)).cell x = device.cell x ∧
    (device.play (spans.map fun span => .erase span.start span.length)).erased x =
      device.erased x := by
  induction spans generalizing device with
  | nil => exact ⟨rfl, rfl⟩
  | cons span spans ih =>
    have hfirst : ¬span.Covers x := h span List.mem_cons_self
    rw [covers_iff_of_le (hle span List.mem_cons_self)] at hfirst
    obtain ⟨hcell, herased⟩ := ih (device.erase span.start span.length)
      (fun s hs => hle s (List.mem_cons_of_mem _ hs)) fun s hs => h s (List.mem_cons_of_mem _ hs)
    rw [List.map_cons, play_cons]
    refine ⟨hcell.trans (if_neg hfirst), herased.trans ?_⟩
    rw [erased_erase, decide_eq_false hfirst, Bool.false_or]

/-- **An address in one of the spans is erased.** -/
theorem play_erases_of_covers (hle : ∀ span ∈ spans, span.start ≤ span.stop)
    (h : ∃ span ∈ spans, span.Covers x) :
    (device.play (spans.map fun span => .erase span.start span.length)).cell x = 0xFF ∧
    (device.play (spans.map fun span => .erase span.start span.length)).erased x = true := by
  induction spans generalizing device with
  | nil =>
    obtain ⟨span, hspan, -⟩ := h
    cases hspan
  | cons span spans ih =>
    have hrest := fun s hs => hle s (List.mem_cons_of_mem _ hs)
    rw [List.map_cons, play_cons]
    by_cases hlater : ∃ s ∈ spans, s.Covers x
    · exact ih _ hrest hlater
    · have hnone : ∀ s ∈ spans, ¬s.Covers x := fun s hs hc => hlater ⟨s, hs, hc⟩
      obtain ⟨s, hs, hc⟩ := h
      obtain rfl : s = span := (List.mem_cons.mp hs).resolve_right fun hin => hnone s hin hc
      rw [covers_iff_of_le (hle s List.mem_cons_self)] at hc
      obtain ⟨hcell, herased⟩ :=
        play_erases_of_not_covers (device.erase s.start s.length) hrest hnone
      refine ⟨hcell.trans (if_pos hc), herased.trans ?_⟩
      rw [erased_erase, decide_eq_true hc, Bool.true_or]

end Erasing

/-! ### Writing -/

section Writing

variable {blocks : List Block} {x : Nat}

/-- Writing erases nothing. -/
theorem erased_play_writes (blocks : List Block) (device : Device) :
    (device.play (blocks.map writeOf)).erased = device.erased := by
  induction blocks generalizing device with
  | nil => rfl
  | cons block blocks ih => exact ih (device.store block)

theorem cell_store_of_not_covers {block : Block} (device : Device) (h : ¬block.Covers x) :
    (device.store block).cell x = device.cell x := by
  rw [cell_store, Block.byte?_eq_none_iff.mpr h]

/-- An address that no block covers keeps its byte. -/
theorem cell_play_writes_of_not_covers (device : Device) (h : ∀ block ∈ blocks, ¬block.Covers x) :
    (device.play (blocks.map writeOf)).cell x = device.cell x := by
  induction blocks generalizing device with
  | nil => rfl
  | cons block blocks ih =>
    rw [List.map_cons, play_cons]
    exact (ih _ fun b hb => h b (List.mem_cons_of_mem _ hb)).trans
      (cell_store_of_not_covers device (h block List.mem_cons_self))

/-- **Outside erased flash the last block decides.** -/
theorem cell_play_writes (device : Device) (h : device.erased x = false) :
    (device.play (blocks.map writeOf)).cell x = (lastByte? blocks x).getD (device.cell x) := by
  induction blocks generalizing device with
  | nil => rfl
  | cons block blocks ih =>
    have hstore : (device.store block).cell x = (block.byte? x).getD (device.cell x) := by
      rw [cell_store, h]
      cases block.byte? x with
      | none => rfl
      | some byte => rfl
    rw [List.map_cons, play_cons, lastByte?_cons, Option.getD_or, ← hstore]
    exact ih (device.store block) h

/-- **In erased flash a block comes out as it is** if no other block covers the address: the byte is
`0xFF` before, and the conjunction with it changes nothing. -/
theorem cell_play_writes_erased (device : Device) (h : device.erased x = true)
    (hcell : device.cell x = 0xFF)
    (hapart : blocks.Pairwise fun a b => ¬(a.Covers x ∧ b.Covers x)) :
    (device.play (blocks.map writeOf)).cell x = (lastByte? blocks x).getD 0xFF := by
  induction blocks generalizing device with
  | nil => exact hcell
  | cons block blocks ih =>
    obtain ⟨hfirst, hrest⟩ := List.pairwise_cons.mp hapart
    rw [List.map_cons, play_cons, lastByte?_cons]
    by_cases hcovers : block.Covers x
    · -- This block finds `0xFF`, and no later one comes to the address.
      have hnone : ∀ b ∈ blocks, ¬b.Covers x := fun b hb hc => hfirst b hb ⟨hcovers, hc⟩
      obtain ⟨byte, hbyte⟩ := Option.isSome_iff_exists.mp (Block.isSome_byte?_iff.mpr hcovers)
      have hstore : (device.store block).cell x = byte := by
        rw [cell_store, hbyte, hcell, h]
        exact UInt8.neg_one_and
      rw [lastByte?_eq_none_iff.mpr hnone, Option.none_or, hbyte, Option.getD_some, ← hstore]
      exact cell_play_writes_of_not_covers _ hnone
    · rw [Block.byte?_eq_none_iff.mpr hcovers, Option.or_none]
      exact ih (device.store block) h
        ((cell_store_of_not_covers device hcovers).trans hcell) hrest

end Writing

end Device

/-- The memory after a load on which nothing fails, and which does not start the image. -/
def memoryAfter (plan : Plan) (layout : Layout) (allowFlash : Bool) (memory : Nat → UInt8) :
    Nat → UInt8 :=
  ((Device.withMemory memory).play (ideal plan layout allowFlash false).calls).cell

end PicoLoader.Load
