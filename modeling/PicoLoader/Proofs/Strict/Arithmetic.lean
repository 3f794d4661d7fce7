import PicoLoader.Memory.PageMap

/-!
# Arithmetic that halts

A sum of words wraps around, a difference of numbers ends at zero, and a slice that reaches behind
the end of a list is what there is of it. So the definitions of this library have a result also
where a machine that checks its arithmetic would halt. The operations here are the same, but for
that: where something goes wrong they give a `PicoLoader.Strict.Trap` instead of a result.

A definition is written down once more with these operations, in the namespace `PicoLoader.Strict`.
If it has the result of the first one, then no sum, difference or slice in it ever goes wrong.

| operation | trap | when |
|---|---|---|
| `addWord` | `overflow` | the sum is not a word |
| `subWord`, `subSize` | `underflow` | the difference is below zero |
| `addSize`, `mulSize` | `overflow` | the result is not a word |
| `toWord` | `truncated` | the number is not a word |
| `slice`, `copyInto` | `outside` | an index lies outside the list |
| `copyInto` | `unequal` | the lengths differ |

The sizes of lists are held to 32 bits as well, which is the least that a machine may have for them.
A loop that would go round for ever has a trap too, `stuck`: it is for the loop to check that each
turn gets it further.
-/

namespace PicoLoader.Strict

open Memory

/-- What goes wrong. -/
inductive Trap where
  | overflow
  | underflow
  | truncated
  | outside
  | unequal
  | stuck
deriving DecidableEq, Repr

/-! ### Results -/

section Bind

variable {α β : Type}

@[simp] theorem ok_bind (a : α) (f : α → Except Trap β) : (Except.ok a >>= f) = f a := rfl

@[simp] theorem pure_eq_ok (a : α) : (pure a : Except Trap α) = .ok a := rfl

end Bind

/-! ### Words -/

/-- The sum of two words. -/
def addWord (a b : UInt32) : Except Trap UInt32 :=
  if a.toNat + b.toNat < UInt32.size then .ok (a + b) else .error .overflow

/-- The difference of two words. -/
def subWord (a b : UInt32) : Except Trap UInt32 :=
  if b ≤ a then .ok (a - b) else .error .underflow

/-- A number as a word. -/
def toWord (n : Nat) : Except Trap UInt32 :=
  if n < UInt32.size then .ok (UInt32.ofNat n) else .error .truncated

theorem addWord_eq {a b : UInt32} (h : a.toNat + b.toNat < UInt32.size) :
    addWord a b = .ok (a + b) := if_pos h

theorem subWord_eq {a b : UInt32} (h : b ≤ a) : subWord a b = .ok (a - b) := if_pos h

theorem toWord_eq {n : Nat} (h : n < UInt32.size) : toWord n = .ok (UInt32.ofNat n) := if_pos h

/-! ### Sizes -/

/-- The sum of two sizes. -/
def addSize (m n : Nat) : Except Trap Nat :=
  if m + n < UInt32.size then .ok (m + n) else .error .overflow

/-- The difference of two sizes. -/
def subSize (m n : Nat) : Except Trap Nat :=
  if n ≤ m then .ok (m - n) else .error .underflow

/-- The product of two sizes. -/
def mulSize (m n : Nat) : Except Trap Nat :=
  if m * n < UInt32.size then .ok (m * n) else .error .overflow

theorem addSize_eq {m n : Nat} (h : m + n < UInt32.size) : addSize m n = .ok (m + n) := if_pos h

theorem subSize_eq {m n : Nat} (h : n ≤ m) : subSize m n = .ok (m - n) := if_pos h

theorem mulSize_eq {m n : Nat} (h : m * n < UInt32.size) : mulSize m n = .ok (m * n) := if_pos h

/-! ### Lists of bytes -/

/-- The bytes from `start` up to but not including `stop`. -/
def slice (bytes : List UInt8) (start stop : Nat) : Except Trap (List UInt8) :=
  if start ≤ stop ∧ stop ≤ bytes.length then .ok ((bytes.drop start).take (stop - start))
  else .error .outside

/-- Overwrites the bytes of `page` from `start` up to but not including `stop` with `bytes`. -/
def copyInto (page : List UInt8) (start stop : Nat) (bytes : List UInt8) :
    Except Trap (List UInt8) :=
  if start ≤ stop ∧ stop ≤ page.length then
    if bytes.length = stop - start then .ok (overlay start bytes page) else .error .unequal
  else .error .outside

theorem slice_eq {bytes : List UInt8} {start n : Nat} (h : start + n ≤ bytes.length) :
    slice bytes start (start + n) = .ok ((bytes.drop start).take n) := by
  rw [slice, if_pos ⟨Nat.le_add_right _ _, h⟩, Nat.add_sub_cancel_left]

theorem copyInto_eq {page bytes : List UInt8} {start n : Nat} (h : start + n ≤ page.length)
    (hlength : bytes.length = n) :
    copyInto page start (start + n) bytes = .ok (overlay start bytes page) := by
  rw [copyInto, if_pos ⟨Nat.le_add_right _ _, h⟩, Nat.add_sub_cancel_left, if_pos hlength]

/-! ### Rounding -/

/-- Rounds down, by the mask of `align - 1`. -/
def alignDown (value align : UInt32) : Except Trap UInt32 := do
  let low ← subWord align 1
  return value &&& ~~~low

/-- Rounds up: first `align` is added, and then one taken away. -/
def alignUp (value align : UInt32) : Except Trap UInt32 := do
  let past ← addWord value align
  let last ← subWord past 1
  let low ← subWord align 1
  return last &&& ~~~low

variable {value align : UInt32}

theorem alignDown_eq (h : 1 ≤ align) :
    alignDown value align = .ok (Memory.alignDown value align) := by
  rw [alignDown, subWord_eq h, ok_bind, pure_eq_ok, Memory.alignDown]

/-- **Rounding up does not halt** if already the sum with `align` is a word. -/
theorem alignUp_eq (h : 1 ≤ align) (hfits : value.toNat + align.toNat < UInt32.size) :
    alignUp value align = .ok (Memory.alignUp value align) := by
  have hpast : 1 ≤ value + align := by
    rw [UInt32.le_iff_toNat_le] at h ⊢
    rw [UInt32.toNat_add, Nat.mod_eq_of_lt hfits]
    exact Nat.le_trans h (Nat.le_add_left _ _)
  rw [alignUp, addWord_eq hfits, ok_bind, subWord_eq hpast, ok_bind, subWord_eq h, ok_bind,
    pure_eq_ok, Memory.alignUp]

end PicoLoader.Strict
