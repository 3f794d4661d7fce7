import Mathlib.Order.Bounds.Basic
import PicoLoader.Proofs.Memory.Rounding
import PicoLoader.Proofs.Strict.Arithmetic

/-!
# Rounding gives the nearest multiples

`PicoLoader.Memory.toNat_alignDown` and `PicoLoader.Memory.toNat_alignUp` say which numbers the two
masks give, by a division. This file says what these numbers are for: of the multiples of a power of
two, rounding down gives the greatest one that is not above the value (`isGreatest_alignDown`), and
rounding up the least one that is not below it (`isLeast_alignUp`).

Whatever else is said of rounding follows from these two alone, with neither a mask nor a division.
A multiple is the greatest of the multiples up to itself, so it stays where it is, and rounding
twice is rounding once. A greater value has more multiples below it and fewer above, so order is
kept. And a value that is no multiple lies between two multiples that are neighbours.

## Where rounding up ends

Behind the last multiple that is a word there is nothing to round up to. The values there are those
for which `value + align - 1` is no word either (`roundable_iff`), so this sum tells exactly when
rounding up makes sense. It is worked out from the left, and `value + align` is too large already
for *one* of the values that can be rounded up, the last multiple itself. Words wrap around and come
back with the right result; arithmetic that halts at a sum that is no word halts there
(`checked_alignUp`).
-/

namespace PicoLoader.Memory

variable {value other align : UInt32} {k : Nat}

/-- The multiples that are not above a value. -/
def multiplesUpTo (value align : UInt32) : Set Nat := {m | align.toNat ∣ m ∧ m ≤ value.toNat}

/-- The multiples that are not below a value. -/
def multiplesFrom (value align : UInt32) : Set Nat := {m | align.toNat ∣ m ∧ value.toNat ≤ m}

/-- Whether the sum that rounding up takes down to a multiple is a word. -/
def Roundable (value align : UInt32) : Prop := value.toNat + align.toNat - 1 < UInt32.size

instance (value align : UInt32) : Decidable (Roundable value align) :=
  inferInstanceAs (Decidable (_ < _))

theorem pos_of_eq_two_pow (h : align.toNat = 2 ^ k) : 0 < align.toNat :=
  h ▸ Nat.two_pow_pos k

/-- A power of two that is a word divides the number of all words. -/
theorem dvd_size_of_eq_two_pow (h : align.toNat = 2 ^ k) : align.toNat ∣ UInt32.size := by
  have hlt : 2 ^ k < 2 ^ 32 := h ▸ align.toNat_lt
  exact h ▸ Nat.pow_dvd_pow 2 (Nat.le_of_lt ((Nat.pow_lt_pow_iff_right (by decide)).mp hlt))

/-- Multiples that differ are at least as far apart as neighbours. -/
theorem add_le_of_dvd_of_lt {m n step : Nat} (hm : step ∣ m) (hn : step ∣ n) (hlt : m < n) :
    m + step ≤ n := by
  have hle := Nat.le_of_dvd (Nat.sub_pos_of_lt hlt) (Nat.dvd_sub hn hm)
  omega

/-! ### The two multiples -/

/-- **Rounding down gives the greatest multiple that is not above the value.** -/
theorem isGreatest_alignDown (h : align.toNat = 2 ^ k) (value : UInt32) :
    IsGreatest (multiplesUpTo value align) (alignDown value align).toNat := by
  have hpos := pos_of_eq_two_pow h
  rw [toNat_alignDown h]
  refine ⟨⟨Nat.dvd_mul_right _ _, Nat.mul_div_le _ _⟩, ?_⟩
  rintro _ ⟨⟨n, rfl⟩, hle⟩
  rw [Nat.mul_comm] at hle
  exact Nat.mul_le_mul_left _ ((Nat.le_div_iff_mul_le hpos).mpr hle)

/-- **Rounding up gives the least multiple that is not below the value.** -/
theorem isLeast_alignUp (h : align.toNat = 2 ^ k) (hround : Roundable value align) :
    IsLeast (multiplesFrom value align) (alignUp value align).toNat := by
  have hpos := pos_of_eq_two_pow h
  have hsum : value.toNat + (align.toNat - 1) < UInt32.size := by
    rw [Roundable] at hround
    omega
  rw [toNat_alignUp h hsum]
  refine ⟨⟨Nat.dvd_mul_right _ _, ?_⟩, ?_⟩
  · have hnext := Nat.lt_mul_div_succ (value.toNat + (align.toNat - 1)) hpos
    rw [Nat.mul_succ] at hnext
    omega
  · rintro _ ⟨⟨n, rfl⟩, hle⟩
    refine Nat.mul_le_mul_left _ ((Nat.div_le_iff_le_mul_add_pred hpos).mpr ?_)
    omega

theorem dvd_alignDown (h : align.toNat = 2 ^ k) (value : UInt32) :
    align.toNat ∣ (alignDown value align).toNat := (isGreatest_alignDown h value).1.1

theorem dvd_alignUp (h : align.toNat = 2 ^ k) (hround : Roundable value align) :
    align.toNat ∣ (alignUp value align).toNat := (isLeast_alignUp h hround).1.1

theorem le_alignUp (h : align.toNat = 2 ^ k) (hround : Roundable value align) :
    value ≤ alignUp value align := UInt32.le_iff_toNat_le.mpr (isLeast_alignUp h hround).1.2

/-! ### Where rounding up ends -/

/-- **A value can be rounded up** if and only if a multiple that is not below it is a word. -/
theorem roundable_iff (h : align.toNat = 2 ^ k) :
    Roundable value align ↔ ∃ m ∈ multiplesFrom value align, m < UInt32.size := by
  constructor
  · exact fun hround => ⟨_, (isLeast_alignUp h hround).1, UInt32.toNat_lt _⟩
  · rintro ⟨m, ⟨hdvd, hle⟩, hlt⟩
    -- The number of all words is a multiple as well, so the next multiple is no greater.
    have hnext := add_le_of_dvd_of_lt hdvd (dvd_size_of_eq_two_pow h) hlt
    have hpos := pos_of_eq_two_pow h
    rw [Roundable]
    omega

theorem Roundable.of_le (h : align.toNat = 2 ^ k) (hle : value ≤ other)
    (hround : Roundable other align) : Roundable value align := by
  rw [UInt32.le_iff_toNat_le] at hle
  rw [Roundable] at hround ⊢
  omega

/-- What comes out of rounding up can be rounded up once more. -/
theorem roundable_alignUp (h : align.toNat = 2 ^ k) (hround : Roundable value align) :
    Roundable (alignUp value align) align :=
  (roundable_iff h).mpr ⟨_, ⟨dvd_alignUp h hround, Nat.le_refl _⟩, UInt32.toNat_lt _⟩

/-- **Arithmetic that halts rounds up the same values but one**, the last multiple there is. -/
theorem checked_alignUp (h : align.toNat = 2 ^ k) (hround : Roundable value align) :
    Strict.alignUp value align =
      if value.toNat + align.toNat = UInt32.size then .error .overflow
      else .ok (alignUp value align) := by
  split
  case isTrue heq =>
    rw [Strict.alignUp, Strict.addWord, if_neg (Nat.not_lt.mpr (Nat.le_of_eq heq.symm))]
    rfl
  case isFalse hne =>
    have hpos := pos_of_eq_two_pow h
    rw [Roundable] at hround
    exact Strict.alignUp_eq (UInt32.le_iff_toNat_le.mpr hpos) (by omega)

/-! ### Multiples stay -/

theorem alignDown_eq_self_iff (h : align.toNat = 2 ^ k) :
    alignDown value align = value ↔ align.toNat ∣ value.toNat := by
  constructor
  · intro heq
    exact heq ▸ dvd_alignDown h value
  · intro hdvd
    have hself : IsGreatest (multiplesUpTo value align) value.toNat :=
      ⟨⟨hdvd, Nat.le_refl _⟩, fun _ hm => hm.2⟩
    exact UInt32.toNat_inj.mp ((isGreatest_alignDown h value).unique hself)

theorem alignUp_eq_self_iff (h : align.toNat = 2 ^ k) (hround : Roundable value align) :
    alignUp value align = value ↔ align.toNat ∣ value.toNat := by
  constructor
  · intro heq
    exact heq ▸ dvd_alignUp h hround
  · intro hdvd
    have hself : IsLeast (multiplesFrom value align) value.toNat :=
      ⟨⟨hdvd, Nat.le_refl _⟩, fun _ hm => hm.2⟩
    exact UInt32.toNat_inj.mp ((isLeast_alignUp h hround).unique hself)

/-! ### Neighbours -/

/-- **A value that is no multiple lies between neighbours**: the multiple above it is the one behind
the multiple below it. -/
theorem toNat_alignUp_of_not_dvd (h : align.toNat = 2 ^ k) (hround : Roundable value align)
    (hdvd : ¬align.toNat ∣ value.toNat) :
    (alignUp value align).toNat = (alignDown value align).toNat + align.toNat := by
  obtain ⟨⟨hdown, hbelow⟩, hgreatest⟩ := isGreatest_alignDown h value
  obtain ⟨⟨hup, habove⟩, hleast⟩ := isLeast_alignUp h hround
  have hnext : align.toNat ∣ (alignDown value align).toNat + align.toNat :=
    Nat.dvd_add hdown (Nat.dvd_refl _)
  refine Nat.le_antisymm (hleast ⟨hnext, ?_⟩) (add_le_of_dvd_of_lt hdown hup ?_)
  · -- If the next multiple were below the value, it would be a greater one than the greatest.
    by_contra hlt
    have hle := hgreatest ⟨hnext, Nat.le_of_not_le hlt⟩
    have hpos := pos_of_eq_two_pow h
    omega
  · -- The value is neither of the two multiples that it lies between.
    have hne : (alignDown value align).toNat ≠ value.toNat := fun heq => hdvd (heq ▸ hdown)
    omega

theorem toNat_alignUp_sub_alignDown (h : align.toNat = 2 ^ k) (hround : Roundable value align) :
    (alignUp value align).toNat - (alignDown value align).toNat =
      if align.toNat ∣ value.toNat then 0 else align.toNat := by
  split
  case isTrue hdvd =>
    rw [(alignUp_eq_self_iff h hround).mpr hdvd, (alignDown_eq_self_iff h).mpr hdvd, Nat.sub_self]
  case isFalse hdvd =>
    rw [toNat_alignUp_of_not_dvd h hround hdvd, Nat.add_sub_cancel_left]

/-! ### Order -/

theorem alignDown_mono (h : align.toNat = 2 ^ k) (hle : value ≤ other) :
    alignDown value align ≤ alignDown other align := by
  rw [UInt32.le_iff_toNat_le] at hle ⊢
  exact (isGreatest_alignDown h value).mono (isGreatest_alignDown h other)
    fun _ hm => ⟨hm.1, Nat.le_trans hm.2 hle⟩

theorem alignUp_mono (h : align.toNat = 2 ^ k) (hle : value ≤ other)
    (hround : Roundable other align) : alignUp value align ≤ alignUp other align := by
  have hround' := hround.of_le h hle
  rw [UInt32.le_iff_toNat_le] at hle ⊢
  exact (isLeast_alignUp h hround).mono (isLeast_alignUp h hround')
    fun _ hm => ⟨hm.1, Nat.le_trans hle hm.2⟩

/-! ### The statement -/

/-- **Rounding to the multiples of a number.** Sums of words wrap here, as they do in a release
build. A build with overflow checks halts where `value + align` is no word; of the values that can
be rounded up this is one, the last multiple, and `checked_alignUp` says so. -/
structure RoundsToMultiples (align : UInt32) : Prop where
  /-- Rounding down gives the greatest multiple that is not above the value. -/
  isGreatest_alignDown : ∀ value,
    IsGreatest (multiplesUpTo value align) (alignDown value align).toNat
  /-- Rounding up gives the least multiple that is not below the value. -/
  isLeast_alignUp : ∀ value, Roundable value align →
    IsLeast (multiplesFrom value align) (alignUp value align).toNat
  /-- The value lies between the two. -/
  alignDown_le : ∀ value, alignDown value align ≤ value
  le_alignUp : ∀ value, Roundable value align → value ≤ alignUp value align
  /-- They are the same if the value is a multiple, and neighbours if it is not. -/
  difference : ∀ value, Roundable value align →
    (alignUp value align).toNat - (alignDown value align).toNat =
      if align.toNat ∣ value.toNat then 0 else align.toNat
  /-- Rounding once more changes nothing. -/
  alignDown_alignDown : ∀ value, alignDown (alignDown value align) align = alignDown value align
  alignUp_alignUp : ∀ value, Roundable value align → Roundable (alignUp value align) align ∧
    alignUp (alignUp value align) align = alignUp value align
  /-- The order of values is kept. -/
  alignDown_mono : ∀ value other, value ≤ other → alignDown value align ≤ alignDown other align
  alignUp_mono : ∀ value other, value ≤ other → Roundable other align →
    alignUp value align ≤ alignUp other align
  /-- A value can be rounded up if and only if a multiple that is not below it is a word. -/
  roundable_iff : ∀ value,
    Roundable value align ↔ ∃ m ∈ multiplesFrom value align, m < UInt32.size
  /-- Arithmetic that halts rounds up the same values, but for the last multiple there is. -/
  checked_alignUp : ∀ value, Roundable value align → Strict.alignUp value align =
    if value.toNat + align.toNat = UInt32.size then .error .overflow
    else .ok (alignUp value align)

/-- **Masks round to the multiples of every power of two.** -/
theorem roundsToMultiples (h : align.toNat.isPowerOfTwo) : RoundsToMultiples align := by
  obtain ⟨k, h⟩ := h
  refine ⟨isGreatest_alignDown h, fun _ => isLeast_alignUp h, fun value => alignDown_le value align,
    fun _ => le_alignUp h, fun _ => toNat_alignUp_sub_alignDown h, ?_, ?_,
    fun _ _ => alignDown_mono h, fun _ _ => alignUp_mono h, fun _ => roundable_iff h,
    fun _ => checked_alignUp h⟩
  · exact fun value => (alignDown_eq_self_iff h).mpr (dvd_alignDown h value)
  · intro value hround
    have hagain := roundable_alignUp h hround
    exact ⟨hagain, (alignUp_eq_self_iff h hagain).mpr (dvd_alignUp h hround)⟩

/-- The last address before the last sector of all is rounded up to that sector, and the first
address of it stays. -/
theorem roundsToMultiples_lastSector :
    sectorSize.toNat.isPowerOfTwo ∧
      Roundable 0xFFFFEFFF sectorSize ∧ alignUp 0xFFFFEFFF sectorSize = 0xFFFFF000 ∧
      IsLeast (multiplesFrom 0xFFFFEFFF sectorSize) 0xFFFFF000 ∧
      IsGreatest (multiplesUpTo 0xFFFFEFFF sectorSize) 0xFFFFE000 ∧
      Roundable 0xFFFFF000 sectorSize ∧ alignUp 0xFFFFF000 sectorSize = 0xFFFFF000 ∧
      ¬Roundable 0xFFFFF001 sectorSize := by
  have hpower : sectorSize.toNat.isPowerOfTwo := ⟨12, rfl⟩
  have hrounds := roundsToMultiples hpower
  have hbefore : Roundable 0xFFFFEFFF sectorSize := by decide
  have hagain := hrounds.alignUp_alignUp 0xFFFFEFFF hbefore
  exact ⟨hpower, hbefore, rfl, hrounds.isLeast_alignUp 0xFFFFEFFF hbefore,
    hrounds.isGreatest_alignDown 0xFFFFEFFF, hagain.1, hagain.2, by decide⟩

end PicoLoader.Memory
