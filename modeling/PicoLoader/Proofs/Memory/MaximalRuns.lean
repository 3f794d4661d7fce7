import Mathlib.Data.List.Sort
import PicoLoader.Proofs.Memory.Merging

/-!
# Merged spans are the maximal runs of addresses

`PicoLoader.Memory.Span.merge` takes spans in any order, with overlaps, duplicates and splits. This
file says that none of this can be seen in the result: it is determined by the *set* of addresses
that the spans cover.

What determines it are the maximal runs of that set (`PicoLoader.Memory.MaximalRun`), the stretches
that cannot be made longer at either end. Two maximal runs of one set that share an address are the
same run (`PicoLoader.Memory.MaximalRun.unique`). A merged span is a maximal run, because the gap
before the next one leaves its end uncovered; and a maximal run is a merged span, because its first
address lies in some merged span, which is then the same run (`exists_mem_merge_iff`). Merged spans
are in ascending order, so they are equal as lists once they are as sets (`merge_eq_of_covered`).

All this is about spans that cover something. Inverted ones cover nothing and still come out, so
what is said of every list of spans is less: what is covered stays covered, the order and the gaps
are there, and a second merge has nothing to do (`merge_merge`).
-/

namespace PicoLoader.Memory

/-! ### Maximal runs -/

/-- A stretch of numbers of a set that cannot be made longer: the number before it, if there is one,
and the number behind it are not in the set. -/
structure MaximalRun (covered : Nat → Prop) (start stop : Nat) : Prop where
  start_lt_stop : start < stop
  covered_of_mem : ∀ x, start ≤ x → x < stop → covered x
  not_covered_before : ∀ x, x + 1 = start → ¬covered x
  not_covered_stop : ¬covered stop

namespace MaximalRun

variable {covered : Nat → Prop} {start stop start' stop' x : Nat}

/-- A maximal run starts no later than a run that it shares a number with. -/
theorem start_le (h : MaximalRun covered start stop) (h' : MaximalRun covered start' stop')
    (hx : start ≤ x ∧ x < stop) (hx' : start' ≤ x ∧ x < stop') : start ≤ start' := by
  by_contra hlt
  -- Otherwise the number before it lies in the other run.
  have hbefore : covered (start - 1) := h'.covered_of_mem _ (by omega) (by omega)
  exact h.not_covered_before (start - 1) (by omega) hbefore

/-- It ends no earlier. -/
theorem stop_le (h : MaximalRun covered start stop) (h' : MaximalRun covered start' stop')
    (hx : start ≤ x ∧ x < stop) (hx' : start' ≤ x ∧ x < stop') : stop' ≤ stop := by
  by_contra hlt
  exact h.not_covered_stop (h'.covered_of_mem stop (by omega) (by omega))

/-- **Maximal runs that share a number are the same.** -/
theorem unique (h : MaximalRun covered start stop) (h' : MaximalRun covered start' stop')
    (hx : start ≤ x ∧ x < stop) (hx' : start' ≤ x ∧ x < stop') : start = start' ∧ stop = stop' :=
  ⟨Nat.le_antisymm (h.start_le h' hx hx') (h'.start_le h hx' hx),
    Nat.le_antisymm (h'.stop_le h hx' hx) (h.stop_le h' hx hx')⟩

end MaximalRun

namespace Span

/-- Whether one of the spans covers the address. -/
def Covered (spans : List Span) (x : Nat) : Prop := ∃ s ∈ spans, s.Covers x

variable {spans others : List Span} {start stop x : Nat}

/-! ### Spans of any kind -/

theorem covered_merge_iff : Covered (merge spans) x ↔ Covered spans x :=
  exists_mem_merge_covers_iff

/-- Spans that are in order and have gaps are merged already. -/
theorem merge_eq_self (hasc : Ascending spans)
    (hapart : spans.Pairwise fun a b => a.stop.toNat < b.start.toNat) : merge spans = spans := by
  have hsorted : spans.Pairwise (Sorting.KeyLe fun s => s.start.toNat) := hasc
  rw [merge, Sorting.sortOn_eq_insertionSort, hsorted.insertionSort_eq]
  cases spans with
  | nil => rfl
  | cons current rest => exact joinOnto_eq_cons hapart

/-- **A second merge has nothing to do.** -/
theorem merge_merge (spans : List Span) : merge (merge spans) = merge spans :=
  merge_eq_self (ascending_merge spans) (pairwise_merge spans)

/-! ### Spans that cover something -/

section Nonempty

variable (h : ∀ s ∈ spans, s.start.toNat < s.stop.toNat)

include h

/-- The addresses next to a merged span are not covered: what covers one of them would touch it. -/
theorem not_covered_beside {m : Span} (hm : m ∈ merge spans)
    (hx : x + 1 = m.start.toNat ∨ x = m.stop.toNat) : ¬Covered spans x := by
  intro hcovered
  have hne := start_lt_stop_of_mem_merge h hm
  obtain ⟨other, hother, hlow, hhigh⟩ := covered_merge_iff.mpr hcovered
  have hdiff : other ≠ m := by
    rintro rfl
    omega
  have hapart := apart_of_mem_merge hother hm hdiff
  omega

/-- **A merged span is a maximal run** of covered addresses. -/
theorem maximalRun_of_mem_merge {m : Span} (hm : m ∈ merge spans) :
    MaximalRun (Covered spans) m.start.toNat m.stop.toNat where
  start_lt_stop := start_lt_stop_of_mem_merge h hm
  covered_of_mem _ hlow hhigh := covered_merge_iff.mp ⟨m, hm, hlow, hhigh⟩
  not_covered_before _ hx := not_covered_beside h hm (Or.inl hx)
  not_covered_stop := not_covered_beside h hm (Or.inr rfl)

/-- **The merged spans are the maximal runs**, all of them and nothing else. -/
theorem exists_mem_merge_iff : (∃ m ∈ merge spans, m.start.toNat = start ∧ m.stop.toNat = stop) ↔
    MaximalRun (Covered spans) start stop := by
  constructor
  · rintro ⟨m, hm, rfl, rfl⟩
    exact maximalRun_of_mem_merge h hm
  · intro hrun
    have hfirst : start ≤ start ∧ start < stop := ⟨Nat.le_refl _, hrun.start_lt_stop⟩
    obtain ⟨m, hm, hcovers⟩ := covered_merge_iff.mpr (hrun.covered_of_mem start hfirst.1 hfirst.2)
    exact ⟨m, hm, (maximalRun_of_mem_merge h hm).unique hrun hcovers hfirst⟩

theorem mem_merge_iff {m : Span} :
    m ∈ merge spans ↔ MaximalRun (Covered spans) m.start.toNat m.stop.toNat := by
  rw [← exists_mem_merge_iff h]
  constructor
  · exact fun hm => ⟨m, hm, rfl, rfl⟩
  · rintro ⟨⟨start, stop⟩, hm, hstart, hstop⟩
    obtain rfl := UInt32.toNat_inj.mp hstart
    obtain rfl := UInt32.toNat_inj.mp hstop
    exact hm

/-- No two merged spans start at one address. -/
theorem pairwise_start_lt_merge :
    (merge spans).Pairwise fun a b => a.start.toNat < b.start.toNat := by
  refine (pairwise_merge spans).imp_of_mem fun ha _ hgap => ?_
  exact Nat.lt_trans (start_lt_stop_of_mem_merge h ha) hgap

/-- **What merging gives depends on what is covered**, and on nothing else. -/
theorem merge_eq_of_covered (hothers : ∀ s ∈ others, s.start.toNat < s.stop.toNat)
    (hsame : ∀ x, Covered others x ↔ Covered spans x) : merge others = merge spans := by
  have hcovered : Covered others = Covered spans := funext fun x => propext (hsame x)
  have hirrefl : Std.Irrefl fun a b : Span => a.start.toNat < b.start.toNat :=
    ⟨fun a => Nat.lt_irrefl _⟩
  have hantisymm : Std.Antisymm fun a b : Span => a.start.toNat < b.start.toNat :=
    ⟨fun a b hab hba => absurd hab (Nat.lt_asymm hba)⟩
  refine (pairwise_start_lt_merge hothers).eq_of_mem_iff (pairwise_start_lt_merge h) fun m => ?_
  rw [mem_merge_iff hothers, mem_merge_iff h, hcovered]

/-- So the order of the spans does not matter. -/
theorem merge_eq_of_perm (hperm : others.Perm spans) : merge others = merge spans :=
  merge_eq_of_covered h (fun s hs => h s (hperm.mem_iff.mp hs))
    fun _ => exists_congr fun _ => and_congr_left fun _ => hperm.mem_iff

end Nonempty

/-! ### The statement -/

/-- **Merging gives the canonical cover** of what the spans cover. -/
structure CanonicalCover (spans : List Span) : Prop where
  /-- The same addresses are covered. -/
  covered_iff : ∀ x, Covered (merge spans) x ↔ Covered spans x
  /-- The merged spans are in order of their starts. -/
  ascending : Ascending (merge spans)
  /-- Each of them ends below the start of every later one. -/
  apart : (merge spans).Pairwise fun a b => a.stop.toNat < b.start.toNat
  /-- Merged once more, they stay as they are. -/
  merge_merge : merge (merge spans) = merge spans
  /-- If every span covers something, they are the maximal runs of covered addresses. -/
  maximalRuns : (∀ s ∈ spans, s.start.toNat < s.stop.toNat) → ∀ start stop,
    (∃ m ∈ merge spans, m.start.toNat = start ∧ m.stop.toNat = stop) ↔
      MaximalRun (Covered spans) start stop
  /-- Then other spans that each cover something, and together the same, are merged into the same
  list. -/
  merge_eq : (∀ s ∈ spans, s.start.toNat < s.stop.toNat) →
    ∀ others : List Span, (∀ s ∈ others, s.start.toNat < s.stop.toNat) →
      (∀ x, Covered others x ↔ Covered spans x) → merge others = merge spans

/-- **Spans of any kind are merged into the canonical cover.** -/
theorem canonicalCover (spans : List Span) : CanonicalCover spans where
  covered_iff _ := covered_merge_iff
  ascending := ascending_merge spans
  apart := pairwise_merge spans
  merge_merge := merge_merge spans
  maximalRuns h _ _ := exists_mem_merge_iff h
  merge_eq h _ hothers hsame := merge_eq_of_covered h hothers hsame

/-- Two runs in two spans, and in five that overlap, touch or repeat each other, in no order. -/
theorem canonicalCover_twoRuns :
    let whole : List Span := [⟨0x1000, 0x3000⟩, ⟨0x4000, 0x6000⟩]
    let parts : List Span :=
      [⟨0x4800, 0x6000⟩, ⟨0x1000, 0x2000⟩, ⟨0x2000, 0x3000⟩, ⟨0x4000, 0x5000⟩, ⟨0x1000, 0x2000⟩]
    (∀ x, Covered parts x ↔ Covered whole x) ∧
      merge parts = merge whole ∧ merge parts = whole := by
  intro whole parts
  have hsame : ∀ x, Covered parts x ↔ Covered whole x := by
    intro x
    simp only [Covered, Covers, parts, whole, List.mem_cons, List.not_mem_nil, or_false,
      exists_eq_or_imp, exists_eq_left, UInt32.reduceToNat]
    omega
  exact ⟨hsame, (canonicalCover whole).merge_eq (by decide) parts (by decide) hsame, rfl⟩

end Span

end PicoLoader.Memory
