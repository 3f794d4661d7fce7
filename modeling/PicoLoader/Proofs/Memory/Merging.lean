import Mathlib.Data.List.Pairwise
import PicoLoader.Memory.Span
import PicoLoader.Proofs.Sorting

/-!
# What merged spans cover

`PicoLoader.Memory.Span.merge` sorts spans and joins the neighbours that overlap or touch. Nothing
is lost by it and nothing is added: every span lies inside one merged span (`exists_mem_merge`), and
every address of a merged span was an address of a span (`exists_covers_of_mem_merge`). The merged
spans are ascending (`ascending_merge`) with a gap between any two (`pairwise_merge`), so an address
lies in one of them at most (`eq_of_mem_merge`), and a span that covers something is merged into one
that does (`start_lt_stop_of_mem_merge`).

Each fact is first proved of the pass that joins, by induction on the spans still to come with the
span that is growing generalised. What carries the induction is that the spans to come start at or
after the growing one: a joined span then has no hole, because it is only joined to a span that
starts at or below its end.
-/

namespace PicoLoader.Memory.Span

/-- Spans in ascending order of their start. -/
def Ascending (spans : List Span) : Prop :=
  spans.Pairwise fun a b => a.start.toNat ≤ b.start.toNat

/-- One span holds all of another. -/
def Holds (outer inner : Span) : Prop :=
  outer.start.toNat ≤ inner.start.toNat ∧ inner.stop.toNat ≤ outer.stop.toNat

theorem Holds.refl (s : Span) : s.Holds s := ⟨Nat.le_refl _, Nat.le_refl _⟩

theorem Holds.trans {a b c : Span} (hab : a.Holds b) (hbc : b.Holds c) : a.Holds c :=
  ⟨Nat.le_trans hab.1 hbc.1, Nat.le_trans hbc.2 hab.2⟩

theorem toNat_max (a b : UInt32) : (max a b).toNat = max a.toNat b.toNat := by
  change (if a ≤ b then b else a).toNat = _
  split
  case isTrue h => exact (Nat.max_eq_right (UInt32.le_iff_toNat_le.mp h)).symm
  case isFalse h =>
    rw [UInt32.le_iff_toNat_le, Nat.not_le] at h
    exact (Nat.max_eq_left (Nat.le_of_lt h)).symm

/-! ### One join -/

/-- The growing span after it has been joined to `s`. -/
def grown (current s : Span) : Span := { current with stop := max current.stop s.stop }

theorem holds_grown_left (current s : Span) : (grown current s).Holds current :=
  ⟨Nat.le_refl _, by rw [grown, toNat_max]; exact Nat.le_max_left _ _⟩

theorem holds_grown_right {current s : Span} (h : current.start.toNat ≤ s.start.toNat) :
    (grown current s).Holds s :=
  ⟨h, by rw [grown, toNat_max]; exact Nat.le_max_right _ _⟩

/-- **A join has no hole**: it covers what the two spans cover. -/
theorem covers_of_covers_grown {current s : Span} {x : Nat} (htouch : s.start ≤ current.stop)
    (h : (grown current s).Covers x) : current.Covers x ∨ s.Covers x := by
  obtain ⟨hle, hlt⟩ := h
  rw [grown, toNat_max] at hlt
  rw [UInt32.le_iff_toNat_le] at htouch
  -- What lies behind the end of the growing span lies behind the start of the other one.
  rcases Nat.lt_or_ge x current.stop.toNat with hx | hx
  · exact Or.inl ⟨hle, hx⟩
  · exact Or.inr ⟨Nat.le_trans htouch hx, by omega⟩

/-! ### The pass that joins -/

theorem ascending_grown {current s : Span} {spans : List Span}
    (h : Ascending (current :: s :: spans)) : Ascending (grown current s :: spans) := by
  obtain ⟨hcurrent, hspans⟩ := List.pairwise_cons.mp h
  obtain ⟨-, hrest⟩ := List.pairwise_cons.mp hspans
  exact List.pairwise_cons.mpr ⟨fun b hb => hcurrent b (List.mem_cons_of_mem _ hb), hrest⟩

/-- Every span that goes into the pass lies inside one that comes out. -/
theorem exists_mem_joinOnto {current : Span} {spans : List Span}
    (h : Ascending (current :: spans)) :
    ∀ s ∈ current :: spans, ∃ m ∈ joinOnto current spans, m.Holds s := by
  induction spans generalizing current with
  | nil =>
    intro s hs
    exact ⟨current, List.mem_singleton_self _, List.mem_singleton.mp hs ▸ Holds.refl _⟩
  | cons next rest ih =>
    have hstart : current.start.toNat ≤ next.start.toNat :=
      (List.pairwise_cons.mp h).1 next List.mem_cons_self
    intro s hs
    simp only [joinOnto]
    split
    case isTrue htouch =>
      have ih := ih (ascending_grown h)
      -- The two spans that are joined both lie inside what holds the joined one.
      obtain ⟨m, hm, hgrown⟩ := ih _ List.mem_cons_self
      rcases List.mem_cons.mp hs with rfl | hs
      · exact ⟨m, hm, hgrown.trans (holds_grown_left _ _)⟩
      rcases List.mem_cons.mp hs with rfl | hs
      · exact ⟨m, hm, hgrown.trans (holds_grown_right hstart)⟩
      · exact ih s (List.mem_cons_of_mem _ hs)
    case isFalse hgap =>
      rcases List.mem_cons.mp hs with rfl | hs
      · exact ⟨s, List.mem_cons_self, Holds.refl _⟩
      · obtain ⟨m, hm, hs⟩ := ih (List.pairwise_cons.mp h).2 s hs
        exact ⟨m, List.mem_cons_of_mem _ hm, hs⟩

/-- Every address that comes out of the pass has gone into it. -/
theorem exists_covers_of_mem_joinOnto {current : Span} {spans : List Span} {m : Span} {x : Nat}
    (hm : m ∈ joinOnto current spans) (hx : m.Covers x) :
    ∃ s ∈ current :: spans, s.Covers x := by
  induction spans generalizing current with
  | nil => exact ⟨m, hm, hx⟩
  | cons next rest ih =>
    simp only [joinOnto] at hm
    split at hm
    case isTrue htouch =>
      obtain ⟨s, hs, hcovers⟩ := ih hm
      rcases List.mem_cons.mp hs with rfl | hs
      · rcases covers_of_covers_grown htouch hcovers with hc | hc
        · exact ⟨current, List.mem_cons_self, hc⟩
        · exact ⟨next, List.mem_cons_of_mem _ List.mem_cons_self, hc⟩
      · exact ⟨s, List.mem_cons_of_mem _ (List.mem_cons_of_mem _ hs), hcovers⟩
    case isFalse hgap =>
      rcases List.mem_cons.mp hm with rfl | hm
      · exact ⟨m, List.mem_cons_self, hx⟩
      · obtain ⟨s, hs, hcovers⟩ := ih hm
        exact ⟨s, List.mem_cons_of_mem _ hs, hcovers⟩

/-- What comes out of the pass starts where something started that went in. -/
theorem exists_start_of_mem_joinOnto {current : Span} {spans : List Span} {m : Span}
    (hm : m ∈ joinOnto current spans) : ∃ s ∈ current :: spans, m.start = s.start := by
  induction spans generalizing current with
  | nil => exact ⟨m, hm, rfl⟩
  | cons next rest ih =>
    simp only [joinOnto] at hm
    split at hm
    case isTrue =>
      obtain ⟨s, hs, heq⟩ := ih hm
      rcases List.mem_cons.mp hs with rfl | hs
      · exact ⟨current, List.mem_cons_self, heq⟩
      · exact ⟨s, List.mem_cons_of_mem _ (List.mem_cons_of_mem _ hs), heq⟩
    case isFalse =>
      rcases List.mem_cons.mp hm with rfl | hm
      · exact ⟨m, List.mem_cons_self, rfl⟩
      · obtain ⟨s, hs, heq⟩ := ih hm
        exact ⟨s, List.mem_cons_of_mem _ hs, heq⟩

/-- What comes out of the pass starts at or after the span that was growing. -/
theorem start_le_of_mem_joinOnto {current : Span} {spans : List Span}
    (h : Ascending (current :: spans)) {m : Span} (hm : m ∈ joinOnto current spans) :
    current.start.toNat ≤ m.start.toNat := by
  obtain ⟨s, hs, heq⟩ := exists_start_of_mem_joinOnto hm
  rw [heq]
  rcases List.mem_cons.mp hs with rfl | hs
  · exact Nat.le_refl _
  · exact (List.pairwise_cons.mp h).1 s hs

/-- What comes out of the pass is in ascending order. -/
theorem ascending_joinOnto {current : Span} {spans : List Span}
    (h : Ascending (current :: spans)) : Ascending (joinOnto current spans) := by
  induction spans generalizing current with
  | nil => exact List.pairwise_singleton _ _
  | cons next rest ih =>
    obtain ⟨hcurrent, hspans⟩ := List.pairwise_cons.mp h
    simp only [joinOnto]
    split
    case isTrue => exact ih (ascending_grown h)
    case isFalse =>
      refine List.pairwise_cons.mpr ⟨fun m hm => ?_, ih hspans⟩
      exact Nat.le_trans (hcurrent next List.mem_cons_self) (start_le_of_mem_joinOnto hspans hm)

/-- It has gaps. -/
theorem pairwise_joinOnto {current : Span} {spans : List Span} (h : Ascending (current :: spans)) :
    (joinOnto current spans).Pairwise fun a b => a.stop.toNat < b.start.toNat := by
  induction spans generalizing current with
  | nil => exact List.pairwise_singleton _ _
  | cons next rest ih =>
    obtain ⟨-, hspans⟩ := List.pairwise_cons.mp h
    simp only [joinOnto]
    split
    case isTrue => exact ih (ascending_grown h)
    case isFalse hgap =>
      refine List.pairwise_cons.mpr ⟨fun m hm => ?_, ih hspans⟩
      -- Whatever is still to come starts at or after the span that did not touch.
      have hnext := start_le_of_mem_joinOnto hspans hm
      rw [UInt32.le_iff_toNat_le] at hgap
      omega

/-- The pass leaves spans alone that have gaps already. -/
theorem joinOnto_eq_cons {current : Span} {spans : List Span}
    (h : (current :: spans).Pairwise fun a b => a.stop.toNat < b.start.toNat) :
    joinOnto current spans = current :: spans := by
  induction spans generalizing current with
  | nil => rfl
  | cons next rest ih =>
    obtain ⟨hcurrent, hspans⟩ := List.pairwise_cons.mp h
    have hgap : ¬next.start ≤ current.stop := by
      rw [UInt32.le_iff_toNat_le]
      exact Nat.not_le_of_lt (hcurrent next List.mem_cons_self)
    rw [joinOnto, if_neg hgap, ih hspans]

/-- Spans that cover something are joined to spans that do. -/
theorem start_lt_stop_of_mem_joinOnto {current : Span} {spans : List Span}
    (h : ∀ s ∈ current :: spans, s.start.toNat < s.stop.toNat) :
    ∀ m ∈ joinOnto current spans, m.start.toNat < m.stop.toNat := by
  induction spans generalizing current with
  | nil => exact h
  | cons next rest ih =>
    have hcurrent := h current List.mem_cons_self
    intro m hm
    simp only [joinOnto] at hm
    split at hm
    case isTrue =>
      refine ih ?_ m hm
      intro s hs
      rcases List.mem_cons.mp hs with rfl | hs
      · exact Nat.lt_of_lt_of_le hcurrent (holds_grown_left _ _).2
      · exact h s (List.mem_cons_of_mem _ (List.mem_cons_of_mem _ hs))
    case isFalse =>
      rcases List.mem_cons.mp hm with rfl | hm
      · exact hcurrent
      · exact ih (fun s hs => h s (List.mem_cons_of_mem _ hs)) m hm

/-! ### Merged spans -/

variable {spans : List Span}

/-- Merging is the pass that joins, over the spans in ascending order. -/
theorem exists_merge_eq_joinOnto (hne : spans ≠ []) :
    ∃ current rest, merge spans = joinOnto current rest ∧ Ascending (current :: rest) ∧
      ∀ s, s ∈ current :: rest ↔ s ∈ spans := by
  have hsorted := List.pairwise_insertionSort (Sorting.KeyLe fun s : Span => s.start.toNat) spans
  have hperm := List.perm_insertionSort (Sorting.KeyLe fun s : Span => s.start.toNat) spans
  rw [merge, Sorting.sortOn_eq_insertionSort]
  cases h : spans.insertionSort (Sorting.KeyLe fun s : Span => s.start.toNat) with
  | nil => exact absurd (h ▸ hperm).nil_eq.symm hne
  | cons current rest =>
    rw [h] at hsorted hperm
    exact ⟨current, rest, rfl, hsorted, fun s => hperm.mem_iff⟩

theorem ne_nil_of_mem_merge {m : Span} (hm : m ∈ merge spans) : spans ≠ [] := by
  rintro rfl
  cases hm

/-- **Nothing is lost**: every span lies inside one merged span. -/
theorem exists_mem_merge {s : Span} (hs : s ∈ spans) : ∃ m ∈ merge spans, m.Holds s := by
  obtain ⟨current, rest, heq, hasc, hmem⟩ := exists_merge_eq_joinOnto (List.ne_nil_of_mem hs)
  rw [heq]
  exact exists_mem_joinOnto hasc s ((hmem s).mpr hs)

/-- **Nothing is added**: every address of a merged span is an address of a span. -/
theorem exists_covers_of_mem_merge {m : Span} {x : Nat} (hm : m ∈ merge spans)
    (hx : m.Covers x) : ∃ s ∈ spans, s.Covers x := by
  obtain ⟨current, rest, heq, -, hmem⟩ := exists_merge_eq_joinOnto (ne_nil_of_mem_merge hm)
  rw [heq] at hm
  obtain ⟨s, hs, hcovers⟩ := exists_covers_of_mem_joinOnto hm hx
  exact ⟨s, (hmem s).mp hs, hcovers⟩

/-- **Merged spans cover what the spans cover.** -/
theorem exists_mem_merge_covers_iff {x : Nat} :
    (∃ m ∈ merge spans, m.Covers x) ↔ ∃ s ∈ spans, s.Covers x := by
  constructor
  · rintro ⟨m, hm, hx⟩
    exact exists_covers_of_mem_merge hm hx
  · rintro ⟨s, hs, hle, hlt⟩
    obtain ⟨m, hm, hstart, hstop⟩ := exists_mem_merge hs
    exact ⟨m, hm, Nat.le_trans hstart hle, Nat.lt_of_lt_of_le hlt hstop⟩

/-- **Merged spans are apart**: ascending, with a gap between any two. -/
theorem pairwise_merge (spans : List Span) :
    (merge spans).Pairwise fun a b => a.stop.toNat < b.start.toNat := by
  rcases eq_or_ne spans [] with rfl | hne
  · exact List.Pairwise.nil
  obtain ⟨current, rest, heq, hasc, -⟩ := exists_merge_eq_joinOnto hne
  rw [heq]
  exact pairwise_joinOnto hasc

/-- **Merged spans are ascending**, inverted ones among them. -/
theorem ascending_merge (spans : List Span) : Ascending (merge spans) := by
  rcases eq_or_ne spans [] with rfl | hne
  · exact List.Pairwise.nil
  obtain ⟨current, rest, heq, hasc, -⟩ := exists_merge_eq_joinOnto hne
  rw [heq]
  exact ascending_joinOnto hasc

/-- Of two merged spans, one ends before the other starts. -/
theorem apart_of_mem_merge {first second : Span} (hfirst : first ∈ merge spans)
    (hsecond : second ∈ merge spans) (hne : first ≠ second) :
    first.stop.toNat < second.start.toNat ∨ second.stop.toNat < first.start.toNat := by
  have hsymm : Std.Symm fun a b : Span =>
      a.stop.toNat < b.start.toNat ∨ b.stop.toNat < a.start.toNat := ⟨fun a b h => h.symm⟩
  have hapart : (merge spans).Pairwise fun a b =>
      a.stop.toNat < b.start.toNat ∨ b.stop.toNat < a.start.toNat :=
    (pairwise_merge spans).imp Or.inl
  exact hapart.forall hfirst hsecond hne

/-- **An address lies in one merged span at most.** -/
theorem eq_of_mem_merge {first second : Span} {x : Nat} (hfirst : first ∈ merge spans)
    (hsecond : second ∈ merge spans) (hx : first.Covers x) (hy : second.Covers x) :
    first = second := by
  by_contra hne
  have hapart := apart_of_mem_merge hfirst hsecond hne
  obtain ⟨hxlow, hxhigh⟩ := hx
  obtain ⟨hylow, hyhigh⟩ := hy
  omega

/-- Spans that cover something are merged into spans that do. -/
theorem start_lt_stop_of_mem_merge (h : ∀ s ∈ spans, s.start.toNat < s.stop.toNat) {m : Span}
    (hm : m ∈ merge spans) : m.start.toNat < m.stop.toNat := by
  obtain ⟨current, rest, heq, -, hmem⟩ := exists_merge_eq_joinOnto (ne_nil_of_mem_merge hm)
  rw [heq] at hm
  exact start_lt_stop_of_mem_joinOnto (fun s hs => h s ((hmem s).mp hs)) m hm

/-- The length of a span that is not inverted, as a number. -/
theorem toNat_length {s : Span} (h : s.start.toNat ≤ s.stop.toNat) :
    s.length.toNat = s.stop.toNat - s.start.toNat :=
  UInt32.toNat_sub_of_le _ _ (UInt32.le_iff_toNat_le.mpr h)

end PicoLoader.Memory.Span
