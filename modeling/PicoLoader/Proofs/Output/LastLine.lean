import Mathlib.Data.Bool.AllAny
import Mathlib.Data.List.Basic
import PicoLoader.Proofs.Load.Requests

/-!
# Telling the last line of a load

Whether a load has come to its end can be read off its output alone, however much of it a sink has
taken: the last line begins with a letter that no line before it contains. So the whole line is in
the text only if it was taken whole, at the end (`isInfix_append_iff`).

All characters of a load are one byte long (`PicoLoader.Line.IsEarly`,
`utf8Size_of_mem_loadComplete`). So it makes no difference whether the room of a sink is counted in
characters or in bytes.
-/

namespace PicoLoader

/-- Whether a character may stand before the last line of a load: it is one byte long, and not the
letter that the last line begins with. -/
def IsEarly (c : Char) : Prop := c ≠ 'L' ∧ c.utf8Size = 1

instance (c : Char) : Decidable (IsEarly c) := inferInstanceAs (Decidable (_ ∧ _))

/-! ### Hexadecimal numbers -/

/-- The digits of a number in base 16 are hexadecimal digits. -/
theorem exists_of_mem_toDigits {c : Char} {n : Nat} (h : c ∈ Nat.toDigits 16 n) :
    ∃ d < 16, c = Nat.digitChar d := by
  induction n using Nat.strongRecOn with
  | ind n ih =>
    rcases Nat.lt_or_ge n 16 with hn | hn
    · rw [Nat.toDigits_of_lt_base hn, List.mem_singleton] at h
      exact ⟨n, hn, h⟩
    · rw [Nat.toDigits_of_base_le (by decide) hn, List.mem_append, List.mem_singleton] at h
      rcases h with h | h
      · exact ih (n / 16) (by omega) h
      · exact ⟨n % 16, Nat.mod_lt _ (by decide), h⟩

theorem isEarly_digitChar : ∀ d < 16, IsEarly (Nat.digitChar d) := by decide

theorem isEarly_of_mem_number {c : Char} {n : Nat} (h : c ∈ (Hex.number n).toList) :
    IsEarly c := by
  have htext : (Hex.number n).toList = "0x".toList ++ Hex.digits 1 n := by
    rw [Hex.number, String.toList_append]
    exact congrArg _ String.toList_ofList
  rw [htext, Hex.digits, List.mem_append, List.mem_append] at h
  rcases h with h | h | h
  · have hmarker : ∀ c ∈ "0x".toList, IsEarly c := List.all_iff_forall_prop.mp (by decide)
    exact hmarker c h
  · rw [List.eq_of_mem_replicate h]
    decide
  · obtain ⟨d, hd, rfl⟩ := exists_of_mem_toDigits h
    exact isEarly_digitChar d hd

/-! ### The lines of a load -/

/-- Whether all characters of a line may stand before the last line. -/
def Line.IsEarly (line : Line) : Prop := ∀ c ∈ line.text.toList, PicoLoader.IsEarly c

theorem isEarly_mirroring : Line.mirroring.IsEarly := by
  have h : ∀ c ∈ Line.mirroring.text.toList, IsEarly c :=
    List.all_iff_forall_prop.mp (by decide +kernel)
  exact h

theorem isEarly_skipping : Line.skipping.IsEarly := by
  have h : ∀ c ∈ Line.skipping.text.toList, IsEarly c :=
    List.all_iff_forall_prop.mp (by decide +kernel)
  exact h

theorem isEarly_of_mem_notes {plan : Plan} {line : Line} (h : line ∈ plan.notes) :
    line.IsEarly := by
  rcases List.mem_append.mp h with h | h
  · split at h
    · obtain rfl := List.mem_singleton.mp h
      exact isEarly_mirroring
    · cases h
  · split at h
    · obtain rfl := List.mem_singleton.mp h
      exact isEarly_skipping
    · cases h

theorem isEarly_executing (addr : UInt32) : (Line.executing addr).IsEarly := by
  intro c h
  have htext : (Line.executing addr).text =
      "Executing at " ++ Hex.number addr.toNat ++ ".\n" := rfl
  rw [htext, String.toList_append, String.toList_append, List.mem_append, List.mem_append] at h
  rcases h with (h | h) | h
  · have hfront : ∀ c ∈ "Executing at ".toList, IsEarly c :=
      List.all_iff_forall_prop.mp (by decide +kernel)
    exact hfront c h
  · exact isEarly_of_mem_number h
  · have hback : ∀ c ∈ ".\n".toList, IsEarly c := List.all_iff_forall_prop.mp (by decide)
    exact hback c h

theorem isEarly_of_mem_chars {lines : List Line} (h : ∀ line ∈ lines, line.IsEarly) {c : Char}
    (hc : c ∈ Line.chars lines) : IsEarly c := by
  obtain ⟨line, hline, hc⟩ := List.mem_flatMap.mp hc
  exact h line hline c hc

theorem utf8Size_of_mem_loadComplete : ∀ c ∈ Line.loadComplete.text.toList, c.utf8Size = 1 :=
  List.all_iff_forall_prop.mp (by decide)

/-! ### The last line -/

/-- A word whose first letter stands nowhere else is in a text that ends with a part of it only if
the part is the whole word. -/
theorem isInfix_append_iff {α : Type} {a : α} {word front part : List α} (hfront : a ∉ front)
    (hword : a ∉ word) (hpart : part <+: a :: word) :
    a :: word <:+: front ++ part ↔ part = a :: word := by
  constructor
  · rintro ⟨s, t, heq⟩
    rw [List.append_assoc, List.cons_append] at heq
    rcases List.prefix_cons_iff.mp hpart with rfl | ⟨rest, rfl, hrest⟩
    · have hmem : a ∈ front ++ [] := heq ▸ List.mem_append_right _ List.mem_cons_self
      rw [List.append_nil] at hmem
      exact absurd hmem hfront
    · have hnot : a ∉ rest := fun h => hword (hrest.subset h)
      obtain ⟨-, -, rfl⟩ := (List.append_cons_inj_of_notMem hfront hnot).mp heq.symm
      obtain ⟨u, hu⟩ := hrest
      have hlen := congrArg List.length hu
      rw [List.length_append, List.length_append] at hlen
      have hnil : t = [] := List.length_eq_zero_iff.mp (by omega)
      rw [hnil, List.append_nil]
  · rintro rfl
    exact (List.suffix_append _ _).isInfix

/-- The last line begins with a letter that it does not contain again. -/
theorem exists_text_loadComplete :
    ∃ word, Line.loadComplete.text.toList = 'L' :: word ∧ 'L' ∉ word :=
  ⟨"oad complete.\n".toList, rfl, by decide⟩

/-- **The last line is in a text** that goes on with a part of it if and only if the part is all of
it. -/
theorem loadComplete_isInfix_iff {front part : List Char} (hfront : 'L' ∉ front)
    (hpart : part <+: Line.loadComplete.text.toList) :
    Line.loadComplete.text.toList <:+: front ++ part ↔ part = Line.loadComplete.text.toList := by
  obtain ⟨word, heq, hword⟩ := exists_text_loadComplete
  rw [heq] at hpart ⊢
  exact isInfix_append_iff hfront hword hpart

end PicoLoader
