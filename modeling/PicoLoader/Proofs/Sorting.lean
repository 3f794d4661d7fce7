import Mathlib.Data.List.Sort
import PicoLoader.Sorting

/-!
# What stands in front of an element of a sorted list

Sorting by a key is the insertion sort of the library for the order that the key induces
(`PicoLoader.Sorting.sortOn_eq_insertionSort`), so that what is known of the one holds of the other.
What is added here rests on the sort being stable: from a place in the sorted list it tells what was
in front of that place in the list that was sorted (`PicoLoader.Sorting.exists_split_of_sortOn`).
-/

namespace PicoLoader.Sorting

variable {α : Type} (key : α → Nat)

/-- The order that a key induces. -/
abbrev KeyLe : α → α → Prop := Order.Preimage key (· ≤ ·)

theorem insertOn_eq_orderedInsert (a : α) (as : List α) :
    insertOn key a as = as.orderedInsert (KeyLe key) a := by
  induction as with
  | nil => rfl
  | cons b bs ih =>
    rw [insertOn, List.orderedInsert_cons, ih]
    rfl

/-- **Sorting by a key is insertion sort** for the order that the key induces. -/
theorem sortOn_eq_insertionSort (as : List α) :
    sortOn key as = as.insertionSort (KeyLe key) := by
  induction as with
  | nil => rfl
  | cons a as ih =>
    rw [List.insertionSort_cons, ← ih]
    exact insertOn_eq_orderedInsert key a (sortOn key as)

@[simp] theorem mem_sortOn {a : α} {as : List α} : a ∈ sortOn key as ↔ a ∈ as := by
  rw [sortOn_eq_insertionSort, List.mem_insertionSort]

/-- **Sorting is stable**: elements with one key keep their order. -/
theorem filter_sortOn (as : List α) (k : Nat) :
    (sortOn key as).filter (fun b => key b == k) = as.filter (fun b => key b == k) := by
  have hsame : (as.filter fun b => key b == k).Pairwise (KeyLe key) := by
    refine List.pairwise_of_forall_mem_list fun b hb c hc => Nat.le_of_eq ?_
    have hb : (key b == k) = true := (List.mem_filter.mp hb).2
    have hc : (key c == k) = true := (List.mem_filter.mp hc).2
    rw [beq_iff_eq.mp hb, beq_iff_eq.mp hc]
  -- The elements with this key are in order already, so they go through the sort as they are.
  have hsublist := (List.sublist_insertionSort hsame List.filter_sublist).filter fun b => key b == k
  rw [List.filter_filter, ← sortOn_eq_insertionSort] at hsublist
  simp only [Bool.and_self] at hsublist
  refine (hsublist.eq_of_length ?_).symm
  rw [sortOn_eq_insertionSort]
  exact ((List.perm_insertionSort _ as).filter _).length_eq.symm

/-- **What stands in front of an element** of the sorted list: of the elements before it in the list
that was sorted, those whose key is not greater, and of the elements behind it, those whose key is
smaller. -/
theorem exists_split_of_sortOn {as front back : List α} {a : α}
    (h : sortOn key as = front ++ a :: back) :
    ∃ before behind, as = before ++ a :: behind ∧
      (∀ b ∈ before, key b ≤ key a → b ∈ front) ∧ (∀ b ∈ behind, key b < key a → b ∈ front) := by
  have hsmaller : ∀ b ∈ as, key b < key a → b ∈ front := by
    intro b hb hlt
    rw [← mem_sortOn key, h] at hb
    have hsorted := List.pairwise_insertionSort (KeyLe key) as
    rw [← sortOn_eq_insertionSort, h, List.pairwise_append] at hsorted
    rcases List.mem_append.mp hb with hfront | hback
    · exact hfront
    · rcases List.mem_cons.mp hback with rfl | hback
      · exact absurd hlt (Nat.lt_irrefl _)
      · have hle : key a ≤ key b := (List.pairwise_cons.mp hsorted.2.1).1 b hback
        exact absurd hlt (Nat.not_lt_of_le hle)
  have hsame := filter_sortOn key as (key a)
  rw [h, List.filter_append, List.filter_cons_of_pos (by simp)] at hsame
  obtain ⟨first, rest, rfl, hfirst, hrest⟩ := List.filter_eq_append_iff.mp hsame.symm
  obtain ⟨middle, behind, rfl, hmiddle, -, -⟩ := List.filter_eq_cons_iff.mp hrest
  refine ⟨first ++ middle, behind, (List.append_assoc _ _ _).symm, ?_, ?_⟩
  · intro b hb hle
    rcases Nat.lt_or_eq_of_le hle with hlt | heq
    · exact hsmaller b (by grind) hlt
    · rcases List.mem_append.mp hb with hb | hb
      · have hmem : b ∈ first.filter (fun c => key c == key a) := by simp [hb, heq]
        rw [hfirst] at hmem
        exact (List.mem_filter.mp hmem).1
      · exact absurd heq (by simpa using hmiddle b hb)
  · intro b hb hlt
    exact hsmaller b (by grind) hlt

end PicoLoader.Sorting
