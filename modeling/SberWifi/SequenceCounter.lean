import Mathlib.Data.List.Basic
import Mathlib.Order.Interval.Finset.Nat

namespace SberWifi.SequenceCounter

structure Counter where
  highest : Nat
  lost : Nat
  late : Nat
  deriving DecidableEq

def Counter.take (c : Counter) (n : Nat) : Counter :=
  if c.highest < n then { c with highest := n, lost := c.lost + (n - 1 - c.highest) }
  else { c with lost := c.lost - 1, late := c.late + 1 }

def count (ns : List Nat) : Counter := ns.foldl Counter.take ⟨0, 0, 0⟩

@[simp] theorem count_nil : count [] = ⟨0, 0, 0⟩ := rfl

theorem count_concat (ns : List Nat) (n : Nat) : count (ns ++ [n]) = (count ns).take n := by
  rw [count, List.foldl_append]
  rfl

@[simp] theorem highest_take (c : Counter) (n : Nat) : (c.take n).highest = max c.highest n := by
  rw [Counter.take]
  split <;> simp <;> omega

theorem highest_eq (ns : List Nat) : (count ns).highest = ns.foldl max 0 := by
  induction ns using List.reverseRecOn with
  | nil => rfl
  | append_singleton ns n ih => rw [count_concat, highest_take, ih, List.foldl_concat]

theorem le_highest {ns : List Nat} : ∀ n ∈ ns, n ≤ (count ns).highest := by
  induction ns using List.reverseRecOn with
  | nil => simp
  | append_singleton ns m ih =>
      intro n hn
      rw [count_concat, highest_take]
      rcases List.mem_append.1 hn with hn | hn
      · exact (ih n hn).trans (Nat.le_max_left _ _)
      · rw [List.mem_singleton.1 hn]
        exact Nat.le_max_right _ _

theorem highest_mem {ns : List Nat} (hne : (count ns).highest ≠ 0) : (count ns).highest ∈ ns := by
  induction ns using List.reverseRecOn with
  | nil => exact (hne rfl).elim
  | append_singleton ns m ih =>
      rw [count_concat, highest_take] at hne ⊢
      rcases Nat.le_total (count ns).highest m with hle | hle
      · rw [Nat.max_eq_right hle]
        simp
      · rw [Nat.max_eq_left hle] at hne ⊢
        exact List.mem_append_left _ (ih hne)

theorem highest_le {ns : List Nat} {bound : Nat} (h : ∀ n ∈ ns, n ≤ bound) : (count ns).highest ≤ bound := by
  by_cases hne : (count ns).highest = 0
  · rw [hne]
    exact Nat.zero_le _
  · exact h _ (highest_mem hne)

def missing (ns : List Nat) : Finset Nat := Finset.Icc 1 (count ns).highest \ ns.toFinset

theorem card_missing {ns : List Nat} (hpos : ∀ n ∈ ns, 0 < n) :
    (missing ns).card + ns.toFinset.card = (count ns).highest := by
  have hsub : ns.toFinset ⊆ Finset.Icc 1 (count ns).highest := by
    intro n hn
    rw [List.mem_toFinset] at hn
    exact Finset.mem_Icc.2 ⟨hpos n hn, le_highest n hn⟩
  rw [missing, Finset.card_sdiff_add_card_eq_card hsub, Nat.card_Icc, Nat.add_sub_cancel]

theorem missing_eq (ns : List Nat) :
    (missing ns).card = ((List.range' 1 (count ns).highest).filter fun n => n ∉ ns).length := by
  have hnodup : ((List.range' 1 (count ns).highest).filter fun n => n ∉ ns).Nodup := (List.nodup_range').filter _
  rw [← List.toFinset_card_of_nodup hnodup, missing]
  congr 1
  ext n
  simp only [Finset.mem_sdiff, Finset.mem_Icc, List.mem_toFinset, List.mem_filter, List.mem_range'_1, decide_eq_true_eq]
  refine and_congr_left fun _ => ?_
  omega

theorem toFinset_concat (ns : List Nat) (n : Nat) : (ns ++ [n]).toFinset = insert n ns.toFinset := by
  ext m
  simp

/-- A new number below the highest one was missing. -/
theorem card_concat {ns : List Nat} {n : Nat} (hpos : 0 < n) (hns : ∀ n ∈ ns, 0 < n) (hle : n ≤ (count ns).highest)
    (hnew : n ∉ ns) : (ns ++ [n]).toFinset.card = ns.toFinset.card + 1 ∧ ns.toFinset.card < (count ns).highest := by
  have hcard := card_missing hns
  have hmem : n ∈ missing ns :=
    Finset.mem_sdiff.2 ⟨Finset.mem_Icc.2 ⟨hpos, hle⟩, fun h => hnew (List.mem_toFinset.1 h)⟩
  have hmissing := Finset.card_pos.2 ⟨n, hmem⟩
  refine ⟨?_, by omega⟩
  rw [toFinset_concat, Finset.card_insert_of_notMem (fun h => hnew (List.mem_toFinset.1 h))]

theorem card_concat_of_lt {ns : List Nat} {n : Nat} (hlt : (count ns).highest < n) :
    (ns ++ [n]).toFinset.card = ns.toFinset.card + 1 := by
  have hnew : n ∉ ns.toFinset := fun h => Nat.not_lt.2 (le_highest n (List.mem_toFinset.1 h)) hlt
  rw [toFinset_concat, Finset.card_insert_of_notMem hnew]

/-- Never more are counted as lost than are missing. -/
theorem lost_le {ns : List Nat} (hpos : ∀ n ∈ ns, 0 < n) : (count ns).lost ≤ (missing ns).card := by
  suffices hsum : (count ns).lost + ns.toFinset.card ≤ (count ns).highest by
    have hcard := card_missing hpos
    omega
  induction ns using List.reverseRecOn with
  | nil => simp
  | append_singleton ns n ih =>
      have hns : ∀ n ∈ ns, 0 < n := fun m hm => hpos m (by simp [hm])
      have ih := ih hns
      rw [count_concat, highest_take, Counter.take]
      split
      · rename_i hlt
        rw [card_concat_of_lt hlt]
        dsimp only
        omega
      · rename_i hle
        dsimp only
        by_cases hnew : n ∈ ns
        · rw [toFinset_concat, Finset.insert_eq_of_mem (List.mem_toFinset.2 hnew)]
          omega
        · obtain ⟨hcard, hlt⟩ := card_concat (hpos n (by simp)) hns (Nat.not_lt.1 hle) hnew
          rw [hcard]
          omega

/-- Without duplicates exactly the missing ones are counted. -/
theorem lost_eq {ns : List Nat} (hpos : ∀ n ∈ ns, 0 < n) (hnodup : ns.Nodup) :
    (count ns).lost = (missing ns).card := by
  suffices hsum : (count ns).lost + ns.toFinset.card = (count ns).highest by
    have hcard := card_missing hpos
    omega
  induction ns using List.reverseRecOn with
  | nil => simp
  | append_singleton ns n ih =>
      have hns : ∀ n ∈ ns, 0 < n := fun m hm => hpos m (by simp [hm])
      obtain ⟨hnodup', -, hdisjoint⟩ := List.nodup_append.1 hnodup
      have hnew : n ∉ ns := fun hn => hdisjoint n hn n (by simp) rfl
      have ih := ih hns hnodup'
      rw [count_concat, highest_take, Counter.take]
      split
      · rename_i hlt
        rw [card_concat_of_lt hlt]
        dsimp only
        omega
      · rename_i hle
        obtain ⟨hcard, hlt⟩ := card_concat (hpos n (by simp)) hns (Nat.not_lt.1 hle) hnew
        rw [hcard]
        dsimp only
        omega

/-- Nothing is late exactly if all arrive in their order. -/
theorem late_eq_zero_iff {ns : List Nat} (hpos : ∀ n ∈ ns, 0 < n) : (count ns).late = 0 ↔ ns.Pairwise (· < ·) := by
  induction ns using List.reverseRecOn with
  | nil => simp
  | append_singleton ns n ih =>
      have hns : ∀ n ∈ ns, 0 < n := fun m hm => hpos m (by simp [hm])
      have hbelow : (count ns).highest < n ↔ ∀ m ∈ ns, m < n := by
        refine ⟨fun h m hm => (le_highest m hm).trans_lt h, fun h => ?_⟩
        by_cases hne : (count ns).highest = 0
        · rw [hne]
          exact hpos n (by simp)
        · exact h _ (highest_mem hne)
      rw [List.pairwise_append, ← ih hns, count_concat, Counter.take]
      split
      · rename_i hlt
        simpa using fun _ => hbelow.1 hlt
      · rename_i hle
        rw [hbelow] at hle
        simp only [Nat.add_eq_zero_iff, one_ne_zero, and_false, List.mem_singleton, forall_eq, false_iff]
        exact fun h => hle h.2.2

theorem late_le (ns : List Nat) : (count ns).late ≤ ns.length := by
  induction ns using List.reverseRecOn with
  | nil => simp
  | append_singleton ns n ih =>
      rw [count_concat, Counter.take, List.length_append, List.length_singleton]
      split
      · exact ih.trans (Nat.le_succ _)
      · exact Nat.succ_le_succ ih

theorem lost_le_highest {ns : List Nat} (hpos : ∀ n ∈ ns, 0 < n) : (count ns).lost ≤ (count ns).highest := by
  have hcard := card_missing hpos
  have hlost := lost_le hpos
  omega

end SberWifi.SequenceCounter
