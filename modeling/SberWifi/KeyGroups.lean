import SberWifi.StableSort

namespace SberWifi.KeyGroups

open StableSort

structure KeyGroup (α : Type) where
  parent : α
  children : List α
deriving DecidableEq, Repr

variable {α κ : Type}

def KeyGroup.members (g : KeyGroup α) : List α := g.parent :: g.children

/-- One pass over a list with an open group: an element joins the group when it
is the same as the parent, and opens the next one otherwise. -/
def groups (same : α → α → Bool) (opened : KeyGroup α) : List α → List (KeyGroup α)
  | [] => [opened]
  | a :: l =>
      if same opened.parent a then groups same { opened with children := opened.children ++ [a] } l
      else opened :: groups same ⟨a, []⟩ l

theorem groups_members (same : α → α → Bool) (opened : KeyGroup α) (l : List α) :
    (groups same opened l).flatMap KeyGroup.members = opened.members ++ l := by
  induction l generalizing opened with
  | nil => simp [groups]
  | cons a l ih =>
      by_cases h : same opened.parent a
      · rw [groups, if_pos h, ih]
        simp [KeyGroup.members]
      · rw [groups, if_neg h, List.flatMap_cons, ih]
        simp [KeyGroup.members]

/-- What holds between an element and all later ones holds between a parent and
its children. -/
theorem groups_parent {R : α → α → Prop} (same : α → α → Bool) (opened : KeyGroup α) {l : List α}
    (h : (opened.members ++ l).Pairwise R) {g : KeyGroup α} (hg : g ∈ groups same opened l) :
    ∀ c ∈ g.children, R g.parent c := by
  rw [← groups_members same] at h
  have hsub : g.members.Sublist ((groups same opened l).flatMap KeyGroup.members) :=
    List.sublist_flatten_of_mem (List.mem_map_of_mem hg)
  exact (List.pairwise_cons.1 (h.sublist hsub)).1

section Key

variable {key : α → κ} {same : α → α → Bool} (hsame : ∀ a b, same a b ↔ key a = key b)

include hsame

theorem groups_same_key (opened : KeyGroup α) {l : List α}
    (ho : ∀ c ∈ opened.children, key c = key opened.parent)
    {g : KeyGroup α} (hg : g ∈ groups same opened l) : ∀ c ∈ g.children, key c = key g.parent := by
  induction l generalizing opened with
  | nil =>
      rw [groups, List.mem_singleton] at hg
      subst hg
      exact ho
  | cons a l ih =>
      by_cases h : same opened.parent a
      · rw [groups, if_pos h] at hg
        refine ih _ ?_ hg
        intro c hc
        rcases List.mem_append.1 hc with hc | hc
        · exact ho c hc
        · rw [List.mem_singleton.1 hc]
          exact ((hsame _ _).1 h).symm
      · rw [groups, if_neg h] at hg
        rcases List.mem_cons.1 hg with rfl | hg
        · exact ho
        · exact ih ⟨a, []⟩ (by simp) hg

variable [Ord κ] [Std.TransOrd κ] [Std.LawfulEqOrd κ]

/-- In a list ordered by key, no key comes back after its group was closed. -/
theorem groups_keys_increase (opened : KeyGroup α) {l : List α}
    (hl : (opened.parent :: l).Pairwise fun a b => (compare (key a) (key b)).isLE) :
    (groups same opened l).Pairwise fun g g' => compare (key g.parent) (key g'.parent) = .lt := by
  induction l generalizing opened with
  | nil => simp [groups]
  | cons a l ih =>
      have hcons := List.pairwise_cons.1 hl
      by_cases h : same opened.parent a
      · rw [groups, if_pos h]
        exact ih _ (List.pairwise_cons.2
          ⟨fun b hb => hcons.1 b (List.mem_cons_of_mem a hb), (List.pairwise_cons.1 hcons.2).2⟩)
      · rw [groups, if_neg h, List.pairwise_cons]
        refine ⟨fun g hg => ?_, ih ⟨a, []⟩ hcons.2⟩
        have hmem : g.parent ∈ a :: l := by
          have h' : g.parent ∈ (groups same ⟨a, []⟩ l).flatMap KeyGroup.members :=
            List.mem_flatMap.2 ⟨g, hg, List.mem_cons_self⟩
          rwa [groups_members] at h'
        have hlt : compare (key opened.parent) (key a) = .lt := by
          have hle := hcons.1 a List.mem_cons_self
          have hne : compare (key opened.parent) (key a) ≠ .eq := fun he =>
            h ((hsame _ _).2 (Std.LawfulEqOrd.eq_of_compare he))
          cases hc : compare (key opened.parent) (key a) <;> simp_all
        have hle : (compare (key a) (key g.parent)).isLE := by
          rcases List.mem_cons.1 hmem with he | hm
          · rw [he, Std.ReflOrd.compare_self]
            rfl
          · exact (List.pairwise_cons.1 hcons.2).1 _ hm
        exact Std.TransCmp.lt_of_lt_of_isLE hlt hle

end Key

end SberWifi.KeyGroups
