import Mathlib.Data.List.Pairwise
import Mathlib.Data.List.Sort

namespace SberWifi.StableSort

variable {α : Type} (cmp : α → α → Ordering)

/-- `Collections.sort`: the stable sort by a comparator. -/
def sort (l : List α) : List α := l.insertionSort fun a b => (cmp a b).isLE

def Ordered (l : List α) : Prop := l.Pairwise fun a b => (cmp a b).isLE

theorem sort_perm (l : List α) : (sort cmp l).Perm l := l.perm_insertionSort _

@[simp] theorem mem_sort {l : List α} {a : α} : a ∈ sort cmp l ↔ a ∈ l := (sort_perm cmp l).mem_iff

theorem sort_ordered [Std.TransCmp cmp] (l : List α) : Ordered cmp (sort cmp l) := by
  have htotal : Std.Total fun a b => (cmp a b).isLE = true :=
    ⟨fun a b => by
      have h : cmp b a = (cmp a b).swap := Std.OrientedCmp.eq_swap
      cases ho : cmp a b <;> simp [h, ho]⟩
  have htrans : IsTrans α fun a b => (cmp a b).isLE = true := ⟨fun _ _ _ => Std.TransCmp.isLE_trans⟩
  exact l.pairwise_insertionSort _

/-- Where no two elements compare equal, the sorted list does not depend on the
order of the input. -/
theorem sort_eq_of_perm [Std.TransCmp cmp] {l m : List α} (h : l.Perm m)
    (hdistinct : l.Pairwise fun a b => cmp a b ≠ .eq) : sort cmp l = sort cmp m := by
  have hsymm : Std.Symm fun a b => cmp a b = .eq → a = b :=
    ⟨fun a b hab he => (hab (Std.OrientedCmp.eq_symm he)).symm⟩
  have hpairs : l.Pairwise fun a b => cmp a b = .eq → a = b := hdistinct.imp fun h he => absurd he h
  have hunique {a b : α} (ha : a ∈ l) (hb : b ∈ l) : cmp a b = .eq → a = b :=
    hpairs.forall_of_forall (fun _ _ _ => rfl) ha hb
  have hperm : (sort cmp l).Perm (sort cmp m) :=
    (sort_perm cmp l).trans (h.trans (sort_perm cmp m).symm)
  apply hperm.eq_of_pairwise _ (sort_ordered cmp l) (sort_ordered cmp m)
  intro a b ha hb hab hba
  apply hunique ((mem_sort cmp).1 ha) (h.mem_iff.2 ((mem_sort cmp).1 hb))
  exact Std.OrientedCmp.isLE_antisymm hab hba

theorem filter_orderedInsert [Std.TransCmp cmp] (p : α → Bool) (a : α) {l : List α} (hl : Ordered cmp l) :
    (l.orderedInsert (fun a b => (cmp a b).isLE) a).filter p =
      if p a then (l.filter p).orderedInsert (fun a b => (cmp a b).isLE) a else l.filter p := by
  induction l with
  | nil => by_cases ha : p a <;> simp [ha]
  | cons b l ih =>
      have hb := List.pairwise_cons.1 hl
      by_cases hab : (cmp a b).isLE
      · have hle : ∀ c ∈ (b :: l).filter p, (cmp a c).isLE := by
          intro c hc
          rcases List.mem_cons.1 (List.mem_of_mem_filter hc) with rfl | hc
          · exact hab
          · exact Std.TransCmp.isLE_trans hab (hb.1 c hc)
        rw [List.orderedInsert_cons, if_pos hab, List.filter_cons]
        by_cases ha : p a
        · rw [if_pos ha, if_pos ha]
          cases hf : (b :: l).filter p with
          | nil => rfl
          | cons c m =>
              have hac := hle c (by rw [hf]; exact List.mem_cons_self)
              rw [List.orderedInsert_cons, if_pos hac]
        · rw [if_neg ha, if_neg ha]
      · rw [List.orderedInsert_cons, if_neg hab, List.filter_cons, List.filter_cons, ih hb.2]
        by_cases hpb : p b
        · by_cases ha : p a
          · rw [if_pos hpb, if_pos ha, if_pos ha, if_pos hpb, List.orderedInsert_cons, if_neg hab]
          · rw [if_pos hpb, if_neg ha, if_neg ha, if_pos hpb]
        · rw [if_neg hpb, if_neg hpb]

/-- Leaving elements out commutes with a stable sort. -/
theorem sort_filter [Std.TransCmp cmp] (p : α → Bool) (l : List α) :
    (sort cmp l).filter p = sort cmp (l.filter p) := by
  induction l with
  | nil => rfl
  | cons a l ih =>
      have hinsert := filter_orderedInsert cmp p a (sort_ordered cmp l)
      rw [sort, List.insertionSort_cons, List.filter_cons]
      by_cases ha : p a
      · rw [if_pos ha] at hinsert ⊢
        rw [sort, List.insertionSort_cons]
        exact hinsert.trans (congrArg (List.orderedInsert (fun a b => (cmp a b).isLE) a) ih)
      · rw [if_neg ha] at hinsert ⊢
        exact hinsert.trans ih

theorem map_sort {β : Type} {cmp' : β → β → Ordering} (f : α → β) {l : List α}
    (h : ∀ a ∈ l, ∀ b ∈ l, cmp a b = cmp' (f a) (f b)) : (sort cmp l).map f = sort cmp' (l.map f) := by
  apply List.map_insertionSort
  intro a ha b hb
  rw [h a ha b hb]

theorem sort_eq_self {l : List α} (h : Ordered cmp l) : sort cmp l = l :=
  List.Pairwise.insertionSort_eq h

theorem isLE_of_lex (first second : α → α → Ordering) {a b : α}
    (h : (compareLex first second a b).isLE) : (first a b).isLE := by
  cases he : first a b <;> simp_all [compareLex]

theorem isLE_second_of_lex (first second : α → α → Ordering) {a b : α}
    (h : (compareLex first second a b).isLE) (he : first a b = .eq) : (second a b).isLE := by
  simpa [compareLex, he] using h

end SberWifi.StableSort
