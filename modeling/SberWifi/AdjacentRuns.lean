import Mathlib.Data.List.Infix
import Mathlib.Data.List.Triplewise
import Mathlib.Order.Defs.Unbundled

namespace SberWifi.AdjacentRuns

variable {α : Type} (R : α → α → Prop) [DecidableRel R]

def keep (last : α) : List α → List α
  | [] => []
  | a :: l => if R a last then keep last l else a :: keep a l

def skipped (last : α) : List α → List α
  | [] => []
  | a :: l => if R a last then a :: skipped last l else skipped a l

def following (previous : α) : List α → List α
  | [] => []
  | a :: l => if R a previous then a :: following a l else following a l

def Unbroken (l : List α) : Prop := l.Triplewise fun a b c => R a c → R a b

theorem keep_append_skipped_perm (last : α) (l : List α) : (keep R last l ++ skipped R last l).Perm l := by
  induction l generalizing last with
  | nil => simp [keep, skipped]
  | cons a l ih =>
      by_cases h : R a last
      · simp only [keep, skipped, h, if_true]
        exact List.perm_middle.trans ((ih last).cons a)
      · simp only [keep, skipped, h, if_false, List.cons_append]
        exact (ih a).cons a

theorem following_subset (p : α) (l : List α) : following R p l ⊆ l := by
  induction l generalizing p with
  | nil => simp [following]
  | cons a l ih =>
      have h := List.subset_cons_of_subset a (ih a)
      by_cases hr : R a p <;> simpa [following, hr] using h

theorem adjacent_cons {p x a d : α} {l : List α} :
    [a, d] <:+: p :: x :: l ↔ (a = p ∧ d = x) ∨ [a, d] <:+: x :: l := by
  rw [List.infix_cons_iff]
  simp [List.cons_prefix_cons]

theorem not_adjacent_singleton {p a d : α} : ¬ [a, d] <:+: [p] := by
  intro h
  simpa using h.length_le

theorem mem_following {p d : α} {l : List α} :
    d ∈ following R p l ↔ ∃ a, [a, d] <:+: p :: l ∧ R d a := by
  induction l generalizing p with
  | nil => simp [following, not_adjacent_singleton]
  | cons x l ih =>
      have hsplit : (∃ a, [a, d] <:+: p :: x :: l ∧ R d a) ↔
          (d = x ∧ R x p) ∨ d ∈ following R x l := by
        simp only [adjacent_cons, ih, or_and_right, exists_or]
        constructor
        · rintro (⟨a, ⟨rfl, rfl⟩, h⟩ | h)
          · exact .inl ⟨rfl, h⟩
          · exact .inr h
        · rintro (⟨rfl, h⟩ | h)
          · exact .inl ⟨p, ⟨rfl, rfl⟩, h⟩
          · exact .inr h
      rw [hsplit]
      by_cases hr : R x p <;> simp [following, hr]

/-- Two images of a list that are related alike have the same elements there. -/
theorem following_map {β : Type} {f g : β → α} {l : List β} {p q : α}
    (h : ∀ a ∈ l, ∀ b ∈ l, R (f a) (f b) ↔ R (g a) (g b)) (hfirst : ∀ a ∈ l, R (f a) p ↔ R (g a) q) :
    ∃ m, m ⊆ l ∧ following R p (l.map f) = m.map f ∧ following R q (l.map g) = m.map g := by
  induction l generalizing p q with
  | nil => exact ⟨[], List.Subset.refl _, rfl, rfl⟩
  | cons a l ih =>
      obtain ⟨m, hm, hf, hg⟩ := ih (p := f a) (q := g a)
        (fun b hb c hc => h b (List.mem_cons_of_mem a hb) c (List.mem_cons_of_mem a hc))
        fun b hb => h b (List.mem_cons_of_mem a hb) a List.mem_cons_self
      have ha := hfirst a List.mem_cons_self
      rw [List.map_cons, List.map_cons, following, following]
      by_cases hr : R (f a) p
      · refine ⟨a :: m, List.cons_subset_cons a hm, ?_, ?_⟩
        · rw [if_pos hr, hf, List.map_cons]
        · rw [if_pos (ha.1 hr), hg, List.map_cons]
      · refine ⟨m, List.subset_cons_of_subset a hm, ?_, ?_⟩
        · rw [if_neg hr, hf]
        · rw [if_neg (mt ha.2 hr), hg]

section PartialEquivalence

variable [Std.Symm R] [IsTrans α R]

omit [DecidableRel R] in
theorem related_congr {a b : α} (h : R a b) (c : α) : R c a ↔ R c b :=
  ⟨fun hc => IsTrans.trans _ _ _ hc h, fun hc => IsTrans.trans _ _ _ hc (Std.Symm.symm _ _ h)⟩

/-- Comparing with the last element kept finds the same elements as comparing
with the direct predecessor, because a skipped predecessor is related to the
element that was kept before it. -/
theorem keep_eq_following {last p : α} (h : ∀ x, R x last ↔ R x p) (l : List α) :
    keep R last l = following (fun d a => ¬ R d a) p l := by
  induction l generalizing last p with
  | nil => rfl
  | cons a l ih =>
      by_cases hr : R a p
      · have hl : R a last := (h a).2 hr
        simp only [keep, following, hr, hl, if_true, not_true_eq_false, if_false]
        exact ih fun x => (related_congr R hl x).symm
      · have hl : ¬ R a last := fun hl => hr ((h a).1 hl)
        simp only [keep, following, hr, hl, if_false, not_false_eq_true, if_true]
        rw [ih fun x => Iff.rfl]

theorem skipped_eq_following {last p : α} (h : ∀ x, R x last ↔ R x p) (l : List α) :
    skipped R last l = following R p l := by
  induction l generalizing last p with
  | nil => rfl
  | cons a l ih =>
      by_cases hr : R a p
      · have hl : R a last := (h a).2 hr
        simp only [skipped, following, hr, hl, if_true]
        rw [ih fun x => (related_congr R hl x).symm]
      · have hl : ¬ R a last := fun hl => hr ((h a).1 hl)
        simp only [skipped, following, hr, hl, if_false]
        exact ih fun x => Iff.rfl

theorem exists_related_leader {x p c : α} {l : List α} (hc : c ∈ p :: l) (h : R x c) :
    ∃ z ∈ p :: following (fun d a => ¬ R d a) p l, R x z := by
  induction l generalizing p with
  | nil => exact ⟨c, by simpa [following] using hc, h⟩
  | cons y l ih =>
      rcases List.mem_cons.1 hc with rfl | hc
      · exact ⟨c, List.mem_cons_self, h⟩
      · obtain ⟨z, hz, hxz⟩ := ih hc
        by_cases hr : R y p
        · rcases List.mem_cons.1 hz with rfl | hz
          · exact ⟨p, List.mem_cons_self, (related_congr R hr x).1 hxz⟩
          · exact ⟨z, by simp [following, hr, hz], hxz⟩
        · exact ⟨z, by simpa [following, hr] using Or.inr hz, hxz⟩

theorem leaders_unrelated_iff (p : α) (l : List α) :
    (p :: following (fun d a => ¬ R d a) p l).Pairwise (fun a b => ¬ R a b) ↔ Unbroken R (p :: l) := by
  induction l generalizing p with
  | nil => simp [following, Unbroken]
  | cons y l ih =>
      have hy := ih y
      by_cases hr : R y p
      · have hpy : R p y := Std.Symm.symm _ _ hr
        have hcongr (z : α) : R p z ↔ R y z :=
          ⟨fun hz => IsTrans.trans _ _ _ hr hz, fun hz => IsTrans.trans _ _ _ hpy hz⟩
        have hleaders : following (fun d a => ¬ R d a) p (y :: l) = following (fun d a => ¬ R d a) y l := by
          simp [following, hr]
        rw [hleaders]
        unfold Unbroken at hy ⊢
        rw [List.triplewise_cons, ← hy]
        simp only [List.pairwise_cons, hcongr]
        constructor
        · intro h
          have hu := (hy.1 (List.pairwise_cons.2 h))
          exact ⟨⟨fun c _ _ => (hcongr y).1 hpy, (List.triplewise_cons.1 hu).1⟩, h⟩
        · exact fun h => h.2
      · have hpy : ¬ R p y := fun h => hr (Std.Symm.symm _ _ h)
        have hleaders : following (fun d a => ¬ R d a) p (y :: l) =
            y :: following (fun d a => ¬ R d a) y l := by
          simp [following, hr]
        have hunbroken : Unbroken R (p :: y :: l) ↔
            (y :: l).Pairwise (fun b c => R p c → R p b) ∧ Unbroken R (y :: l) := List.triplewise_cons
        rw [hleaders, List.pairwise_cons, hy, hunbroken]
        refine and_congr_left fun _ => ⟨fun h => ?_, fun h z hz hpz => ?_⟩
        · have hnone : ∀ c ∈ y :: l, ¬ R p c := fun c hc hpc =>
            let ⟨z, hz, hpz⟩ := exists_related_leader R hc hpc
            h z hz hpz
          exact List.pairwise_of_forall_mem_list fun b _ c hc hpc => absurd hpc (hnone c hc)
        · rcases List.mem_cons.1 hz with rfl | hz
          · exact hpy hpz
          · exact hpy ((List.pairwise_cons.1 h).1 z (following_subset _ _ _ hz) hpz)

/-- A pass that starts from an element related to nothing leaves no two related
elements exactly when the related ones stood together before it. -/
theorem keep_unrelated_iff {last : α} (hlast : ∀ a, ¬ R a last) (l : List α) :
    (keep R last l).Pairwise (fun a b => ¬ R a b) ↔ Unbroken R l := by
  have hlast' (a : α) : ¬ R last a := fun h => hlast a (Std.Symm.symm _ _ h)
  have h := leaders_unrelated_iff R last l
  unfold Unbroken at h ⊢
  rw [List.triplewise_cons, List.pairwise_cons] at h
  rw [keep_eq_following R fun x => Iff.rfl]
  have hpairs : l.Pairwise fun b c => R last c → R last b :=
    List.pairwise_of_forall fun b c hc => absurd hc (hlast' c)
  have hfree : ∀ z ∈ following (fun d a => ¬ R d a) last l, ¬ R last z := fun z _ => hlast' z
  exact ⟨fun hp => (h.1 ⟨hfree, hp⟩).2, fun hu => (h.2 ⟨hpairs, hu⟩).2⟩

end PartialEquivalence

section Kinds

inductive Interleaving : List α → List α → List α → Prop
  | nil : Interleaving [] [] []
  | left (a : α) {xs ys zs : List α} (h : Interleaving xs ys zs) : Interleaving (a :: xs) ys (a :: zs)
  | right (a : α) {xs ys zs : List α} (h : Interleaving xs ys zs) : Interleaving xs (a :: ys) (a :: zs)

theorem Interleaving.filter {p : α → Bool} {xs ys zs : List α} (h : Interleaving xs ys zs)
    (hx : ∀ a ∈ xs, p a) (hy : ∀ a ∈ ys, ¬ p a) : zs.filter p = xs := by
  induction h with
  | nil => rfl
  | left a _ ih =>
      rw [List.filter_cons, if_pos (hx a List.mem_cons_self),
        ih (fun b hb => hx b (List.mem_cons_of_mem a hb)) hy]
  | right a _ ih =>
      rw [List.filter_cons, if_neg (hy a List.mem_cons_self),
        ih hx fun b hb => hy b (List.mem_cons_of_mem a hb)]

theorem Interleaving.mem {xs ys zs : List α} (h : Interleaving xs ys zs) {a : α} (ha : a ∈ zs) :
    a ∈ xs ∨ a ∈ ys := by
  induction h with
  | nil => exact .inl ha
  | left b _ ih =>
      rcases List.mem_cons.1 ha with rfl | ha
      · exact .inl List.mem_cons_self
      · exact (ih ha).imp_left (List.mem_cons_of_mem b)
  | right b _ ih =>
      rcases List.mem_cons.1 ha with rfl | ha
      · exact .inr List.mem_cons_self
      · exact (ih ha).imp_right (List.mem_cons_of_mem b)

variable (p : α → Bool)

/-- The elements of the kind that are related to the one of the kind before
them, and stand apart from it. `own` is that one, and `gap` is what was read
since. -/
def separated (own : α) (gap : List α) : List α → List α
  | [] => []
  | a :: l =>
      if p a then if gap ≠ [] ∧ R a own then a :: separated a [] l else separated a [] l
      else separated own (gap ++ [a]) l

/-- Two related elements with nothing but elements of the other kind, and at
least one of them, in between. -/
def Apart (l : List α) (d : α) : Prop :=
  ∃ a gap, a :: (gap ++ [d]) <:+: l ∧ gap ≠ [] ∧ (∀ y ∈ gap, ¬ p y) ∧ p d ∧ R d a

variable {p}

theorem prefix_gap {d a : α} {g gap l : List α} (h : g ++ [d] <+: gap ++ a :: l)
    (hg : ∀ y ∈ g, ¬ p y) (hd : p d) (hgap : ∀ y ∈ gap, ¬ p y) (ha : p a) : g = gap ∧ d = a := by
  induction g generalizing gap with
  | nil =>
      cases gap with
      | nil => exact ⟨rfl, (List.cons_prefix_cons.1 h).1⟩
      | cons y gap =>
          have hy := (List.cons_prefix_cons.1 h).1
          exact absurd (hy ▸ hd) (hgap y List.mem_cons_self)
  | cons z g ih =>
      cases gap with
      | nil =>
          have hz := (List.cons_prefix_cons.1 h).1
          exact absurd (hz ▸ ha) (hg z List.mem_cons_self)
      | cons y gap =>
          obtain ⟨rfl, htail⟩ := List.cons_prefix_cons.1 h
          obtain ⟨rfl, rfl⟩ := ih htail (fun y hy => hg y (List.mem_cons_of_mem z hy))
            fun y hy => hgap y (List.mem_cons_of_mem z hy)
          exact ⟨rfl, rfl⟩

theorem forall_mem_snoc {q : α → Prop} {l : List α} {a : α} (hl : ∀ y ∈ l, q y) (ha : q a) :
    ∀ y ∈ l ++ [a], q y := by
  intro y hy
  rcases List.mem_append.1 hy with hy | hy
  · exact hl y hy
  · exact List.mem_singleton.1 hy ▸ ha

theorem infix_of_gap {x : α} {m gap l : List α} (h : x :: m <:+: gap ++ l) (hgap : ∀ y ∈ gap, ¬ p y)
    (hx : p x) : x :: m <:+: l := by
  induction gap with
  | nil => exact h
  | cons y gap ih =>
      rcases List.infix_cons_iff.1 h with h | h
      · have hy := (List.cons_prefix_cons.1 h).1
        exact absurd (hy ▸ hx) (hgap y List.mem_cons_self)
      · exact ih h fun y' hy' => hgap y' (List.mem_cons_of_mem y hy')

variable (hR : ∀ a b, R a b → p a = p b)

include hR

theorem mem_separated (own : α) {d : α} {gap : List α} (l : List α) (hgap : ∀ y ∈ gap, ¬ p y) :
    d ∈ separated R p own gap l ↔ Apart R p (own :: (gap ++ l)) d := by
  induction l generalizing own gap with
  | nil =>
      simp only [separated, List.not_mem_nil, List.append_nil, false_iff]
      rintro ⟨a, g, h, hne, hg, hd, -⟩
      have hmem : d ∈ gap := by
        rcases List.infix_cons_iff.1 h with h | h
        · exact (List.cons_prefix_cons.1 h).2.subset (by simp)
        · exact h.subset (by simp)
      exact hgap d hmem hd
  | cons c l ih =>
      rw [separated]
      by_cases hc : p c
      · have hsplit : Apart R p (own :: (gap ++ c :: l)) d ↔
            (d = c ∧ gap ≠ [] ∧ R c own) ∨ Apart R p (c :: l) d := by
          constructor
          · rintro ⟨a, g, h, hne, hg, hd, ha⟩
            rcases List.infix_cons_iff.1 h with h | h
            · obtain ⟨rfl, htail⟩ := List.cons_prefix_cons.1 h
              obtain ⟨rfl, rfl⟩ := prefix_gap htail hg hd hgap hc
              exact .inl ⟨rfl, hne, ha⟩
            · have hpa : p a := (hR d a ha).symm.trans hd
              exact .inr ⟨a, g, infix_of_gap h hgap hpa, hne, hg, hd, ha⟩
          · rintro (⟨rfl, hne, ha⟩ | ⟨a, g, h, hrest⟩)
            · refine ⟨own, gap, ?_, hne, hgap, hc, ha⟩
              exact ⟨[], l, by simp⟩
            · exact ⟨a, g, h.trans ⟨own :: gap, [], by simp⟩, hrest⟩
        rw [hsplit, if_pos hc]
        have hl : d ∈ separated R p c [] l ↔ Apart R p (c :: l) d := ih c (by simp)
        by_cases hr : gap ≠ [] ∧ R c own
        · rw [if_pos hr, List.mem_cons, hl]
          simp [hr.1, hr.2]
        · rw [if_neg hr, hl]
          simp [hr]
      · rw [if_neg hc, ih own (forall_mem_snoc hgap hc), List.append_assoc]
        rfl

/-- The pass over the mixed list keeps, of one kind, what it keeps of that kind
alone and the elements that stand apart from their relatives. -/
theorem following_filter_perm (own previous : α) (gap l : List α) (hgap : ∀ y ∈ gap, ¬ p y)
    (hprevious : previous = (own :: gap).getLast (List.cons_ne_nil _ _)) :
    ((following (fun d a => ¬ R d a) previous l).filter p).Perm
      (following (fun d a => ¬ R d a) own (l.filter p) ++ separated R p own gap l) := by
  induction l generalizing own previous gap with
  | nil => simp [following, separated]
  | cons c l ih =>
      rw [following, separated, List.filter_cons]
      by_cases hc : p c
      · have hnext := ih c c [] (by simp) rfl
        rw [if_pos hc, if_pos hc, following]
        by_cases hgapnil : gap = []
        · subst hgapnil
          have hown : previous = own := hprevious
          simp only [hown, ne_eq, not_true_eq_false, false_and, if_false]
          by_cases hr : R c own
          · simpa [hr] using hnext
          · simpa [hr, hc] using hnext.cons c
        · have hlast : ¬ p previous := by
            rw [hprevious, List.getLast_cons hgapnil]
            exact hgap _ (List.getLast_mem hgapnil)
          have hnone : ¬ R c previous := fun h => hlast ((hR c previous h).symm.trans hc)
          by_cases hr : R c own
          · simp only [hnone, hr, hgapnil, not_true_eq_false, not_false_eq_true, if_true, if_false, ne_eq,
              and_self, List.filter_cons, hc]
            exact (hnext.cons c).trans List.perm_middle.symm
          · simpa [hnone, hr, hc] using hnext.cons c
      · have hnext := ih own c (gap ++ [c]) (forall_mem_snoc hgap hc) (by simp)
        rw [if_neg hc, if_neg hc]
        by_cases hr : R c previous
        · simpa [hr] using hnext
        · simpa [hr, hc] using hnext

end Kinds

end SberWifi.AdjacentRuns
