import Mathlib.Data.List.DropRight

namespace SberWifi.TextFields

variable {α : Type} [DecidableEq α]

/-- Java's `split` by a single separator: the fields between separators without
the empty ones at the end, and the whole text when no separator occurs. -/
def split (sep : α) (s : List α) : List (List α) :=
  if sep ∈ s then (s.splitOn sep).rdropWhile List.isEmpty else [s]

def offsets (step length : Nat) : List Nat := List.range' 0 ((length + (step - 1)) / step) step

omit [DecidableEq α] in
theorem intercalate_append_replicate (sep : α) {ls : List (List α)} (h : ls ≠ []) (k : Nat) :
    [sep].intercalate (ls ++ List.replicate k []) = [sep].intercalate ls ++ List.replicate k sep := by
  induction ls with
  | nil => exact absurd rfl h
  | cons l ls ih =>
      cases ls with
      | nil =>
          clear ih h
          induction k generalizing l with
          | zero => simp
          | succ k ih =>
              have h := ih []
              simp only [List.singleton_append] at h
              simp only [List.singleton_append, List.replicate_succ, List.intercalate_cons_cons, h,
                List.intercalate_singleton, List.append_assoc, List.nil_append]
      | cons m ls =>
          have h := ih (List.cons_ne_nil _ _)
          simp only [List.cons_append] at h
          simp only [List.cons_append, List.intercalate_cons_cons, h, List.append_assoc]

omit [DecidableEq α] in
theorem intercalate_append (sep : List α) {ls ms : List (List α)} (hls : ls ≠ []) (hms : ms ≠ []) :
    sep.intercalate (ls ++ ms) = sep.intercalate ls ++ sep ++ sep.intercalate ms := by
  induction ls with
  | nil => exact absurd rfl hls
  | cons l ls ih =>
      cases ls with
      | nil =>
          rw [List.singleton_append, List.intercalate_cons_of_ne_nil hms, List.intercalate_singleton]
      | cons m ls =>
          have h := ih (List.cons_ne_nil m ls)
          simp only [List.cons_append] at h
          simp only [List.cons_append, List.intercalate_cons_cons, h, List.append_assoc]

omit [DecidableEq α] in
theorem rdropWhile_append_replicate (ls : List (List α)) (hlast : ∀ l ∈ ls.getLast?, l ≠ []) (k : Nat) :
    (ls ++ List.replicate k []).rdropWhile List.isEmpty = ls := by
  induction k with
  | zero =>
      rw [List.replicate_zero, List.append_nil, List.rdropWhile_eq_self_iff]
      intro hl hempty
      exact hlast _ (List.getLast?_eq_getLast_of_ne_nil hl) (List.isEmpty_iff.1 hempty)
  | succ k ih =>
      rw [List.replicate_succ', ← List.append_assoc, List.rdropWhile_concat_pos _ _ _ rfl, ih]

/-- Splitting gives back the fields that were joined, whatever number of
separators follows the last of them. -/
theorem split_intercalate (sep : α) {ls : List (List α)} (hls : ls ≠ []) (hsep : ∀ l ∈ ls, sep ∉ l)
    (hlast : ∀ l ∈ ls.getLast?, l ≠ []) (k : Nat) :
    split sep ([sep].intercalate ls ++ List.replicate k sep) = ls := by
  have hsep' : ∀ l ∈ ls ++ List.replicate k [], sep ∉ l := by
    intro l hl
    rcases List.mem_append.1 hl with hl | hl
    · exact hsep l hl
    · rw [(List.mem_replicate.1 hl).2]
      exact List.not_mem_nil
  have hjoin := List.splitOn_intercalate sep hsep' (by simp [hls])
  rw [intercalate_append_replicate sep hls] at hjoin
  unfold split
  split_ifs with hmem
  · rw [hjoin, rdropWhile_append_replicate ls hlast]
  · rw [List.splitOn_eq_singleton hmem] at hjoin
    have hlen := congrArg List.length hjoin
    have hpos := List.length_pos_iff.2 hls
    simp only [List.length_singleton, List.length_append, List.length_replicate] at hlen
    have hk : k = 0 := by omega
    subst hk
    simpa using hjoin

theorem split_separators (sep : α) (k : Nat) : split sep (List.replicate (k + 1) sep) = [] := by
  have hjoin : (List.replicate (k + 1) sep).splitOn sep = List.replicate (k + 2) [] := by
    have h := intercalate_append_replicate sep (List.cons_ne_nil ([] : List α) []) (k + 1)
    rw [List.intercalate_singleton, List.nil_append] at h
    rw [← h]
    exact List.splitOn_intercalate sep (by simp) (by simp)
  rw [split, if_pos (by simp), hjoin]
  exact rdropWhile_append_replicate [] (by simp) (k + 2)

theorem split_pair (sep : α) {l m : List α} (hl : sep ∉ l) (hm : sep ∉ m) (hne : m ≠ []) :
    split sep (l ++ sep :: m) = [l, m] := by
  have h := split_intercalate sep (List.cons_ne_nil l [m]) (by simp [hl, hm]) (by simpa using hne) 0
  simpa using h

theorem mem_offsets {step length i : Nat} (hstep : 0 < step) :
    i ∈ offsets step length ↔ ∃ k, i = step * k ∧ step * k < length := by
  simp only [offsets, List.mem_range', Nat.zero_add]
  apply exists_congr
  intro k
  rw [Nat.lt_div_iff_mul_lt hstep, Nat.mul_comm k step, and_comm]
  refine and_congr_right fun _ => ?_
  omega

omit [DecidableEq α] in
theorem infix_cons_of_not_mem {s : α} {g y : List α} (hg : s ∉ g) : g <:+: s :: y ↔ g <:+: y := by
  rw [List.infix_cons_iff]
  refine ⟨fun h => h.elim (fun hprefix => ?_) id, .inr⟩
  cases g with
  | nil => exact List.nil_infix
  | cons a g =>
      obtain rfl := (List.cons_prefix_cons.1 hprefix).1
      exact absurd List.mem_cons_self hg

omit [DecidableEq α] in
theorem eq_nil_of_not_mem_dropLast {s : α} {l m : List α} (h : s ∉ (l ++ s :: m).dropLast) : m = [] := by
  by_contra hm
  apply h
  rw [List.dropLast_append_of_ne_nil (List.cons_ne_nil s m), List.dropLast_cons_of_ne_nil hm]
  simp

omit [DecidableEq α] in
/-- A part of a text that holds a separator at its end only does not reach over
one. -/
theorem infix_separator_iff {s : α} {g x y : List α} (hg : s ∉ g.dropLast) :
    g <:+: x ++ s :: y ↔ g <:+: x ++ [s] ∨ g <:+: y := by
  constructor
  · rintro ⟨l, r, h⟩
    rcases List.append_eq_append_iff.1 h with ⟨m, rfl, -⟩ | ⟨m, hx, hy⟩
    · exact .inl ⟨l, m ++ [s], by simp⟩
    cases m with
    | nil => exact .inl ⟨l, [s], by rw [hx, List.append_nil]⟩
    | cons c m =>
        obtain ⟨rfl, rfl⟩ := List.cons.inj hy
        rcases List.append_eq_append_iff.1 hx with ⟨n, rfl, rfl⟩ | ⟨n, rfl, hm⟩
        · obtain rfl := eq_nil_of_not_mem_dropLast hg
          exact .inl ⟨l, [], by simp⟩
        · cases n with
          | nil =>
              obtain rfl : s :: m = g := hm
              obtain rfl := eq_nil_of_not_mem_dropLast (l := []) hg
              exact .inl ⟨x, [], by simp⟩
          | cons d n =>
              obtain ⟨rfl, rfl⟩ := List.cons.inj hm
              exact .inr ⟨n, r, rfl⟩
  · rintro (h | h)
    · exact h.trans ⟨[], y, by simp⟩
    · exact h.trans ⟨x ++ [s], [], by simp⟩

omit [DecidableEq α] in
theorem exists_next {s : α} {g : List α} (h : s ∈ g.dropLast) : ∃ c, [s, c] <:+: g := by
  induction g with
  | nil => exact absurd h List.not_mem_nil
  | cons a g ih =>
      cases g with
      | nil => exact absurd h List.not_mem_nil
      | cons b g =>
          rw [List.dropLast_cons_of_ne_nil (List.cons_ne_nil b g)] at h
          rcases List.mem_cons.1 h with rfl | h
          · exact ⟨b, [], g, rfl⟩
          · obtain ⟨c, hc⟩ := ih h
            exact ⟨c, hc.trans (List.suffix_cons a _).isInfix⟩

end SberWifi.TextFields
