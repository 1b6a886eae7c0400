import SberWifi.TextFields

namespace SberWifi.BracketTokens

open TextFields

variable {α : Type} [DecidableEq α]

/-- Replacement of every occurrence of a nonempty `old`, from left to right.
The number tells how much of the present occurrence is still to be passed. -/
def replaceFrom (old new : List α) : Nat → List α → List α
  | _, [] => []
  | skip + 1, _ :: s => replaceFrom old new skip s
  | 0, c :: s =>
      if old <+: c :: s then new ++ replaceFrom old new (old.length - 1) s
      else c :: replaceFrom old new 0 s

def replace (old new s : List α) : List α := replaceFrom old new 0 s

/-- The pieces between separators, without the empty ones at the end. -/
def fields (sep : α) (s : List α) : List (List α) := (s.splitOn sep).rdropWhile List.isEmpty

def render (opening closing sep : α) (groups : List (List (List α))) : List α :=
  groups.flatMap fun g => opening :: ([sep].intercalate g ++ [closing])

def unwrap (opening closing sep : α) (s : List α) : List α :=
  replace [opening] [] (replace [closing] [] (replace [closing, opening] [sep] s))

theorem replaceFrom_pass (old new s t : List α) :
    replaceFrom old new s.length (s ++ t) = replaceFrom old new 0 t := by
  induction s with
  | nil => rfl
  | cons c s ih => exact ih

theorem replace_of_not_isPrefix {old s : List α} {c : α} (new : List α) (h : ¬ old <+: c :: s) :
    replace old new (c :: s) = c :: replace old new s := by
  rw [replace, replaceFrom, if_neg h]
  rfl

theorem replace_append {old : List α} (h : old ≠ []) (new s : List α) :
    replace old new (old ++ s) = new ++ replace old new s := by
  cases old with
  | nil => exact absurd rfl h
  | cons c old =>
      have hprefix : c :: old <+: c :: (old ++ s) := List.prefix_append (c :: old) s
      rw [List.cons_append, replace, replaceFrom, if_pos hprefix]
      exact congrArg (new ++ ·) (replaceFrom_pass (c :: old) new old s)

theorem replace_append_of_not_mem {a : α} {s : List α} (h : a ∉ s) (old new t : List α) :
    replace (a :: old) new (s ++ t) = s ++ replace (a :: old) new t := by
  induction s with
  | nil => rfl
  | cons c s ih =>
      have hc : ¬ a :: old <+: c :: (s ++ t) := fun hp =>
        h ((List.cons_prefix_cons.1 hp).1 ▸ List.mem_cons_self)
      rw [List.cons_append, replace_of_not_isPrefix new hc, ih fun ha => h (List.mem_cons_of_mem c ha)]
      rfl

theorem replace_singleton (a : α) (s : List α) : replace [a] [] s = s.filter (· ≠ a) := by
  induction s with
  | nil => rfl
  | cons c s ih =>
      by_cases hc : c = a
      · subst hc
        rw [List.filter_cons_of_neg (by simp), ← ih]
        exact replace_append (List.cons_ne_nil c []) [] s
      · have hprefix : ¬ [a] <+: c :: s := fun hp => hc (List.cons_prefix_cons.1 hp).1.symm
        rw [replace_of_not_isPrefix [] hprefix, List.filter_cons_of_pos (by simpa using hc), ih]

theorem mem_fields {sep : α} {s t : List α} (ht : t ≠ []) : t ∈ fields sep s ↔ t ∈ s.splitOn sep := by
  have hsplit := List.rdropWhile_append_rtakeWhile (p := List.isEmpty) (l := s.splitOn sep)
  constructor
  · exact fun h => (List.rdropWhile_prefix _ _).subset h
  · intro h
    rw [← hsplit, List.mem_append] at h
    refine h.resolve_right fun hlast => ht ?_
    exact List.isEmpty_iff.1 (List.mem_rtakeWhile_imp hlast)

omit [DecidableEq α] in
theorem mem_of_mem_intercalate {sep c : α} {ls : List (List α)} (h : c ∈ [sep].intercalate ls) :
    c = sep ∨ ∃ l ∈ ls, c ∈ l := by
  induction ls with
  | nil => exact absurd h List.not_mem_nil
  | cons l ls ih =>
      cases ls with
      | nil => exact .inr ⟨l, List.mem_cons_self, by simpa using h⟩
      | cons m ls =>
          rw [List.intercalate_cons_cons, List.mem_append, List.mem_append, List.mem_singleton] at h
          rcases h with (h | h) | h
          · exact .inr ⟨l, List.mem_cons_self, h⟩
          · exact .inl h
          · exact (ih h).imp_right fun ⟨k, hk, hc⟩ => ⟨k, List.mem_cons_of_mem l hk, hc⟩

/-- A group without tokens is written like one with an empty token. -/
def written (g : List (List α)) : List (List α) := if g.isEmpty then [[]] else g

omit [DecidableEq α] in
theorem written_ne_nil (g : List (List α)) : written g ≠ [] := by
  cases g <;> simp [written]

omit [DecidableEq α] in
theorem intercalate_written (sep : α) (g : List (List α)) :
    [sep].intercalate (written g) = [sep].intercalate g := by
  cases g <;> simp [written]

omit [DecidableEq α] in
theorem mem_flatMap_written {groups : List (List (List α))} {t : List α} (ht : t ≠ []) :
    t ∈ groups.flatMap written ↔ ∃ g ∈ groups, t ∈ g := by
  rw [List.mem_flatMap]
  refine exists_congr fun g => and_congr_right fun _ => ?_
  cases g with
  | nil => simp [written, ht]
  | cons u g => simp [written]

omit [DecidableEq α] in
theorem intercalate_groups (sep : α) (groups : List (List (List α))) :
    [sep].intercalate (groups.map [sep].intercalate) = [sep].intercalate (groups.flatMap written) := by
  induction groups with
  | nil => rfl
  | cons g groups ih =>
      cases groups with
      | nil => simp [intercalate_written]
      | cons h groups =>
          have hrest : (h :: groups).flatMap written ≠ [] := by
            simp [written_ne_nil]
          have happend := intercalate_append [sep] (written_ne_nil g) hrest
          rw [intercalate_written, ← List.flatMap_cons] at happend
          rw [List.map_cons, List.map_cons, List.intercalate_cons_cons, ← List.map_cons, ih, happend]

section Brackets

variable {opening closing sep : α}

def Free (opening closing sep : α) (t : List α) : Prop := opening ∉ t ∧ closing ∉ t ∧ sep ∉ t

omit [DecidableEq α] in
theorem not_mem_intercalate {c : α} {ls : List (List α)} (hc : c ≠ sep) (h : ∀ l ∈ ls, c ∉ l) :
    c ∉ [sep].intercalate ls := by
  intro hmem
  rcases mem_of_mem_intercalate hmem with rfl | ⟨l, hl, hcl⟩
  · exact hc rfl
  · exact h l hl hcl

/-- What follows the first opening bracket: at each joint of two groups the
brackets become a separator. -/
theorem replace_joints (hclosing : closing ≠ sep) (g : List (List α)) (groups : List (List (List α)))
    (hfree : ∀ g' ∈ g :: groups, ∀ t ∈ g', closing ∉ t) :
    replace [closing, opening] [sep] ([sep].intercalate g ++ closing :: render opening closing sep groups) =
      [sep].intercalate ((g :: groups).map [sep].intercalate) ++ [closing] := by
  induction groups generalizing g with
  | nil =>
      have hg := not_mem_intercalate hclosing (hfree g List.mem_cons_self)
      have hend : ¬ [closing, opening] <+: [closing] := fun h => absurd h.length_le (by simp)
      rw [replace_append_of_not_mem hg, render, List.flatMap_nil, replace_of_not_isPrefix _ hend]
      simp [replace, replaceFrom]
  | cons h groups ih =>
      have hg := not_mem_intercalate hclosing (hfree g List.mem_cons_self)
      have hrest := ih h fun g' hg' => hfree g' (List.mem_cons_of_mem g hg')
      have hjoint : closing :: render opening closing sep (h :: groups) = [closing, opening] ++
          ([sep].intercalate h ++ closing :: render opening closing sep groups) := by
        simp [render]
      rw [replace_append_of_not_mem hg, hjoint, replace_append (List.cons_ne_nil _ _), hrest]
      simp

theorem unwrap_render (hopening : opening ≠ closing) (hopening' : opening ≠ sep) (hclosing : closing ≠ sep)
    (groups : List (List (List α))) (hfree : ∀ g ∈ groups, ∀ t ∈ g, Free opening closing sep t) :
    unwrap opening closing sep (render opening closing sep groups) =
      [sep].intercalate (groups.flatMap written) := by
  cases groups with
  | nil => rfl
  | cons g groups =>
      have hfirst : ¬ [closing, opening] <+:
          opening :: ([sep].intercalate g ++ closing :: render opening closing sep groups) :=
        fun h => hopening (List.cons_prefix_cons.1 h).1.symm
      have hrender : render opening closing sep (g :: groups) =
          opening :: ([sep].intercalate g ++ closing :: render opening closing sep groups) := by
        simp [render]
      rw [unwrap, hrender, replace_of_not_isPrefix _ hfirst,
        replace_joints hclosing g groups fun g' hg' t ht => (hfree g' hg' t ht).2.1, intercalate_groups,
        replace_singleton, replace_singleton]
      have hbrackets : ∀ c ∈ [sep].intercalate ((g :: groups).flatMap written),
          c ≠ opening ∧ c ≠ closing := by
        intro c hc
        rcases mem_of_mem_intercalate hc with rfl | ⟨t, ht, hct⟩
        · exact ⟨hopening'.symm, hclosing.symm⟩
        · obtain ⟨g', hg', ht⟩ := (mem_flatMap_written (List.ne_nil_of_mem hct)).1 ht
          have hmarks := hfree g' hg' t ht
          exact ⟨ne_of_mem_of_not_mem hct hmarks.1, ne_of_mem_of_not_mem hct hmarks.2.1⟩
      rw [List.filter_filter, List.filter_cons_of_neg (by simp), List.filter_append,
        List.filter_cons_of_neg (by simp), List.filter_nil, List.append_nil]
      exact List.filter_eq_self.2 fun c hc => by simp [hbrackets c hc]

/-- Unwrapping and splitting finds each token of each group and nothing else. -/
theorem mem_fields_unwrap_render (hopening : opening ≠ closing) (hopening' : opening ≠ sep)
    (hclosing : closing ≠ sep) {groups : List (List (List α))}
    (hfree : ∀ g ∈ groups, ∀ t ∈ g, Free opening closing sep t) {t : List α} (ht : t ≠ []) :
    t ∈ fields sep (unwrap opening closing sep (render opening closing sep groups)) ↔
      ∃ g ∈ groups, t ∈ g := by
  rw [mem_fields ht, unwrap_render hopening hopening' hclosing groups hfree]
  cases groups with
  | nil => simp [ht]
  | cons g groups =>
      have hsep : ∀ u ∈ (g :: groups).flatMap written, sep ∉ u := by
        intro u hu hmem
        obtain ⟨g', hg', hu⟩ := (mem_flatMap_written (List.ne_nil_of_mem hmem)).1 hu
        exact (hfree g' hg' u hu).2.2 hmem
      rw [List.splitOn_intercalate sep hsep (by simp [written_ne_nil]), mem_flatMap_written ht]

end Brackets

end SberWifi.BracketTokens
