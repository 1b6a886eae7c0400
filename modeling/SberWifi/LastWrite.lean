import Mathlib.Data.List.Induction

namespace SberWifi.LastWrite

variable {α β : Type} (writes : α → Bool) (value : α → β)

/-- What a cell holds after a sequence of actions, where an action either
writes its value or leaves the cell alone. -/
def lastWrite (initial : Option β) (l : List α) : Option β :=
  l.foldl (fun cell a => if writes a then some (value a) else cell) initial

theorem lastWrite_of_silent (initial : Option β) {l : List α} (h : ∀ a ∈ l, ¬ writes a) :
    lastWrite writes value initial l = initial := by
  induction l with
  | nil => rfl
  | cons a l ih =>
      have ha := h a List.mem_cons_self
      rw [lastWrite, List.foldl_cons, if_neg ha]
      exact ih fun b hb => h b (List.mem_cons_of_mem a hb)

theorem lastWrite_of_last (initial : Option β) {l m : List α} {a : α} (ha : writes a)
    (hm : ∀ b ∈ m, ¬ writes b) : lastWrite writes value initial (l ++ a :: m) = some (value a) := by
  rw [lastWrite, List.foldl_append, List.foldl_cons, if_pos ha]
  exact lastWrite_of_silent writes value _ hm

theorem lastWrite_cases (initial : Option β) (l : List α) :
    ((∀ a ∈ l, ¬ writes a) ∧ lastWrite writes value initial l = initial) ∨
      ∃ l₁ a l₂, l = l₁ ++ a :: l₂ ∧ writes a ∧ (∀ b ∈ l₂, ¬ writes b) ∧
        lastWrite writes value initial l = some (value a) := by
  induction l using List.reverseRecOn with
  | nil => exact .inl ⟨by simp, rfl⟩
  | append_singleton l a ih =>
      have hstep : lastWrite writes value initial (l ++ [a]) =
          if writes a then some (value a) else lastWrite writes value initial l := by
        simp [lastWrite, List.foldl_append]
      by_cases ha : writes a
      · exact .inr ⟨l, a, [], rfl, ha, by simp, by rw [hstep, if_pos ha]⟩
      · rw [hstep, if_neg ha]
        rcases ih with ⟨hsilent, h⟩ | ⟨l₁, b, l₂, rfl, hb, hsilent, h⟩
        · refine .inl ⟨?_, h⟩
          intro b hb
          rcases List.mem_append.1 hb with hb | hb
          · exact hsilent b hb
          · rwa [List.mem_singleton.1 hb]
        · refine .inr ⟨l₁, b, l₂ ++ [a], by simp, hb, ?_, h⟩
          intro c hc
          rcases List.mem_append.1 hc with hc | hc
          · exact hsilent c hc
          · rwa [List.mem_singleton.1 hc]

/-- A cell of a state that every action either writes or leaves alone. -/
theorem lastWrite_field {S : Type} (step : S → α → S) (field : S → β)
    (hstep : ∀ s a, field (step s a) = if writes a then value a else field s) (s : S) (l : List α) :
    some (field (l.foldl step s)) = lastWrite writes value (some (field s)) l := by
  induction l generalizing s with
  | nil => rfl
  | cons a l ih =>
      rw [List.foldl_cons, ih, lastWrite, lastWrite, List.foldl_cons, hstep]
      by_cases ha : writes a
      · rw [if_pos ha, if_pos ha]
      · rw [if_neg ha, if_neg ha]

end SberWifi.LastWrite
