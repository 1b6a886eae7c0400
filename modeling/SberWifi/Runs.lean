import Mathlib.Logic.Basic
import Mathlib.Order.Basic

namespace SberWifi.Runs

variable {S T E : Type} (step : S → E → S)

def run (s : S) (events : List E) : S := events.foldl step s

/-- Every event of a run meets a condition together with the state it is taken in. -/
def Along (P : S → E → Prop) : S → List E → Prop
  | _, [] => True
  | s, e :: events => P s e ∧ Along P (step s e) events

instance decidableAlong {P : S → E → Prop} [∀ s e, Decidable (P s e)] :
    ∀ (s : S) (events : List E), Decidable (Along step P s events)
  | _, [] => .isTrue trivial
  | s, e :: events => @instDecidableAnd _ _ _ (decidableAlong (step s e) events)

@[simp] theorem run_nil (s : S) : run step s [] = s := rfl

@[simp] theorem run_cons (s : S) (e : E) (events : List E) :
    run step s (e :: events) = run step (step s e) events := rfl

@[simp] theorem run_append (s : S) (events events' : List E) :
    run step s (events ++ events') = run step (run step s events) events' :=
  List.foldl_append

variable {step}

theorem along_append {P : S → E → Prop} (s : S) (events events' : List E) :
    Along step P s (events ++ events') ↔
      Along step P s events ∧ Along step P (run step s events) events' := by
  induction events generalizing s with
  | nil => simp [Along]
  | cons e events ih => simp only [List.cons_append, Along, ih, run_cons, and_assoc]

theorem along_of_forall {Q : E → Prop} {events : List E} (h : ∀ e ∈ events, Q e) (s : S) :
    Along step (fun _ e => Q e) s events := by
  induction events generalizing s with
  | nil => trivial
  | cons e events ih =>
      exact ⟨h e List.mem_cons_self, ih (fun e' he => h e' (List.mem_cons_of_mem e he)) _⟩

theorem run_invariant (inv : S → Prop) {P : S → E → Prop}
    (hstep : ∀ s e, inv s → P s e → inv (step s e)) {s : S} (hs : inv s) {events : List E}
    (h : Along step P s events) : inv (run step s events) := by
  induction events generalizing s with
  | nil => exact hs
  | cons e events ih => exact ih (hstep s e hs h.1) h.2

theorem along_of_invariant (inv : S → Prop) {P Q : S → E → Prop}
    (hstep : ∀ s e, inv s → P s e → inv (step s e)) (hQ : ∀ s e, inv s → P s e → Q s e) {s : S}
    (hs : inv s) {events : List E} (h : Along step P s events) : Along step Q s events := by
  induction events generalizing s with
  | nil => trivial
  | cons e events ih => exact ⟨hQ s e hs h.1, ih (hstep s e hs h.1) h.2⟩

/-- Two conditions that agree wherever the invariant holds, one of which keeps
it, hold along the same runs. -/
theorem along_iff_of_invariant (inv : S → Prop) {P Q : S → E → Prop} (hPQ : ∀ s e, inv s → (P s e ↔ Q s e))
    (hstep : ∀ s e, inv s → Q s e → inv (step s e)) {s : S} (hs : inv s) (events : List E) :
    Along step P s events ↔ Along step Q s events := by
  induction events generalizing s with
  | nil => exact Iff.rfl
  | cons e events ih =>
      constructor
      · rintro ⟨hp, hrest⟩
        have hq := (hPQ s e hs).1 hp
        exact ⟨hq, (ih (hstep s e hs hq)).1 hrest⟩
      · rintro ⟨hq, hrest⟩
        exact ⟨(hPQ s e hs).2 hq, (ih (hstep s e hs hq)).2 hrest⟩

/-- A condition on the events of one system says the same as a condition on the
same events in a related system, when they agree step by step. -/
theorem along_iff_of_related {step' : T → E → T} (R : S → T → Prop) {P : S → E → Prop} {Q : T → E → Prop}
    (hstep : ∀ s t e, R s t → R (step s e) (step' t e)) (hPQ : ∀ s t e, R s t → (P s e ↔ Q t e))
    {s : S} {t : T} (h : R s t) (events : List E) :
    Along step P s events ↔ Along step' Q t events := by
  induction events generalizing s t with
  | nil => exact Iff.rfl
  | cons e events ih => exact and_congr (hPQ s t e h) (ih (hstep s t e h))

/-- What no step can restore holds after a run when it holds after each step. -/
theorem run_iff_along (W : S → Prop) (hback : ∀ s e, W (step s e) → W s) (s : S) (events : List E) :
    W (run step s events) ↔ W s ∧ Along step (fun s e => W (step s e)) s events := by
  induction events generalizing s with
  | nil => exact (and_iff_left trivial).symm
  | cons e events ih =>
      rw [run_cons, ih]
      constructor
      · rintro ⟨hstep, hrest⟩
        exact ⟨hback s e hstep, hstep, hrest⟩
      · rintro ⟨-, hstep, hrest⟩
        exact ⟨hstep, hrest⟩

inductive Trace (R : T → E → T → Prop) : T → List E → T → Prop
  | nil (t : T) : Trace R t [] t
  | cons {t t' t'' : T} {e : E} {events : List E} (h : R t e t') (hrest : Trace R t' events t'') :
      Trace R t (e :: events) t''

/-- A run is a trace of what its steps are specified to do, and keeps an
invariant. -/
theorem run_trace (inv : S → Prop) {P : S → E → Prop} {R : T → E → T → Prop} (abstraction : S → T)
    (hstep : ∀ s e, inv s → P s e → inv (step s e) ∧ R (abstraction s) e (abstraction (step s e)))
    {s : S} (hs : inv s) {events : List E} (h : Along step P s events) :
    inv (run step s events) ∧ Trace R (abstraction s) events (abstraction (run step s events)) := by
  induction events generalizing s with
  | nil => exact ⟨hs, .nil _⟩
  | cons e events ih =>
      obtain ⟨hinv, hR⟩ := hstep s e hs h.1
      obtain ⟨hinv', htrace⟩ := ih hinv h.2
      exact ⟨hinv', .cons hR htrace⟩

end SberWifi.Runs
