import Mathlib.Algebra.BigOperators.Group.List.Basic
import Mathlib.Algebra.Ring.Nat
import SberWifi.TimerList

namespace SberWifi.TimerRun

open IperfTime DoublyLinked Runs TimerList

structure Timeval where
  tv_sec : UInt64
  tv_usec : UInt64
  deriving DecidableEq

variable {P X : Type}

def reschedule (s : Heap P) (t : Nat) : Heap P :=
  listResort (s.setTime t (timeAddUsecs (s.timer t).time (s.timer t).usecs.toUInt64)) t

/-- One turn of the loop of `tmr_run`. A procedure may work on the timers and on the
rest of the program. -/
def callTimer (call : P → Time → Heap P × X → Heap P × X) (now : Time) (t : Nat) (s : Heap P × X) : Heap P × X :=
  let s := call (s.1.timer t).timer_proc now s
  (if (s.1.timer t).periodic then reschedule s.1 t else tmrCancel s.1 t, s.2)

/-- The loop from a timer on. The next one is read before the procedure is called. -/
def tmrRunFrom (call : P → Time → Heap P × X → Heap P × X) (now : Time) :
    Nat → Option Nat → Heap P × X → Option (Heap P × X)
  | _, none, s => some s
  | 0, some _, _ => none
  | n + 1, some t, s =>
      let next := (s.1.links t).next
      if timeCompare (s.1.timer t).time now > 0 then some s
      else tmrRunFrom call now n next (callTimer call now t s)

def tmrRun (call : P → Time → Heap P × X → Heap P × X) (now : Time) (fuel : Nat) (s : Heap P × X) :
    Option (Heap P × X) := tmrRunFrom call now fuel s.1.timers s

section Keeping

def Leaves (a : Nat) : Op P → Prop
  | .cancel t => t ≠ a
  | .destroy => False
  | _ => True

theorem mem_active_iff {s : Heap P} {a : Nat} : a ∈ s.active ↔ s.schedule a ≠ none := by
  rw [Heap.schedule]
  split <;> simp_all

theorem mem_active_step {s : Heap P} {op : Op P} {a : Nat} (h : Sound s) (hop : Valid s op) (hleaves : Leaves a op)
    (ha : a ∈ s.active) : a ∈ (step s op).active := by
  rw [mem_active_iff] at ha ⊢
  have hexpected := (step_expected s op h hop).2
  generalize (step s op).schedule = waiting at hexpected
  cases hexpected with
  | noMemory | cleanup => exact ha
  | destroy => exact hleaves.elim
  | cancel ht => rwa [Function.update_of_ne (Ne.symm hleaves)]
  | @create t now timer_proc usecs periodic malloc hnew =>
      by_cases hat : a = t
      · simp [hat]
      · rwa [Function.update_of_ne hat]
  | @reset t timer now ht =>
      by_cases hat : a = t
      · simp [hat]
      · rwa [Function.update_of_ne hat]

/-- A procedure has worked on the timers through the operations only, and has left the
running timer and the one after it in the list. -/
def Spares (s s' : Heap P) (t : Nat) : Prop :=
  ∃ ops, s' = run step s ops ∧ Along step Valid s ops ∧ ∀ op ∈ ops, Leaves t op ∧ ∀ next ∈ (s.links t).next, Leaves next op

def Behaves (call : P → Time → Heap P × X → Heap P × X) (now : Time) : Nat → Option Nat → Heap P × X → Prop
  | n + 1, some t, s => timeCompare (s.1.timer t).time now > 0 ∨
      Spares s.1 (call (s.1.timer t).timer_proc now s).1 t ∧
        Behaves call now n (s.1.links t).next (callTimer call now t s)
  | _, _, _ => True

theorem run_keeps {s : Heap P} {ops : List (Op P)} (h : Sound s) (hops : Along step Valid s ops) {a : Nat}
    (hleaves : ∀ op ∈ ops, Leaves a op) (ha : a ∈ s.active) :
    Sound (run step s ops) ∧ a ∈ (run step s ops).active := by
  induction ops generalizing s with
  | nil => exact ⟨h, ha⟩
  | cons op ops ih =>
      have hsound := (step_expected s op h hops.1).1
      have hmem := mem_active_step h hops.1 (hleaves op (by simp)) ha
      exact ih hsound hops.2 (fun op' hop' => hleaves op' (by simp [hop'])) hmem

theorem next_mem_active {s : Heap P} (h : Sound s) {t next : Nat} (ht : t ∈ s.active)
    (hnext : next ∈ (s.links t).next) : next ∈ s.active ∧ next ≠ t := by
  have hnodup := h.nodup.of_append_left
  obtain ⟨pre, post, hsplit, -⟩ := exists_split ht hnodup
  have hchain := h.active
  rw [hsplit] at hchain hnodup ⊢
  rw [hchain.links] at hnext
  have hpost : next ∈ post := List.mem_of_head? hnext
  refine ⟨by simp [hpost], ?_⟩
  rintro rfl
  exact (List.nodup_cons.1 (List.nodup_append.1 hnodup).2.1).1 hpost

/-- Whatever the procedures do otherwise, a run leaves a sound list. -/
theorem tmrRunFrom_sound {call : P → Time → Heap P × X → Heap P × X} {now : Time} {n : Nat} {t : Option Nat}
    {s r : Heap P × X} (h : Sound s.1) (hcall : Behaves call now n t s) (ht : ∀ a ∈ t, a ∈ s.1.active)
    (hr : tmrRunFrom call now n t s = some r) : Sound r.1 := by
  induction n generalizing t s with
  | zero =>
      cases t with
      | none => cases hr; exact h
      | some t => cases hr
  | succ n ih =>
      cases t with
      | none => cases hr; exact h
      | some t =>
          rw [tmrRunFrom] at hr
          split at hr
          · cases hr; exact h
          · rename_i hdue
            have hmem := ht t rfl
            obtain ⟨⟨ops, hops, halong, hleaves⟩, hrest⟩ := hcall.resolve_left hdue
            obtain ⟨hsound, hactive⟩ := run_keeps h halong (fun op hop => (hleaves op hop).1) hmem
            have hnext : ∀ a ∈ (s.1.links t).next, a ∈ (run step s.1 ops).active ∧ a ≠ t := fun a ha =>
              ⟨(run_keeps h halong (fun op hop => (hleaves op hop).2 a ha) (next_mem_active h hmem ha).1).2,
                (next_mem_active h hmem ha).2⟩
            rw [← hops] at hsound hactive hnext
            refine ih ?_ hrest (fun a ha => ?_) hr
            · rw [callTimer]
              dsimp only
              split
              · obtain ⟨l', -, hrep⟩ := Represents.resort hsound hactive _
                exact hrep.sound
              · exact (Represents.tmrCancel hsound hactive).sound
            · obtain ⟨hin, hne⟩ := hnext a ha
              rw [callTimer]
              dsimp only
              split
              · obtain ⟨l', hperm, hrep⟩ := Represents.resort hsound hactive _
                rw [reschedule, hrep.active_eq]
                exact hperm.mem_iff.2 hin
              · rw [(Represents.tmrCancel hsound hactive).active_eq]
                exact (List.mem_erase_of_ne hne).2 hin

theorem Sound.timers_eq {s : Heap P} (h : Sound s) : s.timers = s.active.head? := by
  have hhead := Segment.head_eq h.active
  rwa [Option.or_none] at hhead

theorem tmrRun_sound {call : P → Time → Heap P × X → Heap P × X} {now : Time} {fuel : Nat} {s r : Heap P × X}
    (h : Sound s.1) (hcall : Behaves call now fuel s.1.timers s) (hr : tmrRun call now fuel s = some r) :
    Sound r.1 := by
  refine tmrRunFrom_sound h hcall (fun a ha => ?_) hr
  rw [Sound.timers_eq h] at ha
  exact List.mem_of_head? ha

def cancelling (other : Option Nat) (_ : Time) (s : Heap (Option Nat) × Nat) : Heap (Option Nat) × Nat :=
  (other.elim s.1 (tmrCancel s.1), s.2 + 1)

def threeTimers : Heap (Option Nat) :=
  run step (empty fun _ => ⟨none, ⟨0, 0⟩, 0, false⟩)
    [.create ⟨5, 0⟩ (some 2) 1000000 false true, .create ⟨5, 0⟩ none 2000000 false true,
      .create ⟨5, 0⟩ none 9000000 false true]

theorem threeTimers_sound : Sound threeTimers :=
  (run_trace Sound Heap.schedule step_expected (empty_sound _) (by decide)).1

theorem cancelling_behaves : Behaves cancelling ⟨7, 0⟩ 3 threeTimers.timers (threeTimers, 0) := by
  refine .inr ⟨⟨[.cancel 2], rfl, by decide, ?_⟩, .inr ⟨⟨[], rfl, trivial, by simp⟩, trivial⟩⟩
  intro op hop
  rw [List.mem_singleton.1 hop]
  exact ⟨show 2 ≠ 0 by decide, show ∀ next ∈ some 1, 2 ≠ next by decide⟩

theorem tmrRun_sound_cancelling : ((tmrRun cancelling ⟨7, 0⟩ 3 (threeTimers, 0)).map Prod.snd = some 2) ∧
    ∀ r, tmrRun cancelling ⟨7, 0⟩ 3 (threeTimers, 0) = some r → Sound r.1 :=
  ⟨by decide, fun _ hr => tmrRun_sound threeTimers_sound cancelling_behaves hr⟩

end Keeping

section Serving

variable {s s' : Heap P} {now : Time}

def testTimers : Heap Unit :=
  run step (empty fun _ => ⟨(), ⟨0, 0⟩, 0, false⟩)
    [.create ⟨5, 0⟩ () 10000000 false true, .create ⟨5, 0⟩ () 1000000 true true]

theorem testTimers_sound : Sound testTimers := (run_trace Sound Heap.schedule step_expected (empty_sound _) (by decide)).1

def due (now : Time) (s : Heap P) (a : Nat) : Prop := (s.timer a).time.value ≤ now.value

def period (s : Heap P) (a : Nat) : Nat := (s.timer a).usecs.toUInt64.toNat

/-- What a run has done with an active timer when it has called its procedure a
number of times. -/
inductive Served (now : Time) (s s' : Heap P) (a : Nat) : Nat → Prop
  | waits (hdue : ¬ due now s a) (ha : a ∈ s'.active) (htimer : s'.timer a = s.timer a) : Served now s s' a 0
  | done (hdue : due now s a) (honce : (s.timer a).periodic = false) (ha : a ∉ s'.active) : Served now s s' a 1
  | again {k : Nat} {time : Time} (hperiodic : (s.timer a).periodic) (ha : a ∈ s'.active)
      (htimer : s'.timer a = { s.timer a with time }) (htime : time.WellFormed)
      (hlast : (s.timer a).time.value + k * period s a ≤ now.value)
      (hnext : time.value = (s.timer a).time.value + (k + 1) * period s a) : Served now s s' a (k + 1)

def nextTime (s : Heap P) (before : List Nat) (a : Nat) : Nat :=
  (s.timer a).time.value + before.count a * period s a

/-- The calls come in the order of their times. After its call, a periodic timer is
looked at again only if the one after it in the list was no later than its next
time, so it is that one that is called in between. -/
structure InOrder (now : Time) (s : Heap P) (fired : List Nat) : Prop where
  rising : ∀ before a b after, fired = before ++ a :: b :: after → nextTime s before a ≤ nextTime s (before ++ [a]) b
  again : ∀ before a after, fired = before ++ a :: after → (s.timer a).periodic →
    (a ∈ after ↔ nextTime s (before ++ [a]) a ≤ now.value ∧
      ∃ b ∈ after.head?, b ≠ a ∧ nextTime s (before ++ [a]) b ≤ nextTime s (before ++ [a]) a)

structure Timed (now : Time) (s : Heap P) : Prop where
  clock : now.WellFormed
  times : ∀ a ∈ s.active, (s.timer a).time.WellFormed

structure Regular (now : Time) (s : Heap P) : Prop extends Timed now s where
  periods : ∀ a ∈ s.active, (s.timer a).periodic →
    0 < period s a ∧ now.value + period s a < 2 ^ 32 * 1000000

theorem testTimers_regular : Regular ⟨16, 0⟩ testTimers := ⟨⟨by decide, by decide⟩, by decide⟩

def remaining (now : Time) (s : Heap P) (a : Nat) : Nat := now.value + 1 - (s.timer a).time.value

def budget (now : Time) (s : Heap P) (l : List Nat) : Nat := (l.map (remaining now s)).sum

theorem budget_perm {l l' : List Nat} (h : l.Perm l') : budget now s l = budget now s l' :=
  (h.map (remaining now s)).sum_eq

theorem budget_congr {l : List Nat} (h : ∀ a ∈ l, s'.timer a = s.timer a) : budget now s' l = budget now s l := by
  rw [budget, budget]
  refine congrArg List.sum (List.map_congr_left fun a ha => ?_)
  rw [remaining, remaining, h a ha]

theorem not_due_iff (hnow : now.WellFormed) {a : Nat} (ha : (s.timer a).time.WellFormed) :
    timeCompare (s.timer a).time now > 0 ↔ ¬ due now s a := by
  rw [gt_iff_lt, timeCompare_pos, rank_lt_iff hnow ha, due, Nat.not_le]

theorem takeWhile_pre {p : Nat → Bool} {pre : List Nat} (h : ∀ a ∈ pre, p a) (post : List Nat) :
    (pre ++ post).takeWhile p = pre ++ post.takeWhile p ∧ (pre ++ post).dropWhile p = post.dropWhile p :=
  ⟨List.takeWhile_append_of_pos h, List.dropWhile_append_of_pos h⟩

/-- Where a rescheduled timer comes to stand: right before the one that is next, if
that one is later, or else among those after it. -/
inductive Placed (s : Heap P) (t : Nat) (pre post : List Nat) : List Nat → List Nat → Prop
  | passed (hlater : ∀ c ∈ post.head?, (timeAddUsecs (s.timer t).time (s.timer t).usecs.toUInt64).rank < s.rank c) :
      Placed s t pre post (pre ++ [t]) post
  | ahead {post' : List Nat} (hperm : post'.Perm (t :: post)) (hhead : post'.head? = post.head?) {c : Nat}
      (hc : c ∈ post.head?) (hle : s.rank c ≤ (timeAddUsecs (s.timer t).time (s.timer t).usecs.toUInt64).rank) :
      Placed s t pre post pre post'

section Placed

variable {t : Nat} {pre post pre' post' : List Nat} (h : Placed s t pre post pre' post')
include h

theorem Placed.perm : (pre' ++ post').Perm (pre ++ t :: post) := by
  cases h with
  | passed =>
      rw [List.append_assoc]
      rfl
  | ahead hperm => exact hperm.append_left _

theorem Placed.subset : ∀ a ∈ post', a ∈ t :: post := by
  cases h with
  | passed => exact fun a ha => List.mem_cons_of_mem t ha
  | ahead hperm => exact fun a ha => hperm.mem_iff.1 ha

theorem Placed.pre_subset : ∀ a ∈ pre, a ∈ pre' := by
  cases h with
  | passed => exact fun a ha => List.mem_append_left _ ha
  | ahead => exact fun a ha => ha

end Placed

theorem reschedule_split {pre post spare : List Nat} {t : Nat} (h : Represents s (pre ++ t :: post) spare)
    (hlater : (s.timer t).time.rank ≤ (timeAddUsecs (s.timer t).time (s.timer t).usecs.toUInt64).rank) :
    ∃ pre' post', Represents (reschedule s t) (pre' ++ post') spare ∧ Placed s t pre post pre' post' := by
  have hnodup := h.nodup.of_append_left
  have hpre : t ∉ pre := fun hmem => (List.nodup_append.1 hnodup).2.2 t hmem t (by simp) rfl
  have hrep := h.resort_at (t := t) (by simp) (timeAddUsecs (s.timer t).time (s.timer t).usecs.toUInt64)
  rw [List.erase_append_right _ hpre, List.erase_cons_head] at hrep
  have hbehind : ∀ a ∈ pre,
      behind (s.setTime t (timeAddUsecs (s.timer t).time (s.timer t).usecs.toUInt64)) t a := by
    intro a ha
    have hne : a ≠ t := fun he => hpre (he ▸ ha)
    have hle : s.rank a ≤ s.rank t := (List.pairwise_append.1 h.sorted).2.2 a ha t (by simp)
    have hrank : s.rank a ≤ (timeAddUsecs (s.timer t).time (s.timer t).usecs.toUInt64).rank := hle.trans hlater
    simpa [behind, Heap.rank, Heap.setTime, Heap.setTimer, hne] using hrank
  obtain ⟨htake, hdrop⟩ := takeWhile_pre hbehind post
  rw [htake, hdrop, List.append_assoc] at hrep
  have hrank (c : Nat) (hc : c ≠ t) :
      behind (s.setTime t (timeAddUsecs (s.timer t).time (s.timer t).usecs.toUInt64)) t c ↔
        s.rank c ≤ (timeAddUsecs (s.timer t).time (s.timer t).usecs.toUInt64).rank := by
    simp [behind, Heap.rank, Heap.setTime, Heap.setTimer, hc]
  have hpost : t ∉ post := (List.nodup_cons.1 (List.nodup_append.1 hnodup).2.1).1
  generalize behind (s.setTime t (timeAddUsecs (s.timer t).time (s.timer t).usecs.toUInt64)) t = p at hrep hrank
  cases post with
  | nil => exact ⟨pre ++ [t], [], by simpa [reschedule] using hrep, .passed fun c hc => by cases hc⟩
  | cons c post =>
      have hiff := hrank c fun he => hpost (he ▸ List.mem_cons_self)
      cases hc : p c with
      | false =>
          rw [List.takeWhile_cons, List.dropWhile_cons, hc] at hrep
          refine ⟨pre ++ [t], c :: post, by simpa [reschedule] using hrep, .passed fun b hb => ?_⟩
          obtain rfl : c = b := Option.some.inj hb
          rw [← Nat.not_le, ← hiff, hc]
          exact Bool.false_ne_true
      | true =>
          refine ⟨pre, _, hrep, .ahead ?_ ?_ rfl (hiff.1 hc)⟩
          · refine List.perm_middle.trans ?_
            rw [List.takeWhile_append_dropWhile]
          · rw [List.takeWhile_cons, hc]
            rfl

theorem Served.congr {s₁ : Heap P} {a k : Nat} (h : Served now s₁ s' a k) (htimer : s₁.timer a = s.timer a) :
    Served now s s' a k := by
  have hdue : due now s₁ a ↔ due now s a := by rw [due, due, htimer]
  have hperiod : period s₁ a = period s a := by rw [period, period, htimer]
  cases h with
  | waits h ha ht => exact .waits (mt hdue.2 h) ha (ht.trans htimer)
  | done h honce ha => exact .done (hdue.1 h) (htimer ▸ honce) ha
  | again hp ha ht hw hlast hnext =>
      rw [htimer] at hp ht hlast hnext
      rw [hperiod] at hlast hnext
      exact .again hp ha ht hw hlast hnext

theorem Served.called {s₁ : Heap P} {t k : Nat} {time : Time} (h : Served now s₁ s' t k) (hdue : due now s t)
    (hperiodic : (s.timer t).periodic) (htimer : s₁.timer t = { s.timer t with time })
    (htime : time.WellFormed) (hvalue : time.value = (s.timer t).time.value + period s t) :
    Served now s s' t (k + 1) := by
  have hperiod : period s₁ t = period s t := by rw [period, period, htimer]
  cases h with
  | waits h ha ht =>
      refine .again hperiodic ha (ht.trans htimer) htime (by rwa [Nat.zero_mul, Nat.add_zero]) ?_
      rw [hvalue, Nat.zero_add, Nat.one_mul]
  | done h honce ha =>
      rw [htimer] at honce
      rw [hperiodic] at honce
      cases honce
  | @again k time' hp ha ht hw hlast hnext =>
      rw [htimer] at ht hlast hnext
      rw [hperiod] at hlast hnext
      dsimp only at ht hlast hnext
      rw [hvalue] at hlast hnext
      refine .again hperiodic ha ht hw ?_ ?_
      · rw [Nat.succ_mul]
        omega
      · rw [hnext, Nat.succ_mul (k + 1)]
        omega

theorem Served.due_iff {a k : Nat} (h : Served now s s' a k) : due now s a ↔ 0 < k := by
  cases h with
  | waits hdue => exact iff_of_false hdue (Nat.lt_irrefl 0)
  | done hdue => exact iff_of_true hdue Nat.one_pos
  | @again k time hperiodic ha htimer htime hlast =>
      exact iff_of_true ((Nat.le_add_right _ _).trans hlast) (Nat.succ_pos k)

def quiet (effect : P → Time → X → X) (timer_proc : P) (now : Time) (s : Heap P × X) : Heap P × X :=
  (s.1, effect timer_proc now s.2)

theorem callTimer_quiet (effect : P → Time → X → X) (t : Nat) (x : X) : callTimer (quiet effect) now t (s, x) =
    (if (s.timer t).periodic then reschedule s t else tmrCancel s t, effect (s.timer t).timer_proc now x) := rfl

theorem reschedule_timer (s : Heap P) (t : Nat) : (reschedule s t).timer =
    Function.update s.timer t { s.timer t with time := timeAddUsecs (s.timer t).time (s.timer t).usecs.toUInt64 } := by
  rw [reschedule, listResort, listAdd_timer, listRemove_timer]
  rfl

theorem Represents.value_le {pre post spare : List Nat} {t a : Nat} (h : Represents s (pre ++ t :: post) spare)
    (htimed : Timed now s) (ha : a ∈ post) : (s.timer t).time.value ≤ (s.timer a).time.value := by
  have hmem (b : Nat) (hb : b ∈ t :: post) : (s.timer b).time.WellFormed :=
    htimed.times b (by rw [h.active_eq]; exact List.mem_append_right pre hb)
  have hle : s.rank t ≤ s.rank a := List.rel_of_pairwise_cons (List.pairwise_append.1 h.sorted).2.1 ha
  by_contra hlt
  have hrank := (rank_lt_iff (hmem a (List.mem_cons_of_mem t ha)) (hmem t List.mem_cons_self)).2 (Nat.not_le.1 hlt)
  exact Nat.not_le.2 hrank hle

theorem Represents.not_due {pre post spare : List Nat} {t a : Nat} (h : Represents s (pre ++ t :: post) spare)
    (htimed : Timed now s) (ht : ¬ due now s t) (ha : a ∈ t :: post) : ¬ due now s a := by
  rcases List.mem_cons.1 ha with rfl | ha'
  · exact ht
  · exact fun hdue => ht ((Represents.value_le h htimed ha').trans hdue)

structure LoopServes (now : Time) (s s' : Heap P) (pre suf fired : List Nat) : Prop where
  sound : Sound s'
  calls : ∀ a ∈ fired, a ∈ suf
  active : ∀ a ∈ s'.active, a ∈ pre ++ suf
  passed : ∀ a ∈ pre, a ∈ s'.active ∧ s'.timer a = s.timer a
  served : ∀ a ∈ suf, Served now s s' a (fired.count a)
  first : ∀ a ∈ fired.head?, a ∈ suf.head?
  order : InOrder now s fired

theorem InOrder.nil : InOrder now s [] where
  rising before a b after h := by simp at h
  again before a after h := by simp at h

theorem InOrder.cons {s₁ : Heap P} {t : Nat} {fired : List Nat} (h : InOrder now s₁ fired)
    (hcalls : ∀ before, ∀ a ∈ fired, nextTime s₁ before a = nextTime s (t :: before) a)
    (hperiodic : ∀ a ∈ fired, (s₁.timer a).periodic = (s.timer a).periodic)
    (hfirst : ∀ b ∈ fired.head?, (s.timer t).time.value ≤ nextTime s [t] b)
    (hagain : (s.timer t).periodic → (t ∈ fired ↔ nextTime s [t] t ≤ now.value ∧
      ∃ b ∈ fired.head?, b ≠ t ∧ nextTime s [t] b ≤ nextTime s [t] t)) : InOrder now s (t :: fired) where
  rising before a b after hsplit := by
    cases before with
    | nil =>
        obtain ⟨rfl, rfl⟩ := List.cons.inj hsplit
        have hle := hfirst b rfl
        rwa [nextTime, List.count_nil, Nat.zero_mul, Nat.add_zero]
    | cons _ before =>
        obtain ⟨rfl, rfl⟩ := List.cons.inj hsplit
        have hle := h.rising before a b after rfl
        rwa [hcalls before a (by simp), hcalls _ b (by simp)] at hle
  again before a after hsplit := by
    cases before with
    | nil =>
        obtain ⟨rfl, rfl⟩ := List.cons.inj hsplit
        exact hagain
    | cons _ before =>
        obtain ⟨rfl, rfl⟩ := List.cons.inj hsplit
        intro ha
        have hcall := hcalls (before ++ [a])
        rw [h.again before a after rfl ((hperiodic a (by simp)).trans ha), hcall a (by simp)]
        refine and_congr_right fun _ => exists_congr fun b => and_congr_right fun hb => ?_
        rw [hcall b (List.mem_append_right _ (List.mem_cons_of_mem a (List.mem_of_head? hb)))]
        rfl

theorem nextTime_cons_ne {t a : Nat} (h : a ≠ t) (before : List Nat) :
    nextTime s (t :: before) a = nextTime s before a := by
  rw [nextTime, List.count_cons_of_ne (Ne.symm h), nextTime]

section OneCall

variable {pre post spare fired : List Nat} {t : Nat} (h : Represents s (pre ++ t :: post) spare)
  (hregular : Regular now s) (hdue : due now s t)
include h

theorem ne_of_split {a : Nat} (ha : a ∈ pre ∨ a ∈ post) : a ≠ t := by
  have hparts := List.nodup_append.1 h.nodup.of_append_left
  rintro rfl
  rcases ha with ha | ha
  · exact hparts.2.2 a ha a (by simp) rfl
  · exact (List.nodup_cons.1 hparts.2.1).1 ha

include hregular hdue

theorem reschedule_value (hperiodic : (s.timer t).periodic) :
    (timeAddUsecs (s.timer t).time (s.timer t).usecs.toUInt64).value = (s.timer t).time.value + period s t := by
  have hmem : t ∈ s.active := by rw [h.active_eq]; simp
  obtain ⟨-, hfit⟩ := hregular.periods t hmem hperiodic
  refine timeAddUsecs_value (hregular.times t hmem) _ ?_
  rw [due] at hdue
  rw [period] at hfit
  omega

theorem reschedule_regular {l' spare' : List Nat} (hrep : Represents (reschedule s t) l' spare')
    (hperm : l'.Perm (pre ++ t :: post)) : Regular now (reschedule s t) := by
  refine ⟨⟨hregular.clock, fun a ha => ?_⟩, fun a ha hperiodic => ?_⟩
  · rw [hrep.active_eq, hperm.mem_iff, ← h.active_eq] at ha
    rw [reschedule_timer]
    by_cases hat : a = t
    · rw [hat, Function.update_self]
      exact timeAddUsecs_wellFormed _ _
    · rw [Function.update_of_ne hat]
      exact hregular.times a ha
  · rw [hrep.active_eq, hperm.mem_iff, ← h.active_eq] at ha
    rw [period, reschedule_timer] at *
    by_cases hat : a = t
    · subst hat
      simp only [Function.update_self] at hperiodic ⊢
      exact hregular.periods a ha hperiodic
    · rw [Function.update_of_ne hat] at hperiodic ⊢
      exact hregular.periods a ha hperiodic

omit hdue in
theorem placed_value {pre' post' : List Nat} (hplaced : Placed s t pre post pre' post') :
    (∀ c ∈ post'.head?, c ∈ post.head?) ∧
      ((∃ c ∈ post.head?, (s.timer c).time.value ≤ (timeAddUsecs (s.timer t).time (s.timer t).usecs.toUInt64).value) ↔
        t ∈ post') := by
  have hwell := timeAddUsecs_wellFormed (s.timer t).time (s.timer t).usecs.toUInt64
  have htimes (c : Nat) (hc : c ∈ post.head?) : (s.timer c).time.WellFormed :=
    hregular.times c (by rw [h.active_eq]; simp [List.mem_of_head? hc])
  cases hplaced with
  | passed hlater =>
      refine ⟨fun c hc => hc, iff_of_false ?_ fun hmem => ne_of_split h (.inr hmem) rfl⟩
      rintro ⟨c, hc, hle⟩
      exact Nat.not_lt.2 hle ((rank_lt_iff hwell (htimes c hc)).1 (hlater c hc))
  | ahead hperm hhead hc hle =>
      refine ⟨fun c hc => hhead ▸ hc, iff_of_true ⟨_, hc, ?_⟩ (hperm.mem_iff.2 List.mem_cons_self)⟩
      rw [← Nat.not_lt, ← rank_lt_iff hwell (htimes _ hc), Nat.not_lt]
      exact hle

theorem order_periodic (hperiodic : (s.timer t).periodic) {pre' post' : List Nat}
    (hplaced : Placed s t pre post pre' post') (hrest : LoopServes now (reschedule s t) s' pre' post' fired) :
    InOrder now s (t :: fired) := by
  obtain ⟨hhead, hmem⟩ := placed_value h hregular hplaced
  have hvalue := reschedule_value h hregular hdue hperiodic
  have htimer : (reschedule s t).timer t =
      { s.timer t with time := timeAddUsecs (s.timer t).time (s.timer t).usecs.toUInt64 } := by
    rw [reschedule_timer, Function.update_self]
  have hother {a : Nat} (ha : a ≠ t) : (reschedule s t).timer a = s.timer a := by
    rw [reschedule_timer, Function.update_of_ne ha]
  have hnext : nextTime s [t] t = (s.timer t).time.value + period s t := by
    rw [nextTime, List.count_singleton_self, Nat.one_mul]
  have hfirst (b : Nat) (hb : b ∈ fired.head?) : b ∈ post.head? ∧ nextTime s [t] b = (s.timer b).time.value := by
    have hbpost := hhead b (hrest.first b hb)
    refine ⟨hbpost, ?_⟩
    rw [nextTime_cons_ne (ne_of_split h (.inr (List.mem_of_head? hbpost))), nextTime, List.count_nil, Nat.zero_mul,
      Nat.add_zero]
  refine hrest.order.cons (fun before a _ => ?_) (fun a _ => ?_) (fun b hb => ?_) fun _ => ?_
  · by_cases hat : a = t
    · rw [hat, nextTime, nextTime, List.count_cons_self, period, htimer, hvalue, ← period, Nat.succ_mul]
      omega
    · rw [nextTime_cons_ne hat, nextTime, nextTime, period, hother hat, ← period]
  · by_cases hat : a = t
    · rw [hat, htimer]
    · rw [hother hat]
  · obtain ⟨hbpost, heq⟩ := hfirst b hb
    rw [heq]
    exact Represents.value_le h hregular.toTimed (List.mem_of_head? hbpost)
  · -- it is called again if it is among those after the next one, and due
    have hdue' : due now (reschedule s t) t ↔ nextTime s [t] t ≤ now.value := by
      rw [due, htimer, hvalue, hnext]
    constructor
    · intro hfired
      have hpost := hrest.calls t hfired
      have hlate := hdue'.1 ((hrest.served t hpost).due_iff.2 (List.count_pos_iff.2 hfired))
      obtain ⟨c, hc, hle⟩ := hmem.2 hpost
      obtain ⟨b, hb⟩ : ∃ b, b ∈ fired.head? := by
        cases fired with
        | nil => cases hfired
        | cons b fired => exact ⟨b, rfl⟩
      obtain ⟨hbpost, heq⟩ := hfirst b hb
      obtain rfl : b = c := Option.some.inj (hbpost.symm.trans hc)
      refine ⟨hlate, b, hb, ne_of_split h (.inr (List.mem_of_head? hbpost)), ?_⟩
      rwa [heq, hnext, ← hvalue]
    · rintro ⟨hlate, b, hb, -, hle⟩
      obtain ⟨hbpost, heq⟩ := hfirst b hb
      rw [heq, hnext, ← hvalue] at hle
      have hpost := hmem.1 ⟨b, hbpost, hle⟩
      exact List.count_pos_iff.1 ((hrest.served t hpost).due_iff.1 (hdue'.2 hlate))

theorem serves_periodic (hperiodic : (s.timer t).periodic) {pre' post' : List Nat}
    (hplaced : Placed s t pre post pre' post') (hrest : LoopServes now (reschedule s t) s' pre' post' fired) :
    LoopServes now s s' pre (t :: post) (t :: fired) := by
  have hvalue := reschedule_value h hregular hdue hperiodic
  have hwell := timeAddUsecs_wellFormed (s.timer t).time (s.timer t).usecs.toUInt64
  have htimer : (reschedule s t).timer t =
      { s.timer t with time := timeAddUsecs (s.timer t).time (s.timer t).usecs.toUInt64 } := by
    rw [reschedule_timer, Function.update_self]
  have hother {a : Nat} (ha : a ≠ t) : (reschedule s t).timer a = s.timer a := by
    rw [reschedule_timer, Function.update_of_ne ha]
  have hperm := hplaced.perm
  refine ⟨hrest.sound, fun a ha => ?_, fun a ha => ?_, fun a ha => ?_, fun a ha => ?_, fun a ha => ?_,
    order_periodic h hregular hdue hperiodic hplaced hrest⟩
  · rcases List.mem_cons.1 ha with rfl | ha
    · exact List.mem_cons_self
    · exact hplaced.subset a (hrest.calls a ha)
  · exact hperm.mem_iff.1 (hrest.active a ha)
  · obtain ⟨hmem, hkept⟩ := hrest.passed a (hplaced.pre_subset a ha)
    exact ⟨hmem, hkept.trans (hother (ne_of_split h (.inl ha)))⟩
  · rcases List.mem_cons.1 ha with rfl | hpost
    · rw [List.count_cons_self]
      cases hplaced with
      | passed =>
          have hnone : fired.count a = 0 :=
            List.count_eq_zero.2 fun hmem => ne_of_split h (.inr (hrest.calls a hmem)) rfl
          obtain ⟨hmem, hkept⟩ := hrest.passed a (by simp)
          rw [hnone]
          refine .again hperiodic hmem (hkept.trans htimer) hwell ?_ ?_
          · rw [Nat.zero_mul, Nat.add_zero]
            exact hdue
          · rw [hvalue, Nat.zero_add, Nat.one_mul]
      | ahead hperm => exact (hrest.served a (hperm.mem_iff.2 ha)).called hdue hperiodic htimer hwell hvalue
    · have hne := ne_of_split h (.inr hpost)
      rw [List.count_cons_of_ne hne.symm]
      refine (hrest.served a ?_).congr (hother hne)
      cases hplaced with
      | passed => exact hpost
      | ahead hperm => exact hperm.mem_iff.2 ha
  · cases ha
    rfl

theorem serves_once (honce : (s.timer t).periodic = false)
    (hrest : LoopServes now (tmrCancel s t) s' pre post fired) :
    LoopServes now s s' pre (t :: post) (t :: fired) := by
  have hne {a : Nat} (ha : a ∈ fired) : a ≠ t := ne_of_split h (.inr (hrest.calls a ha))
  have hcalls (before : List Nat) (a : Nat) (ha : a ∈ fired) :
      nextTime (tmrCancel s t) before a = nextTime s (t :: before) a := (nextTime_cons_ne (hne ha) before).symm
  have hfirst (b : Nat) (hb : b ∈ fired.head?) : (s.timer t).time.value ≤ nextTime s [t] b := by
    have hpost := List.mem_of_head? (hrest.first b hb)
    rw [nextTime_cons_ne (ne_of_split h (.inr hpost)), nextTime, List.count_nil, Nat.zero_mul, Nat.add_zero]
    exact Represents.value_le h hregular.toTimed hpost
  refine ⟨hrest.sound, fun a ha => ?_, fun a ha => ?_, hrest.passed, fun a ha => ?_, fun a ha => ?_,
    hrest.order.cons hcalls (fun _ _ => rfl) hfirst fun hperiodic => ?_⟩
  · rcases List.mem_cons.1 ha with rfl | ha
    · simp
    · exact List.mem_cons_of_mem t (hrest.calls a ha)
  · have hin := hrest.active a ha
    simp only [List.mem_append, List.mem_cons] at hin ⊢
    exact hin.imp_right .inr
  · rcases List.mem_cons.1 ha with rfl | hpost
    · have hnone : fired.count a = 0 := List.count_eq_zero.2 fun hmem => hne hmem rfl
      rw [List.count_cons_self, hnone]
      refine .done hdue honce fun hmem => ?_
      exact ne_of_split h (List.mem_append.1 (hrest.active a hmem)) rfl
    · rw [List.count_cons_of_ne (ne_of_split h (.inr hpost)).symm]
      exact (hrest.served a hpost).congr rfl
  · cases ha
    rfl
  · rw [honce] at hperiodic
    cases hperiodic

end OneCall

theorem tmrRunFrom_serves (effect : P → Time → X → X) {n : Nat} {pre suf spare : List Nat} {s : Heap P} (x : X)
    (h : Represents s (pre ++ suf) spare) (hregular : Regular now s) (hn : budget now s suf < n) :
    ∃ s' fired, tmrRunFrom (quiet effect) now n suf.head? (s, x) =
        some (s', fired.foldl (fun x a => effect (s.timer a).timer_proc now x) x) ∧
      LoopServes now s s' pre suf fired := by
  induction n generalizing pre suf spare s x with
  | zero => exact absurd hn (Nat.not_lt_zero _)
  | succ n ih =>
      have hactive := h.active_eq
      cases suf with
      | nil =>
          refine ⟨s, [], rfl, h.sound, by simp, fun a ha => hactive ▸ ha, fun a ha => ⟨?_, rfl⟩, by simp, by simp, .nil⟩
          rw [hactive, List.append_nil]
          exact ha
      | cons t post =>
          have hmem : t ∈ s.active := by rw [hactive]; simp
          have htime := hregular.times t hmem
          by_cases hdue : due now s t
          · have hcompare := (not_due_iff hregular.clock htime).not_left.2 hdue
            have hnext : (s.links t).next = post.head? := congrArg Links.next h.active.links
            have hcost : remaining now s t ≥ 1 := by
              rw [due] at hdue
              rw [remaining]
              omega
            have hbudget : budget now s (t :: post) = remaining now s t + budget now s post := rfl
            cases hperiodic : (s.timer t).periodic with
            | true =>
                have hvalue := reschedule_value h hregular hdue hperiodic
                have hlater : (s.timer t).time.rank ≤
                    (timeAddUsecs (s.timer t).time (s.timer t).usecs.toUInt64).rank := by
                  by_contra hlt
                  rw [Nat.not_le, rank_lt_iff (timeAddUsecs_wellFormed _ _) htime] at hlt
                  omega
                obtain ⟨pre', post', hrep, hplaced⟩ := reschedule_split h hlater
                have hreg := reschedule_regular h hregular hdue hrep hplaced.perm
                have hleft : budget now (reschedule s t) post' < n := by
                  have hpost : budget now (reschedule s t) post = budget now s post := by
                    refine budget_congr fun a ha => ?_
                    rw [reschedule_timer, Function.update_of_ne (ne_of_split h (.inr ha))]
                  have hself : remaining now (reschedule s t) t < remaining now s t := by
                    have hperiod := (hregular.periods t hmem hperiodic).1
                    rw [remaining, reschedule_timer, Function.update_self, hvalue, remaining]
                    rw [due] at hdue
                    omega
                  cases hplaced with
                  | passed => omega
                  | ahead hpost' =>
                    have htotal : budget now (reschedule s t) (t :: post) =
                        remaining now (reschedule s t) t + budget now (reschedule s t) post := rfl
                    rw [budget_perm hpost', htotal]
                    omega
                have hhead : post'.head? = post.head? := by
                  cases hplaced with
                  | passed => rfl
                  | ahead _ hhead => exact hhead
                obtain ⟨s', fired, hrun, hserves⟩ := ih (effect (s.timer t).timer_proc now x) hrep hreg hleft
                refine ⟨s', t :: fired, ?_, serves_periodic h hregular hdue hperiodic hplaced hserves⟩
                have hsame : (fun x a => effect ((reschedule s t).timer a).timer_proc now x) =
                    fun x a => effect (s.timer a).timer_proc now x := by
                  funext x a
                  rw [reschedule_timer]
                  by_cases hat : a = t
                  · rw [hat, Function.update_self]
                  · rw [Function.update_of_ne hat]
                rw [hsame, hhead, ← hnext] at hrun
                rw [List.head?_cons, tmrRunFrom, if_neg hcompare, callTimer_quiet, if_pos hperiodic]
                exact hrun
            | false =>
                have hpre : t ∉ pre := fun hin => ne_of_split h (.inl hin) rfl
                have hrep := h.tmrCancel (t := t) (by simp)
                rw [List.erase_append_right _ hpre, List.erase_cons_head] at hrep
                have hreg : Regular now (tmrCancel s t) := by
                  have hsub : ∀ a ∈ (tmrCancel s t).active, a ∈ s.active := by
                    rw [hrep.active_eq, hactive]
                    intro a ha
                    simp only [List.mem_append, List.mem_cons] at ha ⊢
                    exact ha.imp_right .inr
                  exact ⟨⟨hregular.clock, fun a ha => hregular.times a (hsub a ha)⟩, fun a ha =>
                    hregular.periods a (hsub a ha)⟩
                have hleft : budget now (tmrCancel s t) post < n := by
                  have hpost : budget now (tmrCancel s t) post = budget now s post := rfl
                  omega
                obtain ⟨s', fired, hrun, hserves⟩ := ih (effect (s.timer t).timer_proc now x) hrep hreg hleft
                refine ⟨s', t :: fired, ?_, serves_once h hregular hdue hperiodic hserves⟩
                rw [← hnext] at hrun
                rw [List.head?_cons, tmrRunFrom, if_neg hcompare, callTimer_quiet, if_neg (by simp [hperiodic])]
                exact hrun
          · refine ⟨s, [], ?_, h.sound, by simp, fun a ha => hactive ▸ ha, fun a ha => ⟨?_, rfl⟩, fun a ha => ?_, by simp,
              .nil⟩
            · rw [List.head?_cons, tmrRunFrom, if_pos ((not_due_iff hregular.clock htime).2 hdue)]
              rfl
            · rw [hactive]
              exact List.mem_append_left _ ha
            · refine .waits (Represents.not_due h hregular.toTimed hdue ha) ?_ rfl
              rw [hactive]
              exact List.mem_append_right pre ha

/-- A run of procedures that leave the timers alone ends. It calls every due timer: one
that is not periodic once, and a periodic one again if another timer comes before its
next time. The others wait as before. -/
theorem tmrRun_serves (effect : P → Time → X → X) (x : X) (h : Sound s) (hregular : Regular now s) {fuel : Nat}
    (hfuel : budget now s s.active < fuel) :
    ∃ (s' : Heap P) (fired : List Nat), tmrRun (quiet effect) now fuel (s, x) =
        some (s', fired.foldl (fun x a => effect (s.timer a).timer_proc now x) x) ∧
      Sound s' ∧ (∀ a ∈ fired, a ∈ s.active) ∧ (∀ a ∈ s'.active, a ∈ s.active) ∧
      (∀ a ∈ s.active, Served now s s' a (fired.count a)) ∧ InOrder now s fired := by
  obtain ⟨s', fired, hrun, hserves⟩ :=
    tmrRunFrom_serves effect x (show Represents s ([] ++ s.active) s.spare from h) hregular hfuel
  rw [← Sound.timers_eq h] at hrun
  exact ⟨s', fired, hrun, hserves.sound, hserves.calls, hserves.active, hserves.served, hserves.order⟩

theorem tmrRun_serves_test : ∃ (s' : Heap Unit) (fired : List Nat),
    tmrRun (quiet fun _ _ calls => calls + 1) ⟨16, 0⟩ 20000000 (testTimers, 0) =
        some (s', fired.foldl (fun calls _ => calls + 1) 0) ∧
      Sound s' ∧ (∀ a ∈ fired, a ∈ testTimers.active) ∧ (∀ a ∈ s'.active, a ∈ testTimers.active) ∧
      (∀ a ∈ testTimers.active, Served ⟨16, 0⟩ testTimers s' a (fired.count a)) ∧ InOrder ⟨16, 0⟩ testTimers fired :=
  tmrRun_serves (fun _ _ calls => calls + 1) 0 testTimers_sound testTimers_regular (by decide)

def Timeval.value (tv : Timeval) : Nat := tv.tv_sec.toNat * 1000000 + tv.tv_usec.toNat

end Serving

end SberWifi.TimerRun
