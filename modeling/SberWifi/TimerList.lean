import Mathlib.Data.List.Nodup
import Mathlib.Data.List.Perm.Subperm
import Mathlib.Data.List.TakeWhile
import SberWifi.DoublyLinked
import SberWifi.IperfTime
import SberWifi.Runs

namespace SberWifi.TimerList

open IperfTime DoublyLinked Runs

/-- A timer without its links. The procedure comes with its client data. -/
structure Timer (P : Type) where
  timer_proc : P
  time : Time
  usecs : Int64
  periodic : Bool

/-- Memory field by field. Addresses from `brk` on were never allocated. -/
structure Heap (P : Type) where
  timer : Nat → Timer P
  links : Nat → Links Nat
  timers : Option Nat
  free_timers : Option Nat
  brk : Nat

variable {P : Type}

def Heap.setTimer (s : Heap P) (t : Nat) (timer : Timer P) : Heap P :=
  { s with timer := Function.update s.timer t timer }

def Heap.insert (s : Heap P) (before : Option Nat) (t : Nat) (after : Option Nat) : Heap P :=
  let r := DoublyLinked.insert s.timers s.links before t after
  { s with timers := r.1, links := r.2 }

/-- The walk to the insertion point, with a bound on its length. -/
def walk (s : Heap P) (t : Nat) : Nat → Nat → Option Nat → Nat × Option Nat
  | n + 1, t2prev, some t2 =>
      if timeCompare (s.timer t).time (s.timer t2).time < 0 then (t2prev, some t2)
      else walk s t n t2 (s.links t2).next
  | _, t2prev, t2 => (t2prev, t2)

def listAdd (s : Heap P) (t : Nat) : Heap P :=
  match s.timers with
  | none => s.insert none t none
  | some first =>
      if timeCompare (s.timer t).time (s.timer first).time < 0 then s.insert none t (some first)
      else
        let place := walk s t s.brk first (s.links first).next
        s.insert (some place.1) t place.2

def listRemove (s : Heap P) (t : Nat) : Heap P :=
  let r := DoublyLinked.remove s.timers s.links t
  { s with timers := r.1, links := r.2 }

def listResort (s : Heap P) (t : Nat) : Heap P := listAdd (listRemove s t) t

def takeTimer (s : Heap P) (malloc : Bool) : Option (Nat × Heap P) :=
  match s.free_timers with
  | some t => some (t, { s with free_timers := (s.links t).next })
  | none => if malloc then some (s.brk, { s with brk := s.brk + 1 }) else none

def tmrCreate (s : Heap P) (now : Time) (timer_proc : P) (usecs : Int64) (periodic malloc : Bool) :
    Heap P × Option Nat :=
  match takeTimer s malloc with
  | none => (s, none)
  | some (t, s) =>
      (listAdd (s.setTimer t ⟨timer_proc, timeAddUsecs now usecs.toUInt64, usecs, periodic⟩) t, some t)

def Heap.setTime (s : Heap P) (t : Nat) (time : Time) : Heap P := s.setTimer t { s.timer t with time }

def tmrReset (s : Heap P) (now : Time) (t : Nat) : Heap P :=
  listResort (s.setTime t (timeAddUsecs now (s.timer t).usecs.toUInt64)) t

def tmrCancel (s : Heap P) (t : Nat) : Heap P :=
  let s := listRemove s t
  { s with links := setPrev (setNext s.links t s.free_timers) t none, free_timers := some t }

def tmrCleanup (s : Heap P) : Heap P := { s with free_timers := none }

def cancelAll : Nat → Heap P → Heap P
  | 0, s => s
  | n + 1, s =>
      match s.timers with
      | none => s
      | some t => cancelAll n (tmrCancel s t)

def tmrDestroy (s : Heap P) : Heap P := tmrCleanup (cancelAll s.brk s)

def follow (m : Nat → Links Nat) : Nat → Option Nat → List Nat
  | n + 1, some a => a :: follow m n (m a).next
  | _, _ => []

def Heap.active (s : Heap P) : List Nat := follow s.links s.brk s.timers

def Heap.spare (s : Heap P) : List Nat := follow s.links s.brk s.free_timers

def Heap.rank (s : Heap P) (a : Nat) : Nat := (s.timer a).time.rank

/-- The active timers stand in the list in the order of their times, linked both
ways; the spare ones are others. -/
structure Represents (s : Heap P) (l spare : List Nat) : Prop where
  active : Chain s.links s.timers l
  free : Forward s.links s.free_timers spare
  nodup : (l ++ spare).Nodup
  allocated : ∀ a ∈ l ++ spare, a < s.brk
  sorted : l.Pairwise fun a b => s.rank a ≤ s.rank b

variable {s : Heap P} {l spare : List Nat}

section Following

theorem length_le_of_below {l : List Nat} (h : l.Nodup) {n : Nat} (hn : ∀ a ∈ l, a < n) : l.length ≤ n := by
  have hsub : l ⊆ List.range n := fun a ha => List.mem_range.2 (hn a ha)
  have hle := (h.subperm hsub).length_le
  rwa [List.length_range] at hle

theorem Represents.length_le (h : Represents s l spare) : l.length ≤ s.brk :=
  length_le_of_below h.nodup.of_append_left fun a ha => h.allocated a (List.mem_append_left spare ha)

theorem Represents.spare_length_le (h : Represents s l spare) : spare.length ≤ s.brk :=
  length_le_of_below h.nodup.of_append_right fun a ha => h.allocated a (List.mem_append_right l ha)

theorem follow_forward {m : Nat → Links Nat} {q : Option Nat} {l : List Nat} (h : Forward m q l) {n : Nat}
    (hn : l.length ≤ n) : follow m n q = l := by
  induction l generalizing q n with
  | nil =>
      obtain rfl : q = none := h
      cases n <;> rfl
  | cons a l ih =>
      obtain ⟨rfl, hl⟩ := h
      cases n with
      | zero => simp at hn
      | succ n => exact congrArg (a :: ·) (ih hl (by simpa using hn))

theorem Represents.active_eq (h : Represents s l spare) : s.active = l :=
  follow_forward h.active.forward h.length_le

theorem Represents.spare_eq (h : Represents s l spare) : s.spare = spare :=
  follow_forward h.free h.spare_length_le

end Following

section Adding

def behind (s : Heap P) (t a : Nat) : Bool := s.rank a ≤ s.rank t

theorem timeCompare_behind (s : Heap P) (t a : Nat) :
    timeCompare (s.timer t).time (s.timer a).time < 0 ↔ behind s t a = false := by
  rw [timeCompare_lt_zero, behind, decide_eq_false_iff_not, Nat.not_le]
  rfl

theorem walk_eq {t t2prev : Nat} {t2 : Option Nat} {rest : List Nat}
    (h : Segment s.links (some t2prev) t2 rest none) {n : Nat} (hn : rest.length ≤ n) :
    some (walk s t n t2prev t2).1 = lastOr (some t2prev) (rest.takeWhile (behind s t)) ∧
      (walk s t n t2prev t2).2 = (rest.dropWhile (behind s t)).head? := by
  induction rest generalizing t2prev t2 n with
  | nil =>
      obtain rfl : t2 = none := h
      cases n <;> exact ⟨rfl, rfl⟩
  | cons a rest ih =>
      obtain ⟨rfl, -, hrest⟩ := h
      cases n with
      | zero => simp at hn
      | succ n =>
          have hn' : rest.length ≤ n := by simpa using hn
          rw [walk]
          cases hb : behind s t a with
          | false =>
              rw [if_pos ((timeCompare_behind s t a).2 hb), List.takeWhile_cons, List.dropWhile_cons, hb]
              exact ⟨rfl, rfl⟩
          | true =>
              have hcompare : ¬ timeCompare (s.timer t).time (s.timer a).time < 0 := by
                simp [timeCompare_behind, hb]
              rw [if_neg hcompare, List.takeWhile_cons, List.dropWhile_cons, hb, if_pos rfl, if_pos rfl, lastOr_cons]
              exact ih hrest hn'

/-- A timer is put behind those that are not later. -/
theorem Represents.listAdd_eq (h : Represents s l spare) (t : Nat) :
    listAdd s t =
      s.insert (lastOr none (l.takeWhile (behind s t))) t (l.dropWhile (behind s t)).head? := by
  have hactive := h.active
  cases l with
  | nil =>
      have htimers : s.timers = none := hactive
      rw [listAdd, htimers]
      rfl
  | cons first rest =>
      obtain ⟨htimers, -, hrest⟩ := hactive
      rw [listAdd, htimers]
      dsimp only
      cases hb : behind s t first with
      | false =>
          rw [if_pos ((timeCompare_behind s t first).2 hb), List.takeWhile_cons, List.dropWhile_cons, hb]
          rfl
      | true =>
          have hcompare : ¬ timeCompare (s.timer t).time (s.timer first).time < 0 := by
            simp [timeCompare_behind, hb]
          have hlength : rest.length ≤ s.brk := Nat.le_of_succ_le h.length_le
          obtain ⟨hbefore, hafter⟩ := walk_eq (t := t) hrest hlength
          rw [if_neg hcompare, List.takeWhile_cons, List.dropWhile_cons, hb, if_pos rfl, if_pos rfl, lastOr_cons,
            hbefore, hafter]

theorem sorted_insert {t : Nat} (h : l.Pairwise fun a b => s.rank a ≤ s.rank b) :
    (l.takeWhile (behind s t) ++ t :: l.dropWhile (behind s t)).Pairwise fun a b => s.rank a ≤ s.rank b := by
  have hsplit := List.takeWhile_append_dropWhile (p := behind s t) (l := l)
  have hparts := h
  rw [← hsplit, List.pairwise_append] at hparts
  have hbefore (a : Nat) (ha : a ∈ l.takeWhile (behind s t)) : s.rank a ≤ s.rank t := by
    have := List.mem_takeWhile_imp ha
    exact of_decide_eq_true this
  have hafter (b : Nat) (hb : b ∈ l.dropWhile (behind s t)) : s.rank t ≤ s.rank b := by
    cases hd : l.dropWhile (behind s t) with
    | nil => rw [hd] at hb; cases hb
    | cons c d =>
        have hc : behind s t c = false := by
          have hne : l.dropWhile (behind s t) ≠ [] := by simp [hd]
          have := List.head_dropWhile_not (behind s t) hne
          simpa only [hd, List.head_cons] using this
        have hc' : s.rank t < s.rank c := by
          rw [behind, decide_eq_false_iff_not] at hc
          exact Nat.not_le.1 hc
        rw [hd] at hb hparts
        rcases List.mem_cons.1 hb with rfl | hmem
        · exact hc'.le
        · exact hc'.le.trans (List.rel_of_pairwise_cons hparts.2.1 hmem)
  refine List.pairwise_append.2 ⟨hparts.1, List.pairwise_cons.2 ⟨hafter, hparts.2.1⟩, fun a ha b hb => ?_⟩
  rcases List.mem_cons.1 hb with rfl | hb
  · exact hbefore a ha
  · exact hparts.2.2 a ha b hb

theorem Represents.listAdd (h : Represents s l spare) {t : Nat} (ht : t ∉ l ++ spare) (hbrk : t < s.brk) :
    Represents (listAdd s t) (l.takeWhile (behind s t) ++ t :: l.dropWhile (behind s t)) spare := by
  have hsplit := List.takeWhile_append_dropWhile (p := behind s t) (l := l)
  have hperm : (l.takeWhile (behind s t) ++ t :: l.dropWhile (behind s t) ++ spare).Perm (t :: (l ++ spare)) := by
    rw [List.append_assoc, List.cons_append]
    refine List.perm_middle.trans ?_
    rw [← List.append_assoc, hsplit]
  rw [List.mem_append, not_or] at ht
  rw [h.listAdd_eq t]
  refine ⟨?_, ?_, ?_, ?_, ?_⟩
  · have hchain := h.active
    have hnodup := h.nodup.of_append_left
    rw [← hsplit] at hchain hnodup
    exact hchain.insert hnodup (by rw [hsplit]; exact ht.1)
  · refine h.free.congr fun a ha => insert_outside _ _ fun hmem => ?_
    rw [List.mem_append, List.mem_cons] at hmem
    have hdisj := (List.nodup_append.1 h.nodup).2.2
    rcases hmem with hmem | rfl | hmem
    · exact hdisj a ((List.takeWhile_prefix _).subset hmem) a ha rfl
    · exact ht.2 ha
    · exact hdisj a ((List.dropWhile_suffix _).subset hmem) a ha rfl
  · rw [hperm.nodup_iff, List.nodup_cons]
    exact ⟨by simp [ht], h.nodup⟩
  · intro a ha
    rcases List.mem_cons.1 (hperm.mem_iff.1 ha) with rfl | ha
    · exact hbrk
    · exact h.allocated a ha
  · exact sorted_insert h.sorted

end Adding

section Removing

theorem exists_split {t : Nat} (ht : t ∈ l) (hl : l.Nodup) :
    ∃ pre post, l = pre ++ t :: post ∧ l.erase t = pre ++ post := by
  obtain ⟨pre, post, rfl⟩ := List.append_of_mem ht
  have hpre : t ∉ pre := fun hmem => (List.nodup_append.1 hl).2.2 t hmem t (by simp) rfl
  exact ⟨pre, post, rfl, by rw [List.erase_append_right _ hpre, List.erase_cons_head]⟩

/-- A removed timer is in neither list. -/
theorem Represents.listRemove (h : Represents s l spare) {t : Nat} (ht : t ∈ l) :
    Represents (listRemove s t) (l.erase t) spare ∧ t ∉ l.erase t ++ spare := by
  have hnodup := h.nodup.of_append_left
  obtain ⟨pre, post, rfl, herase⟩ := exists_split ht hnodup
  have hperm : (pre ++ t :: post ++ spare).Perm (t :: (pre ++ post ++ spare)) := by
    rw [List.append_assoc, List.cons_append, List.append_assoc]
    exact List.perm_middle
  have hparts := (hperm.nodup_iff.1 h.nodup)
  have hsub : (pre ++ post).Sublist (pre ++ t :: post) := (List.sublist_cons_self t post).append_left pre
  rw [herase]
  refine ⟨⟨h.active.remove hnodup, ?_, (List.nodup_cons.1 hparts).2, fun a ha => ?_, h.sorted.sublist hsub⟩,
    (List.nodup_cons.1 hparts).1⟩
  · refine h.free.congr fun a ha => h.active.remove_outside hnodup fun hmem => ?_
    exact (List.nodup_append.1 h.nodup).2.2 a (hsub.subset hmem) a ha rfl
  · exact h.allocated a (hperm.mem_iff.2 (List.mem_cons_of_mem t ha))

theorem Represents.setTimer (h : Represents s l spare) {t : Nat} (ht : t ∉ l) (timer : Timer P) :
    Represents (s.setTimer t timer) l spare := by
  have hrank (a : Nat) (ha : a ∈ l) : (s.setTimer t timer).rank a = s.rank a := by
    have hne : a ≠ t := fun he => ht (he ▸ ha)
    simp [Heap.rank, Heap.setTimer, hne]
  refine ⟨h.active, h.free, h.nodup, h.allocated, h.sorted.imp_of_mem fun ha hb hab => ?_⟩
  rw [hrank _ ha, hrank _ hb]
  exact hab

theorem Represents.tmrCancel (h : Represents s l spare) {t : Nat} (ht : t ∈ l) :
    Represents (tmrCancel s t) (l.erase t) (t :: spare) := by
  obtain ⟨hremoved, hout⟩ := h.listRemove ht
  rw [List.mem_append, not_or] at hout
  have hperm : (l.erase t ++ t :: spare).Perm (l ++ spare) := by
    refine List.perm_middle.trans ?_
    rw [← List.cons_append]
    exact (List.perm_cons_erase ht).symm.append_right spare
  refine ⟨?_, ⟨rfl, ?_⟩, hperm.nodup_iff.2 h.nodup, fun a ha => h.allocated a (hperm.mem_iff.1 ha),
    hremoved.sorted⟩
  · exact (hremoved.active.setNext_outside hout.1 _).setPrev_outside hout.1 _
  · dsimp only [TimerList.tmrCancel]
    rw [setPrev_next, setNext_next]
    refine hremoved.free.congr fun a ha => ?_
    have hne : a ≠ t := fun he => hout.2 (he ▸ ha)
    rw [setPrev_of_ne _ _ hne, setNext_of_ne _ _ hne]

theorem Represents.resort_at (h : Represents s l spare) {t : Nat} (ht : t ∈ l) (time : Time) :
    Represents (listResort (s.setTime t time) t)
      ((l.erase t).takeWhile (behind (s.setTime t time) t) ++
        t :: (l.erase t).dropWhile (behind (s.setTime t time) t)) spare := by
  obtain ⟨hremoved, hout⟩ := h.listRemove ht
  have hset := hremoved.setTimer (fun hmem => hout (List.mem_append_left spare hmem)) { s.timer t with time }
  exact hset.listAdd hout (h.allocated t (List.mem_append_left spare ht))

theorem Represents.resort (h : Represents s l spare) {t : Nat} (ht : t ∈ l) (time : Time) :
    ∃ l', l'.Perm l ∧ Represents (listResort (s.setTime t time) t) l' spare := by
  refine ⟨_, ?_, h.resort_at ht time⟩
  refine List.perm_middle.trans ?_
  rw [List.takeWhile_append_dropWhile]
  exact (List.perm_cons_erase ht).symm

theorem Represents.tmrReset (h : Represents s l spare) {t : Nat} (ht : t ∈ l) (now : Time) :
    ∃ l', l'.Perm l ∧ Represents (tmrReset s now t) l' spare := h.resort ht _

end Removing

section Creating

theorem takeTimer_spec (h : Represents s l spare) {malloc : Bool} {t : Nat} {s' : Heap P}
    (htake : takeTimer s malloc = some (t, s')) :
    ∃ spare', Represents s' l spare' ∧ t ∉ l ++ spare' ∧ t < s'.brk ∧ s'.timer = s.timer := by
  rw [takeTimer] at htake
  have hfree := h.free
  cases spare with
  | nil =>
      have hnone : s.free_timers = none := hfree
      rw [hnone] at htake
      cases malloc with
      | false => cases htake
      | true =>
          cases htake
          have hlt (a : Nat) (ha : a ∈ l ++ []) : a < s.brk := h.allocated a ha
          refine ⟨[], ⟨h.active, rfl, h.nodup, fun a ha => Nat.lt_succ_of_lt (hlt a ha), h.sorted⟩, ?_,
            Nat.lt_succ_self _, rfl⟩
          exact fun hmem => Nat.lt_irrefl _ (hlt _ hmem)
  | cons a spare =>
      obtain ⟨hsome, hrest⟩ := hfree
      rw [hsome] at htake
      cases htake
      have hperm : (l ++ t :: spare).Perm (t :: (l ++ spare)) := List.perm_middle
      have hnodup := hperm.nodup_iff.1 h.nodup
      refine ⟨spare, ⟨h.active, hrest, hnodup.of_cons, fun b hb => ?_, h.sorted⟩, (List.nodup_cons.1 hnodup).1, ?_,
        rfl⟩
      · exact h.allocated b (hperm.mem_iff.2 (List.mem_cons_of_mem t hb))
      · exact h.allocated t (by simp)

theorem Represents.tmrCreate (h : Represents s l spare) (now : Time) (timer_proc : P) (usecs : Int64)
    (periodic : Bool) {malloc : Bool} {t : Nat} {s' : Heap P} (htake : takeTimer s malloc = some (t, s')) :
    ∃ l' spare', l'.Perm (t :: l) ∧ t ∉ l ∧
      Represents (tmrCreate s now timer_proc usecs periodic malloc).1 l' spare' := by
  obtain ⟨spare', hrep, hout, hbrk, -⟩ := takeTimer_spec h htake
  have hl : t ∉ l := fun hmem => hout (List.mem_append_left spare' hmem)
  rw [TimerList.tmrCreate, htake]
  refine ⟨_, spare', ?_, hl, (hrep.setTimer hl _).listAdd hout hbrk⟩
  refine List.perm_middle.trans ?_
  rw [List.takeWhile_append_dropWhile]

theorem Represents.tmrCleanup (h : Represents s l spare) : Represents (tmrCleanup s) l [] := by
  refine ⟨h.active, rfl, ?_, fun a ha => h.allocated a ?_, h.sorted⟩
  · rw [List.append_nil]
    exact h.nodup.of_append_left
  · rw [List.append_nil] at ha
    exact List.mem_append_left spare ha

theorem Represents.cancelAll (h : Represents s l spare) {n : Nat} (hn : l.length ≤ n) :
    ∃ spare', Represents (cancelAll n s) [] spare' := by
  induction n generalizing s l spare with
  | zero =>
      obtain rfl := List.length_eq_zero_iff.1 (Nat.le_zero.1 hn)
      exact ⟨spare, h⟩
  | succ n ih =>
      cases l with
      | nil =>
          have hnone : s.timers = none := h.active
          rw [TimerList.cancelAll, hnone]
          exact ⟨spare, h⟩
      | cons t l =>
          have hsome : s.timers = some t := h.active.1
          rw [TimerList.cancelAll, hsome]
          have hcancel := h.tmrCancel (t := t) (by simp)
          rw [List.erase_cons_head] at hcancel
          exact ih hcancel (by simpa using hn)

end Creating

section Operations

inductive Op (P : Type)
  | create (now : Time) (timer_proc : P) (usecs : Int64) (periodic malloc : Bool)
  | reset (now : Time) (t : Nat)
  | cancel (t : Nat)
  | cleanup
  | destroy

def step (s : Heap P) : Op P → Heap P
  | .create now timer_proc usecs periodic malloc => (tmrCreate s now timer_proc usecs periodic malloc).1
  | .reset now t => tmrReset s now t
  | .cancel t => tmrCancel s t
  | .cleanup => tmrCleanup s
  | .destroy => tmrDestroy s

def Valid (s : Heap P) : Op P → Prop
  | .reset _ t | .cancel t => t ∈ s.active
  | _ => True

instance (s : Heap P) (op : Op P) : Decidable (Valid s op) := by
  cases op <;> unfold Valid <;> infer_instance

def Sound (s : Heap P) : Prop := Represents s s.active s.spare

def Heap.schedule (s : Heap P) (a : Nat) : Option (Timer P) := if a ∈ s.active then some (s.timer a) else none

inductive Expected (waiting : Nat → Option (Timer P)) : Op P → (Nat → Option (Timer P)) → Prop
  | create {t : Nat} (now : Time) (timer_proc : P) (usecs : Int64) (periodic malloc : Bool) (hnew : waiting t = none) :
      Expected waiting (.create now timer_proc usecs periodic malloc)
        (Function.update waiting t (some ⟨timer_proc, timeAddUsecs now usecs.toUInt64, usecs, periodic⟩))
  | noMemory (now : Time) (timer_proc : P) (usecs : Int64) (periodic : Bool) :
      Expected waiting (.create now timer_proc usecs periodic false) waiting
  | reset {t : Nat} {timer : Timer P} (now : Time) (ht : waiting t = some timer) :
      Expected waiting (.reset now t)
        (Function.update waiting t (some { timer with time := timeAddUsecs now timer.usecs.toUInt64 }))
  | cancel {t : Nat} {timer : Timer P} (ht : waiting t = some timer) :
      Expected waiting (.cancel t) (Function.update waiting t none)
  | cleanup : Expected waiting .cleanup waiting
  | destroy : Expected waiting .destroy fun _ => none

theorem Represents.sound (h : Represents s l spare) : Sound s := by
  rw [Sound, h.active_eq, h.spare_eq]
  exact h

theorem Represents.schedule_eq (h : Represents s l spare) (a : Nat) :
    s.schedule a = if a ∈ l then some (s.timer a) else none := by
  rw [Heap.schedule, h.active_eq]

variable (junk : Nat → Timer P)

def empty : Heap P := ⟨junk, fun _ => ⟨none, none⟩, none, none, 0⟩

theorem empty_sound : Sound (empty junk) :=
  have h : Represents (empty junk) [] [] := ⟨rfl, rfl, List.nodup_nil, by simp, .nil⟩
  h.sound

variable {junk}

@[simp] theorem listAdd_timer (s : Heap P) (t : Nat) : (listAdd s t).timer = s.timer := by
  rw [listAdd]
  split
  · rfl
  · split <;> rfl

@[simp] theorem listRemove_timer (s : Heap P) (t : Nat) : (listRemove s t).timer = s.timer := rfl

@[simp] theorem cancelAll_timer (n : Nat) (s : Heap P) : (cancelAll n s).timer = s.timer := by
  induction n generalizing s with
  | zero => rfl
  | succ n ih =>
      rw [cancelAll]
      split
      · rfl
      · rw [ih]
        rfl

theorem step_expected (s : Heap P) (op : Op P) (h : Sound s) (hop : Valid s op) :
    Sound (step s op) ∧ Expected s.schedule op (step s op).schedule := by
  cases op with
  | create now timer_proc usecs periodic malloc =>
      cases htake : takeTimer s malloc with
      | none =>
          have hmalloc : malloc = false := by
            rw [takeTimer] at htake
            cases hfree : s.free_timers <;> simp_all
          have hstep : step s (.create now timer_proc usecs periodic malloc) = s := by
            simp [step, tmrCreate, htake]
          rw [hstep, hmalloc]
          exact ⟨h, .noMemory now timer_proc usecs periodic⟩
      | some taken =>
          obtain ⟨t, s'⟩ := taken
          obtain ⟨l', spare', hperm, ht, hrep⟩ := Represents.tmrCreate h now timer_proc usecs periodic htake
          obtain ⟨-, -, -, -, htimer⟩ := takeTimer_spec h htake
          refine ⟨hrep.sound, ?_⟩
          have hschedule : (step s (.create now timer_proc usecs periodic malloc)).schedule =
              Function.update s.schedule t
                (some ⟨timer_proc, timeAddUsecs now usecs.toUInt64, usecs, periodic⟩) := by
            funext a
            rw [step, hrep.schedule_eq]
            simp only [hperm.mem_iff, List.mem_cons, tmrCreate, htake, listAdd_timer]
            by_cases ha : a = t
            · simp [ha, Heap.setTimer]
            · simp [ha, Heap.setTimer, htimer, Heap.schedule]
          rw [hschedule]
          exact .create now timer_proc usecs periodic malloc (if_neg ht)
  | reset now t =>
      obtain ⟨l', hperm, hrep⟩ := Represents.tmrReset h hop now
      refine ⟨hrep.sound, ?_⟩
      have hschedule : (step s (.reset now t)).schedule = Function.update s.schedule t
          (some { s.timer t with time := timeAddUsecs now (s.timer t).usecs.toUInt64 }) := by
        funext a
        rw [step, hrep.schedule_eq]
        simp only [hperm.mem_iff, tmrReset, listResort, listAdd_timer, listRemove_timer]
        by_cases ha : a = t
        · subst ha
          simp [Heap.setTime, Heap.setTimer, show a ∈ s.active from hop]
        · simp [ha, Heap.setTime, Heap.setTimer, Heap.schedule]
      rw [hschedule]
      exact .reset now (if_pos hop)
  | cancel t =>
      have hrep := Represents.tmrCancel h hop
      refine ⟨hrep.sound, ?_⟩
      have hschedule : (step s (.cancel t)).schedule = Function.update s.schedule t none := by
        funext a
        rw [step, hrep.schedule_eq]
        simp only [h.nodup.of_append_left.mem_erase_iff]
        by_cases ha : a = t
        · simp [ha]
        · simp [ha, Heap.schedule, tmrCancel]
      rw [hschedule]
      exact .cancel (if_pos hop)
  | cleanup =>
      have hrep := Represents.tmrCleanup h
      refine ⟨hrep.sound, ?_⟩
      have hschedule : (step s .cleanup).schedule = s.schedule := by
        funext a
        rw [step, hrep.schedule_eq]
        rfl
      rw [hschedule]
      exact .cleanup
  | destroy =>
      obtain ⟨spare', hcancelled⟩ := Represents.cancelAll h h.length_le
      have hrep := hcancelled.tmrCleanup
      refine ⟨hrep.sound, ?_⟩
      have hschedule : (step s .destroy).schedule = fun _ => none := by
        funext a
        rw [step, tmrDestroy, hrep.schedule_eq]
        rfl
      rw [hschedule]
      exact .destroy

/-- In every run the list stays sorted and linked, and holds the timers that
were created and not cancelled, each with the time it was last given. -/
theorem run_expected {ops : List (Op P)} (h : Along step Valid (empty junk) ops) :
    Sound (run step (empty junk) ops) ∧
      Trace Expected (fun _ => none) ops (run step (empty junk) ops).schedule :=
  run_trace Sound Heap.schedule step_expected (empty_sound junk) h

theorem run_expected_two : Sound (run step (empty fun _ => ⟨(), ⟨0, 0⟩, 0, false⟩)
      [.create ⟨1, 0⟩ () 5 true true, .create ⟨1, 0⟩ () 2 false true, .reset ⟨2, 0⟩ 1, .cancel 0]) ∧
    Trace Expected (fun _ => none)
      [.create ⟨1, 0⟩ () 5 true true, .create ⟨1, 0⟩ () 2 false true, .reset ⟨2, 0⟩ 1, .cancel 0]
      (run step (empty fun _ => ⟨(), ⟨0, 0⟩, 0, false⟩)
        [.create ⟨1, 0⟩ () 5 true true, .create ⟨1, 0⟩ () 2 false true, .reset ⟨2, 0⟩ 1, .cancel 0]).schedule :=
  run_expected (by decide)

end Operations

end SberWifi.TimerList
