import Mathlib.Data.List.Basic
import Mathlib.Logic.Function.Basic

namespace SberWifi.DoublyLinked

variable {α : Type} [DecidableEq α]

structure Links (α : Type) where
  prev : Option α
  next : Option α

def setPrev (m : α → Links α) (a : α) (p : Option α) : α → Links α :=
  Function.update m a { m a with prev := p }

def setNext (m : α → Links α) (a : α) (n : Option α) : α → Links α :=
  Function.update m a { m a with next := n }

@[simp] theorem setPrev_prev (m : α → Links α) (a : α) (p : Option α) : (setPrev m a p a).prev = p := by
  simp [setPrev]

@[simp] theorem setPrev_next (m : α → Links α) (a : α) (p : Option α) (b : α) :
    (setPrev m a p b).next = (m b).next := by
  by_cases h : b = a
  · subst h
    simp [setPrev]
  · simp [setPrev, h]

@[simp] theorem setNext_next (m : α → Links α) (a : α) (n : Option α) : (setNext m a n a).next = n := by
  simp [setNext]

@[simp] theorem setNext_prev (m : α → Links α) (a : α) (n : Option α) (b : α) :
    (setNext m a n b).prev = (m b).prev := by
  by_cases h : b = a
  · subst h
    simp [setNext]
  · simp [setNext, h]

theorem setPrev_of_ne (m : α → Links α) {a b : α} (p : Option α) (h : b ≠ a) : setPrev m a p b = m b :=
  Function.update_of_ne h _ _

theorem setNext_of_ne (m : α → Links α) {a b : α} (n : Option α) (h : b ≠ a) : setNext m a n b = m b :=
  Function.update_of_ne h _ _

/-- The node before the end of a list that comes after `p`. -/
def lastOr (p : Option α) (l : List α) : Option α := l.getLast?.or p

omit [DecidableEq α] in
@[simp] theorem lastOr_nil (p : Option α) : lastOr p [] = p := rfl

omit [DecidableEq α] in
@[simp] theorem lastOr_append_singleton (p : Option α) (l : List α) (a : α) : lastOr p (l ++ [a]) = some a := by
  simp [lastOr]

omit [DecidableEq α] in
theorem lastOr_cons (p : Option α) (a : α) (l : List α) : lastOr p (a :: l) = lastOr (some a) l := by
  cases l with
  | nil => rfl
  | cons b l => simp [lastOr, List.getLast?_cons]

/-- From `h` on the links lead forth through a list, whose nodes lead back to
`p`, and then to `n`. -/
def Segment (m : α → Links α) : Option α → Option α → List α → Option α → Prop
  | _, h, [], n => h = n
  | p, h, a :: l, n => h = some a ∧ (m a).prev = p ∧ Segment m (some a) (m a).next l n

variable {m m' : α → Links α} {p h n : Option α} {l : List α}

omit [DecidableEq α] in
theorem segment_append (l l' : List α) : Segment m p h (l ++ l') n ↔
    ∃ k, Segment m p h l k ∧ Segment m (lastOr p l) k l' n := by
  induction l generalizing p h with
  | nil => simp [Segment]
  | cons a l ih =>
      simp only [List.cons_append, Segment, ih, lastOr_cons]
      constructor
      · rintro ⟨hh, hp, k, hl, hl'⟩
        exact ⟨k, ⟨hh, hp, hl⟩, hl'⟩
      · rintro ⟨k, ⟨hh, hp, hl⟩, hl'⟩
        exact ⟨hh, hp, k, hl, hl'⟩

omit [DecidableEq α] in
theorem Segment.congr (hs : Segment m p h l n) (hm : ∀ a ∈ l, m' a = m a) : Segment m' p h l n := by
  induction l generalizing p h with
  | nil => exact hs
  | cons a l ih =>
      obtain ⟨hh, hp, hl⟩ := hs
      have ha : m' a = m a := hm a (by simp)
      exact ⟨hh, ha ▸ hp, ha ▸ ih hl fun b hb => hm b (by simp [hb])⟩

omit [DecidableEq α] in
theorem Segment.head_eq (hs : Segment m p h l n) : h = l.head?.or n := by
  cases l with
  | nil => exact hs
  | cons a l => exact hs.1

theorem Segment.setPrev_outside (hs : Segment m p h l n) {a : α} (ha : a ∉ l) (q : Option α) :
    Segment (setPrev m a q) p h l n :=
  hs.congr fun _ hb => setPrev_of_ne m q fun he => ha (he ▸ hb)

theorem Segment.setNext_outside (hs : Segment m p h l n) {a : α} (ha : a ∉ l) (q : Option α) :
    Segment (setNext m a q) p h l n :=
  hs.congr fun _ hb => setNext_of_ne m q fun he => ha (he ▸ hb)

theorem Segment.setNext_last {a : α} (hs : Segment m p h (l ++ [a]) n) (ha : a ∉ l) (k : Option α) :
    Segment (setNext m a k) p h (l ++ [a]) k := by
  obtain ⟨j, hl, hj, hp, -⟩ := (segment_append l [a]).1 hs
  refine (segment_append l [a]).2 ⟨j, hl.setNext_outside ha k, hj, ?_, ?_⟩
  · rw [setNext_prev]
    exact hp
  · exact setNext_next m a k

theorem Segment.setPrev_head {a : α} (hs : Segment m p h (a :: l) n) (ha : a ∉ l) (q : Option α) :
    Segment (setPrev m a q) q (some a) (a :: l) n := by
  obtain ⟨-, -, hl⟩ := hs
  refine ⟨rfl, setPrev_prev m a q, ?_⟩
  rw [setPrev_next]
  exact hl.setPrev_outside ha q

def Chain (m : α → Links α) (head : Option α) (l : List α) : Prop := Segment m none head l none

/-- The node before `a`, or the head where there is none, is made to lead to
`k`. -/
def redirect (head : Option α) (m : α → Links α) (before k : Option α) : Option α × (α → Links α) :=
  match before with
  | none => (k, m)
  | some b => (head, setNext m b k)

/-- The node `c`, where there is one, is made to lead back to `q`. -/
def leadBack (m : α → Links α) (c q : Option α) : α → Links α :=
  match c with
  | none => m
  | some c => setPrev m c q

theorem Segment.redirect {h n : Option α} (hs : Segment m none h l n) (hl : l.Nodup) (k : Option α) :
    Segment (redirect h m (lastOr none l) k).2 none (redirect h m (lastOr none l) k).1 l k := by
  rcases List.eq_nil_or_concat l with rfl | ⟨l, b, rfl⟩
  · exact rfl
  · rw [List.concat_eq_append] at hs hl ⊢
    rw [lastOr_append_singleton]
    refine hs.setNext_last (fun hb => ?_) k
    exact (List.nodup_append.1 hl).2.2 b hb b (by simp) rfl

theorem Segment.leadBack (hs : Segment m p h l none) (hl : l.Nodup) (q : Option α) :
    Segment (leadBack m h q) q h l none := by
  cases l with
  | nil =>
      obtain rfl : h = none := hs
      exact rfl
  | cons c l =>
      obtain rfl : h = some c := hs.1
      exact hs.setPrev_head (List.nodup_cons.1 hl).1 q

theorem Segment.redirect_outside (hs : Segment m p h l n) {before : Option α} (hb : ∀ b, before = some b → b ∉ l)
    (head k : Option α) : Segment (DoublyLinked.redirect head m before k).2 p h l n := by
  cases before with
  | none => exact hs
  | some b => exact hs.setNext_outside (hb b rfl) k

theorem Segment.leadBack_outside (hs : Segment m p h l n) {c : Option α} (hc : ∀ b, c = some b → b ∉ l)
    (q : Option α) : Segment (DoublyLinked.leadBack m c q) p h l n := by
  cases c with
  | none => exact hs
  | some c => exact hs.setPrev_outside (hc c rfl) q

theorem redirect_of_ne (head : Option α) (m : α → Links α) {before : Option α} (k : Option α) {a : α}
    (h : before ≠ some a) : (redirect head m before k).2 a = m a := by
  cases before with
  | none => rfl
  | some b => exact setNext_of_ne m k fun he => h (congrArg some he.symm)

theorem leadBack_of_ne (m : α → Links α) {c : Option α} (q : Option α) {a : α} (h : c ≠ some a) :
    leadBack m c q a = m a := by
  cases c with
  | none => rfl
  | some c => exact setPrev_of_ne m q fun he => h (congrArg some he.symm)

omit [DecidableEq α] in
theorem lastOr_none_ne {l : List α} {a : α} (h : a ∉ l) : lastOr none l ≠ some a := by
  rw [lastOr, Option.or_none]
  exact fun he => h (List.mem_of_getLast? he)

omit [DecidableEq α] in
theorem head?_ne {l : List α} {a : α} (h : a ∉ l) : l.head? ≠ some a :=
  fun he => h (List.mem_of_head? he)

section Remove

def remove (head : Option α) (m : α → Links α) (a : α) : Option α × (α → Links α) :=
  let r := redirect head m (m a).prev (m a).next
  (r.1, leadBack r.2 (r.2 a).next (r.2 a).prev)

variable {head : Option α} {pre post : List α} {a : α}

omit [DecidableEq α] in
theorem Chain.links (h : Chain m head (pre ++ a :: post)) :
    m a = ⟨lastOr none pre, post.head?⟩ := by
  obtain ⟨k, -, -, hprev, hpost⟩ := (segment_append pre (a :: post)).1 h
  have hnext := hpost.head_eq
  rw [Option.or_none] at hnext
  rw [← hprev, ← hnext]

theorem Chain.remove_eq (h : Chain m head (pre ++ a :: post)) (hl : (pre ++ a :: post).Nodup) :
    remove head m a =
      ((redirect head m (lastOr none pre) post.head?).1,
        leadBack (redirect head m (lastOr none pre) post.head?).2 post.head? (lastOr none pre)) := by
  have ha : a ∉ pre := fun hmem => (List.nodup_append.1 hl).2.2 a hmem a (by simp) rfl
  rw [remove, h.links, redirect_of_ne head m post.head? (lastOr_none_ne ha), h.links]

theorem Chain.remove (h : Chain m head (pre ++ a :: post)) (hl : (pre ++ a :: post).Nodup) :
    Chain (remove head m a).2 (remove head m a).1 (pre ++ post) := by
  rw [h.remove_eq hl]
  obtain ⟨hpre, hpost, hdisj⟩ := List.nodup_append.1 hl
  obtain ⟨k, hfront, hk, -, hback⟩ := (segment_append pre (a :: post)).1 h
  have hnext : (m a).next = post.head? := congrArg Links.next h.links
  rw [hnext] at hback
  refine (segment_append pre post).2 ⟨post.head?, ?_, ?_⟩
  · refine (hfront.redirect hpre post.head?).leadBack_outside (fun c hc hmem => ?_) _
    exact hdisj c hmem c (List.mem_cons_of_mem a (List.mem_of_head? hc)) rfl
  · refine (hback.redirect_outside (fun b hb hmem => ?_) head post.head?).leadBack hpost.of_cons _
    rw [lastOr, Option.or_none] at hb
    exact hdisj b (List.mem_of_getLast? hb) b (List.mem_cons_of_mem a hmem) rfl

theorem Chain.remove_outside (h : Chain m head (pre ++ a :: post)) (hl : (pre ++ a :: post).Nodup) {b : α}
    (hb : b ∉ pre ++ post) : (DoublyLinked.remove head m a).2 b = m b := by
  rw [List.mem_append, not_or] at hb
  rw [h.remove_eq hl]
  dsimp only
  rw [leadBack_of_ne _ _ (head?_ne hb.2), redirect_of_ne _ _ _ (lastOr_none_ne hb.1)]

end Remove

section Insert

def insert (head : Option α) (m : α → Links α) (before : Option α) (a : α) (after : Option α) :
    Option α × (α → Links α) :=
  let r := redirect head m before (some a)
  (r.1, leadBack (setNext (setPrev r.2 a before) a after) after (some a))

variable {head : Option α} {pre post : List α} {a : α}

theorem Chain.insert (h : Chain m head (pre ++ post)) (hl : (pre ++ post).Nodup) (ha : a ∉ pre ++ post) :
    Chain (insert head m (lastOr none pre) a post.head?).2 (insert head m (lastOr none pre) a post.head?).1
      (pre ++ a :: post) := by
  rw [List.mem_append, not_or] at ha
  obtain ⟨hpre, hpost, hdisj⟩ := List.nodup_append.1 hl
  obtain ⟨k, hfront, hback⟩ := (segment_append pre post).1 h
  have hk : k = post.head? := by
    rw [hback.head_eq, Option.or_none]
  subst hk
  refine (segment_append pre (a :: post)).2 ⟨some a, ?_, rfl, ?_, ?_⟩
  · refine (((hfront.redirect hpre (some a)).setPrev_outside ha.1 _).setNext_outside ha.1 _).leadBack_outside
      (fun c hc hmem => ?_) _
    exact hdisj c hmem c (List.mem_of_head? hc) rfl
  · dsimp only [DoublyLinked.insert]
    rw [leadBack_of_ne _ _ (head?_ne ha.2), setNext_prev, setPrev_prev]
  · have hrest : Segment (setNext (setPrev (DoublyLinked.redirect head m (lastOr none pre) (some a)).2 a
        (lastOr none pre)) a post.head?) (lastOr none pre) post.head? post none := by
      refine ((hback.redirect_outside (fun b hb hmem => ?_) head _).setPrev_outside ha.2 _).setNext_outside ha.2 _
      rw [lastOr, Option.or_none] at hb
      exact hdisj b (List.mem_of_getLast? hb) b hmem rfl
    dsimp only [DoublyLinked.insert]
    rw [leadBack_of_ne _ _ (head?_ne ha.2), setNext_next]
    exact hrest.leadBack hpost _

theorem insert_outside (head : Option α) (m : α → Links α) {b : α} (hb : b ∉ pre ++ a :: post) :
    (insert head m (lastOr none pre) a post.head?).2 b = m b := by
  rw [List.mem_append, List.mem_cons, not_or, not_or] at hb
  dsimp only [insert]
  rw [leadBack_of_ne _ _ (head?_ne hb.2.2), setNext_of_ne _ _ hb.2.1, setPrev_of_ne _ _ hb.2.1,
    redirect_of_ne _ _ _ (lastOr_none_ne hb.1)]

end Insert

def Forward (m : α → Links α) : Option α → List α → Prop
  | h, [] => h = none
  | h, a :: l => h = some a ∧ Forward m (m a).next l

omit [DecidableEq α] in
theorem Segment.forward (hs : Segment m p h l none) : Forward m h l := by
  induction l generalizing p h with
  | nil => exact hs
  | cons a l ih => exact ⟨hs.1, ih hs.2.2⟩

omit [DecidableEq α] in
theorem Forward.congr {head : Option α} (h : Forward m head l) (hm : ∀ a ∈ l, m' a = m a) :
    Forward m' head l := by
  induction l generalizing head with
  | nil => exact h
  | cons a l ih =>
      have ha : m' a = m a := hm a (by simp)
      exact ⟨h.1, ha ▸ ih h.2 fun b hb => hm b (by simp [hb])⟩

end SberWifi.DoublyLinked
