import SberWifi.IperfMachine

namespace SberWifi.IperfCounter

open JavaString IperfMachine Runs

def Small (count : Int32) : Prop := count = 0 ∨ count = 1 ∨ count = 2

variable {D : Type} (lib : Libraries D)

/-- The counter stays small, and a report is read by the branch of its own test:
by sum_sent, where the counter is zero, only if the test is not reversed. -/
def InPhase (f : IperfFragment) (event : Event) : Prop :=
  Small (step lib f event).count ∧
    ∀ test report reverse, event = .report test report → f.tests[test]? = some (.testing reverse) →
      (f.count = 0 ↔ reverse = false)

/-- A test is started only when no other is under way and the counter is back at
zero, and the report of a forward test can be read by its sum_sent part. -/
def Orderly (f : IperfFragment) : Event → Prop
  | .onSwipeForward => f.count = 0 ∧ ∀ p ∈ f.tests, p = .finished
  | .report test report => f.tests[test]? = some (.testing false) → (report.bind (formatSent lib)).isSome
  | _ => True

def Expected (count : Int32) : Option Phase → Prop
  | none | some .launched | some (.testing false) => count = 0
  | some (.returned false) | some (.testing true) => count = 1
  | some (.returned true) | some .failed | some .finished => Small count

structure Tracked (f : IperfFragment) : Prop where
  others : OthersFinished (f.tests.length - 1) f
  expected : Expected f.count f.tests[f.tests.length - 1]?

theorem Expected.small {count : Int32} {phase : Option Phase} (h : Expected count phase) : Small count := by
  rcases phase with _ | _ | (_ | _) | (_ | _) | _ | _
  · exact .inl h
  · exact .inl h
  · exact .inl h
  · exact .inr (.inl h)
  · exact .inr (.inl h)
  · exact h
  · exact h
  · exact h

theorem Expected.afterReset {count : Int32} {phase : Option Phase} (h : Expected count phase)
    (htwo : count = 2) :
    Expected 0 phase := by
  subst htwo
  rcases phase with _ | _ | (_ | _) | (_ | _) | _ | _
  · exact absurd (show (2 : Int32) = 0 from h) (by decide)
  · exact absurd (show (2 : Int32) = 0 from h) (by decide)
  · exact absurd (show (2 : Int32) = 0 from h) (by decide)
  · exact absurd (show (2 : Int32) = 1 from h) (by decide)
  · exact absurd (show (2 : Int32) = 1 from h) (by decide)
  · exact .inl rfl
  · exact .inl rfl
  · exact .inl rfl

theorem Expected.resumed {count : Int32} {p q : Phase} (h : Expected count (some p)) (hpq : Resumed p q) :
    Expected count (some q) := by
  cases hpq with
  | start | delayed | done | caught => exact h

theorem tracked_setTest {f g : IperfFragment} (h : Tracked f) {test : Nat} {p : Phase} (q : Phase)
    (hp : f.tests[test]? = some p) (hne : p ≠ .finished) (hg : g.tests = (f.setTest test q).tests)
    (hcount : Expected f.count (some p) → Expected g.count (some q)) : Tracked g := by
  have htest := h.others.eq hp hne
  subst htest
  have hexp := h.expected
  rw [hp] at hexp
  constructor
  · rw [hg, length_setTest]
    intro i r hr hi
    rw [hg] at hr
    exact h.others.setTest q i r hr hi
  · rw [hg, length_setTest, setTest_self hp]
    exact hcount hexp

theorem tracked_congr {f g : IperfFragment} (h : Tracked f) (htests : g.tests = f.tests)
    (hcount : Expected f.count f.tests[f.tests.length - 1]? → Expected g.count f.tests[f.tests.length - 1]?) :
    Tracked g := by
  constructor
  · rw [htests]
    intro i r hr hi
    rw [htests] at hr
    exact h.others i r hr hi
  · rw [htests]
    exact hcount h.expected

theorem reportCallback_tests (f : IperfFragment) (report : Option JString) :
    (reportCallback lib f report).tests = f.tests := by
  unfold reportCallback
  split
  · rfl
  · split <;> rfl

theorem reportCallback_count (f : IperfFragment) (report : Option JString) :
    (reportCallback lib f report).count =
      if (report.bind (format lib f.count)).isSome then f.count + 1 else f.count := by
  cases report with
  | none => rfl
  | some report => cases h : format lib f.count report <;> simp [reportCallback, h]

theorem tracked_report {f : IperfFragment} (h : Tracked f) {test : Nat} {reverse : Bool}
    {report : Option JString} (hp : f.tests[test]? = some (.testing reverse))
    (hsent : reverse = false → (report.bind (formatSent lib)).isSome) :
    Tracked ((reportCallback lib f report).setTest test (.returned reverse)) := by
  refine tracked_setTest h (.returned reverse) hp (by simp) ?_ ?_
  · simp only [IperfFragment.setTest, reportCallback_tests]
  · intro hcount
    rw [setTest_count, reportCallback_count]
    cases reverse with
    | false =>
        have hzero : f.count = 0 := hcount
        have hformat : format lib f.count = formatSent lib := by
          funext r
          simp [format, hzero]
        rw [hformat, if_pos (hsent rfl), hzero]
        rfl
    | true =>
        have hone : f.count = 1 := hcount
        rw [hone]
        by_cases hr : (report.bind (format lib 1)).isSome
        · rw [if_pos hr]
          exact .inr (.inr rfl)
        · rw [if_neg hr]
          exact .inr (.inl rfl)

theorem tracked_launch {f : IperfFragment} (hcount : f.count = 0) (hfinished : ∀ p ∈ f.tests, p = .finished) :
    Tracked { f with tests := f.tests ++ [.launched] } := by
  constructor
  · intro i p hp hi
    simp only [List.length_append, List.length_singleton, Nat.add_sub_cancel] at hp hi
    rw [List.getElem?_append] at hp
    by_cases hlt : i < f.tests.length
    · rw [if_pos hlt] at hp
      exact hfinished p (List.mem_of_getElem? hp)
    · rw [if_neg hlt, List.getElem?_singleton, if_neg (by omega)] at hp
      cases hp
  · have hlaunched : Expected f.count (some .launched) := hcount
    simpa using hlaunched

theorem tracked_step {f : IperfFragment} (h : Tracked f) {event : Event} (horderly : Orderly lib f event) :
    Tracked (step lib f event) := by
  cases event with
  | inputHost s | inputPort s =>
      simp only [step]
      split
      · exact h
      · exact tracked_congr h rfl id
  | onSwipeForward =>
      simp only [step]
      split
      · exact h
      · exact tracked_launch horderly.1 horderly.2
  | onSwipeReverse => exact tracked_congr h rfl id
  | resume test =>
      rcases resume_cases f test with he | ⟨p, q, _, _, hpq, hp, _, he⟩
      · rwa [step, he]
      · rw [step, he]
        exact tracked_setTest h q hp hpq.ne_finished rfl fun hexp => hexp.resumed hpq
  | report test report =>
      simp only [step]
      split
      · next reverse hp =>
          apply tracked_report lib h hp
          intro hreverse
          subst hreverse
          exact horderly hp
      · exact h
  | exception test =>
      simp only [step]
      split
      · next reverse hp => exact tracked_setTest h .failed hp (by simp) rfl fun hexp => hexp.small
      · exact h
  | send upload bssid ssid =>
      simp only [step]
      split
      · exact tracked_congr h rfl id
      · exact h
  | answer upload posted =>
      simp only [step]
      split
      · refine tracked_congr h (afterUpload_tests _) ?_
        intro hexp
        rw [afterUpload]
        split
        · next htwo => exact hexp.afterReset htwo
        · exact hexp
      · exact h

theorem inPhase_of_tracked {f : IperfFragment} (h : Tracked f) {event : Event}
    (horderly : Orderly lib f event) :
    InPhase lib f event := by
  refine ⟨(tracked_step lib h horderly).expected.small, ?_⟩
  intro test report reverse _ hp
  have htest := h.others.eq hp (by simp)
  have hexp := h.expected
  rw [← htest, hp] at hexp
  cases reverse with
  | false => exact iff_of_true hexp rfl
  | true =>
      have hone : f.count = 1 := hexp
      rw [hone]
      decide

theorem tracked_start : Tracked {} :=
  ⟨fun _ _ hp => by simp at hp, rfl⟩

/-- In every orderly run the counter says which test is reporting. -/
theorem inPhase_of_orderly (events : List Event) (h : Along (step lib) (Orderly lib) {} events) :
    Along (step lib) (InPhase lib) {} events :=
  along_of_invariant Tracked (fun _ _ hf ho => tracked_step lib hf ho)
    (fun _ _ hf ho => inPhase_of_tracked lib hf ho) tracked_start h

def wholeRun : List Event :=
  [.inputHost (str "10.0.0.1"), .inputPort (str "5201"), .onSwipeForward, .resume 0,
    .report 0 (some smallReport), .send 0 [] [], .resume 0, .report 0 (some smallReport),
    .answer 0 none, .resume 0, .send 1 [] [], .answer 1 none]

theorem inPhase_of_orderly_wholeRun : Along (step samplePhone) (InPhase samplePhone) {} wholeRun :=
  inPhase_of_orderly samplePhone wholeRun
    ⟨trivial, trivial, ⟨by decide, by decide⟩, trivial, fun _ => by decide +kernel, trivial, trivial,
      fun h => absurd h (by decide +kernel), trivial, trivial, trivial, trivial, trivial⟩

/-- A forward report that cannot be read leaves the counter at zero, and the
report of the reversed test is read by its sum_sent part. -/
theorem not_inPhase : ¬ ∀ (D : Type) (lib : Libraries D) (events : List Event),
    Along (step lib) (InPhase lib) {} events := by
  intro h
  have hrun := h Rat samplePhone [.inputHost (str "10.0.0.1"), .inputPort (str "5201"),
    .onSwipeForward, .resume 0, .report 0 (some (str "\x7b")), .resume 0, .report 0 (some smallReport)]
  have hreverse := (hrun.2.2.2.2.2.2.1.2 0 _ true rfl (by decide +kernel)).1 (by decide +kernel)
  cases hreverse

end SberWifi.IperfCounter
