import SberWifi.IperfLedger

namespace SberWifi.IperfStop

open JavaString IperfMachine IperfLedger Runs

/-- Between the first `startAsync` of a coroutine and its end. -/
def active : Phase → Bool
  | .testing _ | .returned _ | .failed => true
  | .launched | .finished => false

def AtMostOne (tests : List Phase) : Prop :=
  ∀ (i j : Nat) p q, tests[i]? = some p → tests[j]? = some q → active p → active q → i = j

variable {D : Type} (lib : Libraries D)

def SparesStopped (l : Ledger) (e : Event) : Prop :=
  (∀ test report, e = .report test report → test ∈ l.stopped →
      (IperfLedger.step lib l e).fragment.reports = l.fragment.reports) ∧
    ((IperfLedger.step lib l e).fragment.resultTestVisible →
      ∀ owner ∈ (IperfLedger.step lib l e).owners.take 2, owner ∉ (IperfLedger.step lib l e).stopped)

def StopsRuns (l : Ledger) (e : Event) : Prop :=
  AtMostOne (IperfLedger.step lib l e).fragment.tests ∧ SparesStopped lib l e

/-- Nothing is left to stop: a run starts when all others have ended, a reverse
swipe finds no run under way that has added a report, and a run that one found
reports nothing more. -/
def NothingToStop (l : Ledger) : Event → Prop
  | .onSwipeForward => ∀ p ∈ l.fragment.tests, p = .finished
  | .onSwipeReverse => ∀ owner ∈ l.owners, l.fragment.tests[owner]? = some .finished
  | .report test report => test ∈ l.stopped → ¬ readable lib l.fragment report
  | _ => True

structure Spared (v : View) : Prop where
  owned : Owned v
  last : OnlyLast v.tests
  spared : ∀ owner ∈ v.owners, owner ∉ v.stopped

theorem atMostOne_of_onlyLast {tests : List Phase} (h : OnlyLast tests) : AtMostOne tests := by
  have hactive {p : Phase} (hp : active p) : p ≠ .finished := by
    rintro rfl
    cases hp
  intro i j p q hi hj hp hq
  exact (h i p hi (hactive hp)).trans (h j q hj (hactive hq)).symm

theorem not_unfinished {tests : List Phase} {test : Nat} (h : tests[test]? = some .finished) :
    test ∉ unfinished tests := by
  simp [unfinished, h]

theorem spared_step {l : Ledger} (h : Spared l.view) {e : Event} (he : NothingToStop lib l e) :
    Spared (IperfLedger.step lib l e).view := by
  have hmoves := step_moves lib l e h.owned
  have howned := hmoves.owned h.owned
  generalize (IperfLedger.step lib l e).view = v at hmoves howned ⊢
  cases hmoves with
  | stay => exact h
  | launch => exact ⟨howned, onlyLast_launch he, h.spared⟩
  | stop =>
      refine ⟨howned, h.last, ?_⟩
      intro owner howner hstopped
      rcases List.mem_append.1 hstopped with hstopped | hstopped
      · exact h.spared owner howner hstopped
      · exact not_unfinished (he owner howner) hstopped
  | resume hp hpq => exact ⟨howned, h.last.set hp hpq.ne_finished _, h.spared⟩
  | unread hp => exact ⟨howned, h.last.set hp (by simp) _, h.spared⟩
  | added hp hread =>
      refine ⟨howned, h.last.set hp (by simp) _, ?_⟩
      intro owner howner hstopped
      rcases List.mem_append.1 howner with howner | howner
      · exact h.spared owner howner hstopped
      · rw [List.mem_singleton.1 howner] at hstopped
        exact he hstopped (readable_of_format lib hread)
  | failed hp => exact ⟨howned, h.last.set hp (by simp) _, h.spared⟩
  | send | answered | reset => exact ⟨howned, h.last, h.spared⟩

theorem stopsRuns_of_spared {l : Ledger} (h : Spared l.view) {e : Event} (he : NothingToStop lib l e) :
    StopsRuns lib l e := by
  have hnext := spared_step lib h he
  refine ⟨atMostOne_of_onlyLast hnext.last, ?_, ?_⟩
  · rintro test report rfl hstopped
    have hmoves := step_moves lib l (.report test report) h.owned
    change (IperfLedger.step lib l (.report test report)).view.reports = l.view.reports
    generalize (IperfLedger.step lib l (.report test report)).view = v at hmoves ⊢
    cases hmoves with
    | stay | unread => rfl
    | added hp hread => exact absurd (readable_of_format lib hread) (he hstopped)
  · intro _ owner howner
    exact hnext.spared owner (List.mem_of_mem_take howner)

theorem spared_start : Spared (Ledger.view {}) where
  owned := rfl
  last := by simp [OnlyLast, Ledger.view]
  spared := by simp [Ledger.view]

/-- In every run that leaves nothing to stop, one iperf run is active at most and
a stopped one leaves nothing behind. -/
theorem stopsRuns (events : List Event) (h : Along (IperfLedger.step lib) (NothingToStop lib) {} events) :
    Along (IperfLedger.step lib) (StopsRuns lib) {} events :=
  along_of_invariant (fun l => Spared l.view) (fun _ _ hl he => spared_step lib hl he)
    (fun _ _ hl he => stopsRuns_of_spared lib hl he) spared_start h

def inputs : List Event := [.inputHost (str "10.0.0.1"), .inputPort (str "5201")]

theorem stopsRuns_failedRun : Along (IperfLedger.step samplePhone) (StopsRuns samplePhone) {}
    (inputs ++ [.onSwipeForward, .resume 0, .onSwipeReverse, .exception 0, .resume 0, .onSwipeForward]) := by
  apply stopsRuns
  refine ⟨trivial, trivial, ?_, trivial, ?_, trivial, trivial, ?_, trivial⟩
  · unfold NothingToStop
    decide +kernel
  · unfold NothingToStop
    decide +kernel
  · unfold NothingToStop
    decide +kernel

/-- Stopped and started again, the fragment has two runs going. -/
theorem not_stopsRuns : ¬ ∀ (D : Type) (lib : Libraries D) (events : List Event),
    Along (IperfLedger.step lib) (StopsRuns lib) {} events := by
  intro h
  have hrun := h Rat samplePhone (inputs ++
    [.onSwipeForward, .resume 0, .onSwipeReverse, .onSwipeForward, .resume 1])
  have htwo := hrun.2.2.2.2.2.2.1.1 0 1 (.testing false) (.testing false)
    (by decide +kernel) (by decide +kernel) rfl rfl
  cases htwo

end SberWifi.IperfStop
