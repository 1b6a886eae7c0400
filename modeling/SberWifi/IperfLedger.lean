import SberWifi.IperfMachine

namespace SberWifi.IperfLedger

open JavaString IperfEnvelope IperfMachine

/-- A report that an upload sends, with the run it comes from. A run is the
number of its coroutine. -/
structure Sent where
  run : Nat
  report : IperfReport

def Sent.uuid (c : Sent) : JString := c.report.info.uuid

/-- A fragment with what its runs have left behind: the run of each report that
was added (and so of each upload), what the uploads have sent, and the runs that
a reverse swipe found under way. -/
structure Ledger where
  fragment : IperfFragment := {}
  owners : List Nat := []
  sent : List Sent := []
  stopped : List Nat := []

def unfinished (tests : List Phase) : List Nat :=
  (List.range tests.length).filter fun test => tests[test]? ≠ some .finished

variable {D : Type} (lib : Libraries D)

def sentReport (f : IperfFragment) (bssid ssid report : JString) : IperfReport :=
  ⟨⟨lib.randomUUID f.uuid, bssid, ssid⟩, report⟩

def readable (f : IperfFragment) (report : Option JString) : Bool := (report.bind (format lib f.count)).isSome

def record (l : Ledger) : Event → Ledger
  | .onSwipeReverse => { l with stopped := l.stopped ++ unfinished l.fragment.tests }
  | .report test report =>
      match l.fragment.tests[test]? with
      | some (.testing _) => if readable lib l.fragment report then { l with owners := l.owners ++ [test] } else l
      | _ => l
  | .send upload bssid ssid =>
      match l.fragment.uploads[upload]?, l.owners[upload]? with
      | some (.launched report), some run =>
          { l with sent := l.sent ++ [⟨run, sentReport lib l.fragment bssid ssid report⟩] }
      | _, _ => l
  | _ => l

def step (l : Ledger) (e : Event) : Ledger :=
  { record lib l e with fragment := IperfMachine.step lib l.fragment e }

structure View where
  tests : List Phase
  count : Int32
  uuid : Nat
  uploads : List Upload
  reports : List JString
  owners : List Nat
  sent : List Sent
  stopped : List Nat

def Ledger.view (l : Ledger) : View :=
  ⟨l.fragment.tests, l.fragment.count, l.fragment.uuid, l.fragment.uploads, l.fragment.reports, l.owners,
    l.sent, l.stopped⟩

inductive Moves (v : View) : Event → View → Prop
  | stay (e : Event) : Moves v e v
  | launch : Moves v .onSwipeForward { v with tests := v.tests ++ [.launched] }
  | stop : Moves v .onSwipeReverse { v with stopped := v.stopped ++ unfinished v.tests }
  | resume {test : Nat} {p q : Phase} (hp : v.tests[test]? = some p) (hpq : Resumed p q) :
      Moves v (.resume test) { v with tests := v.tests.set test q }
  | unread {test : Nat} {reverse : Bool} {report : Option JString} (hp : v.tests[test]? = some (.testing reverse))
      (hread : report.bind (format lib v.count) = none) :
      Moves v (.report test report) { v with tests := v.tests.set test (.returned reverse) }
  | added {test : Nat} {reverse : Bool} {report result : JString} (hp : v.tests[test]? = some (.testing reverse))
      (hread : format lib v.count report = some result) :
      Moves v (.report test (some report))
        { v with
          tests := v.tests.set test (.returned reverse), count := v.count + 1
          uploads := v.uploads ++ [.launched report], reports := v.reports ++ [result]
          owners := v.owners ++ [test] }
  | failed {test : Nat} {reverse : Bool} (hp : v.tests[test]? = some (.testing reverse)) :
      Moves v (.exception test) { v with tests := v.tests.set test .failed }
  | send {upload run : Nat} {bssid ssid report : JString} (hu : v.uploads[upload]? = some (.launched report))
      (hrun : v.owners[upload]? = some run) :
      Moves v (.send upload bssid ssid)
        { v with
          uploads := v.uploads.set upload
            (.sending (IperfReport.toString ⟨⟨lib.randomUUID v.uuid, bssid, ssid⟩, report⟩))
          sent := v.sent ++ [⟨run, ⟨⟨lib.randomUUID v.uuid, bssid, ssid⟩, report⟩⟩] }
  | answered {upload : Nat} {text : JString} {posted : Posted} {status : Int32}
      (hu : v.uploads[upload]? = some (.sending text)) (hcount : v.count ≠ 2) :
      Moves v (.answer upload posted) { v with uploads := v.uploads.set upload (.finished status) }
  | reset {upload : Nat} {text : JString} {posted : Posted} {status : Int32}
      (hu : v.uploads[upload]? = some (.sending text)) (hcount : v.count = 2) :
      Moves v (.answer upload posted)
        { v with uploads := v.uploads.set upload (.finished status), count := 0, uuid := v.uuid + 1 }

theorem readable_of_format {f : IperfFragment} {report result : JString}
    (h : format lib f.count report = some result) : readable lib f (some report) := by
  rw [readable, Option.bind_some, h]
  rfl

def Owned (v : View) : Prop := v.owners.length = v.uploads.length

theorem step_moves (l : Ledger) (e : Event) (howned : Owned l.view) :
    Moves lib l.view e (step lib l e).view := by
  cases e with
  | inputHost s | inputPort s =>
      simp only [step, record, IperfMachine.step]
      split <;> exact .stay _
  | onSwipeForward =>
      simp only [step, record, IperfMachine.step]
      split
      · exact .stay _
      · exact .launch
  | onSwipeReverse => exact .stop
  | resume test =>
      rcases resume_cases l.fragment test with he | ⟨p, q, _, _, hpq, hp, _, he⟩
      · simp only [step, record, IperfMachine.step, he]
        exact .stay _
      · simp only [step, record, IperfMachine.step, he]
        exact .resume hp hpq
  | report test report =>
      rcases htest : l.fragment.tests[test]? with _ | phase
      · simp only [step, record, IperfMachine.step, htest]
        exact .stay _
      · cases phase with
        | testing reverse =>
            simp only [step, record, IperfMachine.step, htest]
            cases report with
            | none => exact .unread htest rfl
            | some report =>
                cases hread : format lib l.fragment.count report with
                | none =>
                    simp only [reportCallback, readable, Option.bind_some, hread]
                    exact .unread htest hread
                | some result =>
                    simp only [reportCallback, readable, Option.bind_some, hread]
                    exact .added htest hread
        | launched | returned | failed | finished =>
            simp only [step, record, IperfMachine.step, htest]
            exact .stay _
  | exception test =>
      simp only [step, record, IperfMachine.step]
      split
      · next reverse hp => exact .failed hp
      · exact .stay _
  | send upload bssid ssid =>
      cases hu : l.fragment.uploads[upload]? with
      | none =>
          simp only [step, record, IperfMachine.step, hu]
          exact .stay _
      | some u =>
          obtain ⟨run, hrun⟩ : ∃ run, l.owners[upload]? = some run := by
            have hlt := (List.getElem?_eq_some_iff.1 hu).1
            exact ⟨_, List.getElem?_eq_getElem (lt_of_lt_of_eq hlt howned.symm)⟩
          cases u with
          | launched report =>
              simp only [step, record, IperfMachine.step, hu, hrun]
              exact .send hu hrun
          | sending text =>
              simp only [step, record, IperfMachine.step, hu]
              exact .stay _
          | finished status =>
              simp only [step, record, IperfMachine.step, hu]
              exact .stay _
  | answer upload posted =>
      simp only [step, record, IperfMachine.step]
      split
      · next text hu =>
          by_cases hcount : l.fragment.count = 2
          · simp only [afterUpload, setUpload_count, hcount, if_true]
            exact .reset hu hcount
          · simp only [afterUpload, setUpload_count, hcount, if_false]
            exact .answered hu hcount
      · exact .stay _

variable {lib} in
theorem Moves.owned {v v' : View} {e : Event} (h : Moves lib v e v') (howned : Owned v) : Owned v' := by
  cases h <;> simp_all [Owned]

def OnlyLast (tests : List Phase) : Prop :=
  ∀ i p, tests[i]? = some p → p ≠ .finished → i = tests.length - 1

theorem onlyLast_launch {tests : List Phase} (h : ∀ p ∈ tests, p = .finished) :
    OnlyLast (tests ++ [.launched]) := by
  intro i p hp hne
  rw [List.getElem?_append] at hp
  split_ifs at hp with hi
  · exact absurd (h p (List.mem_of_getElem? hp)) hne
  · have hlt := (List.getElem?_eq_some_iff.1 hp).1
    simp only [List.length_append, List.length_singleton] at hlt ⊢
    omega

theorem OnlyLast.set {tests : List Phase} (h : OnlyLast tests) {test : Nat} {p : Phase}
    (hp : tests[test]? = some p) (hne : p ≠ .finished) (q : Phase) : OnlyLast (tests.set test q) := by
  have htest := h test p hp hne
  intro i r hr hr'
  rw [List.length_set]
  by_cases hi : test = i
  · exact hi ▸ htest
  · rw [List.getElem?_set_ne hi] at hr
    exact h i r hr hr'

end SberWifi.IperfLedger
