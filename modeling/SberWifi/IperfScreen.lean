import SberWifi.IperfMachine

namespace SberWifi.IperfScreen

open JavaString IperfMachine Runs

def quiet : Event → Bool
  | .inputHost _ | .inputPort _ | .resume _ | .send .. | .answer .. => true
  | .onSwipeForward | .onSwipeReverse | .report .. | .exception _ => false

/-- One run of the two tests: a swipe and the two reports, with quiet events in
between, in any order in which the coroutines go on. -/
structure CompletedRun where
  before : List Event
  started : List Event
  sent : JString
  between : List Event
  received : JString
  after : List Event

def CompletedRun.untilSent (r : CompletedRun) : List Event := r.before ++ [.onSwipeForward] ++ r.started

def CompletedRun.untilReceived (r : CompletedRun) (test : Nat) : List Event :=
  r.untilSent ++ [.report test (some r.sent)] ++ r.between

def CompletedRun.events (r : CompletedRun) (test : Nat) : List Event :=
  r.untilReceived test ++ [.report test (some r.received)] ++ r.after

variable {D : Type} (lib : Libraries D)

def play (f : IperfFragment) (r : CompletedRun) : IperfFragment := run (step lib) f (r.events f.tests.length)

def Uploaded (f : IperfFragment) : Prop := ∀ u ∈ f.uploads, u.isFinished

/-- Both tests of the run report, both reports can be read, and the run's
coroutines and uploads end before the next run. -/
structure Completes (f : IperfFragment) (r : CompletedRun) : Prop where
  quiet : ∀ e ∈ r.before ++ r.started ++ r.between ++ r.after, quiet e
  forward : (run (step lib) f r.untilSent).tests[f.tests.length]? = some (.testing false)
  reversed : (run (step lib) f (r.untilReceived f.tests.length)).tests[f.tests.length]? = some (.testing true)
  sent : (formatSent lib r.sent).isSome
  received : (formatReceived lib r.received).isSome
  finished : ∀ p ∈ (play lib f r).tests, p = .finished
  uploaded : Uploaded (play lib f r)

def texts (r : CompletedRun) : List JString :=
  [(formatSent lib r.sent).getD [], (formatReceived lib r.received).getD []]

def ownText (r : CompletedRun) : JString :=
  (formatSent lib r.sent).getD [] ++ (formatReceived lib r.received).getD []

def shown (f : IperfFragment) : Option JString := if f.resultTestVisible then some f.resultTest else none

def ShowsOwn (f : IperfFragment) (r : CompletedRun) : Prop := shown (play lib f r) = some (ownText lib r)

theorem quiet_cases {f : IperfFragment} {event : Event} (h : quiet event) :
    (∃ host port, step lib f event = { f with inputHost := host, inputPort := port }) ∨
      (∃ test, step lib f event = resume f test) ∨
      (∃ upload report text, f.uploads[upload]? = some (.launched report) ∧
        step lib f event = f.setUpload upload (.sending text)) ∨
      ∃ upload text status, f.uploads[upload]? = some (.sending text) ∧
        step lib f event = afterUpload (f.setUpload upload (.finished status)) := by
  cases event with
  | inputHost s | inputPort s =>
      simp only [step]
      split
      · exact .inl ⟨f.inputHost, f.inputPort, rfl⟩
      · exact .inl ⟨_, _, rfl⟩
  | resume test => exact .inr (.inl ⟨test, rfl⟩)
  | send upload bssid ssid =>
      simp only [step]
      split
      · next report hu => exact .inr (.inr (.inl ⟨upload, report, _, hu, rfl⟩))
      · exact .inl ⟨f.inputHost, f.inputPort, rfl⟩
  | answer upload posted =>
      simp only [step]
      split
      · next text hu => exact .inr (.inr (.inr ⟨upload, text, _, hu, rfl⟩))
      · exact .inl ⟨f.inputHost, f.inputPort, rfl⟩
  | onSwipeForward | onSwipeReverse | report | exception => cases h

theorem resume_frame (f : IperfFragment) (test : Nat) :
    (resume f test).count = f.count ∧ (resume f test).reports = f.reports ∧
      (resume f test).uploads = f.uploads ∧ (resume f test).tests.length = f.tests.length := by
  rcases resume_cases f test with he | ⟨p, q, _, _, _, _, _, he⟩
  · simp [he]
  · rw [he]
    exact ⟨rfl, rfl, rfl, length_setTest _ _ _⟩

structure Waiting (test : Nat) (written : List JString) (f : IperfFragment) : Prop where
  count : f.count = 0
  reports : f.reports = written
  uploaded : Uploaded f
  others : OthersFinished test f

structure Halfway (test : Nat) (written : List JString) (f : IperfFragment) : Prop where
  count : f.count = 1
  reports : f.reports = written
  others : OthersFinished test f

structure Reported (written : List JString) (f : IperfFragment) : Prop where
  reports : f.reports = written
  tests : ∀ p ∈ f.tests, p = .returned true ∨ p = .finished
  shown : (f.count = 2 ∧ ¬ Uploaded f) ∨
    (f.count = 0 ∧ f.resultTestVisible ∧ f.resultTest = written.getD 0 [] ++ written.getD 1 [])

theorem not_uploaded {f : IperfFragment} {upload : Nat} {u : Upload} (hu : f.uploads[upload]? = some u)
    (hne : u.isFinished = false) : ¬ Uploaded f := by
  intro h
  rw [h u (List.mem_of_getElem? hu)] at hne
  cases hne

theorem waiting_quiet {test : Nat} {written : List JString} {f : IperfFragment} (h : Waiting test written f)
    {event : Event} (hq : quiet event) : Waiting test written (step lib f event) := by
  rcases quiet_cases lib hq with ⟨_, _, he⟩ | ⟨i, he⟩ | ⟨_, _, _, hu, _⟩ | ⟨_, _, _, hu, _⟩
  · rw [he]
    exact ⟨h.count, h.reports, h.uploaded, h.others⟩
  · obtain ⟨hcount, hreports, huploads, _⟩ := resume_frame f i
    rw [he]
    refine ⟨hcount.trans h.count, hreports.trans h.reports, ?_, h.others.resume i⟩
    rw [Uploaded, huploads]
    exact h.uploaded
  · exact absurd h.uploaded (not_uploaded hu rfl)
  · exact absurd h.uploaded (not_uploaded hu rfl)

theorem halfway_quiet {test : Nat} {written : List JString} {f : IperfFragment} (h : Halfway test written f)
    {event : Event} (hq : quiet event) : Halfway test written (step lib f event) := by
  rcases quiet_cases lib hq with ⟨_, _, he⟩ | ⟨i, he⟩ | ⟨_, _, _, _, he⟩ | ⟨upload, _, status, _, he⟩
  · rw [he]
    exact ⟨h.count, h.reports, h.others⟩
  · obtain ⟨hcount, hreports, _, _⟩ := resume_frame f i
    rw [he]
    exact ⟨hcount.trans h.count, hreports.trans h.reports, h.others.resume i⟩
  · rw [he]
    exact ⟨h.count, h.reports, h.others⟩
  · have hkeep : afterUpload (f.setUpload upload (.finished status)) =
        f.setUpload upload (.finished status) :=
      if_neg (by rw [setUpload_count, h.count]; decide)
    rw [he, hkeep]
    exact ⟨h.count, h.reports, h.others⟩

theorem reported_quiet {written : List JString} {f : IperfFragment} (h : Reported written f)
    {event : Event} (hq : quiet event) : Reported written (step lib f event) := by
  rcases quiet_cases lib hq with ⟨_, _, he⟩ | ⟨i, he⟩ | ⟨upload, _, text, hu, he⟩ |
    ⟨upload, _, status, hu, he⟩
  · rw [he]
    exact ⟨h.reports, h.tests, h.shown⟩
  · rw [he]
    rcases resume_cases f i with he | ⟨p, q, result, _, hpq, hp, hview, he⟩
    · rwa [he]
    · have hp' : p = .returned true := (h.tests p (List.mem_of_getElem? hp)).resolve_right hpq.ne_finished
      subst hp'
      cases hpq
      rw [he, hview rfl]
      refine ⟨h.reports, ?_, h.shown⟩
      intro p hp
      rcases List.mem_or_eq_of_mem_set hp with hp | rfl
      · exact h.tests p hp
      · exact .inr rfl
  · rw [he]
    refine ⟨h.reports, h.tests, h.shown.imp_left fun hs => ⟨hs.1, ?_⟩⟩
    exact not_uploaded (List.getElem?_set_self (List.getElem?_eq_some_iff.1 hu).1) rfl
  · rw [he]
    refine ⟨by simpa using h.reports, by simpa using h.tests, .inr ?_⟩
    rcases h.shown with ⟨hcount, _⟩ | hshown
    · rw [afterUpload, if_pos (show (f.setUpload upload (.finished status)).count = 2 from hcount)]
      exact ⟨rfl, rfl, by rw [← h.reports]; rfl⟩
    · rw [afterUpload, if_neg (by rw [setUpload_count, hshown.1]; decide)]
      exact hshown

theorem length_quiet {f : IperfFragment} {event : Event} (hq : quiet event) :
    (step lib f event).tests.length = f.tests.length := by
  rcases quiet_cases lib hq with ⟨_, _, he⟩ | ⟨i, he⟩ | ⟨_, _, _, _, he⟩ | ⟨_, _, _, _, he⟩
  · rw [he]
  · rw [he]
    exact (resume_frame f i).2.2.2
  · rw [he]
    rfl
  · rw [he, afterUpload_tests]
    rfl

theorem reportCallback_of_format {f : IperfFragment} {report result : JString}
    (h : format lib f.count report = some result) : reportCallback lib f (some report) =
      { f with
        reports := f.reports ++ [result], count := f.count + 1,
        uploads := f.uploads ++ [.launched report] } := by
  simp [reportCallback, h]

theorem halfway_of_waiting {test : Nat} {written : List JString} {f : IperfFragment}
    (h : Waiting test written f) (hp : f.tests[test]? = some (.testing false))
    {sent result : JString} (hs : formatSent lib sent = some result) :
    Halfway test (written ++ [result]) (step lib f (.report test (some sent))) := by
  have hformat : format lib f.count sent = some result := by
    rw [format, if_pos h.count, hs]
  have hstep : step lib f (.report test (some sent)) =
      (reportCallback lib f (some sent)).setTest test (.returned false) := by
    simp [step, hp]
  rw [hstep, reportCallback_of_format lib hformat]
  refine ⟨?_, ?_, ?_⟩
  · change f.count + 1 = 1
    rw [h.count]
    rfl
  · change f.reports ++ [result] = written ++ [result]
    rw [h.reports]
  · exact h.others.setTest (.returned false)

theorem reported_of_halfway {test : Nat} {written : List JString} {f : IperfFragment}
    (h : Halfway test written f) (hp : f.tests[test]? = some (.testing true))
    {received result : JString} (hr : formatReceived lib received = some result) :
    Reported (written ++ [result]) (step lib f (.report test (some received))) := by
  have hformat : format lib f.count received = some result := by
    rw [format, if_neg (by rw [h.count]; decide), hr]
  have hstep : step lib f (.report test (some received)) =
      (reportCallback lib f (some received)).setTest test (.returned true) := by
    simp [step, hp]
  rw [hstep, reportCallback_of_format lib hformat]
  refine ⟨?_, ?_, .inl ⟨?_, ?_⟩⟩
  · change f.reports ++ [result] = written ++ [result]
    rw [h.reports]
  · intro p hp'
    obtain ⟨i, hi⟩ := List.getElem?_of_mem hp'
    by_cases htest : i = test
    · subst htest
      have hself := setTest_self hp (.returned true)
      exact .inl (Option.some.inj (hi.symm.trans hself))
    · exact .inr (h.others.setTest (.returned true) i p hi htest)
  · change f.count + 1 = 2
    rw [h.count]
    rfl
  · have hlast : (f.uploads ++ [Upload.launched received])[f.uploads.length]? =
        some (.launched received) := by
      simp
    exact not_uploaded hlast rfl

theorem waiting_swipe {f : IperfFragment} {test : Nat} {written : List JString} (h : Waiting test written f)
    (hlength : f.tests.length = test) : Waiting test written (step lib f .onSwipeForward) := by
  simp only [step]
  split
  · exact h
  · refine ⟨h.count, h.reports, h.uploaded, ?_⟩
    intro i p hp hi
    rw [List.getElem?_append] at hp
    by_cases hlt : i < f.tests.length
    · rw [if_pos hlt] at hp
      exact h.others i p hp hi
    · rw [if_neg hlt, List.getElem?_singleton, if_neg (by omega)] at hp
      cases hp

structure Idle (written : List JString) (f : IperfFragment) : Prop where
  count : f.count = 0
  reports : f.reports = written
  finished : ∀ p ∈ f.tests, p = .finished
  uploaded : Uploaded f

theorem keep_quiet (inv : IperfFragment → Prop) (hstep : ∀ f e, inv f → quiet e → inv (step lib f e))
    {f : IperfFragment} (hf : inv f) {events : List Event} (h : ∀ e ∈ events, quiet e) :
    inv (run (step lib) f events) :=
  run_invariant inv hstep hf (along_of_forall h f)

theorem reported_play {written : List JString} {f : IperfFragment} (h : Idle written f) {r : CompletedRun}
    (hr : Completes lib f r) : Reported (written ++ texts lib r) (play lib f r) := by
  obtain ⟨sent, hsent⟩ := Option.isSome_iff_exists.1 hr.sent
  obtain ⟨received, hreceived⟩ := Option.isSome_iff_exists.1 hr.received
  have hquiet := hr.quiet
  simp only [List.forall_mem_append] at hquiet
  obtain ⟨⟨⟨hbefore, hstarted⟩, hbetween⟩, hafter⟩ := hquiet
  have hforward := hr.forward
  have hreversed := hr.reversed
  simp only [CompletedRun.untilReceived, CompletedRun.untilSent, run_append, run_cons, run_nil]
    at hforward hreversed
  have hidle : Waiting f.tests.length written (run (step lib) f r.before) ∧
      (run (step lib) f r.before).tests.length = f.tests.length := by
    refine keep_quiet lib (fun g => Waiting f.tests.length written g ∧ g.tests.length = f.tests.length)
      ?_ ⟨⟨h.count, h.reports, h.uploaded, ?_⟩, rfl⟩ hbefore
    · rintro g e ⟨hg, hlength⟩ he
      exact ⟨waiting_quiet lib hg he, (length_quiet lib he).trans hlength⟩
    · intro i p hp _
      exact h.finished p (List.mem_of_getElem? hp)
  have hwaiting := keep_quiet lib (Waiting f.tests.length written) (fun _ _ hg he => waiting_quiet lib hg he)
    (waiting_swipe lib hidle.1 hidle.2) hstarted
  have hhalf := keep_quiet lib (Halfway f.tests.length (written ++ [sent]))
    (fun _ _ hg he => halfway_quiet lib hg he) (halfway_of_waiting lib hwaiting hforward hsent) hbetween
  have hreported := keep_quiet lib (Reported (written ++ [sent] ++ [received]))
    (fun _ _ hg he => reported_quiet lib hg he) (reported_of_halfway lib hhalf hreversed hreceived) hafter
  simpa [play, CompletedRun.events, CompletedRun.untilReceived, CompletedRun.untilSent, texts,
    hsent, hreceived] using
    hreported

theorem idle_play {written : List JString} {f : IperfFragment} (h : Idle written f) {r : CompletedRun}
    (hr : Completes lib f r) : Idle (written ++ texts lib r) (play lib f r) := by
  have hreported := reported_play lib h hr
  rcases hreported.shown with ⟨_, hpending⟩ | ⟨hcount, _⟩
  · exact absurd hr.uploaded hpending
  · exact ⟨hcount, hreported.reports, hr.finished, hr.uploaded⟩

theorem shown_play {written : List JString} {f : IperfFragment} (h : Idle written f) {r : CompletedRun}
    (hr : Completes lib f r) : shown (play lib f r) =
      some ((written ++ texts lib r).getD 0 [] ++ (written ++ texts lib r).getD 1 []) := by
  rcases (reported_play lib h hr).shown with ⟨_, hpending⟩ | ⟨_, hvisible, hresult⟩
  · exact absurd hr.uploaded hpending
  · rw [shown, if_pos hvisible, hresult]

theorem idle_run {written : List JString} {f : IperfFragment} (h : Idle written f) {runs : List CompletedRun}
    (hruns : Along (play lib) (Completes lib) f runs) :
    Idle (written ++ runs.flatMap (texts lib)) (run (play lib) f runs) := by
  induction runs generalizing f written with
  | nil => simpa using h
  | cons r runs ih => simpa using ih (idle_play lib h hruns.1) hruns.2

theorem idle_start : Idle [] {} := ⟨rfl, rfl, by simp, by simp [Uploaded]⟩

/-- A run's screen is its own only when its text is that of the first run. -/
theorem showsOwn_iff (runs : List CompletedRun) (r : CompletedRun)
    (h : Along (play lib) (Completes lib) {} (runs ++ [r])) :
    ShowsOwn lib (run (play lib) {} runs) r ↔ ∀ first ∈ runs.head?, ownText lib r = ownText lib first := by
  obtain ⟨hruns, hr, _⟩ := (along_append _ _ _).1 h
  rw [ShowsOwn, shown_play lib (idle_run lib idle_start hruns) hr, Option.some_inj]
  cases runs with
  | nil => simp [texts, ownText]
  | cons first runs => simp [texts, ownText, eq_comm]

def smallRun : CompletedRun where
  before := [.inputHost (str "10.0.0.1"), .inputPort (str "5201")]
  started := [.resume 0]
  sent := smallReport
  between := [.send 0 [] [], .resume 0]
  received := smallReport
  after := [.answer 0 none, .resume 0, .send 1 [] [], .answer 1 none]

def largeRun : CompletedRun where
  before := []
  started := [.resume 1]
  sent := largeReport
  between := [.resume 1]
  received := largeReport
  after := [.send 2 [] [], .send 3 [] [], .answer 3 none, .answer 2 none, .resume 1]

theorem completes_smallRun : Completes samplePhone {} smallRun := by
  have hruns : (run (step samplePhone) {} smallRun.untilSent).tests[0]? = some (.testing false) ∧
      (run (step samplePhone) {} (smallRun.untilReceived 0)).tests[0]? = some (.testing true) ∧
      (formatSent samplePhone smallRun.sent).isSome ∧ (formatReceived samplePhone smallRun.received).isSome ∧
      (∀ p ∈ (play samplePhone {} smallRun).tests, p = .finished) ∧
      ∀ u ∈ (play samplePhone {} smallRun).uploads, u.isFinished := by
    decide +kernel
  obtain ⟨hforward, hreversed, hsent, hreceived, hfinished, huploaded⟩ := hruns
  exact ⟨by decide, hforward, hreversed, hsent, hreceived, hfinished, huploaded⟩

theorem completes_largeRun : Completes samplePhone (play samplePhone {} smallRun) largeRun := by
  let f := play samplePhone {} smallRun
  have hruns : (run (step samplePhone) f largeRun.untilSent).tests[f.tests.length]? = some (.testing false) ∧
      (run (step samplePhone) f (largeRun.untilReceived f.tests.length)).tests[f.tests.length]? =
        some (.testing true) ∧
      (formatSent samplePhone largeRun.sent).isSome ∧ (formatReceived samplePhone largeRun.received).isSome ∧
      (∀ p ∈ (play samplePhone f largeRun).tests, p = .finished) ∧
      ∀ u ∈ (play samplePhone f largeRun).uploads, u.isFinished := by
    decide +kernel
  obtain ⟨hforward, hreversed, hsent, hreceived, hfinished, huploaded⟩ := hruns
  exact ⟨by decide, hforward, hreversed, hsent, hreceived, hfinished, huploaded⟩

theorem showsOwn_iff_largeRun : ShowsOwn samplePhone (run (play samplePhone) {} [smallRun]) largeRun ↔
    ∀ first ∈ [smallRun].head?, ownText samplePhone largeRun = ownText samplePhone first :=
  showsOwn_iff samplePhone [smallRun] largeRun ⟨completes_smallRun, completes_largeRun, trivial⟩

/-- After a run of seven megabytes the screen still shows the one of one. -/
theorem not_showsOwn : ¬ ∀ (D : Type) (lib : Libraries D) (runs : List CompletedRun) (r : CompletedRun),
    Along (play lib) (Completes lib) {} (runs ++ [r]) → ShowsOwn lib (run (play lib) {} runs) r := by
  intro h
  have hshown := h Rat samplePhone [smallRun] largeRun ⟨completes_smallRun, completes_largeRun, trivial⟩
  have hidle := idle_play samplePhone idle_start completes_smallRun
  rw [ShowsOwn, run_cons, run_nil, shown_play samplePhone hidle completes_largeRun, Option.some_inj] at hshown
  revert hshown
  decide +kernel

end SberWifi.IperfScreen
