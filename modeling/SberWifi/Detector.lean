import SberWifi.Runs
import SberWifi.Transformer
import Mathlib.Data.List.Nodup

namespace SberWifi.Detector

open JavaString Detail ScanData Transformer Runs

structure WiFiScan where
  scanResult : List ScanResult
  wifiInfo : Option WifiInfo

/-- Where the coroutine of a scan is: before its transform, back from the worker
thread but not yet on the main thread, and done. -/
inductive Phase
  | transforming
  | transformed (result : ScannedData)
  | finished (result : ScannedData)

structure Job where
  scan : WiFiScan
  phase : Phase

/-- The view model and `MainContext.wiFiData`. The scans that were published are
written down by number, in the order in which they were. -/
structure State where
  process : Process
  jobs : List Job
  resultScanLiveData : Option ScannedData
  wiFiData : Option ScannedData
  published : List Nat

def start (process : Process) : State := ⟨process, [], none, none, []⟩

inductive Event
  | scan (scan : WiFiScan)
  | transform (i : Nat) (macAddress : JString)
  | resume (i : Nat)

variable (platform : Platform)

/-- The value that a coroutine sets reaches the observer at once. -/
def resultScanObserver (s : State) (i : Nat) (result : ScannedData) : State :=
  { s with resultScanLiveData := some result, wiFiData := some result, published := s.published ++ [i] }

def step (s : State) : Event → State
  | .scan scan => { s with jobs := s.jobs ++ [⟨scan, .transforming⟩] }
  | .transform i macAddress =>
      match s.jobs[i]? with
      | some ⟨scan, .transforming⟩ =>
          let (process, result) :=
            transformToWiFiData platform s.process ⟨scan.scanResult, scan.wifiInfo, macAddress⟩
          { s with process, jobs := s.jobs.set i ⟨scan, .transformed result⟩ }
      | _ => s
  | .resume i =>
      match s.jobs[i]? with
      | some ⟨scan, .transformed result⟩ =>
          resultScanObserver { s with jobs := s.jobs.set i ⟨scan, .finished result⟩ } i result
      | _ => s

def OfScan (scan : WiFiScan) (result : ScannedData) : Prop :=
  result.wiFiDetails = transformScanResult platform scan.scanResult ∧
    ∃ macAddress, result.wiFiConnection = transformWifiInfo platform macAddress scan.wifiInfo

def Shows (s : State) (i : Nat) : Prop :=
  ∃ scan result, s.jobs[i]? = some ⟨scan, .finished result⟩ ∧ OfScan platform scan result ∧
    s.resultScanLiveData = some result ∧ s.wiFiData = some result

def AllFinished (s : State) : Prop := ∀ job ∈ s.jobs, ∃ result, job.phase = .finished result

def LatestWins (s : State) : Prop :=
  s.published.Pairwise (· < ·) ∧
    (AllFinished s → ∀ n, s.jobs.length = n + 1 → Shows platform s n)

def InOrder (s : State) : Event → Prop
  | .resume i => ∀ scan result, s.jobs[i]? = some ⟨scan, .transformed result⟩ → ∀ j < i, j ∈ s.published
  | _ => True

structure Recorded (s : State) : Prop where
  made : ∀ (i : Nat) scan result, s.jobs[i]? = some ⟨scan, .transformed result⟩ → OfScan platform scan result
  nodup : s.published.Nodup
  finished : ∀ i, i ∈ s.published ↔ ∃ scan result, s.jobs[i]? = some ⟨scan, .finished result⟩
  shows_last : ∀ i, s.published.getLast? = some i → Shows platform s i

/-- What a step does, when it does anything. -/
theorem step_cases (s : State) (e : Event) : step platform s e = s ∨
    (∃ scan, e = .scan scan ∧ step platform s e = { s with jobs := s.jobs ++ [⟨scan, .transforming⟩] }) ∨
    (∃ i macAddress scan process result, e = .transform i macAddress ∧
      s.jobs[i]? = some ⟨scan, .transforming⟩ ∧ OfScan platform scan result ∧
      step platform s e = { s with process, jobs := s.jobs.set i ⟨scan, .transformed result⟩ }) ∨
    ∃ i scan result, e = .resume i ∧ s.jobs[i]? = some ⟨scan, .transformed result⟩ ∧
      step platform s e =
        resultScanObserver { s with jobs := s.jobs.set i ⟨scan, .finished result⟩ } i result := by
  cases e with
  | scan scan => exact .inr (.inl ⟨scan, rfl, rfl⟩)
  | transform i macAddress =>
      cases hjob : s.jobs[i]? with
      | none => exact .inl (by simp only [step, hjob])
      | some job =>
          obtain ⟨scan, phase⟩ := job
          cases phase with
          | transforming =>
              let call : Call := ⟨scan.scanResult, scan.wifiInfo, macAddress⟩
              have hmade : OfScan platform scan (transformToWiFiData platform s.process call).2 :=
                ⟨rfl, macAddress, rfl⟩
              exact .inr (.inr (.inl ⟨i, macAddress, scan, _, _, rfl, hjob, hmade, by simp only [step, hjob]; rfl⟩))
          | transformed result => exact .inl (by simp only [step, hjob])
          | finished result => exact .inl (by simp only [step, hjob])
  | resume i =>
      cases hjob : s.jobs[i]? with
      | none => exact .inl (by simp only [step, hjob])
      | some job =>
          obtain ⟨scan, phase⟩ := job
          cases phase with
          | transforming => exact .inl (by simp only [step, hjob])
          | transformed result => exact .inr (.inr (.inr ⟨i, scan, result, rfl, hjob, by simp only [step, hjob]⟩))
          | finished result => exact .inl (by simp only [step, hjob])

section Jobs

variable {jobs : List Job} {i j : Nat} {scan scan' : WiFiScan} {result result' : ScannedData}

theorem getElem?_launched {phase : Phase} (hphase : phase ≠ .transforming) :
    (jobs ++ [⟨scan, .transforming⟩])[j]? = some ⟨scan', phase⟩ ↔ jobs[j]? = some ⟨scan', phase⟩ := by
  rw [List.getElem?_append]
  split_ifs with hj
  · exact Iff.rfl
  · rw [List.getElem?_eq_none_iff.2 (not_lt.1 hj)]
    cases hlast : j - jobs.length with
    | zero => simp [hphase.symm]
    | succ k => simp

theorem getElem?_set_finished (h : jobs[i]? = some ⟨scan, .transforming⟩) :
    (jobs.set i ⟨scan, .transformed result⟩)[j]? = some ⟨scan', .finished result'⟩ ↔
      jobs[j]? = some ⟨scan', .finished result'⟩ := by
  by_cases hij : i = j
  · subst hij
    rw [List.getElem?_set_self (List.getElem?_eq_some_iff.1 h).1, h]
    simp
  · rw [List.getElem?_set_ne hij]

theorem getElem?_finish (h : jobs[i]? = some ⟨scan, .transformed result⟩) :
    (jobs.set i ⟨scan, .finished result⟩)[j]? = some ⟨scan', .finished result'⟩ ↔
      (j = i ∧ scan = scan' ∧ result = result') ∨ jobs[j]? = some ⟨scan', .finished result'⟩ := by
  by_cases hij : i = j
  · subst hij
    rw [List.getElem?_set_self (List.getElem?_eq_some_iff.1 h).1, h]
    simp
  · rw [List.getElem?_set_ne hij]
    simp [Ne.symm hij]

end Jobs

theorem recorded_start (process : Process) : Recorded platform (start process) := by
  refine ⟨?_, List.nodup_nil, ?_, ?_⟩
  · intro i scan result h
    cases h
  · simp [start]
  · intro i h
    cases h

section Steps

variable {platform} {s : State} (hs : Recorded platform s) {i : Nat} {scan : WiFiScan} {result : ScannedData}
include hs

theorem recorded_launch : Recorded platform { s with jobs := s.jobs ++ [⟨scan, .transforming⟩] } := by
  refine ⟨?_, hs.nodup, ?_, ?_⟩
  · intro j scan' result h
    exact hs.made j scan' result ((getElem?_launched (by simp)).1 h)
  · intro j
    have hlaunched (scan' : WiFiScan) (result : ScannedData) :
        (s.jobs ++ [⟨scan, .transforming⟩])[j]? = some ⟨scan', .finished result⟩ ↔
          s.jobs[j]? = some ⟨scan', .finished result⟩ := getElem?_launched (by simp)
    simp only [hs.finished, hlaunched]
  · intro j hj
    obtain ⟨scan', result, h, hshown⟩ := hs.shows_last j hj
    exact ⟨scan', result, (getElem?_launched (by simp)).2 h, hshown⟩

theorem recorded_transformed (hjob : s.jobs[i]? = some ⟨scan, .transforming⟩)
    (hmade : OfScan platform scan result) (process : Process) :
    Recorded platform { s with process, jobs := s.jobs.set i ⟨scan, .transformed result⟩ } := by
  refine ⟨?_, hs.nodup, ?_, ?_⟩
  · intro j scan' result' h
    by_cases hij : i = j
    · subst hij
      rw [List.getElem?_set_self (List.getElem?_eq_some_iff.1 hjob).1] at h
      cases h
      exact hmade
    · rw [List.getElem?_set_ne hij] at h
      exact hs.made j scan' result' h
  · intro j
    simp only [hs.finished, getElem?_set_finished hjob]
  · intro j hj
    obtain ⟨scan', result', h, hshown⟩ := hs.shows_last j hj
    exact ⟨scan', result', (getElem?_set_finished hjob).2 h, hshown⟩

theorem recorded_published (hjob : s.jobs[i]? = some ⟨scan, .transformed result⟩) :
    Recorded platform
      (resultScanObserver { s with jobs := s.jobs.set i ⟨scan, .finished result⟩ } i result) := by
  have hnew : i ∉ s.published := by
    rw [hs.finished, hjob]
    rintro ⟨scan', result', h⟩
    cases h
  refine ⟨?_, ?_, ?_, ?_⟩
  · intro j scan' result' h
    by_cases hij : i = j
    · subst hij
      rw [resultScanObserver, List.getElem?_set_self (List.getElem?_eq_some_iff.1 hjob).1] at h
      cases h
    · rw [resultScanObserver, List.getElem?_set_ne hij] at h
      exact hs.made j scan' result' h
  · refine List.nodup_append.2 ⟨hs.nodup, List.nodup_singleton i, ?_⟩
    intro j hj k hk heq
    exact hnew (List.mem_singleton.1 hk ▸ heq ▸ hj)
  · intro j
    simp only [resultScanObserver, List.mem_append, List.mem_singleton, hs.finished, getElem?_finish hjob]
    constructor
    · rintro (⟨scan', result', h⟩ | rfl)
      · exact ⟨scan', result', .inr h⟩
      · exact ⟨scan, result, .inl ⟨rfl, rfl, rfl⟩⟩
    · rintro ⟨scan', result', ⟨rfl, -⟩ | h⟩
      · exact .inr rfl
      · exact .inl ⟨scan', result', h⟩
  · intro j hj
    have hlast : i = j := by simpa [resultScanObserver] using hj
    subst hlast
    exact ⟨scan, result, (getElem?_finish hjob).2 (.inl ⟨rfl, rfl, rfl⟩), hs.made i scan result hjob, rfl, rfl⟩

end Steps

theorem recorded_step (s : State) (e : Event) (hs : Recorded platform s) :
    Recorded platform (step platform s e) := by
  rcases step_cases platform s e with hstep | ⟨scan, -, hstep⟩ |
    ⟨i, macAddress, scan, process, result, -, hjob, hmade, hstep⟩ | ⟨i, scan, result, -, hjob, hstep⟩
  · rw [hstep]
    exact hs
  · rw [hstep]
    exact recorded_launch hs
  · rw [hstep]
    exact recorded_transformed hs hjob hmade process
  · rw [hstep]
    exact recorded_published hs hjob

/-- Coroutines that return in order have published a first part of the scans. -/
theorem inOrder_step (s : State) (e : Event) (hs : Recorded platform s)
    (hrange : s.published = List.range s.published.length) (he : InOrder s e) :
    (step platform s e).published = List.range (step platform s e).published.length := by
  rcases step_cases platform s e with hstep | ⟨scan, -, hstep⟩ |
    ⟨i, macAddress, scan, process, result, -, hjob, hmade, hstep⟩ | ⟨i, scan, result, rfl, hjob, hstep⟩
  · rw [hstep]
    exact hrange
  · rw [hstep]
    exact hrange
  · rw [hstep]
    exact hrange
  · have hnew : i ∉ s.published := by
      rw [hs.finished, hjob]
      rintro ⟨scan', result', h⟩
      cases h
    have hearlier := he scan result hjob
    have hnext : i = s.published.length := by
      rw [hrange, List.mem_range, not_lt] at hnew
      apply le_antisymm _ hnew
      by_contra hlt
      have hmem := hearlier s.published.length (not_le.1 hlt)
      rw [hrange, List.mem_range, List.length_range] at hmem
      exact lt_irrefl _ hmem
    rw [hstep, resultScanObserver, List.length_append, List.length_singleton, List.range_succ, ← hrange, hnext]

theorem latestWins_of_range {s : State} (hs : Recorded platform s) {k : Nat}
    (hrange : s.published = List.range k) : LatestWins platform s := by
  refine ⟨hrange ▸ List.pairwise_lt_range, ?_⟩
  intro hall n hlength
  have hn : n < k := by
    have hlt : n < s.jobs.length := by omega
    obtain ⟨result, hresult⟩ := hall (s.jobs.get ⟨n, hlt⟩) (List.get_mem _ _)
    have hmem := (hs.finished n).2 ⟨(s.jobs.get ⟨n, hlt⟩).scan, result, by
      rw [← hresult]
      exact List.getElem?_eq_getElem hlt⟩
    rwa [hrange, List.mem_range] at hmem
  have hk : k = n + 1 := by
    by_contra hne
    have hmem : n + 1 ∈ s.published := by
      rw [hrange, List.mem_range]
      omega
    obtain ⟨scan, result, hjob⟩ := (hs.finished (n + 1)).1 hmem
    have hlt := (List.getElem?_eq_some_iff.1 hjob).1
    omega
  apply hs.shows_last
  rw [hrange, hk, List.range_succ, List.getLast?_concat]

/-- Every scan is published once, when its coroutine is back, and the last one
back is shown. Where they come back in order it is the latest scan. -/
theorem published_by_return (process : Process) (events : List Event) :
    Recorded platform (run (step platform) (start process) events) ∧
      (Along (step platform) InOrder (start process) events →
        LatestWins platform (run (step platform) (start process) events)) := by
  constructor
  · exact run_invariant (Recorded platform) (fun s e hs _ => recorded_step platform s e hs)
      (recorded_start platform process) (along_of_forall (Q := fun _ => True) (fun _ _ => trivial) _)
  · intro horder
    have hinv := run_invariant
      (fun s => Recorded platform s ∧ s.published = List.range s.published.length)
      (fun s e hs he => ⟨recorded_step platform s e hs.1, inOrder_step platform s e hs.1 hs.2 he⟩)
      ⟨recorded_start platform process, rfl⟩ horder
    exact latestWins_of_range platform hinv.1 hinv.2

def phone : Platform := ⟨[], [], 29, true⟩

def twoScans : List Event := [.scan ⟨[], none⟩, .scan ⟨[], none⟩, .transform 0 [], .transform 1 []]

theorem published_by_return_twoScans :
    LatestWins phone (run (step phone) (start (.started none)) (twoScans ++ [.resume 0, .resume 1])) := by
  apply (published_by_return phone (.started none) (twoScans ++ [Event.resume 0, Event.resume 1])).2
  refine ⟨trivial, trivial, trivial, trivial, ?_, ?_, trivial⟩
  · intro scan result _ j hj
    exact absurd hj (Nat.not_lt_zero j)
  · intro scan result _ j hj
    have hj : j = 0 := by omega
    subst hj
    decide

/-- The older scan comes back last. -/
theorem not_latestWins : ¬ ∀ events, LatestWins phone (run (step phone) (start (.started none)) events) := by
  intro h
  have hincreasing := (h (twoScans ++ [.resume 1, .resume 0])).1
  revert hincreasing
  decide

end SberWifi.Detector
