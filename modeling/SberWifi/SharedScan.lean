import SberWifi.Detector
import SberWifi.FragmentState
import SberWifi.IperfMachine

namespace SberWifi.SharedScan

open JavaString Transformer Runs FragmentState
open Detector (WiFiScan)

/-- A fragment object. What counts of the list of a WiFiFragment is how many
entries it shows. -/
inductive Fragment
  | WiFiFragment (viewModel : Option Nat) (listed : Nat)
  | ReportFragment (list4Report : ScannedData)
  | IperfFragment (fragment : IperfMachine.IperfFragment)
  | DetailInfoFragment (viewModel : Option Nat)
  | destroyed

structure DetectorViewModel where
  resultScanLiveData : Option ScannedData := none
  cleared : Bool := false

structure Job where
  viewModel : Nat
  job : Detector.Job

inductive Reader
  | ReportFragment
  | ChannelDetailAdapter
  | sendReport
deriving DecidableEq, Repr

inductive Access
  | write (wiFiData : ScannedData)
  | read (reader : Reader)

/-- A process. `updates` counts the coroutines that adapters have launched and
that are still to read the shared data. -/
structure State where
  process : Process
  wiFiData : Option ScannedData
  mainActivity : Bool
  fragments : List Fragment
  viewModels : List DetectorViewModel
  jobs : List Job
  updates : Nat
  ended : Bool
  accesses : List Access

def start (process : Process) : State := ⟨process, none, false, [], [], [], 0, false, []⟩

/-- What the user, the system and the schedulers do. A view is created with the
number of entries that the state of its fragment was saved with, if it was. -/
inductive Event
  | onCreate (restored : List FragmentEnum)
  | onNavigationItemSelected (item : FragmentEnum)
  | onItemClick (fragment position : Nat)
  | onCreateView (fragment : Nat) (savedListWiFi : Option Nat)
  | onDestroy (fragment : Nat)
  | onCleared (viewModel : Nat)
  | handlerResultScan (viewModel : Nat) (success : Bool) (scan : WiFiScan)
  | transform (job : Nat) (macAddress : JString)
  | resume (job : Nat)
  | updateViewFragment
  | iperf (fragment : Nat) (event : IperfMachine.Event)

def State.add (s : State) (fragment : Fragment) : State := { s with fragments := s.fragments ++ [fragment] }

/-- A property that is not set throws when it is read, and nothing catches it. -/
def State.read (s : State) (reader : Reader) (use : ScannedData → State → State) : State :=
  let s' := { s with accesses := s.accesses ++ [.read reader] }
  match s.wiFiData with
  | none => { s' with ended := true }
  | some wiFiData => use wiFiData s'

def newInstance (s : State) : FragmentEnum → State
  | .WiFiFragment => s.add (.WiFiFragment none 0)
  | .ReportFragment => s.read .ReportFragment fun list4Report s => s.add (.ReportFragment list4Report)
  | .IperfFragment => s.add (.IperfFragment {})
  | .DetailInfoFragment => s.add (.DetailInfoFragment none)

def restore (s : State) (fragmentEnum : FragmentEnum) : State :=
  if s.ended then s else newInstance s fragmentEnum

def onCreate (s : State) (restored : List FragmentEnum) : State :=
  let s' := restored.foldl restore s
  if s'.ended then s' else newInstance { s' with mainActivity := true } .WiFiFragment

def onNavigationItemSelected (s : State) (item : FragmentEnum) : State :=
  if s.mainActivity then
    match item with
    | .WiFiFragment => newInstance s .WiFiFragment
    | .ReportFragment => newInstance s .ReportFragment
    | .IperfFragment => newInstance s .IperfFragment
    | .DetailInfoFragment => { s with ended := true }
  else s

def onItemClick (s : State) (fragment position : Nat) : State :=
  match s.fragments[fragment]? with
  | some (.WiFiFragment _ listed) =>
      if position < listed then newInstance s .DetailInfoFragment else s
  | _ => s

/-- `ViewModelProviders.of(fragment).get(..)`: a new view model observes the
scans at once. -/
def getViewModel (s : State) : Option Nat → Nat × State
  | some viewModel => (viewModel, s)
  | none => (s.viewModels.length, { s with viewModels := s.viewModels ++ [{}] })

def State.setFragment (s : State) (i : Nat) (fragment : Fragment) : State :=
  { s with fragments := s.fragments.set i fragment }

def shown (s : State) (viewModel : Nat) : Option Nat := do
  let viewModel ← s.viewModels[viewModel]?
  let result ← viewModel.resultScanLiveData
  return result.wiFiDetails.length

def onCreateView (s : State) (fragment : Nat) (savedListWiFi : Option Nat) : State :=
  match s.fragments[fragment]? with
  | some (.WiFiFragment viewModel _) =>
      let (viewModel, s) := getViewModel s viewModel
      let listed := (shown s viewModel).getD (savedListWiFi.getD 0)
      s.setFragment fragment (.WiFiFragment viewModel listed)
  | some (.DetailInfoFragment viewModel) =>
      let (viewModel, s) := getViewModel s viewModel
      { s.setFragment fragment (.DetailInfoFragment viewModel) with updates := s.updates + 1 }
  | _ => s

def onCleared (s : State) (viewModel : Nat) : State :=
  { s with viewModels := s.viewModels.modify viewModel fun v => { v with cleared := true } }

/-- The scope of a view model that was cleared launches nothing. -/
def handlerResultScan (s : State) (viewModel : Nat) (success : Bool) (scan : WiFiScan) : State :=
  match s.viewModels[viewModel]? with
  | some ⟨_, false⟩ => if success then { s with jobs := s.jobs ++ [⟨viewModel, scan, .transforming⟩] } else s
  | _ => s

def transform (platform : Platform) (s : State) (i : Nat) (macAddress : JString) : State :=
  match s.jobs[i]? with
  | some ⟨viewModel, scan, .transforming⟩ =>
      let (process, result) :=
        transformToWiFiData platform s.process ⟨scan.scanResult, scan.wifiInfo, macAddress⟩
      { s with process, jobs := s.jobs.set i ⟨viewModel, scan, .transformed result⟩ }
  | _ => s

def Fragment.observe (viewModel : Nat) (result : ScannedData) : Fragment → Fragment
  | .WiFiFragment (some v) listed =>
      .WiFiFragment (some v) (if v = viewModel then result.wiFiDetails.length else listed)
  | fragment => fragment

def resultScanObserver (s : State) (viewModel : Nat) (result : ScannedData) : State :=
  { s with
    viewModels := s.viewModels.modify viewModel fun v => { v with resultScanLiveData := some result }
    fragments := s.fragments.map (Fragment.observe viewModel result)
    wiFiData := some result
    accesses := s.accesses ++ [.write result] }

/-- A coroutine that comes back to a view model that was cleared is cancelled. -/
def resume (s : State) (i : Nat) : State :=
  match s.jobs[i]? with
  | some ⟨viewModel, scan, .transformed result⟩ =>
      match s.viewModels[viewModel]? with
      | some ⟨_, false⟩ =>
          let s := { s with jobs := s.jobs.set i ⟨viewModel, scan, .finished result⟩ }
          resultScanObserver s viewModel result
      | _ => s
  | _ => s

def updateViewFragment (s : State) : State :=
  if s.updates = 0 then s
  else { s with updates := s.updates - 1 }.read .ChannelDetailAdapter fun _ s => s

section Iperf

variable {D : Type} (lib : IperfMachine.Libraries D)

def sendReport (s : State) (i : Nat) (fragment : IperfMachine.IperfFragment) (upload : Nat) : State :=
  match fragment.uploads[upload]? with
  | some (.launched _) =>
      s.read .sendReport fun wiFiData s =>
        let connection := wiFiData.wiFiConnection
        s.setFragment i (.IperfFragment
          (IperfMachine.step lib fragment (.send upload connection.bssid connection.ssid)))
  | _ => s

/-- A fragment that was destroyed has cancelled its coroutines. -/
def iperf (s : State) (i : Nat) (event : IperfMachine.Event) : State :=
  match s.fragments[i]? with
  | some (.IperfFragment fragment) =>
      match event with
      | .send upload _ _ => sendReport lib s i fragment upload
      | event => s.setFragment i (.IperfFragment (IperfMachine.step lib fragment event))
  | _ => s

end Iperf

section Runs

variable (platform : Platform) {D : Type} (lib : IperfMachine.Libraries D)

def step (s : State) (e : Event) : State :=
  if s.ended then s
  else
    match e with
    | .onCreate restored => onCreate s restored
    | .onNavigationItemSelected item => onNavigationItemSelected s item
    | .onItemClick fragment position => onItemClick s fragment position
    | .onCreateView fragment savedListWiFi => onCreateView s fragment savedListWiFi
    | .onDestroy fragment => s.setFragment fragment .destroyed
    | .onCleared viewModel => onCleared s viewModel
    | .handlerResultScan viewModel success scan => handlerResultScan s viewModel success scan
    | .transform job macAddress => transform platform s job macAddress
    | .resume job => resume s job
    | .updateViewFragment => updateViewFragment s
    | .iperf fragment event => iperf lib s fragment event

end Runs

def WrittenFirst (accesses : List Access) : Prop :=
  ∀ before reader after, accesses = before ++ .read reader :: after → ∃ wiFiData, .write wiFiData ∈ before

/-- A report fragment is made by the selection of its tab or restored with an
activity, an adapter's coroutine runs, or a report of a test is sent. -/
def Reads (s : State) : Event → Prop
  | .onCreate restored => .ReportFragment ∈ restored
  | .onNavigationItemSelected item => s.mainActivity ∧ item = .ReportFragment
  | .updateViewFragment => s.updates ≠ 0
  | .iperf i (.send upload _ _) => ∃ fragment report,
      s.fragments[i]? = some (.IperfFragment fragment) ∧ fragment.uploads[upload]? = some (.launched report)
  | _ => False

def AfterScan (s : State) (e : Event) : Prop := s.ended = false → Reads s e → s.wiFiData.isSome

def ReadBy (readers : List Reader) (s s' : State) : Prop :=
  s'.accesses = s.accesses ++ readers.map .read ∧ s'.wiFiData = s.wiFiData

def WrittenBy (wiFiData : ScannedData) (s s' : State) : Prop :=
  s'.accesses = s.accesses ++ [.write wiFiData] ∧ s'.wiFiData = some wiFiData

def ReadsWhen (condition : Prop) (s s' : State) : Prop :=
  ∃ readers, ReadBy readers s s' ∧ (readers = [] ↔ ¬ condition)

structure Recorded (s : State) : Prop where
  written : s.wiFiData.isSome ↔ ∃ wiFiData, .write wiFiData ∈ s.accesses
  first : WrittenFirst s.accesses

section Log

variable {accesses : List Access}

theorem writtenFirst_of_prefix {accesses' : List Access} (h : WrittenFirst accesses')
    (hp : accesses <+: accesses') : WrittenFirst accesses := by
  obtain ⟨rest, rfl⟩ := hp
  intro before reader after heq
  apply h before reader (after ++ rest)
  rw [heq, List.append_assoc, List.cons_append]

/-- A log in which something is written may be continued in any way. -/
theorem writtenFirst_append (h : WrittenFirst accesses) (hw : ∃ wiFiData, .write wiFiData ∈ accesses)
    (more : List Access) : WrittenFirst (accesses ++ more) := by
  intro before reader after heq
  rcases List.append_eq_append_iff.1 heq with ⟨m, rfl, -⟩ | ⟨m, rfl, hm⟩
  · obtain ⟨wiFiData, hw⟩ := hw
    exact ⟨wiFiData, List.mem_append_left _ hw⟩
  · cases m with
    | nil =>
        obtain ⟨wiFiData, hw⟩ := hw
        rw [List.append_nil] at hw
        exact ⟨wiFiData, hw⟩
    | cons access m =>
        cases hm
        exact h before reader m rfl

theorem writtenFirst_write (h : WrittenFirst accesses) (wiFiData : ScannedData) :
    WrittenFirst (accesses ++ [.write wiFiData]) := by
  intro before reader after heq
  rcases List.append_eq_append_iff.1 heq with ⟨m, -, hm⟩ | ⟨m, rfl, hm⟩
  · cases m with
    | nil => cases hm
    | cons access m =>
        cases m with
        | nil => cases hm
        | cons => cases hm
  · cases m with
    | nil => cases hm
    | cons access m =>
        cases hm
        exact h before reader m rfl

theorem exists_write_of_read {reader : Reader} {after : List Access}
    (h : WrittenFirst (accesses ++ .read reader :: after)) : ∃ wiFiData, .write wiFiData ∈ accesses :=
  h accesses reader after rfl

end Log

section ReadBy

variable {s s' s'' : State} {readers readers' : List Reader}

theorem ReadBy.refl (s : State) : ReadBy [] s s := ⟨(List.append_nil _).symm, rfl⟩

theorem ReadBy.trans (h : ReadBy readers s s') (h' : ReadBy readers' s' s'') :
    ReadBy (readers ++ readers') s s'' := by
  refine ⟨?_, h'.2.trans h.2⟩
  rw [h'.1, h.1, List.map_append, List.append_assoc]

theorem readsWhen_of_none {condition : Prop} (h : ReadBy [] s s') (hcondition : ¬ condition) :
    ReadsWhen condition s s' :=
  ⟨[], h, iff_of_true rfl hcondition⟩

theorem readsWhen_of_some {condition : Prop} {reader : Reader} (h : ReadBy (reader :: readers) s s')
    (hcondition : condition) : ReadsWhen condition s s' :=
  ⟨reader :: readers, h, iff_of_false (List.cons_ne_nil _ _) (not_not.2 hcondition)⟩

theorem readBy_read (reader : Reader) (use : ScannedData → State → State)
    (h : ∀ wiFiData s, ReadBy [] s (use wiFiData s)) (s : State) : ReadBy [reader] s (s.read reader use) := by
  rw [State.read]
  cases hdata : s.wiFiData with
  | none => exact ⟨rfl, hdata.symm⟩
  | some wiFiData =>
      have hlogged : ReadBy [reader] s { s with accesses := s.accesses ++ [.read reader] } := ⟨rfl, rfl⟩
      have huse := hlogged.trans (h wiFiData _)
      rw [List.append_nil, hdata] at huse
      exact huse

theorem readBy_add (s : State) (fragment : Fragment) : ReadBy [] s (s.add fragment) := .refl s

theorem readBy_setFragment (s : State) (i : Nat) (fragment : Fragment) :
    ReadBy [] s (s.setFragment i fragment) :=
  .refl s

theorem readBy_newInstance (s : State) (fragmentEnum : FragmentEnum) :
    ReadBy (if fragmentEnum = .ReportFragment then [.ReportFragment] else []) s
      (newInstance s fragmentEnum) := by
  cases fragmentEnum with
  | ReportFragment => exact readBy_read .ReportFragment _ (fun list4Report s => readBy_add s _) s
  | WiFiFragment | IperfFragment | DetailInfoFragment => exact readBy_add s _

theorem newInstance_ended {fragmentEnum : FragmentEnum} (h : fragmentEnum ≠ .ReportFragment) (s : State) :
    (newInstance s fragmentEnum).ended = s.ended := by
  cases fragmentEnum with
  | ReportFragment => exact absurd rfl h
  | WiFiFragment | IperfFragment | DetailInfoFragment => rfl

theorem foldl_restore_ended (h : s.ended = true) (restored : List FragmentEnum) :
    restored.foldl restore s = s := by
  induction restored with
  | nil => rfl
  | cons fragmentEnum restored ih =>
      have hrestore : restore s fragmentEnum = s := if_pos h
      rw [List.foldl_cons, hrestore, ih]

theorem readsWhen_restored (h : s.ended = false) (restored : List FragmentEnum) :
    ReadsWhen (.ReportFragment ∈ restored) s (restored.foldl restore s) := by
  induction restored generalizing s with
  | nil => exact readsWhen_of_none (.refl s) List.not_mem_nil
  | cons fragmentEnum restored ih =>
      have hrestore : restore s fragmentEnum = newInstance s fragmentEnum := if_neg (by rw [h]; decide)
      have hfirst := readBy_newInstance s fragmentEnum
      rw [List.foldl_cons, hrestore]
      by_cases hreport : fragmentEnum = .ReportFragment
      · have hmem : .ReportFragment ∈ fragmentEnum :: restored := hreport ▸ List.mem_cons_self
        rw [if_pos hreport] at hfirst
        cases hended : (newInstance s fragmentEnum).ended with
        | true =>
            rw [foldl_restore_ended hended]
            exact readsWhen_of_some hfirst hmem
        | false =>
            obtain ⟨readers, hrest, -⟩ := ih hended
            exact readsWhen_of_some (hfirst.trans hrest) hmem
      · rw [if_neg hreport] at hfirst
        obtain ⟨readers, hrest, hnil⟩ := ih ((newInstance_ended hreport s).trans h)
        refine ⟨readers, hfirst.trans hrest, ?_⟩
        rw [hnil, List.mem_cons, or_iff_right (Ne.symm hreport)]

theorem readsWhen_onCreate (h : s.ended = false) (restored : List FragmentEnum) :
    ReadsWhen (.ReportFragment ∈ restored) s (onCreate s restored) := by
  obtain ⟨readers, hread, hnil⟩ := readsWhen_restored h restored
  refine ⟨readers, ?_, hnil⟩
  rw [onCreate]
  split
  · exact hread
  · exact hread

theorem readsWhen_onNavigationItemSelected (s : State) (item : FragmentEnum) :
    ReadsWhen (s.mainActivity ∧ item = .ReportFragment) s (onNavigationItemSelected s item) := by
  rw [onNavigationItemSelected.eq_def]
  split
  · next hactivity =>
    have hread := readBy_newInstance s item
    cases item with
    | ReportFragment => exact readsWhen_of_some hread ⟨hactivity, rfl⟩
    | WiFiFragment | IperfFragment => exact readsWhen_of_none hread (by simp)
    | DetailInfoFragment => exact readsWhen_of_none ⟨hread.1, hread.2⟩ (by simp)
  · next hactivity => exact readsWhen_of_none (.refl s) fun h => hactivity h.1

theorem readBy_onItemClick (s : State) (fragment position : Nat) :
    ReadBy [] s (onItemClick s fragment position) := by
  rw [onItemClick]
  split
  · split
    · exact readBy_newInstance s .DetailInfoFragment
    · exact .refl s
  · exact .refl s

theorem readBy_onCreateView (s : State) (fragment : Nat) (savedListWiFi : Option Nat) :
    ReadBy [] s (onCreateView s fragment savedListWiFi) := by
  have hmodel (viewModel : Option Nat) : ReadBy [] s (getViewModel s viewModel).2 := by
    cases viewModel with
    | none => exact .refl s
    | some viewModel => exact .refl s
  rw [onCreateView]
  split
  · next viewModel _ _ => exact hmodel viewModel
  · next viewModel _ => exact hmodel viewModel
  · exact .refl s

theorem readBy_handlerResultScan (s : State) (viewModel : Nat) (success : Bool) (scan : WiFiScan) :
    ReadBy [] s (handlerResultScan s viewModel success scan) := by
  rw [handlerResultScan]
  split
  · split
    · exact .refl s
    · exact .refl s
  · exact .refl s

theorem readBy_transform (platform : Platform) (s : State) (i : Nat) (macAddress : JString) :
    ReadBy [] s (transform platform s i macAddress) := by
  rw [transform]
  split
  · exact .refl s
  · exact .refl s

theorem readsWhen_updateViewFragment (s : State) : ReadsWhen (s.updates ≠ 0) s (updateViewFragment s) := by
  rw [updateViewFragment]
  split
  · next hnone => exact readsWhen_of_none (.refl s) (not_not.2 hnone)
  · next hsome =>
    have hread := readBy_read .ChannelDetailAdapter _ (fun _ s => .refl s) { s with updates := s.updates - 1 }
    exact readsWhen_of_some ⟨hread.1, hread.2⟩ hsome

theorem readsWhen_sendReport {D : Type} (lib : IperfMachine.Libraries D) (s : State) (i : Nat)
    (fragment : IperfMachine.IperfFragment) (upload : Nat) :
    ReadsWhen (∃ report, fragment.uploads[upload]? = some (.launched report)) s
      (sendReport lib s i fragment upload) := by
  rw [sendReport]
  split
  · next report hupload =>
    have hsent (wiFiData : ScannedData) (s : State) : ReadBy [] s (s.setFragment i (.IperfFragment
        (IperfMachine.step lib fragment
          (.send upload wiFiData.wiFiConnection.bssid wiFiData.wiFiConnection.ssid)))) :=
      readBy_setFragment s i _
    exact readsWhen_of_some (readBy_read .sendReport _ hsent s) ⟨report, hupload⟩
  · next hnone =>
    apply readsWhen_of_none (.refl s)
    rintro ⟨report, hupload⟩
    exact hnone report hupload

theorem readsWhen_iperf {D : Type} (lib : IperfMachine.Libraries D) (s : State) (i : Nat)
    (event : IperfMachine.Event) : ReadsWhen (Reads s (.iperf i event)) s (iperf lib s i event) := by
  rw [iperf]
  split
  · next fragment hfragment =>
    cases event with
    | send upload bssid ssid =>
        obtain ⟨readers, hread, hnil⟩ := readsWhen_sendReport lib s i fragment upload
        refine ⟨readers, hread, hnil.trans (not_congr ?_)⟩
        simp [Reads, hfragment]
    | inputHost | inputPort | onSwipeForward | onSwipeReverse | resume | report | exception | answer =>
        exact readsWhen_of_none (readBy_setFragment s i _) not_false
  · next hnone =>
    apply readsWhen_of_none (.refl s)
    cases event with
    | send upload bssid ssid =>
        rintro ⟨fragment, report, hfragment, -⟩
        exact hnone fragment hfragment
    | inputHost | inputPort | onSwipeForward | onSwipeReverse | resume | report | exception | answer =>
        exact not_false

end ReadBy

theorem resume_cases (s : State) (i : Nat) :
    ReadBy [] s (resume s i) ∨ ∃ wiFiData, WrittenBy wiFiData s (resume s i) := by
  rw [resume]
  split
  · next viewModel scan result hjob =>
    split
    · exact .inr ⟨result, rfl, rfl⟩
    · exact .inl (.refl s)
  · exact .inl (.refl s)

section Steps

variable (platform : Platform) {D : Type} (lib : IperfMachine.Libraries D)

theorem step_ended {s : State} (h : s.ended = true) (e : Event) : step platform lib s e = s := by
  rw [step.eq_def, if_pos h]

/-- A step reads in the situations listed in `Reads`, or it publishes a result,
or it leaves the shared data alone. -/
theorem step_cases (s : State) (e : Event) :
    ReadsWhen (s.ended = false ∧ Reads s e) s (step platform lib s e) ∨
      ∃ wiFiData, WrittenBy wiFiData s (step platform lib s e) ∧ ¬ Reads s e := by
  by_cases hended : s.ended = true
  · left
    rw [step_ended platform lib hended, hended]
    exact readsWhen_of_none (.refl s) (by simp)
  have hrunning : s.ended = false := eq_false_of_ne_true hended
  rw [step.eq_def, if_neg hended]
  simp only [hrunning, true_and]
  cases e with
  | onCreate restored => exact .inl (readsWhen_onCreate hrunning restored)
  | onNavigationItemSelected item => exact .inl (readsWhen_onNavigationItemSelected s item)
  | onItemClick fragment position =>
      exact .inl (readsWhen_of_none (readBy_onItemClick s fragment position) not_false)
  | onCreateView fragment savedListWiFi =>
      exact .inl (readsWhen_of_none (readBy_onCreateView s fragment savedListWiFi) not_false)
  | onDestroy fragment => exact .inl (readsWhen_of_none (readBy_setFragment s fragment _) not_false)
  | onCleared viewModel => exact .inl (readsWhen_of_none (.refl s) not_false)
  | handlerResultScan viewModel success scan =>
      exact .inl (readsWhen_of_none (readBy_handlerResultScan s viewModel success scan) not_false)
  | transform job macAddress =>
      exact .inl (readsWhen_of_none (readBy_transform platform s job macAddress) not_false)
  | resume job =>
      rcases resume_cases s job with hread | ⟨wiFiData, hwrite⟩
      · exact .inl (readsWhen_of_none hread not_false)
      · exact .inr ⟨wiFiData, hwrite, not_false⟩
  | updateViewFragment => exact .inl (readsWhen_updateViewFragment s)
  | iperf fragment event => exact .inl (readsWhen_iperf lib s fragment event)

theorem accesses_grow (s : State) (e : Event) : s.accesses <+: (step platform lib s e).accesses := by
  rcases step_cases platform lib s e with ⟨readers, h, -⟩ | ⟨wiFiData, h, -⟩
  · rw [h.1]
    exact List.prefix_append _ _
  · rw [h.1]
    exact List.prefix_append _ _

variable {platform lib}

theorem writtenFirst_step_iff {s : State} (hs : Recorded s) (e : Event) :
    WrittenFirst (step platform lib s e).accesses ↔ AfterScan s e := by
  rcases step_cases platform lib s e with ⟨readers, hread, hnil⟩ | ⟨wiFiData, hwrite, hreads⟩
  · rw [hread.1]
    cases readers with
    | nil =>
        rw [List.map_nil, List.append_nil]
        exact iff_of_true hs.first fun hrunning hreads => absurd ⟨hrunning, hreads⟩ (hnil.1 rfl)
    | cons reader readers =>
        constructor
        · intro h _ _
          exact hs.written.2 (exists_write_of_read h)
        · intro h
          obtain ⟨hrunning, hreads⟩ := not_not.1 (mt hnil.2 (List.cons_ne_nil _ _))
          exact writtenFirst_append hs.first (hs.written.1 (h hrunning hreads)) _
  · rw [hwrite.1]
    exact iff_of_true (writtenFirst_write hs.first wiFiData) fun _ h => absurd h hreads

theorem recorded_step {s : State} (hs : Recorded s) {e : Event} (he : AfterScan s e) :
    Recorded (step platform lib s e) := by
  refine ⟨?_, (writtenFirst_step_iff hs e).2 he⟩
  rcases step_cases platform lib s e with ⟨readers, hread, -⟩ | ⟨wiFiData, hwrite, -⟩
  · rw [hread.1, hread.2, hs.written]
    simp
  · rw [hwrite.1, hwrite.2]
    exact iff_of_true rfl ⟨wiFiData, List.mem_append_right _ (List.mem_singleton_self _)⟩

end Steps

theorem recorded_start (process : Process) : Recorded (start process) := by
  refine ⟨iff_of_false Bool.false_ne_true ?_, ?_⟩
  · rintro ⟨wiFiData, hw⟩
    cases hw
  · intro before reader after heq
    exact absurd heq.symm (List.append_ne_nil_of_right_ne_nil before (List.cons_ne_nil _ _))

/-- No read comes before the first write exactly in the runs that take none of
the reading steps until a result has been published. -/
theorem read_after_write_iff (platform : Platform) {D : Type} (lib : IperfMachine.Libraries D)
    (process : Process) (events : List Event) :
    WrittenFirst (run (step platform lib) (start process) events).accesses ↔
      Along (step platform lib) AfterScan (start process) events := by
  have hstart := recorded_start process
  rw [run_iff_along (fun s : State => WrittenFirst s.accesses) fun s e h =>
    writtenFirst_of_prefix h (accesses_grow platform lib s e), and_iff_right hstart.first]
  exact along_iff_of_invariant Recorded (fun s e hs => writtenFirst_step_iff hs e)
    (fun s e hs he => recorded_step hs he) hstart events

def unscanned : List Event := [.onCreate [], .onNavigationItemSelected .ReportFragment]

theorem not_read_after_write : ¬ WrittenFirst
    (run (step Detector.phone IperfMachine.samplePhone) (start (.started none)) unscanned).accesses := by
  intro h
  obtain ⟨wiFiData, hw⟩ := h [] .ReportFragment [] rfl
  cases hw

end SberWifi.SharedScan
