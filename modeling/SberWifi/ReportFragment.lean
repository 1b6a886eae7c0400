import SberWifi.Runs
import SberWifi.Transformer

namespace SberWifi.ReportFragment

open JavaString Detail ScanData Transformer Runs

/-- The process, and every WiFiData that a scan has produced in it so far. A
report fragment holds one of them. -/
structure Application where
  process : Process
  reports : List ScannedData

inductive Event
  | transformToWiFiData (call : Call)
  | sendReport (report : Nat)

variable (platform : Platform) (vendorService : VendorService)

def setVendorName (memory : Ref → WiFiAdditional) (wiFiAdditional : Ref) (vendorName : JString) :
    Ref → WiFiAdditional :=
  Function.update memory wiFiAdditional { memory wiFiAdditional with vendorName }

def enrich (memory : Ref → WiFiAdditional) (wiFiDetails : List ScannedDetail) : Ref → WiFiAdditional :=
  wiFiDetails.foldl (fun memory d => setVendorName memory d.wiFiAdditional
      (vendorService.findVendorName d.bssid))
    memory

def sendReport (process : Process) (list4Report : ScannedData) : Process :=
  { process with memory := enrich vendorService process.memory list4Report.wiFiDetails }

def step (app : Application) : Event → Application
  | .transformToWiFiData call =>
      let (process, data) := Transformer.transformToWiFiData platform app.process call
      ⟨process, app.reports ++ [data]⟩
  | .sendReport report =>
      match app.reports[report]? with
      | none => app
      | some list4Report => { app with process := sendReport vendorService app.process list4Report }

def vendorName (process : Process) (d : ScannedDetail) : JString := (d.read process).wiFiAdditional.vendorName

def OwnVendor (app : Application) : Event → Prop
  | .transformToWiFiData call =>
      let (process, data) := Transformer.transformToWiFiData platform app.process call
      ∀ d ∈ data.wiFiDetails, vendorName process d = []
  | .sendReport report =>
      ∀ list4Report ∈ app.reports[report]?, ∀ d ∈ list4Report.wiFiDetails,
        vendorName (sendReport vendorService app.process list4Report) d = vendorService.findVendorName d.bssid

/-- What the events alone say: the addresses in each scan, and the vendor of the
last access point in the last report that had one. -/
structure History where
  scans : List (List JString)
  lastVendor : JString

def History.step (history : History) : Event → History
  | .transformToWiFiData call =>
      { history with scans := history.scans ++ [call.scanResult.map ScanResult.BSSID] }
  | .sendReport report =>
      let vendors := (history.scans[report]?.getD []).map vendorService.findVendorName
      { history with lastVendor := vendors.getLastD history.lastVendor }

/-- A scan that finds something comes while no vendor was reported last, and a
sent report is all of one vendor. -/
def OneVendor (history : History) : Event → Prop
  | .transformToWiFiData call => call.scanResult = [] ∨ history.lastVendor = []
  | .sendReport report =>
      ∀ bssids ∈ history.scans[report]?, ∀ a ∈ bssids, ∀ b ∈ bssids,
        vendorService.findVendorName a = vendorService.findVendorName b

structure Records (app : Application) (history : History) : Prop where
  shared : ∀ data ∈ app.reports, ∀ d ∈ data.wiFiDetails, d.wiFiAdditional = EMPTY
  scans : app.reports.map (fun data => data.wiFiDetails.map ScannedDetail.bssid) = history.scans
  lastVendor : (app.process.memory EMPTY).vendorName = history.lastVendor

theorem enrich_shared (memory : Ref → WiFiAdditional) {l : List ScannedDetail}
    (hl : ∀ d ∈ l, d.wiFiAdditional = EMPTY) :
    (enrich vendorService memory l EMPTY).vendorName =
      ((l.map ScannedDetail.bssid).map vendorService.findVendorName).getLastD (memory EMPTY).vendorName := by
  induction l generalizing memory with
  | nil => rfl
  | cons d l ih =>
      have hd := hl d List.mem_cons_self
      have htail := ih (setVendorName memory d.wiFiAdditional (vendorService.findVendorName d.bssid))
        fun b hb => hl b (List.mem_cons_of_mem d hb)
      rw [setVendorName, hd, Function.update_self] at htail
      rw [List.map_cons, List.map_cons, List.getLastD_cons, ← htail, ← hd]
      rfl

/-- After the loop every detail shows the one name written last, so all show
their own vendor when there is only one. -/
theorem getLastD_eq_iff {l : List JString} (f : JString → JString) (initial : JString) :
    (∀ a ∈ l, (l.map f).getLastD initial = f a) ↔ ∀ a ∈ l, ∀ b ∈ l, f a = f b := by
  constructor
  · intro h a ha b hb
    rw [← h a ha, ← h b hb]
  · intro h a ha
    have hne : l.map f ≠ [] := by
      rw [Ne, List.map_eq_nil_iff]
      exact List.ne_nil_of_mem ha
    obtain ⟨b, hb, he⟩ := List.mem_map.1 (List.getLast_mem hne)
    rw [List.getLastD_eq_getLast?, List.getLast?_eq_some_getLast hne, Option.getD_some, ← he]
    exact h b hb a ha

theorem Records.report {app : Application} {history : History} (h : Records app history) (report : Nat) :
    history.scans[report]? =
      (app.reports[report]?).map fun data => data.wiFiDetails.map ScannedDetail.bssid := by
  rw [← h.scans, List.getElem?_map]

theorem records_step {app : Application} {history : History} (h : Records app history) (event : Event) :
    Records (step platform vendorService app event) (history.step vendorService event) := by
  cases event with
  | transformToWiFiData call =>
      refine ⟨?_, ?_, h.lastVendor⟩
      · intro data hdata d hd
        rcases List.mem_append.1 hdata with hdata | hdata
        · exact h.shared data hdata d hd
        · rw [List.mem_singleton.1 hdata] at hd
          obtain ⟨input, _, rfl⟩ := List.mem_map.1 hd
          rfl
      · simp only [step, History.step, List.map_append, h.scans, List.map_cons, List.map_nil,
          transformToWiFiData_wiFiDetails, transformScanResult, List.map_map]
        rfl
  | sendReport report =>
      have hreport := h.report report
      cases hdata : app.reports[report]? with
      | none =>
          rw [hdata] at hreport
          simpa [step, History.step, hdata, hreport] using h
      | some data =>
          rw [hdata] at hreport
          have hshared := h.shared data (List.mem_of_getElem? hdata)
          refine ⟨?_, ?_, ?_⟩
          · simpa [step, hdata] using h.shared
          · simpa [step, hdata, History.step] using h.scans
          · simpa [step, hdata, History.step, hreport, sendReport, h.lastVendor] using
              enrich_shared vendorService app.process.memory hshared

theorem ownVendor_iff {app : Application} {history : History} (h : Records app history) (event : Event) :
    OwnVendor platform vendorService app event ↔ OneVendor vendorService history event := by
  cases event with
  | transformToWiFiData call =>
      simp only [OwnVendor, OneVendor, transformToWiFiData_wiFiDetails, transformScanResult,
        List.forall_mem_map]
      have hname (d : ScanResult) : vendorName (Transformer.transformToWiFiData platform app.process call).1
          (toWiFiDetail platform d) = history.lastVendor := h.lastVendor
      simp only [hname]
      cases call.scanResult with
      | nil => simp
      | cons d l => simpa using fun h _ _ => h
  | sendReport report =>
      simp only [OwnVendor, OneVendor, h.report report]
      cases hdata : app.reports[report]? with
      | none => simp
      | some data =>
          have hshared := h.shared data (List.mem_of_getElem? hdata)
          have hname (d : ScannedDetail) (hd : d ∈ data.wiFiDetails) :
              vendorName (sendReport vendorService app.process data) d =
                ((data.wiFiDetails.map ScannedDetail.bssid).map vendorService.findVendorName).getLastD
                  (app.process.memory EMPTY).vendorName := by
            rw [← enrich_shared vendorService app.process.memory hshared, ← hshared d hd]
            rfl
          simp only [Option.map_some, Option.mem_some_iff, forall_eq']
          rw [← getLastD_eq_iff vendorService.findVendorName (app.process.memory EMPTY).vendorName,
            List.forall_mem_map]
          exact forall₂_congr fun d hd => by rw [hname d hd]

theorem records_start (INSTANCE : Option DeviceInfo) : Records ⟨.started INSTANCE, []⟩ ⟨[], []⟩ :=
  ⟨by simp, rfl, rfl⟩

def NamesOwn (platform : Platform) (vendorService : VendorService) (INSTANCE : Option DeviceInfo)
    (events : List Event) : Prop :=
  Along (step platform vendorService) (OwnVendor platform vendorService) ⟨.started INSTANCE, []⟩ events

/-- The names are right in exactly the runs where the one shared object cannot
be seen to be shared. -/
theorem namesOwn_iff (platform : Platform) (vendorService : VendorService) (INSTANCE : Option DeviceInfo)
    (events : List Event) :
    NamesOwn platform vendorService INSTANCE events ↔
      Along (History.step vendorService) (OneVendor vendorService) ⟨[], []⟩ events := by
  apply along_iff_of_related Records
  · intro app history event h
    exact records_step platform vendorService h event
  · intro app history event h
    exact ownVendor_iff platform vendorService h event
  · exact records_start INSTANCE

def accessPoint (bssid : JString) : ScanResult where
  SSID := str "office"
  BSSID := bssid
  capabilities := []
  frequency := 2412
  level := -50
  centerFreq0 := none
  channelWidth := none
  is80211mcResponder := false

def vendorByPrefix : VendorService where
  findVendorName bssid := if bssid.take 8 = str "00:19:74" then str "16063" else str "CISCO"

def twoVendors : Event :=
  .transformToWiFiData ⟨[accessPoint (str "00:19:74:00:00:01"),
      accessPoint (str "00:1B:2B:00:00:02")], none, []⟩

/-- One report of two access points of two vendors. -/
theorem not_namesOwn : ¬ ∀ platform vendorService INSTANCE events,
    NamesOwn platform vendorService INSTANCE events := by
  intro h
  let platform : Platform := ⟨str "phone", str "10", 29, true⟩
  have hsent := (h platform vendorByPrefix none [twoVendors, .sendReport 0]).2.1
  have hrecords := records_step platform vendorByPrefix (records_start none) twoVendors
  have hone := (ownVendor_iff platform vendorByPrefix hrecords (.sendReport 0)).1 hsent
  have hsame : vendorByPrefix.findVendorName (str "00:19:74:00:00:01") =
      vendorByPrefix.findVendorName (str "00:1B:2B:00:00:02") :=
    hone _ rfl _ List.mem_cons_self _ (List.mem_cons_of_mem _ List.mem_cons_self)
  exact absurd hsame (by decide)

end SberWifi.ReportFragment
