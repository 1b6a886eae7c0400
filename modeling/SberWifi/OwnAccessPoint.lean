import SberWifi.QuietChannels
import SberWifi.Transformer

namespace SberWifi.OwnAccessPoint

open JavaString Band Detail Comparators Rating QuietChannels ScanData Transformer

def quoted (name : JString) : JString := str "\"" ++ name ++ str "\""

/-- The phone is connected to one entry of its scan, whose network has this
name. The entry announces the name or hides it. -/
structure Joined (call : Call) (wifiInfo : WifiInfo) (entry : ScanResult) (name : JString) : Prop where
  reported : call.wifiInfo = some wifiInfo
  networkId : wifiInfo.networkId ≠ -1
  ssid : wifiInfo.ssid = quoted name
  bssid : entry.BSSID = wifiInfo.bssid
  only : ∃ before after, call.scanResult = before ++ entry :: after ∧
    ∀ r ∈ before ++ after, r.BSSID ≠ wifiInfo.bssid
  announced : entry.SSID = name ∨ isBlank entry.SSID

def Recognised (chars : CaseTable) (locale : JLocale) (vendorService : VendorService) (data : WiFiData)
    (d : WiFiDetail) : Prop :=
  ∀ predicate : WiFiDetail → Bool, predicate d →
    ((data.select vendorService predicate).filter fun e => e.wiFiAdditional.wiFiConnection.isConnected) =
      [d.copy ⟨vendorService.findVendorName d.bssid, data.wiFiConnection⟩] ∧
    ∀ wiFiChannel, ∀ w ∈ interferers
      (setWiFiDetails chars locale (data.select vendorService predicate)) wiFiChannel, w.bssid ≠ d.bssid

def built (platform : Platform) (process later : Process) (call : Call) : WiFiData :=
  (transformToWiFiData platform process call).2.read later

theorem convertSSID_quoted (name : JString) : convertSSID (quoted name) = name := by
  have hquote : str "\"" = [34] := rfl
  have hstart : removeStart (quoted name) (str "\"") = name ++ [34] := by
    rw [removeStart, quoted, hquote, List.append_assoc, if_pos (List.prefix_append _ _)]
    rfl
  rw [convertSSID, hstart, removeEnd, hquote, if_pos (List.suffix_append _ _), List.length_append]
  exact List.take_left

/-- Selecting keeps one entry with the property when only one has it. -/
theorem filter_map_of_one {α β : Type} {f : α → β} {p : α → Bool} {c : β → Bool} {before after : List α}
    {a : α} (ha : p a) (hc : c (f a)) (hother : ∀ b ∈ before ++ after, ¬ c (f b)) :
    (((before ++ a :: after).filter p).map f).filter c = [f a] := by
  have hnone (l : List α) (hl : ∀ b ∈ l, ¬ c (f b)) : ((l.filter p).map f).filter c = [] := by
    apply List.filter_eq_nil_iff.2
    intro b hb
    obtain ⟨a, ha, rfl⟩ := List.mem_map.1 hb
    exact hl a (List.mem_of_mem_filter ha)
  rw [List.filter_append, List.filter_cons_of_pos ha, List.map_append, List.map_cons, List.filter_append,
    List.filter_cons_of_pos hc, hnone before fun b hb => hother b (List.mem_append_left _ hb),
    hnone after fun b hb => hother b (List.mem_append_right _ hb)]
  rfl

section Data

variable {data : WiFiData} {before after : List WiFiDetail} {d : WiFiDetail}
  (hdetails : data.wiFiDetails = before ++ d :: after) (hbssid : d.bssid = data.wiFiConnection.bssid)
  (hother : ∀ x ∈ before ++ after, x.bssid ≠ data.wiFiConnection.bssid) (vendorService : VendorService)
include hdetails hbssid hother

theorem find_connection : data.wiFiDetails.find? data.isConnection =
    if d.SSID = data.wiFiConnection.ssid then some d else none := by
  have hno (x : WiFiDetail) (hx : x ∈ before ++ after) : ¬ data.isConnection x := fun h =>
    hother x hx ((isConnection_iff data x).1 h).2
  have hbefore : before.find? data.isConnection = none :=
    List.find?_eq_none.2 fun x hx => hno x (List.mem_append_left _ hx)
  have hafter : after.find? data.isConnection = none :=
    List.find?_eq_none.2 fun x hx => hno x (List.mem_append_right _ hx)
  rw [hdetails, List.find?_append, hbefore, Option.none_or]
  by_cases h : d.SSID = data.wiFiConnection.ssid
  · rw [if_pos h, List.find?_cons_of_pos ((isConnection_iff data d).2 ⟨h, hbssid⟩)]
  · rw [if_neg h, List.find?_cons_of_neg fun hd => h ((isConnection_iff data d).1 hd).1, hafter]

theorem transform_own (h : d.SSID = data.wiFiConnection.ssid) :
    data.transform vendorService d = d.copy ⟨vendorService.findVendorName d.bssid, data.wiFiConnection⟩ := by
  have hconnection : data.getConnection vendorService =
      d.copy ⟨vendorService.findVendorName d.bssid, data.wiFiConnection⟩ := by
    rw [WiFiData.getConnection, find_connection hdetails hbssid hother, if_pos h]
    rfl
  have hequals : d.equals (data.getConnection vendorService) := by
    rw [hconnection, WiFiDetail.equals_iff]
    exact ⟨rfl, rfl⟩
  rw [WiFiData.transform]
  simp only [hequals, if_true]
  exact hconnection

/-- What is shown of an entry of another address has its address and no connection. -/
theorem transform_other {x : WiFiDetail} (hx : x.bssid ≠ data.wiFiConnection.bssid) :
    (data.transform vendorService x).wiFiAdditional.wiFiConnection = .empty ∧
      (data.transform vendorService x).bssid = x.bssid := by
  rw [WiFiData.transform]
  by_cases hequals : x.equals (data.getConnection vendorService)
  · have heq := (WiFiDetail.equals_iff _ _).1 hequals
    simp only [hequals, if_true]
    rw [WiFiData.getConnection, find_connection hdetails hbssid hother] at heq ⊢
    by_cases h : d.SSID = data.wiFiConnection.ssid
    · rw [if_pos h] at heq
      exact absurd (heq.2.trans hbssid) hx
    · rw [if_neg h] at heq ⊢
      exact ⟨rfl, heq.2.symm⟩
  · simp only [hequals]
    exact ⟨rfl, rfl⟩

theorem transform_unnamed (h : d.SSID ≠ data.wiFiConnection.ssid) (x : WiFiDetail) :
    (data.transform vendorService x).wiFiAdditional.wiFiConnection = .empty := by
  have hconnection : data.getConnection vendorService = .empty := by
    rw [WiFiData.getConnection, find_connection hdetails hbssid hother, if_neg h]
  rw [WiFiData.transform, hconnection]
  by_cases hequals : x.equals .empty
  · simp only [hequals, if_true]
    rfl
  · simp only [hequals]
    rfl

/-- Only the entry itself is shown with its address. -/
theorem eq_of_shown_bssid {x : WiFiDetail} (hx : x ∈ data.wiFiDetails)
    (heq : (data.transform vendorService x).bssid = d.bssid) : x = d := by
  by_contra hne
  have hmem : x ∈ before ++ after := by
    rw [hdetails, List.mem_append, List.mem_cons] at hx
    rw [List.mem_append]
    exact hx.imp_right fun h => h.resolve_left hne
  have hsame := (transform_other hdetails hbssid hother vendorService (hother x hmem)).2
  exact hother x hmem (hsame.symm.trans (heq.trans hbssid))

theorem recognised_iff_ssid (chars : CaseTable) (locale : JLocale) :
    Recognised chars locale vendorService data d ↔ d.SSID = data.wiFiConnection.ssid := by
  have hempty : ¬ WiFiConnection.empty.isConnected := by decide
  constructor
  · intro hrecognised
    by_contra h
    have hone := (hrecognised (fun _ => true) rfl).1
    have hnone : (data.select vendorService fun _ => true).filter
        (fun e => e.wiFiAdditional.wiFiConnection.isConnected) = [] := by
      apply List.filter_eq_nil_iff.2
      intro e he
      obtain ⟨x, -, rfl⟩ := List.mem_map.1 he
      rw [transform_unnamed hdetails hbssid hother vendorService h]
      exact hempty
    rw [hnone] at hone
    cases hone
  · intro h predicate hpredicate
    have hconnected : data.wiFiConnection.isConnected := by
      rw [WiFiConnection.isConnected, Bool.not_eq_true', ← Bool.not_eq_true, WiFiConnection.equals,
        Bool.and_eq_true, Bool.and_eq_true, beq_iff_eq]
      intro hempty
      exact SSID_ne_nil d (h.trans hempty.1.1.symm)
    have hown := transform_own hdetails hbssid hother vendorService h
    constructor
    · rw [WiFiData.select, hdetails, ← hown]
      apply filter_map_of_one hpredicate
      · rw [hown]
        exact hconnected
      · intro x hx
        rw [(transform_other hdetails hbssid hother vendorService (hother x hx)).1]
        exact hempty
    · intro wiFiChannel w hw heq
      obtain ⟨hkept, hnot, -⟩ := mem_interferers.1 hw
      obtain ⟨x, hx, rfl⟩ := List.mem_map.1 (mem_of_kept chars locale hkept)
      have hxd := eq_of_shown_bssid hdetails hbssid hother vendorService (List.mem_of_mem_filter hx) heq
      rw [hxd, hown] at hnot
      exact hnot hconnected

end Data

/-- The join is by the name that an entry is shown under. -/
theorem SSID_eq_iff (d : WiFiDetail) (name : JString) : d.SSID = name ↔
    d.ssid = name ∧ ¬ isBlank name ∨ isBlank d.ssid ∧ name = ssidEmpty := by
  rw [WiFiDetail.SSID, WiFiDetail.isHidden]
  by_cases h : isBlank d.ssid
  · rw [if_pos h, eq_comm]
    constructor
    · intro hname
      exact .inr ⟨h, hname⟩
    · rintro (⟨rfl, hblank⟩ | ⟨-, hname⟩)
      · exact absurd h hblank
      · exact hname
  · rw [if_neg h]
    constructor
    · rintro rfl
      exact .inl ⟨rfl, h⟩
    · rintro (⟨hname, -⟩ | ⟨hblank, -⟩)
      · exact hname
      · exact absurd hblank h

/-- The phone's own access point is recognised exactly when it announces its
name, unless that is blank, or hides a name that is spelled like the mask. -/
theorem recognised_iff (chars : CaseTable) (locale : JLocale) (vendorService : VendorService)
    (platform : Platform) (process later : Process) (call : Call) (wifiInfo : WifiInfo) (entry : ScanResult)
    (name : JString) (h : Joined call wifiInfo entry name) :
    Recognised chars locale vendorService (built platform process later call)
        ((toWiFiDetail platform entry).read later) ↔
      entry.SSID = name ∧ ¬ isBlank name ∨ isBlank entry.SSID ∧ name = ssidEmpty := by
  obtain ⟨before, after, hsplit, hother⟩ := h.only
  have hconnection : (built platform process later call).wiFiConnection =
      .create call.macAddress name wifiInfo.bssid (convertIpAddress platform wifiInfo.ipAddress)
        (transformLinkSpeedUnits wifiInfo.linkSpeed) wifiInfo.macAddress := by
    change transformWifiInfo platform call.macAddress call.wifiInfo = _
    rw [h.reported, transformWifiInfo]
    simp only [h.networkId, if_false]
    rw [h.ssid, convertSSID_quoted]
  have hssid : (built platform process later call).wiFiConnection.ssid = name := by rw [hconnection]; rfl
  have hbssid : (built platform process later call).wiFiConnection.bssid = wifiInfo.bssid := by
    rw [hconnection]
    rfl
  let shown (r : ScanResult) : WiFiDetail := (toWiFiDetail platform r).read later
  have hdetails : (built platform process later call).wiFiDetails =
      before.map shown ++ shown entry :: after.map shown := by
    change (transformScanResult platform call.scanResult).map (·.read later) = _
    rw [hsplit, transformScanResult, List.map_map, List.map_append, List.map_cons]
    rfl
  rw [recognised_iff_ssid hdetails (h.bssid.trans hbssid.symm) _ vendorService chars locale, hssid,
    SSID_eq_iff]
  · exact Iff.rfl
  · intro x hx
    rw [← List.map_append] at hx
    obtain ⟨r, hr, rfl⟩ := List.mem_map.1 hx
    rw [hbssid]
    exact hother r hr

section Sample

def wifiInfo : WifiInfo where
  networkId := 0
  ssid := quoted (str "home")
  bssid := str "00:11:22:33:44:55"
  ipAddress := 0
  linkSpeed := 72
  macAddress := []

def access (SSID BSSID : String) : ScanResult where
  SSID := str SSID
  BSSID := str BSSID
  capabilities := []
  frequency := 2412
  level := -40
  centerFreq0 := none
  channelWidth := none
  is80211mcResponder := false

def scan (SSID : String) : Call where
  scanResult := [access SSID "00:11:22:33:44:55", access "other" "00:11:22:33:44:66"]
  wifiInfo := some wifiInfo
  macAddress := []

def phone : Platform := ⟨[], [], 29, true⟩

theorem joined_scan {SSID : String} (h : str SSID = str "home" ∨ isBlank (str SSID)) :
    Joined (scan SSID) wifiInfo (access SSID "00:11:22:33:44:55") (str "home") where
  reported := rfl
  networkId := by decide
  ssid := rfl
  bssid := rfl
  only := ⟨[], [access "other" "00:11:22:33:44:66"], rfl, by
    intro r hr
    rw [List.mem_singleton.1 hr]
    decide⟩
  announced := h

theorem recognised_iff_announced :
    Recognised .ascii .root ⟨fun _ => []⟩ (built phone (.started none) (.started none) (scan "home"))
        ((toWiFiDetail phone (access "home" "00:11:22:33:44:55")).read (.started none)) ↔
      str "home" = str "home" ∧ ¬ isBlank (str "home") ∨ isBlank (str "home") ∧ str "home" = ssidEmpty :=
  recognised_iff .ascii .root ⟨fun _ => []⟩ phone (.started none) (.started none) (scan "home") wifiInfo
    (access "home" "00:11:22:33:44:55") (str "home") (joined_scan (.inl rfl))

/-- The own access point hides its name. -/
theorem not_recognised :
    Joined (scan "") wifiInfo (access "" "00:11:22:33:44:55") (str "home") ∧
      ¬ Recognised .ascii .root ⟨fun _ => []⟩ (built phone (.started none) (.started none) (scan ""))
        ((toWiFiDetail phone (access "" "00:11:22:33:44:55")).read (.started none)) := by
  refine ⟨joined_scan (.inr rfl), ?_⟩
  intro h
  have hone := congrArg List.length (h (fun _ => true) rfl).1
  exact absurd hone (by decide)

end Sample

end SberWifi.OwnAccessPoint
