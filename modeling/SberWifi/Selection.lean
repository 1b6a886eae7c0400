import SberWifi.VendorLookup
import Mathlib.Data.List.Forall2

namespace SberWifi.Selection

open JavaString Band Detail ScanData Vendors VendorLookup

structure Session where
  data : WiFiData
  db : VendorDB

variable (locale : JLocale) (text : JString)

def copyWiFiDetail (data : WiFiData) (db : VendorDB) (wiFiDetail : WiFiDetail) :
    Except VendorDB (WiFiDetail × VendorDB) := do
  let (vendorName, db) ← findVendorName locale text db wiFiDetail.bssid
  return (wiFiDetail.copy ⟨vendorName, data.wiFiConnection⟩, db)

def getConnection (data : WiFiData) (db : VendorDB) : Except VendorDB (WiFiDetail × VendorDB) :=
  match data.wiFiDetails.find? data.isConnection with
  | none => .ok (.empty, db)
  | some wiFiDetail => copyWiFiDetail locale text data db wiFiDetail

def transform (connection : WiFiDetail) (db : VendorDB) (input : WiFiDetail) :
    Except VendorDB (WiFiDetail × VendorDB) :=
  if input.equals connection then .ok (connection, db)
  else do
    let (vendorName, db) ← findVendorName locale text db input.bssid
    return (input.copy { vendorName }, db)

def collect (f : VendorDB → WiFiDetail → Except VendorDB (WiFiDetail × VendorDB)) (db : VendorDB) :
    List WiFiDetail → Except VendorDB (List WiFiDetail × VendorDB)
  | [] => .ok ([], db)
  | a :: l => do
      let (b, db) ← f db a
      let (collected, db) ← collect f db l
      return (b :: collected, db)

/-- `getWiFiDetails` by a predicate. Nothing writes to the stored list. -/
def getWiFiDetails (predicate : WiFiDetail → Bool) (s : Session) :
    Except VendorDB (List WiFiDetail × Session) := do
  let selected := s.data.wiFiDetails.filter predicate
  let (connection, db) ← getConnection locale text s.data s.db
  let (collected, db) ← collect (transform locale text connection) db selected
  return (collected, ⟨s.data, db⟩)

def shownConnection (data : WiFiData) (d : WiFiDetail) : WiFiConnection :=
  if ¬ data.wiFiConnection.equals .empty ∧ d.SSID = data.wiFiConnection.ssid ∧
      d.bssid = data.wiFiConnection.bssid then data.wiFiConnection
  else .empty

structure Shows (s : Session) (d e : WiFiDetail) : Prop where
  ssid : e.ssid = d.ssid
  bssid : e.bssid = d.bssid
  capabilities : e.capabilities = d.capabilities
  wiFiSignal : e.wiFiSignal = d.wiFiSignal
  vendorName : ∃ db, findVendorName locale text s.db d.bssid = .ok (e.wiFiAdditional.vendorName, db)
  wiFiConnection : e.wiFiAdditional.wiFiConnection = shownConnection s.data d

def service (db : VendorDB) : VendorService where
  findVendorName address := db.macs[clean locale (some address)]?.getD []

section Loading

variable {text} {db loaded : VendorDB}

theorem getConnection_of_load (h : load text db = .ok loaded) (data : WiFiData) :
    ∃ db', getConnection locale text data db = .ok (data.getConnection (service locale loaded), db') ∧
      load text db' = .ok loaded := by
  rw [getConnection, WiFiData.getConnection]
  cases data.wiFiDetails.find? data.isConnection with
  | none => exact ⟨db, rfl, h⟩
  | some wiFiDetail =>
      refine ⟨loaded, ?_, load_load h⟩
      dsimp only
      rw [copyWiFiDetail, findVendorName_of_load locale h]
      rfl

theorem transform_of_load (h : load text db = .ok loaded) (data : WiFiData) (input : WiFiDetail) :
    ∃ db', transform locale text (data.getConnection (service locale loaded)) db input =
      .ok (data.transform (service locale loaded) input, db') ∧ load text db' = .ok loaded := by
  rw [transform, WiFiData.transform]
  by_cases hequals : input.equals (data.getConnection (service locale loaded))
  · refine ⟨db, ?_, h⟩
    rw [if_pos hequals]
    simp only [hequals, if_true]
  · refine ⟨loaded, ?_, load_load h⟩
    rw [if_neg hequals, findVendorName_of_load locale h]
    simp only [hequals]
    rfl

theorem collect_of_load (h : load text db = .ok loaded) (data : WiFiData) (l : List WiFiDetail) :
    ∃ db', collect (transform locale text (data.getConnection (service locale loaded))) db l =
      .ok (l.map (data.transform (service locale loaded)), db') ∧ load text db' = .ok loaded := by
  induction l generalizing db with
  | nil => exact ⟨db, rfl, h⟩
  | cons a l ih =>
      obtain ⟨mid, hstep, hmid⟩ := transform_of_load locale h data a
      obtain ⟨db', hrest, hdb'⟩ := ih hmid
      refine ⟨db', ?_, hdb'⟩
      rw [collect, hstep]
      change (do
        let (collected, db) ← collect _ mid l
        Except.ok (_ :: collected, db)) = _
      rw [hrest]
      rfl

/-- Once the database can be loaded, the answer is the one over the loaded table. -/
theorem getWiFiDetails_of_load {s : Session} (h : load text s.db = .ok loaded)
    (predicate : WiFiDetail → Bool) :
    ∃ db', getWiFiDetails locale text predicate s =
      .ok (s.data.select (service locale loaded) predicate, ⟨s.data, db'⟩) ∧ load text db' = .ok loaded := by
  obtain ⟨mid, hconnection, hmid⟩ := getConnection_of_load locale h s.data
  obtain ⟨db', hcollect, hdb'⟩ := collect_of_load locale hmid s.data (s.data.wiFiDetails.filter predicate)
  refine ⟨db', ?_, hdb'⟩
  rw [getWiFiDetails, hconnection]
  change (do
    let (collected, db) ← collect _ mid _
    Except.ok (collected, (⟨s.data, db⟩ : Session))) = _
  rw [hcollect]
  rfl

end Loading

/-- A connection that has an entry is not the empty one. -/
theorem shownConnection_of_isConnection {data : WiFiData} {d : WiFiDetail} (h : data.isConnection d) :
    shownConnection data d = data.wiFiConnection := by
  obtain ⟨hssid, hbssid⟩ := (isConnection_iff data d).1 h
  refine if_pos ⟨?_, hssid, hbssid⟩
  intro hempty
  rw [WiFiConnection.equals, Bool.and_eq_true, Bool.and_eq_true, beq_iff_eq] at hempty
  exact SSID_ne_nil d (hssid.trans hempty.1.1)

section Entries

variable {data : WiFiData} (hbssid : ∀ d ∈ data.wiFiDetails, d.bssid ≠ [])
  (hdistinct : (data.wiFiDetails.map WiFiDetail.bssid).Nodup) (vendorService : VendorService)
  {d : WiFiDetail} (hd : d ∈ data.wiFiDetails)
include hbssid hdistinct hd

/-- The one connected copy stands for the entry that it was made from. -/
theorem equals_getConnection_iff : d.equals (data.getConnection vendorService) ↔ data.isConnection d := by
  rw [WiFiDetail.equals_iff, WiFiData.getConnection]
  cases hfind : data.wiFiDetails.find? data.isConnection with
  | none =>
      have hnone := List.find?_eq_none.1 hfind d hd
      exact ⟨fun h => absurd h.2 (hbssid d hd), fun h => absurd h hnone⟩
  | some found =>
      have hfound : data.isConnection found := List.find?_some hfind
      have hmem : found ∈ data.wiFiDetails := List.mem_of_find?_eq_some hfind
      constructor
      · rintro ⟨-, h⟩
        obtain rfl : d = found := eq_of_bssid hdistinct hd hmem h
        exact hfound
      · intro h
        have hsame := ((isConnection_iff data d).1 h).2.trans ((isConnection_iff data found).1 hfound).2.symm
        obtain rfl : d = found := eq_of_bssid hdistinct hd hmem hsame
        exact ⟨rfl, rfl⟩

theorem transform_eq : data.transform vendorService d =
    d.copy ⟨vendorService.findVendorName d.bssid, shownConnection data d⟩ := by
  have hequals := equals_getConnection_iff hbssid hdistinct vendorService hd
  rw [WiFiData.transform]
  by_cases h : data.isConnection d
  · simp only [hequals.2 h, if_true]
    rw [shownConnection_of_isConnection h, WiFiData.getConnection]
    cases hfind : data.wiFiDetails.find? data.isConnection with
    | none => exact absurd h (List.find?_eq_none.1 hfind d hd)
    | some found =>
        have hsame := (((isConnection_iff data found).1 (List.find?_some hfind)).2).trans
          ((isConnection_iff data d).1 h).2.symm
        obtain rfl : found = d := eq_of_bssid hdistinct (List.mem_of_find?_eq_some hfind) hd hsame
        rfl
  · have hother : shownConnection data d = .empty := if_neg fun hmatch =>
      h ((isConnection_iff data d).2 hmatch.2)
    simp only [mt hequals.1 h]
    rw [hother]
    rfl

end Entries

/-- Where the database cannot be loaded, only an empty selection is answered. -/
theorem selected_of_error {s s' : Session} {db : VendorDB} {results : List WiFiDetail}
    {predicate : WiFiDetail → Bool} (hbssid : ∀ d ∈ s.data.wiFiDetails, d.bssid ≠ [])
    (h : load text s.db = .error db) (hok : getWiFiDetails locale text predicate s = .ok (results, s')) :
    s.data.wiFiDetails.filter predicate = [] ∧ results = [] ∧ s' = s := by
  rw [getWiFiDetails, getConnection] at hok
  cases hfind : s.data.wiFiDetails.find? s.data.isConnection with
  | some found =>
      simp only [hfind, copyWiFiDetail, findVendorName_of_error locale h] at hok
      cases hok
  | none =>
      cases hselected : s.data.wiFiDetails.filter predicate with
      | nil =>
          rw [hfind, hselected] at hok
          cases hok
          exact ⟨rfl, rfl, rfl⟩
      | cons a l =>
          have ha : a ∈ s.data.wiFiDetails :=
            List.mem_of_mem_filter (hselected ▸ List.mem_cons_self : a ∈ s.data.wiFiDetails.filter predicate)
          have hother : ¬ a.equals .empty := fun heq => hbssid a ha ((WiFiDetail.equals_iff _ _).1 heq).2
          rw [hfind, hselected] at hok
          change (do
            let (collected, db) ← collect (transform locale text .empty) s.db (a :: l)
            Except.ok (collected, (⟨s.data, db⟩ : Session))) = _ at hok
          rw [collect, transform, if_neg hother, findVendorName_of_error locale h] at hok
          cases hok

/-- Whatever the vendor resource holds and whatever was looked up before: an
answer has the selected entries in scan order, each shown as it is, and the
call leaves the data as it was and can be repeated. It throws only where the
vendor database does. -/
theorem getWiFiDetails_faithful (s : Session) (predicate : WiFiDetail → Bool)
    (hbssid : ∀ d ∈ s.data.wiFiDetails, d.bssid ≠ [])
    (hdistinct : (s.data.wiFiDetails.map WiFiDetail.bssid).Nodup) :
    (∀ results s', getWiFiDetails locale text predicate s = .ok (results, s') →
      s'.data = s.data ∧
      List.Forall₂ (Shows locale text s') (s.data.wiFiDetails.filter predicate) results ∧
      ∃ s'', getWiFiDetails locale text predicate s' = .ok (results, s'')) ∧
    ∀ db, getWiFiDetails locale text predicate s = .error db → ∃ db', load text s.db = .error db' := by
  cases hload : load text s.db with
  | ok loaded =>
      obtain ⟨db', hok, hdb'⟩ := getWiFiDetails_of_load locale hload predicate
      rw [hok]
      refine ⟨?_, fun _ h => by cases h⟩
      rintro results s' h
      cases h
      refine ⟨rfl, ?_, ?_⟩
      · apply List.forall₂_map_right_iff.2
        apply List.forall₂_same.2
        intro d hd
        rw [transform_eq hbssid hdistinct _ (List.mem_of_mem_filter hd)]
        exact ⟨rfl, rfl, rfl, rfl, ⟨loaded, findVendorName_of_load locale hdb' d.bssid⟩, rfl⟩
      · obtain ⟨db'', hagain, -⟩ := getWiFiDetails_of_load (s := ⟨s.data, db'⟩) locale hdb' predicate
        exact ⟨_, hagain⟩
  | error db =>
      refine ⟨?_, fun _ _ => ⟨db, rfl⟩⟩
      intro results s' hok
      obtain ⟨hselected, rfl, rfl⟩ := selected_of_error locale text hbssid hload hok
      rw [hselected]
      exact ⟨rfl, .nil, s', hok⟩

def connectedSession : Session where
  data := { twoRouters with wiFiConnection := ⟨str "home", str "00:11:22:33:44:55", [], [], []⟩ }
  db := .new

theorem getWiFiDetails_faithful_connected : ∃ results s',
    getWiFiDetails .root (tableText oneVendor.lines 1) (fun _ => true) connectedSession = .ok (results, s') ∧
      s'.data = connectedSession.data ∧
      List.Forall₂ (Shows .root (tableText oneVendor.lines 1) s') connectedSession.data.wiFiDetails results ∧
      ∃ s'', getWiFiDetails .root (tableText oneVendor.lines 1) (fun _ => true) s' = .ok (results, s'') := by
  obtain ⟨loaded, hload, -⟩ := load_table oneVendor.lines 1
  obtain ⟨db, hok, -⟩ := getWiFiDetails_of_load .root (s := connectedSession) hload fun _ => true
  exact ⟨_, _, hok, (getWiFiDetails_faithful .root (tableText oneVendor.lines 1) connectedSession
    (fun _ => true) (by decide) (by decide)).1 _ _ hok⟩

end SberWifi.Selection
