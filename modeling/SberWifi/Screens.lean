import SberWifi.Country
import SberWifi.OtherBand
import SberWifi.ScanData

namespace SberWifi.Screens

open JavaString Band Detail SignalStrength Comparators StableSort AdjacentRuns Rating Interference OtherBand ScanData
  Country

variable (chars : CaseTable) (locale : JLocale) (titles : TitleTable) (platform : Platform)
  (vendorService : VendorService)

/-- `WifiAdapter.initChannelRating`, with the rating that the observer set. -/
def initChannelRating (data : WiFiData) (wifiDetail : WiFiDetail) : Strength :=
  (getStrength (setWiFiDetails chars locale data.wiFiDetails) wifiDetail.wiFiSignal.primaryWiFiChannel).reverse

def countryCode : JString := str "RU"

def bandDetails (data : WiFiData) (wiFiBand : WiFiBand) : List WiFiDetail :=
  data.select vendorService (wiFiBandPredicate wiFiBand)

/-- The strength that `ChannelDetailAdapter.updateViewFragment` shows for one of
its channels. -/
def updateViewFragment (data : WiFiData) (wiFiBand : WiFiBand) (item : WiFiChannel) : Strength :=
  (getStrength (setWiFiDetails chars locale (bandDetails vendorService data wiFiBand)) item).reverse

/-- An access point and the item of its band's channel list that it is on. -/
def OnItem (data : WiFiData) (d : WiFiDetail) (item : WiFiChannel) : Prop :=
  d ∈ data.wiFiDetails ∧ item ∈ getAvailableChannels titles platform d.wiFiSignal.wiFiBand countryCode ∧
    item.channel = d.wiFiSignal.primaryWiFiChannel.channel

def ScreensAgree (data : WiFiData) : Prop :=
  ∀ d item, OnItem titles platform data d item →
    initChannelRating chars locale data d =
      updateViewFragment chars locale vendorService data d.wiFiSignal.wiFiBand item

/-- In guest order the entry comes after one of another station, so that it is no guest. -/
def Leads (wiFiDetails : List WiFiDetail) (w : WiFiDetail) : Prop :=
  ∃ a, [a, w] <:+: WiFiDetail.empty :: guestSorted locale wiFiDetails ∧ ¬ SameStation chars w a

theorem leads_iff (wiFiDetails : List WiFiDetail) (w : WiFiDetail) : Leads chars locale wiFiDetails w ↔
    w ∈ following (fun d a => ¬ SameStation chars d a) WiFiDetail.empty (guestSorted locale wiFiDetails) :=
  (mem_following (fun d a => ¬ SameStation chars d a)).symm

/-- What an entry of the scan is taken for: the first entry with the name and the
address of the connection stands in for all of them, and without one the empty
entry for those that have neither. -/
def standIn (data : WiFiData) (w : WiFiDetail) : WiFiDetail :=
  match data.wiFiDetails.find? data.isConnection with
  | some own => if data.isConnection w then own else w
  | none => if w.equals .empty then .empty else w

def bandScan (data : WiFiData) (wiFiBand : WiFiBand) : List WiFiDetail :=
  (data.wiFiDetails.filter (wiFiBandPredicate wiFiBand)).map (standIn data)

def OnList (data : WiFiData) (frequency : Int32) (w : WiFiDetail) : Prop :=
  Leads chars locale data.wiFiDetails w ∧ ¬ w.wiFiAdditional.wiFiConnection.isConnected ∧
    w.wiFiSignal.isInRange frequency

def OnDetail (data : WiFiData) (wiFiBand : WiFiBand) (frequency : Int32) (w : WiFiDetail) : Prop :=
  Leads chars locale (bandScan data wiFiBand) w ∧ ¬ data.isConnection w ∧ w.wiFiSignal.isInRange frequency

inductive NotOnDetail (data : WiFiData) (wiFiBand : WiFiBand) (frequency : Int32) (w : WiFiDetail) : Prop
  | own (h : data.isConnection w)
  | otherBand (h : ¬ wiFiBandPredicate wiFiBand w)
  | offChannel (h : ¬ w.wiFiSignal.isInRange frequency)
  | guest (h : ¬ Leads chars locale (bandScan data wiFiBand) w)

inductive NotOnList (data : WiFiData) (frequency : Int32) (w : WiFiDetail) : Prop
  | connected (h : w.wiFiAdditional.wiFiConnection.isConnected)
  | offChannel (h : ¬ w.wiFiSignal.isInRange frequency)
  | guest (h : ¬ Leads chars locale data.wiFiDetails w)

/-- What counts on one of the screens only, the list at `frequency` or the detail
screen at `frequency'`, is no stronger than something that counts on the other. -/
structure Outshone (data : WiFiData) (wiFiBand : WiFiBand) (frequency frequency' : Int32) : Prop where
  list : ∀ w, OnList chars locale data frequency w → NotOnDetail chars locale data wiFiBand frequency' w →
    w.wiFiSignal.strength ≠ .ZERO →
      ∃ w', OnDetail chars locale data wiFiBand frequency' w' ∧ w.wiFiSignal.strength ≤ w'.wiFiSignal.strength
  detail : ∀ w, OnDetail chars locale data wiFiBand frequency' w → NotOnList chars locale data frequency w →
    w.wiFiSignal.strength ≠ .ZERO →
      ∃ w', OnList chars locale data frequency w' ∧ w.wiFiSignal.strength ≤ w'.wiFiSignal.strength

def Strongest (kind : WiFiDetail → Prop) (strength : Strength) : Prop :=
  ∀ s, s ≤ strength ↔ s = .ZERO ∨ ∃ w, kind w ∧ s ≤ w.wiFiSignal.strength

/-- Only the entries that are not of the other kind need to be compared with it. -/
theorem strongest_le_iff {kind kind' reason : WiFiDetail → Prop} {strength strength' : Strength}
    (h : Strongest kind strength) (h' : Strongest kind' strength')
    (hreason : ∀ w, kind w → ¬ kind' w → reason w) :
    strength ≤ strength' ↔ ∀ w, kind w → reason w → w.wiFiSignal.strength ≠ .ZERO →
      ∃ w', kind' w' ∧ w.wiFiSignal.strength ≤ w'.wiFiSignal.strength := by
  constructor
  · intro hle w hw _ hne
    have hw' := (h _).2 (.inr ⟨w, hw, le_rfl⟩)
    exact ((h' _).1 (hw'.trans hle)).resolve_left hne
  · intro hall
    rw [h']
    rcases (h strength).1 le_rfl with hzero | ⟨w, hw, hle⟩
    · exact .inl hzero
    · by_cases hkind : kind' w
      · exact .inr ⟨w, hkind, hle⟩
      by_cases hne : w.wiFiSignal.strength = .ZERO
      · exact .inl (le_antisymm (hne ▸ hle) (zero_le _))
      · obtain ⟨w', hw', hle'⟩ := hall w hw (hreason w hw hkind) hne
        exact .inr ⟨w', hw', hle.trans hle'⟩

theorem le_getStrength_iff (wiFiDetails : List WiFiDetail) (wiFiChannel : WiFiChannel) (s : Strength) :
    s ≤ getStrength (setWiFiDetails chars locale wiFiDetails) wiFiChannel ↔
      s = .ZERO ∨ ∃ w, Leads chars locale wiFiDetails w ∧ ¬ w.wiFiAdditional.wiFiConnection.isConnected ∧
        w.wiFiSignal.isInRange wiFiChannel.frequency ∧ s ≤ w.wiFiSignal.strength := by
  have hzero : s ≤ .ZERO ↔ s = .ZERO := ⟨fun h => le_antisymm h (zero_le s), fun h => h.le⟩
  rw [getStrength, le_foldl_strengthStep, hzero]
  apply or_congr_right
  apply exists_congr
  intro w
  rw [collectOverlapping, List.mem_filter, mem_kept_iff, Leads]
  tauto

theorem strongest_list (data : WiFiData) (wiFiChannel : WiFiChannel) :
    Strongest (OnList chars locale data wiFiChannel.frequency)
      (getStrength (setWiFiDetails chars locale data.wiFiDetails) wiFiChannel) := by
  intro s
  rw [le_getStrength_iff]
  apply or_congr_right
  apply exists_congr
  intro w
  rw [OnList, and_assoc, and_assoc]

theorem isConnected_of_isConnection {data : WiFiData} {d : WiFiDetail} (h : data.isConnection d) :
    data.wiFiConnection.isConnected := by
  obtain ⟨hssid, -⟩ := (isConnection_iff data d).1 h
  rw [WiFiConnection.isConnected, Bool.not_eq_true']
  apply eq_false_of_ne_true
  intro hempty
  rw [WiFiConnection.equals, Bool.and_eq_true, Bool.and_eq_true, beq_iff_eq] at hempty
  exact SSID_ne_nil d (hssid.trans hempty.1.1.symm)

theorem isConnection_congr (data : WiFiData) {d e : WiFiDetail} (h : d.equals e) :
    data.isConnection d ↔ data.isConnection e := by
  obtain ⟨hssid, hbssid⟩ := (WiFiDetail.equals_iff d e).1 h
  rw [isConnection_iff, isConnection_iff, hssid, hbssid]

/-- The rebuilt entry has the name, the address and the signal of what the entry is
taken for, and is marked if that is the own access point. -/
theorem transform_standIn {data : WiFiData} {w : WiFiDetail} (hw : w ∈ data.wiFiDetails) :
    ∃ additional, data.transform vendorService w = (standIn data w).copy additional ∧
      (additional.wiFiConnection.isConnected ↔ data.isConnection (standIn data w)) := by
  have hplain : ¬ WiFiConnection.empty.isConnected := by decide
  rw [WiFiData.transform, WiFiData.getConnection, standIn]
  cases hfind : data.wiFiDetails.find? data.isConnection with
  | none =>
      have hnone : ¬ data.isConnection w := List.find?_eq_none.1 hfind w hw
      by_cases hequals : w.equals .empty
      · have hempty : ¬ data.isConnection .empty := mt (isConnection_congr data hequals).2 hnone
        simp only [hequals, if_true]
        exact ⟨.empty, rfl, iff_of_false hplain hempty⟩
      · simp only [hequals]
        exact ⟨_, rfl, iff_of_false hplain hnone⟩
  | some own =>
      have hown : data.isConnection own := List.find?_some hfind
      have hequals : w.equals (data.copyWiFiDetail vendorService own) ↔ data.isConnection w := by
        rw [WiFiDetail.equals_iff, WiFiData.copyWiFiDetail, copy_SSID, copy_bssid, isConnection_iff]
        obtain ⟨hssid, hbssid⟩ := (isConnection_iff data own).1 hown
        rw [hssid, hbssid]
      by_cases h : data.isConnection w
      · simp only [hequals.2 h, h, if_true]
        exact ⟨_, rfl, iff_of_true (isConnected_of_isConnection hown) hown⟩
      · simp only [mt hequals.1 h, h]
        exact ⟨_, rfl, iff_of_false hplain h⟩

/-- The passes over the rebuilt entries and over what they are taken for keep the same ones. -/
theorem leads_bandDetails (data : WiFiData) (wiFiBand : WiFiBand) :
    ∃ m, m ⊆ data.wiFiDetails ∧
      (∀ t, Leads chars locale (bandDetails vendorService data wiFiBand) t ↔
        ∃ x ∈ m, data.transform vendorService x = t) ∧
      ∀ w, Leads chars locale (bandScan data wiFiBand) w ↔ ∃ x ∈ m, standIn data x = w := by
  let l := data.wiFiDetails.filter (wiFiBandPredicate wiFiBand)
  let order (a b : WiFiDetail) : Ordering := guestSort locale (standIn data a) (standIn data b)
  have hl : l ⊆ data.wiFiDetails := List.filter_subset_self _
  have hsort : sort order l ⊆ data.wiFiDetails := fun x hx => hl ((mem_sort _).1 hx)
  have horder : ∀ a ∈ l, ∀ b ∈ l,
      order a b = guestSort locale (data.transform vendorService a) (data.transform vendorService b) := by
    intro a ha b hb
    obtain ⟨x, hx, -⟩ := transform_standIn vendorService (hl ha)
    obtain ⟨y, hy, -⟩ := transform_standIn vendorService (hl hb)
    rw [hx, hy]
    rfl
  have hstation : ∀ a ∈ sort order l, ∀ b ∈ sort order l,
      ¬ SameStation chars (data.transform vendorService a) (data.transform vendorService b) ↔
        ¬ SameStation chars (standIn data a) (standIn data b) := by
    intro a ha b hb
    obtain ⟨x, hx, -⟩ := transform_standIn vendorService (hsort ha)
    obtain ⟨y, hy, -⟩ := transform_standIn vendorService (hsort hb)
    rw [hx, hy]
    rfl
  have hfirst : ∀ a ∈ sort order l, ¬ SameStation chars (data.transform vendorService a) .empty ↔
      ¬ SameStation chars (standIn data a) .empty :=
    fun a _ => iff_of_true (not_sameStation_empty chars _) (not_sameStation_empty chars _)
  have hdetails : guestSorted locale (bandDetails vendorService data wiFiBand) =
      (sort order l).map (data.transform vendorService) := (map_sort order _ horder).symm
  have hscan : guestSorted locale (bandScan data wiFiBand) = (sort order l).map (standIn data) :=
    (map_sort order (standIn data) fun _ _ _ _ => rfl).symm
  obtain ⟨m, hm, htransform, hstandIn⟩ :=
    following_map (fun d a => ¬ SameStation chars d a) hstation hfirst
  refine ⟨m, fun x hx => hsort (hm hx), fun t => ?_, fun w => ?_⟩
  · rw [leads_iff, hdetails, htransform, List.mem_map]
  · rw [leads_iff, hscan, hstandIn, List.mem_map]

theorem strongest_detail (data : WiFiData) (wiFiBand : WiFiBand) (wiFiChannel : WiFiChannel) :
    Strongest (OnDetail chars locale data wiFiBand wiFiChannel.frequency)
      (getStrength (setWiFiDetails chars locale (bandDetails vendorService data wiFiBand)) wiFiChannel) := by
  intro s
  rw [le_getStrength_iff]
  apply or_congr_right
  obtain ⟨m, hm, htransform, hstandIn⟩ := leads_bandDetails chars locale vendorService data wiFiBand
  constructor
  · rintro ⟨t, ht, hmark, hrange, hs⟩
    obtain ⟨x, hx, rfl⟩ := (htransform t).1 ht
    obtain ⟨additional, hcopy, hown⟩ := transform_standIn vendorService (hm hx)
    rw [hcopy] at hmark hrange hs
    exact ⟨standIn data x, ⟨(hstandIn _).2 ⟨x, hx, rfl⟩, mt hown.2 hmark, hrange⟩, hs⟩
  · rintro ⟨w, ⟨hw, hconnection, hrange⟩, hs⟩
    obtain ⟨x, hx, rfl⟩ := (hstandIn w).1 hw
    obtain ⟨additional, hcopy, hown⟩ := transform_standIn vendorService (hm hx)
    refine ⟨_, (htransform _).2 ⟨x, hx, rfl⟩, ?_⟩
    rw [hcopy]
    exact ⟨mt hown.1 hconnection, hrange, hs⟩

theorem screensAgree_iff (data : WiFiData) :
    ScreensAgree chars locale titles platform vendorService data ↔
      ∀ d item, OnItem titles platform data d item → Outshone chars locale data d.wiFiSignal.wiFiBand
        d.wiFiSignal.primaryWiFiChannel.frequency item.frequency := by
  apply forall_congr'
  intro d
  apply forall_congr'
  intro item
  apply imp_congr_right
  intro _
  have hlist := strongest_list chars locale data d.wiFiSignal.primaryWiFiChannel
  have hdetail := strongest_detail chars locale vendorService data d.wiFiSignal.wiFiBand item
  have hreverse : initChannelRating chars locale data d =
      updateViewFragment chars locale vendorService data d.wiFiSignal.wiFiBand item ↔ _ = _ :=
    ⟨fun h => reverse_injective h, congrArg Strength.reverse⟩
  rw [hreverse, le_antisymm_iff, strongest_le_iff hlist hdetail, strongest_le_iff hdetail hlist]
  · exact ⟨fun h => ⟨h.1, h.2⟩, fun h => ⟨h.list, h.detail⟩⟩
  · rintro w ⟨hlead, hconnection, hrange⟩ hmissed
    by_cases hmark : w.wiFiAdditional.wiFiConnection.isConnected
    · exact .connected hmark
    by_cases hcovers : w.wiFiSignal.isInRange d.wiFiSignal.primaryWiFiChannel.frequency
    · exact .guest fun hleads => hmissed ⟨hleads, hmark, hcovers⟩
    · exact .offChannel hcovers
  · rintro w ⟨hlead, hmark, hrange⟩ hmissed
    by_cases hown : data.isConnection w
    · exact .own hown
    by_cases hband : wiFiBandPredicate d.wiFiSignal.wiFiBand w
    · by_cases hcovers : w.wiFiSignal.isInRange item.frequency
      · exact .guest fun hleads => hmissed ⟨hleads, hown, hcovers⟩
      · exact .offChannel hcovers
    · exact .otherBand hband

section Distinct

variable {data : WiFiData} (hbssid : ∀ d ∈ data.wiFiDetails, d.bssid ≠ [])
  (hdistinct : (data.wiFiDetails.map WiFiDetail.bssid).Nodup)
include hbssid hdistinct

theorem standIn_eq_self {w : WiFiDetail} (hw : w ∈ data.wiFiDetails) : standIn data w = w := by
  rw [standIn]
  cases hfind : data.wiFiDetails.find? data.isConnection with
  | none =>
      have hne : ¬ w.equals .empty := fun h => hbssid w hw ((WiFiDetail.equals_iff _ _).1 h).2
      exact if_neg hne
  | some own =>
      dsimp only
      by_cases h : data.isConnection w
      · obtain ⟨-, hown⟩ := (isConnection_iff data own).1 (List.find?_some hfind)
        obtain ⟨-, hsame⟩ := (isConnection_iff data w).1 h
        rw [if_pos h]
        exact eq_of_bssid hdistinct (List.mem_of_find?_eq_some hfind) hw (hown.trans hsame.symm)
      · exact if_neg h

theorem bandScan_eq (wiFiBand : WiFiBand) :
    bandScan data wiFiBand = data.wiFiDetails.filter (wiFiBandPredicate wiFiBand) := by
  have hself : ∀ w ∈ data.wiFiDetails.filter (wiFiBandPredicate wiFiBand), standIn data w = id w :=
    fun w hw => standIn_eq_self hbssid hdistinct (List.mem_of_mem_filter hw)
  rw [bandScan, List.map_congr_left hself, List.map_id]

/-- Where the scan has every address once, an entry of the band is a guest on one screen
only where entries of the other band part it from its station, and that screen is the
detail screen. -/
theorem leads_iff_bandScan (wiFiBand : WiFiBand) {w : WiFiDetail} (hband : wiFiBandPredicate wiFiBand w) :
    Leads chars locale data.wiFiDetails w ↔ Leads chars locale (bandScan data wiFiBand) w ∨
      Apart (SameStation chars) (wiFiBandPredicate wiFiBand) (guestSorted locale data.wiFiDetails) w := by
  have hkinds : ∀ a b, SameStation chars a b → wiFiBandPredicate wiFiBand a = wiFiBandPredicate wiFiBand b :=
    fun _ _ h => sameStation_band chars wiFiBand h
  have hparts := following_filter_perm (SameStation chars) hkinds WiFiDetail.empty WiFiDetail.empty []
    (guestSorted locale data.wiFiDetails) (List.forall_mem_nil _) rfl
  have hapart := mem_separated (SameStation chars) hkinds WiFiDetail.empty (d := w)
    (guestSorted locale data.wiFiDetails) (List.forall_mem_nil _)
  have hmem := hparts.mem_iff (a := w)
  rw [List.mem_filter, List.mem_append, hapart, List.nil_append, apart_empty, and_iff_left hband] at hmem
  rw [leads_iff, leads_iff, bandScan_eq hbssid hdistinct, hmem, guestSorted, guestSorted, sort_filter]

end Distinct

def home : WiFiDetail where
  ssid := str "home"
  bssid := str "00:11:22:33:44:55"
  capabilities := []
  wiFiSignal := ⟨2412, 2412, .MHZ_20, -40, false⟩

def atHome : WiFiData where
  wiFiDetails := [home]
  wiFiConnection := ⟨str "home", str "00:11:22:33:44:55", [], [], []⟩
  device := ⟨[], [], [], []⟩

theorem not_screensAgree :
    ¬ ScreensAgree .ascii .root .ascii (device [⟨str "RU"⟩]) ⟨fun _ => []⟩ atHome := by
  intro h
  have hsame := h home ⟨1, 2412⟩ ⟨by decide, by decide, by decide +kernel⟩
  revert hsame
  decide +kernel

end SberWifi.Screens
