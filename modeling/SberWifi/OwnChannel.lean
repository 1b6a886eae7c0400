import SberWifi.ChannelTables
import SberWifi.QuietChannels
import SberWifi.Transformer

namespace SberWifi.OwnChannel

open JavaString Band Detail SignalStrength Comparators Rating Interference ChannelTables QuietChannels
  Transformer

/-- A scan result of one of the two bands. The centre that it reports is zero,
or its channel covers the primary frequency, or it is the centre of a 40 MHz
channel that lies beside the primary one. -/
structure Reported (scanResult : ScanResult) : Prop where
  band : frequencyPredicate scanResult.frequency .GHZ2 ∨ frequencyPredicate scanResult.frequency .GHZ5
  centre : ∀ centreFreq0, scanResult.centerFreq0 = some centreFreq0 → centreFreq0 = 0 ∨
    |centreFreq0.toInt - scanResult.frequency.toInt| ≤ (getWiFiWidth scanResult).frequencyWidthHalf.toInt ∨
    getWiFiWidth scanResult = .MHZ_40 ∧ |centreFreq0.toInt - scanResult.frequency.toInt| ≤ 40

def OnTable (signal : WiFiSignal) : Prop :=
  ∃ pair ∈ signal.wiFiBand.wiFiChannels.wiFiChannelPairs, ∃ channel, Near signal.primaryFrequency pair channel

def scanned (platform : Platform) (process : Process) (scanResult : List ScanResult) : List WiFiDetail :=
  (transformScanResult platform scanResult).map (·.read process)

def CountsOnOwn (rating : ChannelRating) (w : WiFiDetail) : Prop :=
  w ∈ collectOverlapping rating w.wiFiSignal.primaryWiFiChannel ∧
    1 ≤ getCount rating w.wiFiSignal.primaryWiFiChannel ∧
    (¬ w.wiFiAdditional.wiFiConnection.isConnected →
      w.wiFiSignal.strength ≤ getStrength rating w.wiFiSignal.primaryWiFiChannel)

theorem toInt_abs {x : Int32} (h : -2147483648 < x.toInt) : x.abs.toInt = |x.toInt| := by
  have hne : x.toBitVec ≠ BitVec.intMin 32 := by
    intro he
    have hmin : x.toInt = (BitVec.intMin 32).toInt := congrArg BitVec.toInt he
    rw [hmin] at h
    exact absurd h (by decide)
  have habs : x.toBitVec.abs.toInt = x.toBitVec.toInt.natAbs := BitVec.toInt_abs_eq_natAbs_of_ne_intMin hne
  exact habs.trans (Int.abs_eq_natAbs _).symm

theorem width_half (wiFiWidth : WiFiWidth) : 10 ≤ wiFiWidth.frequencyWidthHalf.toInt ∧
    wiFiWidth.frequencyWidthHalf.toInt ≤ 80 := by
  cases wiFiWidth <;> decide

theorem band_frequency {frequency : Int32}
    (h : frequencyPredicate frequency .GHZ2 ∨ frequencyPredicate frequency .GHZ5) :
    2400 ≤ frequency.toInt ∧ frequency.toInt ≤ 5899 := by
  rcases h with h | h
  · obtain ⟨hlow, hhigh⟩ := (ChannelTables.isInRange_iff frequency).1 h
    rw [show (WiFiBand.GHZ2.wiFiChannels.wiFiRange.1).toInt = 2400 by decide] at hlow
    rw [show (WiFiBand.GHZ2.wiFiChannels.wiFiRange.2).toInt = 2499 by decide] at hhigh
    omega
  · obtain ⟨hlow, hhigh⟩ := (ChannelTables.isInRange_iff frequency).1 h
    rw [show (WiFiBand.GHZ5.wiFiChannels.wiFiRange.1).toInt = 4900 by decide] at hlow
    rw [show (WiFiBand.GHZ5.wiFiChannels.wiFiRange.2).toInt = 5899 by decide] at hhigh
    omega

theorem bandOf_isInRange {frequency : Int32}
    (h : frequencyPredicate frequency .GHZ2 ∨ frequencyPredicate frequency .GHZ5) :
    (bandOf WiFiBand.values frequency).wiFiChannels.isInRange frequency := by
  by_cases h2 : frequencyPredicate frequency .GHZ2
  · have hband : bandOf WiFiBand.values frequency = .GHZ2 := by
      simp [bandOf, enumFind, WiFiBand.values, h2]
    rw [hband]
    exact h2
  · have h5 := h.resolve_left h2
    have hband : bandOf WiFiBand.values frequency = .GHZ5 := by
      simp [bandOf, enumFind, WiFiBand.values, h2, h5]
    rw [hband]
    exact h5

theorem isExtensionFrequency_iff {scanResult : ScanResult} {centreFreq0 : Int32} (wiFiWidth : WiFiWidth)
    (hdiff : (scanResult.frequency - centreFreq0).toInt = scanResult.frequency.toInt - centreFreq0.toInt)
    (hlow : -2147483648 < scanResult.frequency.toInt - centreFreq0.toInt) :
    isExtensionFrequency scanResult wiFiWidth centreFreq0 ↔
      wiFiWidth = .MHZ_40 ∧ 20 ≤ |scanResult.frequency.toInt - centreFreq0.toInt| := by
  rw [isExtensionFrequency, decide_eq_true_eq, ge_iff_le, Int32.le_iff_toInt_le,
    show (WiFiWidth.MHZ_40.frequencyWidthHalf).toInt = 20 by decide, toInt_abs (by rw [hdiff]; exact hlow),
    hdiff, eq_comm]

/-- The middle of the primary frequency and a centre at most 40 MHz away. -/
theorem middle_near {frequency centreFreq0 : Int32} (hlow : 2400 ≤ frequency.toInt)
    (hhigh : frequency.toInt ≤ 5899) (hforty : |centreFreq0.toInt - frequency.toInt| ≤ 40) :
    |((centreFreq0 + frequency) / 2).toInt - frequency.toInt| ≤ 20 := by
  rw [abs_le] at hforty
  have hsum : (centreFreq0 + frequency).toInt = centreFreq0.toInt + frequency.toInt := by
    rw [Int32.toInt_add, Int.bmod_eq_of_le] <;> omega
  have hmiddle : ((centreFreq0 + frequency) / 2).toInt = (centreFreq0.toInt + frequency.toInt) / 2 := by
    rw [Int32.toInt_div, hsum, show (2 : Int32).toInt = 2 by decide,
      Int.tdiv_eq_ediv_of_nonneg (by omega), Int.bmod_eq_of_le] <;> omega
  rw [hmiddle, abs_le]
  omega

/-- The corrected centre is within half the width of the primary frequency. -/
theorem center_near {scanResult : ScanResult} (h : Reported scanResult) :
    |(getCenterFrequency scanResult (getWiFiWidth scanResult)).toInt - scanResult.frequency.toInt| ≤
      (getWiFiWidth scanResult).frequencyWidthHalf.toInt := by
  obtain ⟨hlow, hhigh⟩ := band_frequency h.band
  obtain ⟨hten, heighty⟩ := width_half (getWiFiWidth scanResult)
  have hself : |scanResult.frequency.toInt - scanResult.frequency.toInt| ≤
      (getWiFiWidth scanResult).frequencyWidthHalf.toInt := by
    rw [sub_self, abs_zero]
    omega
  rw [getCenterFrequency]
  cases hreported : scanResult.centerFreq0 with
  | none => exact hself
  | some centreFreq0 =>
      by_cases hzero : centreFreq0 = 0
      · simpa only [hzero, if_true] using hself
      have hcentre := (h.centre centreFreq0 hreported).resolve_left hzero
      have hfar : |centreFreq0.toInt - scanResult.frequency.toInt| ≤ 80 := by omega
      rw [abs_le] at hfar
      have hdiff : (scanResult.frequency - centreFreq0).toInt =
          scanResult.frequency.toInt - centreFreq0.toInt := by
        rw [Int32.toInt_sub, Int.bmod_eq_of_le] <;> omega
      have hextension := isExtensionFrequency_iff (getWiFiWidth scanResult) hdiff (by omega)
      simp only [if_neg hzero]
      by_cases hext : isExtensionFrequency scanResult (getWiFiWidth scanResult) centreFreq0
      · obtain ⟨hwidth, -⟩ := hextension.1 hext
        have hhalf : (getWiFiWidth scanResult).frequencyWidthHalf.toInt = 20 := by
          rw [hwidth]
          decide
        rw [if_pos hext, hhalf]
        exact middle_near hlow hhigh (by omega)
      · rw [if_neg hext]
        rcases hcentre with hhalf | ⟨hwidth, -⟩
        · exact hhalf
        · have hclose : ¬ 20 ≤ |scanResult.frequency.toInt - centreFreq0.toInt| := fun hge =>
            hext (hextension.2 ⟨hwidth, hge⟩)
          rw [hwidth, abs_sub_comm, show (WiFiWidth.MHZ_40.frequencyWidthHalf).toInt = 20 by decide]
          omega

section Signals

variable (platform : Platform) {scanResult : ScanResult} (h : Reported scanResult)
include h

theorem isInRange_toWiFiDetail (frequency : Int32) :
    (toWiFiDetail platform scanResult).wiFiSignal.isInRange frequency ↔
      |frequency.toInt - (getCenterFrequency scanResult (getWiFiWidth scanResult)).toInt| ≤
        (getWiFiWidth scanResult).frequencyWidthHalf.toInt := by
  obtain ⟨hlow, hhigh⟩ := band_frequency h.band
  obtain ⟨hten, heighty⟩ := width_half (getWiFiWidth scanResult)
  have hnear := center_near h
  rw [abs_le] at hnear
  have hstart : (getCenterFrequency scanResult (getWiFiWidth scanResult) -
      (getWiFiWidth scanResult).frequencyWidthHalf).toInt =
        (getCenterFrequency scanResult (getWiFiWidth scanResult)).toInt -
          (getWiFiWidth scanResult).frequencyWidthHalf.toInt := by
    rw [Int32.toInt_sub, Int.bmod_eq_of_le] <;> omega
  have hend : (getCenterFrequency scanResult (getWiFiWidth scanResult) +
      (getWiFiWidth scanResult).frequencyWidthHalf).toInt =
        (getCenterFrequency scanResult (getWiFiWidth scanResult)).toInt +
          (getWiFiWidth scanResult).frequencyWidthHalf.toInt := by
    rw [Int32.toInt_add, Int.bmod_eq_of_le] <;> omega
  rw [WiFiSignal.isInRange, Bool.and_eq_true, decide_eq_true_eq, decide_eq_true_eq, Int32.le_iff_toInt_le,
    Int32.le_iff_toInt_le, WiFiSignal.frequencyStart, WiFiSignal.frequencyEnd, toWiFiDetail]
  dsimp only
  rw [hstart, hend, abs_le]
  omega

theorem isInRange_own : (toWiFiDetail platform scanResult).wiFiSignal.isInRange scanResult.frequency := by
  rw [isInRange_toWiFiDetail platform h, abs_sub_comm]
  exact center_near h

/-- No signal of the bands reaches down to the frequency of the unknown channel. -/
theorem not_isInRange_unknown :
    ¬ (toWiFiDetail platform scanResult).wiFiSignal.isInRange WiFiChannel.unknown.frequency := by
  obtain ⟨hlow, hhigh⟩ := band_frequency h.band
  obtain ⟨hten, heighty⟩ := width_half (getWiFiWidth scanResult)
  have hnear := center_near h
  rw [isInRange_toWiFiDetail platform h, show WiFiChannel.unknown.frequency.toInt = 0 by decide]
  rw [abs_le] at hnear ⊢
  omega

theorem primaryWiFiChannel_cases :
    (OnTable (toWiFiDetail platform scanResult).wiFiSignal ∧
      (toWiFiDetail platform scanResult).wiFiSignal.primaryWiFiChannel.frequency = scanResult.frequency) ∨
    (¬ OnTable (toWiFiDetail platform scanResult).wiFiSignal ∧
      (toWiFiDetail platform scanResult).wiFiSignal.primaryWiFiChannel = .unknown) := by
  have htable := wiFiBand_table (toWiFiDetail platform scanResult).wiFiSignal.wiFiBand
  have hfits := wiFiBand_fits (toWiFiDetail platform scanResult).wiFiSignal.wiFiBand
  by_cases hon : OnTable (toWiFiDetail platform scanResult).wiFiSignal
  · obtain ⟨pair, hpair, channel, hnear⟩ := hon
    have hchannel := getWiFiChannelByFrequency_of_near htable hfits hpair (bandOf_isInRange h.band) hnear
    refine .inl ⟨⟨pair, hpair, channel, hnear⟩, ?_⟩
    exact congrArg WiFiChannel.frequency hchannel
  · refine .inr ⟨hon, ?_⟩
    by_contra hknown
    exact hon (near_of_getWiFiChannelByFrequency htable hfits hknown).2

end Signals

variable (chars : CaseTable) (locale : JLocale)

theorem countsOnOwn_of_isInRange {rating : ChannelRating} {w : WiFiDetail} (hw : w ∈ rating.getWiFiDetails)
    (hrange : w.wiFiSignal.isInRange w.wiFiSignal.primaryWiFiChannel.frequency) : CountsOnOwn rating w := by
  have hmem : w ∈ collectOverlapping rating w.wiFiSignal.primaryWiFiChannel :=
    List.mem_filter.2 ⟨hw, hrange⟩
  refine ⟨hmem, List.length_pos_of_mem hmem, ?_⟩
  intro hconnected
  exact (le_foldl_strengthStep _ _ _).2 (.inr ⟨w, hmem, hconnected, le_rfl⟩)

/-- An access point on a channel of its band's table counts on that channel. Any
other one is on the unknown channel, which nothing overlaps. -/
theorem countsOnOwn_iff_onTable (platform : Platform) (process : Process) (scanResult : List ScanResult)
    (h : ∀ r ∈ scanResult, Reported r) :
    let rating := setWiFiDetails chars locale (scanned platform process scanResult)
    ∀ w ∈ rating.getWiFiDetails,
      (OnTable w.wiFiSignal → CountsOnOwn rating w) ∧
      (¬ OnTable w.wiFiSignal → w.wiFiSignal.primaryWiFiChannel = .unknown ∧
        collectOverlapping rating w.wiFiSignal.primaryWiFiChannel = []) := by
  intro rating w hw
  have hscanned : ∀ v ∈ rating.getWiFiDetails, ∃ r ∈ scanResult,
      v.wiFiSignal = (toWiFiDetail platform r).wiFiSignal := by
    intro v hv
    obtain ⟨d, hd, rfl⟩ := List.mem_map.1 (mem_of_kept chars locale hv)
    obtain ⟨r, hr, rfl⟩ := List.mem_map.1 hd
    exact ⟨r, hr, rfl⟩
  obtain ⟨r, hr, hsignal⟩ := hscanned w hw
  rcases primaryWiFiChannel_cases platform (h r hr) with ⟨hon, hfrequency⟩ | ⟨hoff, hunknown⟩
  · rw [hsignal]
    refine ⟨fun _ => countsOnOwn_of_isInRange hw ?_, fun hoff => absurd hon hoff⟩
    rw [hsignal, hfrequency]
    exact isInRange_own platform (h r hr)
  · rw [hsignal, hunknown]
    refine ⟨fun hon => absurd hon hoff, fun _ => ⟨rfl, ?_⟩⟩
    apply List.filter_eq_nil_iff.2
    intro v hv
    obtain ⟨s, hs, hsignal'⟩ := hscanned v hv
    rw [hsignal']
    exact not_isInRange_unknown platform (h s hs)

def phone : Platform := ⟨[], [], 28, true⟩

def router (frequency centerFreq0 channelWidth : Int32) : ScanResult where
  SSID := str "home"
  BSSID := str "00:11:22:33:44:55"
  capabilities := []
  frequency := frequency
  level := -40
  centerFreq0 := some centerFreq0
  channelWidth := some channelWidth
  is80211mcResponder := false

theorem reported_router {frequency centerFreq0 channelWidth : Int32}
    (hband : frequencyPredicate frequency .GHZ2 ∨ frequencyPredicate frequency .GHZ5)
    (hcentre : getWiFiWidth (router frequency centerFreq0 channelWidth) = .MHZ_40 ∧
      |centerFreq0.toInt - frequency.toInt| ≤ 40) :
    Reported (router frequency centerFreq0 channelWidth) where
  band := hband
  centre _ hreported := .inr (.inr ((Option.some.inj hreported) ▸ hcentre))

/-- A 40 MHz channel whose reported centre is that of its extension. -/
theorem countsOnOwn_iff_onTable_router :
    let rating := setWiFiDetails .ascii .root (scanned phone (.started none) [router 2437 2477 1])
    ∀ w ∈ rating.getWiFiDetails,
      (OnTable w.wiFiSignal → CountsOnOwn rating w) ∧
      (¬ OnTable w.wiFiSignal → w.wiFiSignal.primaryWiFiChannel = .unknown ∧
        collectOverlapping rating w.wiFiSignal.primaryWiFiChannel = []) := by
  refine countsOnOwn_iff_onTable .ascii .root phone (.started none) [router 2437 2477 1] ?_
  intro r hr
  rw [List.mem_singleton.1 hr]
  exact reported_router (.inl (by decide)) (by decide)

/-- Channel 34 is in the 5 GHz range, but on none of the pairs of its table. -/
theorem not_countsOnOwn : ¬ ∀ scanResult : List ScanResult, (∀ r ∈ scanResult, Reported r) →
    ∀ w ∈ (setWiFiDetails .ascii .root (scanned phone (.started none) scanResult)).getWiFiDetails,
      CountsOnOwn (setWiFiDetails .ascii .root (scanned phone (.started none) scanResult)) w := by
  intro h
  have hreported : ∀ r ∈ [router 5170 5170 1], Reported r := by
    intro r hr
    rw [List.mem_singleton.1 hr]
    exact reported_router (.inr (by decide)) (by decide)
  have hcounts := h [router 5170 5170 1] hreported
  have hkept :
      (setWiFiDetails .ascii .root (scanned phone (.started none) [router 5170 5170 1])).getWiFiDetails =
        [(toWiFiDetail phone (router 5170 5170 1)).read (.started none)] := rfl
  rw [hkept] at hcounts
  have hcount := (hcounts _ List.mem_cons_self).2.1
  exact absurd hcount (by decide +kernel)

end SberWifi.OwnChannel
