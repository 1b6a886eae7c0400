import SberWifi.Interference
import Mathlib.Data.Finset.Max

namespace SberWifi.QuietChannels

open JavaString Band Detail SignalStrength Comparators StableSort Rating Interference

def Overlaps (wiFiChannel : WiFiChannel) (w : WiFiDetail) : Prop :=
  w.wiFiSignal.frequencyStart ≤ wiFiChannel.frequency ∧ wiFiChannel.frequency ≤ w.wiFiSignal.frequencyEnd

instance (wiFiChannel : WiFiChannel) : DecidablePred (Overlaps wiFiChannel) := fun _ =>
  inferInstanceAs (Decidable (_ ∧ _))

def Interferes (wiFiChannel : WiFiChannel) (w : WiFiDetail) : Prop :=
  ¬ w.wiFiAdditional.wiFiConnection.isConnected ∧ Overlaps wiFiChannel w

instance (wiFiChannel : WiFiChannel) : DecidablePred (Interferes wiFiChannel) := fun _ =>
  inferInstanceAs (Decidable (_ ∧ _))

def interferers (rating : ChannelRating) (wiFiChannel : WiFiChannel) : List WiFiDetail :=
  rating.getWiFiDetails.filter (Interferes wiFiChannel)

/-- `calculateSignalLevel` for five levels, on integers without bounds. -/
def signalLevel (rssi : Int) : Int :=
  if rssi ≤ -100 then 0 else if -55 ≤ rssi then 4 else (rssi + 100) * 4 / 45

/-- The difference and the product that are computed for a level are Ints, and
the answer is an index of the strengths. -/
structure Exact (rssi : Int32) : Prop where
  difference : ¬ rssi ≤ minRssi → ¬ rssi ≥ maxRssi → (rssi - minRssi).toInt = rssi.toInt + 100
  product : ¬ rssi ≤ minRssi → ¬ rssi ≥ maxRssi → ((rssi - minRssi) * (5 - 1)).toInt = (rssi.toInt + 100) * 4
  answer : (calculateSignalLevel rssi 5).toInt = signalLevel rssi.toInt
  range : 0 ≤ (calculateSignalLevel rssi 5).toInt ∧ (calculateSignalLevel rssi 5).toInt < 5

def Quiet (rating : ChannelRating) (wiFiChannel : WiFiChannel) : Prop :=
  ∀ w ∈ rating.getWiFiDetails, Interferes wiFiChannel w → w.wiFiSignal.level.toInt ≤ -78

instance (rating : ChannelRating) : DecidablePred (Quiet rating) := fun wiFiChannel =>
  inferInstanceAs (Decidable (∀ w ∈ rating.getWiFiDetails, Interferes wiFiChannel w → _))

def NotAfter (a b : ChannelAPCount) : Prop :=
  a.count < b.count ∨ a.count = b.count ∧ (a.wiFiChannel.channel < b.wiFiChannel.channel ∨
    a.wiFiChannel.channel = b.wiFiChannel.channel ∧ a.wiFiChannel.frequency ≤ b.wiFiChannel.frequency)

theorem overlaps_iff (w : WiFiDetail) (wiFiChannel : WiFiChannel) :
    w.wiFiSignal.isInRange wiFiChannel.frequency ↔ Overlaps wiFiChannel w := by
  simp [WiFiSignal.isInRange, Overlaps]

theorem exact (rssi : Int32) : Exact rssi where
  difference := rssi_sub_toInt
  product := rssi_mul_toInt
  answer := calculateSignalLevel_toInt rssi
  range := calculateSignalLevel_range rssi

theorem ordinal_get (index : Int32) (h : 0 ≤ index.toInt ∧ index.toInt < 5) :
    ((Strength.get index h).ordinal : Int) = index.toInt := by
  have hlist : ∀ i : Fin 5, (Strength.values.get i).ordinal = i.val := by decide
  have hget : (Strength.get index h).ordinal = index.toInt.toNat := hlist ⟨index.toInt.toNat, by omega⟩
  rw [hget]
  omega

theorem ordinal_calculate (level : Int32) :
    ((Strength.calculate level).ordinal : Int) = signalLevel level.toInt :=
  (ordinal_get _ _).trans (calculateSignalLevel_toInt level)

theorem signalLevel_mono {a b : Int} (h : a ≤ b) : signalLevel a ≤ signalLevel b := by
  unfold signalLevel
  split_ifs <;> omega

theorem calculate_mono {a b : Int32} (h : a ≤ b) : Strength.calculate a ≤ Strength.calculate b := by
  have hle := signalLevel_mono (Int32.le_iff_toInt_le.1 h)
  rw [← ordinal_calculate, ← ordinal_calculate] at hle
  exact Int.ofNat_le.1 hle

theorem two_le_calculate_iff (level : Int32) : Strength.TWO ≤ .calculate level ↔ -77 ≤ level.toInt := by
  have hordinal : Strength.TWO ≤ .calculate level ↔ 2 ≤ signalLevel level.toInt := by
    rw [← ordinal_calculate]
    exact Int.ofNat_le.symm
  rw [hordinal, signalLevel]
  split_ifs <;> omega

theorem mem_interferers {rating : ChannelRating} {wiFiChannel : WiFiChannel} {w : WiFiDetail} :
    w ∈ interferers rating wiFiChannel ↔ w ∈ rating.getWiFiDetails ∧ Interferes wiFiChannel w := by
  rw [interferers, List.mem_filter, decide_eq_true_eq]

/-- The fold is at least a strength when its start or an interferer is. -/
theorem le_getStrength_iff_interferer (rating : ChannelRating) (wiFiChannel : WiFiChannel) (s : Strength) :
    s ≤ getStrength rating wiFiChannel ↔ s ≤ .ZERO ∨
      ∃ w ∈ interferers rating wiFiChannel, s ≤ .calculate (level w) := by
  rw [getStrength, le_foldl_strengthStep]
  apply or_congr_right
  apply exists_congr
  intro w
  rw [mem_interferers, collectOverlapping, List.mem_filter, overlaps_iff, Interferes]
  tauto

theorem exists_strongest {l : List WiFiDetail} (h : l ≠ []) : ∃ w ∈ l, ∀ v ∈ l, level v ≤ level w := by
  obtain ⟨w, hw, hmax⟩ := l.toFinset.exists_max_image (fun w => (level w).toInt)
    ((List.toFinset_nonempty_iff l).2 h)
  refine ⟨w, List.mem_toFinset.1 hw, ?_⟩
  intro v hv
  exact Int32.le_iff_toInt_le.2 (hmax v (List.mem_toFinset.2 hv))

theorem getStrength_of_strongest {rating : ChannelRating} {wiFiChannel : WiFiChannel} {w : WiFiDetail}
    (hw : w ∈ interferers rating wiFiChannel)
    (hmax : ∀ v ∈ interferers rating wiFiChannel, level v ≤ level w) :
    getStrength rating wiFiChannel = .calculate (level w) := by
  apply le_antisymm
  · rcases (le_getStrength_iff_interferer rating wiFiChannel _).1 le_rfl with h | ⟨v, hv, h⟩
    · exact h.trans (zero_le _)
    · exact h.trans (calculate_mono (hmax v hv))
  · exact (le_getStrength_iff_interferer rating wiFiChannel _).2 (.inr ⟨w, hw, le_rfl⟩)

theorem getStrength_of_none {rating : ChannelRating} {wiFiChannel : WiFiChannel}
    (h : interferers rating wiFiChannel = []) : getStrength rating wiFiChannel = .ZERO := by
  apply le_antisymm _ (zero_le _)
  rcases (le_getStrength_iff_interferer rating wiFiChannel _).1 le_rfl with hzero | ⟨v, hv, -⟩
  · exact hzero
  · rw [h] at hv
    exact absurd hv List.not_mem_nil

variable (chars : CaseTable) (locale : JLocale)

/-- The strength of a channel is that of its strongest interferer, and none of
the levels is too large or too small for the computation. -/
theorem getStrength_strongest (wiFiDetails : List WiFiDetail) (wiFiChannel : WiFiChannel) :
    let rating := setWiFiDetails chars locale wiFiDetails
    ((interferers rating wiFiChannel = [] ∧ getStrength rating wiFiChannel = .ZERO) ∨
      ∃ w ∈ interferers rating wiFiChannel, (∀ v ∈ interferers rating wiFiChannel, level v ≤ level w) ∧
        getStrength rating wiFiChannel = .calculate (level w)) ∧
    ∀ rssi, Exact rssi := by
  intro rating
  refine ⟨?_, exact⟩
  by_cases h : interferers rating wiFiChannel = []
  · exact .inl ⟨h, getStrength_of_none h⟩
  · obtain ⟨w, hw, hmax⟩ := exists_strongest h
    exact .inr ⟨w, hw, hmax, getStrength_of_strongest hw hmax⟩

theorem bestChannel_iff (rating : ChannelRating) (wiFiChannel : WiFiChannel) :
    bestChannel rating wiFiChannel ↔ Quiet rating wiFiChannel := by
  have hone : ∀ s : Strength, (.ZERO = s || .ONE = s) ↔ ¬ Strength.TWO ≤ s := by
    intro s
    cases s <;> decide
  have hzero : ¬ Strength.TWO ≤ .ZERO := by decide
  rw [bestChannel, hone, le_getStrength_iff_interferer]
  simp only [hzero, false_or, two_le_calculate_iff, not_exists, not_and, mem_interferers, level, Quiet,
    and_imp]
  apply forall_congr'
  intro w
  apply imp_congr_right
  intro _
  apply imp_congr_right
  intro _
  omega

theorem getCount_eq (rating : ChannelRating) (wiFiChannel : WiFiChannel) :
    getCount rating wiFiChannel = rating.getWiFiDetails.countP (Overlaps wiFiChannel) := by
  rw [getCount, collectOverlapping, ← List.countP_eq_length_filter]
  apply List.countP_congr
  intro w _
  rw [overlaps_iff, decide_eq_true_eq]

theorem channelAPCountSort_eq : channelAPCountSort = compareLex (compareOn ChannelAPCount.count)
    (compareLex (compareOn fun a => a.wiFiChannel.channel) (compareOn fun a => a.wiFiChannel.frequency)) :=
  rfl

instance : Std.TransCmp channelAPCountSort := by
  rw [channelAPCountSort_eq]
  infer_instance

theorem notAfter_of_isLE {a b : ChannelAPCount} (h : (channelAPCountSort a b).isLE) : NotAfter a b := by
  rw [channelAPCountSort_eq] at h
  simp only [compareLex, compareOn, Ordering.isLE_then_iff_or, Std.compare_eq_lt,
    Std.LawfulEqOrd.compare_eq_iff_eq, Std.isLE_compare] at h
  exact h

/-- The best channels are the quiet ones with their counts, in order. -/
theorem getBestChannels_quiet (wiFiDetails : List WiFiDetail) (wiFiChannels : List WiFiChannel) :
    let rating := setWiFiDetails chars locale wiFiDetails
    (getBestChannels rating wiFiChannels).Perm ((wiFiChannels.filter (Quiet rating)).map fun wiFiChannel =>
        ⟨wiFiChannel, rating.getWiFiDetails.countP (Overlaps wiFiChannel)⟩) ∧
      (getBestChannels rating wiFiChannels).Pairwise NotAfter := by
  intro rating
  constructor
  · have hfilter : wiFiChannels.filter (bestChannel rating) = wiFiChannels.filter (Quiet rating) := by
      apply List.filter_congr
      intro wiFiChannel _
      rw [Bool.eq_iff_iff, bestChannel_iff, decide_eq_true_eq]
    have hcount : (fun wiFiChannel => (⟨wiFiChannel, getCount rating wiFiChannel⟩ : ChannelAPCount)) =
        fun wiFiChannel => ⟨wiFiChannel, rating.getWiFiDetails.countP (Overlaps wiFiChannel)⟩ := by
      funext wiFiChannel
      rw [getCount_eq]
    rw [← hfilter, ← hcount]
    exact sort_perm _ _
  · exact (sort_ordered channelAPCountSort _).imp notAfter_of_isLE

end SberWifi.QuietChannels
