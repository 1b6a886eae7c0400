import SberWifi.Rating

namespace SberWifi.Interference

open JavaString Band Detail SignalStrength Comparators StableSort AdjacentRuns Rating

def collectOverlapping (rating : ChannelRating) (wiFiChannel : WiFiChannel) : List WiFiDetail :=
  rating.getWiFiDetails.filter fun wiFiDetail => wiFiDetail.wiFiSignal.isInRange wiFiChannel.frequency

def getCount (rating : ChannelRating) (wiFiChannel : WiFiChannel) : Nat :=
  (collectOverlapping rating wiFiChannel).length

def strengthStep (strength : Strength) (wiFiDetail : WiFiDetail) : Strength :=
  if !wiFiDetail.wiFiAdditional.wiFiConnection.isConnected then
    strength.strongest wiFiDetail.wiFiSignal.strength
  else strength

def getStrength (rating : ChannelRating) (wiFiChannel : WiFiChannel) : Strength :=
  (collectOverlapping rating wiFiChannel).foldl strengthStep .ZERO

structure ChannelAPCount where
  wiFiChannel : WiFiChannel
  count : Nat
deriving DecidableEq, Repr

/-- `WiFiChannel.compareTo`. -/
def compareChannel : WiFiChannel → WiFiChannel → Ordering :=
  compareLex (compareOn WiFiChannel.channel) (compareOn WiFiChannel.frequency)

def channelAPCountSort : ChannelAPCount → ChannelAPCount → Ordering :=
  compareLex (compareOn ChannelAPCount.count) fun lhs rhs => compareChannel lhs.wiFiChannel rhs.wiFiChannel

def bestChannel (rating : ChannelRating) (wiFiChannel : WiFiChannel) : Bool :=
  let strength := getStrength rating wiFiChannel
  .ZERO = strength || .ONE = strength

def getBestChannels (rating : ChannelRating) (wiFiChannels : List WiFiChannel) : List ChannelAPCount :=
  sort channelAPCountSort ((wiFiChannels.filter (bestChannel rating)).map fun wiFiChannel =>
    ⟨wiFiChannel, getCount rating wiFiChannel⟩)

theorem le_foldl_strengthStep (l : List WiFiDetail) (strength s : Strength) :
    s ≤ l.foldl strengthStep strength ↔ s ≤ strength ∨
      ∃ w ∈ l, ¬ w.wiFiAdditional.wiFiConnection.isConnected ∧ s ≤ w.wiFiSignal.strength := by
  induction l generalizing strength with
  | nil => simp
  | cons w l ih =>
      rw [List.foldl_cons, ih, strengthStep]
      by_cases hw : w.wiFiAdditional.wiFiConnection.isConnected
      · simp [hw]
      · simp [hw, strongest_eq_max, or_assoc]

variable (chars : CaseTable) (locale : JLocale)

def DistinctKeys (wiFiDetails : List WiFiDetail) : Prop :=
  wiFiDetails.Pairwise fun a b => ¬ (upperBSSID locale a = upperBSSID locale b ∧
    primaryFrequency a = primaryFrequency b ∧ level a = level b)

instance (wiFiDetails : List WiFiDetail) : Decidable (DistinctKeys locale wiFiDetails) :=
  inferInstanceAs (Decidable (List.Pairwise _ _))

instance : Std.TransCmp (guestSort locale) := by
  rw [guestSort]
  infer_instance

theorem guestSort_eq_iff (a b : WiFiDetail) : guestSort locale a b = .eq ↔
    upperBSSID locale a = upperBSSID locale b ∧ primaryFrequency a = primaryFrequency b ∧
      level a = level b := by
  simp only [guestSort, compareLex, flip, compareOn, Ordering.then_eq_eq,
    Std.LawfulEqOrd.compare_eq_iff_eq]
  constructor
  · rintro ⟨hbssid, hfrequency, hlevel, -⟩
    exact ⟨hbssid, hfrequency, hlevel.symm⟩
  · rintro ⟨hbssid, hfrequency, hlevel⟩
    exact ⟨hbssid, hfrequency, hlevel.symm, hbssid⟩

theorem guestSorted_of_perm {xs ys : List WiFiDetail} (h : xs.Perm ys) (hdistinct : DistinctKeys locale xs) :
    guestSorted locale xs = guestSorted locale ys :=
  sort_eq_of_perm (guestSort locale) h
    (hdistinct.imp fun hne heq => hne ((guestSort_eq_iff locale _ _).1 heq))

/-- The order of the scan does not reach the rating. -/
theorem setWiFiDetails_of_perm (xs ys : List WiFiDetail) (hperm : xs.Perm ys)
    (hdistinct : DistinctKeys locale xs) :
    (setWiFiDetails chars locale xs).getWiFiDetails = (setWiFiDetails chars locale ys).getWiFiDetails ∧
      (∀ wiFiChannel, getCount (setWiFiDetails chars locale xs) wiFiChannel =
        getCount (setWiFiDetails chars locale ys) wiFiChannel) ∧
      (∀ wiFiChannel, getStrength (setWiFiDetails chars locale xs) wiFiChannel =
        getStrength (setWiFiDetails chars locale ys) wiFiChannel) ∧
      ∀ wiFiChannels, getBestChannels (setWiFiDetails chars locale xs) wiFiChannels =
        getBestChannels (setWiFiDetails chars locale ys) wiFiChannels := by
  have hsorted := guestSorted_of_perm locale hperm hdistinct
  have hrating : setWiFiDetails chars locale xs = setWiFiDetails chars locale ys := by
    rw [setWiFiDetails, setWiFiDetails, removeGuest, removeGuest]
    rw [guestSorted, guestSorted] at hsorted
    rw [hsorted]
  rw [hrating]
  exact ⟨rfl, fun _ => rfl, fun _ => rfl, fun _ => rfl⟩

def neighbours : List WiFiDetail :=
  [station "00:11:22:33:44:55" 2412 (-60), station "00:11:22:33:44:56" 2412 (-40)]

theorem setWiFiDetails_of_perm_neighbours :
    (setWiFiDetails .ascii .root neighbours).getWiFiDetails =
      (setWiFiDetails .ascii .root neighbours.reverse).getWiFiDetails :=
  (setWiFiDetails_of_perm .ascii .root neighbours neighbours.reverse neighbours.reverse_perm.symm
    (by decide)).1

end SberWifi.Interference
