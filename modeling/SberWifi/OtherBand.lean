import SberWifi.Interference

namespace SberWifi.OtherBand

open JavaString Band Detail SignalStrength Comparators StableSort AdjacentRuns Rating Interference

def wiFiBandPredicate (wiFiBand : WiFiBand) (wiFiDetail : WiFiDetail) : Bool :=
  wiFiDetail.wiFiSignal.wiFiBand = wiFiBand

instance : RightCommutative strengthStep where
  right_comm strength a b := by
    simp only [strengthStep, strongest_eq_max]
    split_ifs
    · exact max_right_comm _ _ _
    · rfl
    · rfl
    · rfl

theorem getStrength_of_perm {rating rating' : ChannelRating} {wiFiChannel : WiFiChannel}
    (h : (collectOverlapping rating wiFiChannel).Perm (collectOverlapping rating' wiFiChannel)) :
    getStrength rating wiFiChannel = getStrength rating' wiFiChannel :=
  h.foldl_eq _

variable (chars : CaseTable) (locale : JLocale)

def SameRating (wiFiChannel : WiFiChannel) (rating rating' : ChannelRating) : Prop :=
  getCount rating wiFiChannel = getCount rating' wiFiChannel ∧
    getStrength rating wiFiChannel = getStrength rating' wiFiChannel

/-- In guest order of the mixed list, no entry that covers the channel stands
behind entries of the other band that follow an entry of its own station. -/
def StationsWhole (band : WiFiBand) (zs : List WiFiDetail) (wiFiChannel : WiFiChannel) : Prop :=
  ∀ d, Apart (SameStation chars) (wiFiBandPredicate band) (guestSorted locale zs) d →
    ¬ d.wiFiSignal.isInRange wiFiChannel.frequency

theorem sameStation_band (band : WiFiBand) {a b : WiFiDetail} (h : SameStation chars a b) :
    wiFiBandPredicate band a = wiFiBandPredicate band b := by
  rw [wiFiBandPredicate, wiFiBandPredicate, WiFiSignal.wiFiBand, WiFiSignal.wiFiBand, h.2.2.2]

theorem apart_empty {band : WiFiBand} {l : List WiFiDetail} {d : WiFiDetail} :
    Apart (SameStation chars) (wiFiBandPredicate band) (WiFiDetail.empty :: l) d ↔
      Apart (SameStation chars) (wiFiBandPredicate band) l d := by
  constructor
  · rintro ⟨a, gap, h, hrest⟩
    rcases List.infix_cons_iff.1 h with h | h
    · obtain rfl := (List.cons_prefix_cons.1 h).1
      exact absurd hrest.2.2.2 (not_sameStation_empty chars d)
    · exact ⟨a, gap, h, hrest⟩
  · rintro ⟨a, gap, h, hrest⟩
    exact ⟨a, gap, h.trans (List.infix_cons (List.infix_refl l)), hrest⟩

theorem collectOverlapping_perm (xs : List WiFiDetail) (wiFiChannel : WiFiChannel) :
    (collectOverlapping (setWiFiDetails chars locale xs) wiFiChannel).Perm
      ((following (fun d a => ¬ SameStation chars d a) WiFiDetail.empty (guestSorted locale xs)).filter
        fun d => d.wiFiSignal.isInRange wiFiChannel.frequency) := by
  have h := setWiFiDetails_perm chars locale xs
  rw [keep_eq_following _ fun _ => Iff.rfl] at h
  exact h.filter _

/-- Over the mixed list the channel counts what it counts over its own band, and
the entries that stand apart from their station. -/
theorem collectOverlapping_mixed {band : WiFiBand} {xs ys zs : List WiFiDetail}
    (hxs : ∀ d ∈ xs, wiFiBandPredicate band d) (hys : ∀ d ∈ ys, ¬ wiFiBandPredicate band d)
    (hzs : Interleaving xs ys zs) {wiFiChannel : WiFiChannel}
    (hclear : ∀ d ∈ ys, ¬ d.wiFiSignal.isInRange wiFiChannel.frequency) :
    (collectOverlapping (setWiFiDetails chars locale zs) wiFiChannel).Perm
      (collectOverlapping (setWiFiDetails chars locale xs) wiFiChannel ++
        (separated (SameStation chars) (wiFiBandPredicate band) WiFiDetail.empty []
          (guestSorted locale zs)).filter fun d => d.wiFiSignal.isInRange wiFiChannel.frequency) := by
  have hsorted : (guestSorted locale zs).filter (wiFiBandPredicate band) = guestSorted locale xs := by
    rw [guestSorted, sort_filter, hzs.filter hxs hys]
    rfl
  have hmixed := following_filter_perm (SameStation chars)
    (fun _ _ h => sameStation_band chars band h) WiFiDetail.empty WiFiDetail.empty []
    (guestSorted locale zs) (by simp) rfl
  rw [hsorted] at hmixed
  have hband : ∀ d ∈ following (fun d a => ¬ SameStation chars d a) WiFiDetail.empty (guestSorted locale zs),
      d.wiFiSignal.isInRange wiFiChannel.frequency → wiFiBandPredicate band d := by
    intro d hd hrange
    have hmem := (mem_sort _).1 (following_subset _ _ _ hd)
    rcases hzs.mem hmem with h | h
    · exact hxs d h
    · exact absurd hrange (hclear d h)
  have hfilter : (following (fun d a => ¬ SameStation chars d a) WiFiDetail.empty
      (guestSorted locale zs)).filter (fun d => d.wiFiSignal.isInRange wiFiChannel.frequency) =
      ((following (fun d a => ¬ SameStation chars d a) WiFiDetail.empty (guestSorted locale zs)).filter
        (wiFiBandPredicate band)).filter fun d => d.wiFiSignal.isInRange wiFiChannel.frequency := by
    rw [List.filter_filter]
    apply List.filter_congr
    intro d hd
    have h := hband d hd
    cases hr : d.wiFiSignal.isInRange wiFiChannel.frequency <;> simp_all
  refine (collectOverlapping_perm chars locale zs wiFiChannel).trans ?_
  rw [hfilter]
  refine (hmixed.filter _).trans ?_
  rw [List.filter_append]
  exact (collectOverlapping_perm chars locale xs wiFiChannel).symm.append_right _

theorem sameRating_iff (band : WiFiBand) (xs ys zs : List WiFiDetail)
    (hxs : ∀ d ∈ xs, wiFiBandPredicate band d) (hys : ∀ d ∈ ys, ¬ wiFiBandPredicate band d)
    (hzs : Interleaving xs ys zs) (wiFiChannel : WiFiChannel)
    (hclear : ∀ d ∈ ys, ¬ d.wiFiSignal.isInRange wiFiChannel.frequency) :
    SameRating wiFiChannel (setWiFiDetails chars locale zs) (setWiFiDetails chars locale xs) ↔
      StationsWhole chars locale band zs wiFiChannel := by
  have hmixed := collectOverlapping_mixed chars locale hxs hys hzs hclear
  have hapart (d : WiFiDetail) : d ∈ separated (SameStation chars) (wiFiBandPredicate band) WiFiDetail.empty []
      (guestSorted locale zs) ↔ Apart (SameStation chars) (wiFiBandPredicate band) (guestSorted locale zs) d :=
    (mem_separated (SameStation chars) (fun _ _ h => sameStation_band chars band h) _ _ (by simp)).trans
      (apart_empty chars)
  constructor
  · rintro ⟨hcount, -⟩ d hd hrange
    rw [getCount, getCount, hmixed.length_eq, List.length_append, Nat.add_eq_left,
      List.length_eq_zero_iff, List.filter_eq_nil_iff] at hcount
    exact hcount d ((hapart d).2 hd) hrange
  · intro h
    have hnil : (separated (SameStation chars) (wiFiBandPredicate band) WiFiDetail.empty []
        (guestSorted locale zs)).filter (fun d => d.wiFiSignal.isInRange wiFiChannel.frequency) = [] :=
      List.filter_eq_nil_iff.2 fun d hd => h d ((hapart d).1 hd)
    rw [hnil, List.append_nil] at hmixed
    exact ⟨hmixed.length_eq, getStrength_of_perm hmixed⟩

/-- One router on both bands, with its three addresses in a row. -/
theorem not_sameRating : ¬ ∀ (band : WiFiBand) (xs ys zs : List WiFiDetail),
    (∀ d ∈ xs, wiFiBandPredicate band d) → (∀ d ∈ ys, ¬ wiFiBandPredicate band d) →
    Interleaving xs ys zs → ∀ wiFiChannel : WiFiChannel,
    (∀ d ∈ ys, ¬ d.wiFiSignal.isInRange wiFiChannel.frequency) →
    SameRating wiFiChannel (setWiFiDetails .ascii .root zs) (setWiFiDetails .ascii .root xs) := by
  intro h
  have hsame := h .GHZ2 [station "00:11:22:33:44:55" 2412 (-60), station "00:11:22:33:44:57" 2412 (-60)]
    [station "00:11:22:33:44:56" 5180 (-60)] _ (by decide) (by decide)
    (.left _ (.right _ (.left _ .nil))) ⟨1, 2412⟩ (by decide)
  exact absurd hsame.1 (by decide)

theorem sameRating_iff_strangers :
    SameRating ⟨1, 2412⟩
      (setWiFiDetails .ascii .root
        [station "00:11:22:33:44:55" 2412 (-60), station "00:99:88:77:66:55" 5180 (-60)])
      (setWiFiDetails .ascii .root [station "00:11:22:33:44:55" 2412 (-60)]) ↔
    StationsWhole .ascii .root .GHZ2
      [station "00:11:22:33:44:55" 2412 (-60), station "00:99:88:77:66:55" 5180 (-60)] ⟨1, 2412⟩ :=
  sameRating_iff .ascii .root .GHZ2 _ _ _ (by decide) (by decide) (.left _ (.right _ .nil)) _ (by decide)

end SberWifi.OtherBand
