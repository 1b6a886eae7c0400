import SberWifi.AdjacentRuns
import SberWifi.Comparators
import Mathlib.Data.List.Perm.Basic

namespace SberWifi.Rating

open JavaString Band Detail Comparators StableSort AdjacentRuns

def levelRangeMin : Int32 := -5

def levelRangeMax : Int32 := 5

def bssidLength : Nat := 17

variable (chars : CaseTable) (locale : JLocale)

def isGuestBSSID (lhs rhs : JString) : Bool :=
  lhs.length == bssidLength &&
    lhs.length == rhs.length &&
    equalsIgnoreCase chars (slice lhs 0 0) (slice rhs 0 0) &&
    equalsIgnoreCase chars (slice lhs 2 (bssidLength - 1)) (slice rhs 2 (bssidLength - 1))

def isGuest (lhs rhs : WiFiDetail) : Bool :=
  if !isGuestBSSID chars lhs.bssid rhs.bssid then false
  else
    let result := lhs.wiFiSignal.primaryFrequency - rhs.wiFiSignal.primaryFrequency
    let result :=
      if result == 0 then
        let result := rhs.wiFiSignal.level - lhs.wiFiSignal.level
        if result > levelRangeMin || result < levelRangeMax then 0 else result
      else result
    result == 0

def guestSort : WiFiDetail → WiFiDetail → Ordering :=
  compareLex (compareOn (upperBSSID locale)) (compareLex (compareOn primaryFrequency)
    (compareLex (flip (compareOn level)) (compareOn (upperBSSID locale))))

def guestStep (loop : List WiFiDetail × WiFiDetail) (current : WiFiDetail) : List WiFiDetail × WiFiDetail :=
  let (results, wiFiDetail) := loop
  if isGuest chars current wiFiDetail then (results, wiFiDetail) else (results ++ [current], current)

def removeGuest (wiFiDetails : List WiFiDetail) : List WiFiDetail :=
  let sorted := sort (guestSort locale) wiFiDetails
  let (results, _) := sorted.foldl (guestStep chars) ([], WiFiDetail.empty)
  sort (strengthComparator locale) results

structure ChannelRating where
  wiFiDetails : List WiFiDetail

def ChannelRating.getWiFiDetails (rating : ChannelRating) : List WiFiDetail := rating.wiFiDetails

def setWiFiDetails (wiFiDetails : List WiFiDetail) : ChannelRating :=
  ⟨removeGuest chars locale wiFiDetails⟩

/-- The same station by address and frequency: what `isGuest` means to compare
before it looks at the level. -/
def SameStation (a b : WiFiDetail) : Prop :=
  a.bssid.length = 17 ∧ b.bssid.length = 17 ∧
    equalsIgnoreCase chars (slice a.bssid 2 16) (slice b.bssid 2 16) ∧
    a.wiFiSignal.primaryFrequency = b.wiFiSignal.primaryFrequency

def CloseLevel (a b : WiFiDetail) : Prop :=
  -5 < b.wiFiSignal.level.toInt - a.wiFiSignal.level.toInt ∧
    b.wiFiSignal.level.toInt - a.wiFiSignal.level.toInt < 5

instance : DecidableRel (SameStation chars) := fun _ _ => inferInstanceAs (Decidable (_ ∧ _))

instance : DecidableRel CloseLevel := fun _ _ => inferInstanceAs (Decidable (_ ∧ _))

theorem slice_zero (s : JString) : slice s 0 0 = [] := by simp [slice]

theorem isGuestBSSID_iff (lhs rhs : JString) :
    isGuestBSSID chars lhs rhs ↔ lhs.length = 17 ∧ rhs.length = 17 ∧
      equalsIgnoreCase chars (slice lhs 2 16) (slice rhs 2 16) := by
  have hnil : equalsIgnoreCase chars [] [] := (equalsIgnoreCase_iff chars [] []).2 rfl
  simp only [isGuestBSSID, bssidLength, slice_zero, hnil, Bool.and_eq_true, beq_iff_eq, and_true]
  constructor
  · rintro ⟨⟨h, h'⟩, hmid⟩
    exact ⟨h, h' ▸ h, hmid⟩
  · rintro ⟨h, h', hmid⟩
    exact ⟨⟨h, h.trans h'.symm⟩, hmid⟩

/-- The window test joins its two bounds by or, so every level passes it. -/
theorem level_window_open (result : Int32) : result > levelRangeMin || result < levelRangeMax := by
  by_cases h : result > levelRangeMin
  · simp [h]
  · have hle : result ≤ levelRangeMin := Int32.not_lt.1 h
    have hlt : result < levelRangeMax := Int32.lt_of_le_of_lt hle (by decide)
    simp [hlt]

theorem isGuest_iff (a b : WiFiDetail) : isGuest chars a b ↔ SameStation chars a b := by
  have hsub : a.wiFiSignal.primaryFrequency - b.wiFiSignal.primaryFrequency = 0 ↔
      a.wiFiSignal.primaryFrequency = b.wiFiSignal.primaryFrequency := by
    constructor
    · intro h
      have h' := congrArg (· + b.wiFiSignal.primaryFrequency) h
      simpa using h'
    · intro h
      rw [h, Int32.sub_self]
  by_cases hb : isGuestBSSID chars a.bssid b.bssid
  · have hs := (isGuestBSSID_iff chars _ _).1 hb
    simp only [isGuest, hb, Bool.not_true, Bool.false_eq_true, if_false, level_window_open, if_true,
      SameStation, hs, true_and]
    by_cases h : a.wiFiSignal.primaryFrequency = b.wiFiSignal.primaryFrequency
    · simp [h]
    · simp [h, hsub]
  · have hs : ¬ SameStation chars a b := fun h => hb ((isGuestBSSID_iff chars _ _).2 ⟨h.1, h.2.1, h.2.2.1⟩)
    simp [isGuest, hb, hs]

instance : Std.Symm (SameStation chars) :=
  ⟨fun _ _ ⟨ha, hb, hmid, hf⟩ =>
    ⟨hb, ha, (equalsIgnoreCase_iff chars _ _).2 ((equalsIgnoreCase_iff chars _ _).1 hmid).symm, hf.symm⟩⟩

instance : IsTrans WiFiDetail (SameStation chars) where
  trans a b c := by
    rintro ⟨ha, hb, hmid, hf⟩ ⟨_, hc, hmid', hf'⟩
    rw [equalsIgnoreCase_iff] at hmid hmid'
    exact ⟨ha, hc, (equalsIgnoreCase_iff chars _ _).2 (hmid.trans hmid'), hf.trans hf'⟩

theorem not_sameStation_empty (a : WiFiDetail) : ¬ SameStation chars a WiFiDetail.empty := by
  rintro ⟨_, h, _⟩
  exact absurd h (by decide)

theorem foldl_guestStep (results : List WiFiDetail) (last : WiFiDetail) (l : List WiFiDetail) :
    (l.foldl (guestStep chars) (results, last)).1 = results ++ keep (SameStation chars) last l := by
  induction l generalizing results last with
  | nil => simp [keep]
  | cons a l ih =>
      have hg := isGuest_iff chars a last
      by_cases h : SameStation chars a last
      · rw [List.foldl_cons, guestStep, if_pos (hg.2 h), ih, keep, if_pos h]
      · rw [List.foldl_cons, guestStep, if_neg (fun h' => h (hg.1 h')), ih, keep, if_neg h, List.append_assoc]
        rfl

def guestSorted (wiFiDetails : List WiFiDetail) : List WiFiDetail := sort (guestSort locale) wiFiDetails

theorem setWiFiDetails_perm (xs : List WiFiDetail) :
    (setWiFiDetails chars locale xs).getWiFiDetails.Perm
      (keep (SameStation chars) WiFiDetail.empty (guestSorted locale xs)) := by
  have h := foldl_guestStep chars [] WiFiDetail.empty (guestSorted locale xs)
  rw [List.nil_append] at h
  rw [← h]
  exact sort_perm _ _

def removed (wiFiDetails : List WiFiDetail) : List WiFiDetail :=
  wiFiDetails.diff (setWiFiDetails chars locale wiFiDetails).getWiFiDetails

theorem append_diff_cancel {α : Type} [DecidableEq α] (l m : List α) : (l ++ m).diff l = m := by
  induction l with
  | nil => rfl
  | cons a l ih => rw [List.cons_append, List.diff_cons, List.erase_cons_head, ih]

theorem removed_perm (xs : List WiFiDetail) :
    (removed chars locale xs).Perm
      (skipped (SameStation chars) WiFiDetail.empty (guestSorted locale xs)) := by
  have hall := (keep_append_skipped_perm (SameStation chars) WiFiDetail.empty (guestSorted locale xs)).trans
    (sort_perm _ _)
  have h := hall.symm.diff (setWiFiDetails_perm chars locale xs)
  rwa [append_diff_cancel] at h

theorem mem_kept_iff (xs : List WiFiDetail) (d : WiFiDetail) :
    d ∈ (setWiFiDetails chars locale xs).getWiFiDetails ↔
      ∃ a, [a, d] <:+: WiFiDetail.empty :: guestSorted locale xs ∧ ¬ SameStation chars d a := by
  rw [(setWiFiDetails_perm chars locale xs).mem_iff, keep_eq_following _ fun _ => Iff.rfl, mem_following]

theorem mem_of_kept {wiFiDetails : List WiFiDetail} {w : WiFiDetail}
    (h : w ∈ (setWiFiDetails chars locale wiFiDetails).getWiFiDetails) : w ∈ wiFiDetails := by
  obtain ⟨a, haw, -⟩ := (mem_kept_iff chars locale wiFiDetails w).1 h
  have htail : w ∈ guestSorted locale wiFiDetails := haw.sublist.tail.subset List.mem_cons_self
  exact (mem_sort _).1 htail

theorem mem_removed_iff (xs : List WiFiDetail) (d : WiFiDetail) :
    d ∈ removed chars locale xs ↔
      ∃ a, [a, d] <:+: WiFiDetail.empty :: guestSorted locale xs ∧ SameStation chars d a := by
  rw [(removed_perm chars locale xs).mem_iff, skipped_eq_following _ fun _ => Iff.rfl, mem_following]

def RemovalKeepsTwin (xs : List WiFiDetail) : Prop :=
  ∀ d ∈ removed chars locale xs, ∃ w ∈ (setWiFiDetails chars locale xs).getWiFiDetails,
    SameStation chars d w ∧ CloseLevel d w

/-- Every entry whose predecessor in guest order is the same station is close in
level to an entry of that station whose own predecessor is another one. The
first predecessor is the empty detail that the loop starts from. -/
def FollowersClose (xs : List WiFiDetail) : Prop :=
  ∀ a d, [a, d] <:+: WiFiDetail.empty :: guestSorted locale xs → SameStation chars d a →
    ∃ b w, [b, w] <:+: WiFiDetail.empty :: guestSorted locale xs ∧ ¬ SameStation chars w b ∧
      SameStation chars d w ∧ CloseLevel d w

theorem removalKeepsTwin_iff (xs : List WiFiDetail) :
    RemovalKeepsTwin chars locale xs ↔ FollowersClose chars locale xs := by
  constructor
  · intro h a d had hsame
    obtain ⟨w, hw, htwin⟩ := h d ((mem_removed_iff chars locale xs d).2 ⟨a, had, hsame⟩)
    obtain ⟨b, hbw, hne⟩ := (mem_kept_iff chars locale xs w).1 hw
    exact ⟨b, w, hbw, hne, htwin⟩
  · intro h d hd
    obtain ⟨a, had, hsame⟩ := (mem_removed_iff chars locale xs d).1 hd
    obtain ⟨b, w, hbw, hne, htwin⟩ := h a d had hsame
    exact ⟨w, (mem_kept_iff chars locale xs w).2 ⟨b, hbw, hne⟩, htwin⟩

def station (bssid : String) (primaryFrequency level : Int32) : WiFiDetail where
  bssid := str bssid
  capabilities := []
  wiFiSignal := ⟨primaryFrequency, primaryFrequency, .MHZ_20, level, false⟩

theorem not_removalKeepsTwin : ¬ RemovalKeepsTwin .ascii .root
    [station "00:11:22:33:44:55" 2412 (-30), station "00:11:22:33:44:56" 2412 (-80)] := by
  intro h
  have hd : station "00:11:22:33:44:56" 2412 (-80) ∈ removed .ascii .root
      [station "00:11:22:33:44:55" 2412 (-30), station "00:11:22:33:44:56" 2412 (-80)] := by decide
  obtain ⟨w, hw, -, hclose⟩ := h _ hd
  revert w
  decide

def RemovalComplete (xs : List WiFiDetail) : Prop :=
  ∀ (i j : Nat) (a b : WiFiDetail), i ≠ j →
    (setWiFiDetails chars locale xs).getWiFiDetails[i]? = some a →
    (setWiFiDetails chars locale xs).getWiFiDetails[j]? = some b → ¬ isGuest chars a b

def StationsTogether (xs : List WiFiDetail) : Prop :=
  ∀ (i j k : Nat) (a b c : WiFiDetail), i < j → j < k → (guestSorted locale xs)[i]? = some a →
    (guestSorted locale xs)[j]? = some b → (guestSorted locale xs)[k]? = some c →
    SameStation chars a c → SameStation chars a b

theorem stationsTogether_iff (xs : List WiFiDetail) :
    StationsTogether chars locale xs ↔ Unbroken (SameStation chars) (guestSorted locale xs) := by
  rw [Unbroken, List.triplewise_iff_getElem]
  constructor
  · intro h i j k hij hjk hk
    exact h i j k _ _ _ hij hjk (List.getElem?_eq_getElem _) (List.getElem?_eq_getElem _)
      (List.getElem?_eq_getElem _)
  · intro h i j k a b c hij hjk ha hb hc
    obtain ⟨hk, rfl⟩ := List.getElem?_eq_some_iff.1 hc
    obtain ⟨_, rfl⟩ := List.getElem?_eq_some_iff.1 hb
    obtain ⟨_, rfl⟩ := List.getElem?_eq_some_iff.1 ha
    exact h i j k hij hjk hk

theorem removalComplete_iff_pairwise (xs : List WiFiDetail) :
    RemovalComplete chars locale xs ↔
      (setWiFiDetails chars locale xs).getWiFiDetails.Pairwise fun a b => ¬ SameStation chars a b := by
  rw [List.pairwise_iff_getElem]
  constructor
  · intro h i j hi hj hij hsame
    exact h i j _ _ hij.ne (List.getElem?_eq_getElem hi) (List.getElem?_eq_getElem hj)
      ((isGuest_iff chars _ _).2 hsame)
  · intro h i j a b hij ha hb hguest
    obtain ⟨hi, rfl⟩ := List.getElem?_eq_some_iff.1 ha
    obtain ⟨hj, rfl⟩ := List.getElem?_eq_some_iff.1 hb
    have hsame := (isGuest_iff chars _ _).1 hguest
    rcases Nat.lt_or_gt_of_ne hij with hlt | hgt
    · exact h i j hi hj hlt hsame
    · exact h j i hj hi hgt (Std.Symm.symm _ _ hsame)

/-- The single pass finds every guest exactly when guest order brings the
entries of each station together. -/
theorem removalComplete_iff (xs : List WiFiDetail) :
    RemovalComplete chars locale xs ↔ StationsTogether chars locale xs := by
  have hsymm : Std.Symm fun a b => ¬ SameStation chars a b := ⟨fun _ _ h h' => h (Std.Symm.symm _ _ h')⟩
  rw [removalComplete_iff_pairwise, stationsTogether_iff,
    (setWiFiDetails_perm chars locale xs).pairwise_iff fun {_ _} => hsymm.symm _ _,
    keep_unrelated_iff _ (not_sameStation_empty chars)]

theorem not_removalComplete : ¬ RemovalComplete .ascii .root
    [station "00:11:22:33:44:55" 2412 (-60), station "01:99:88:77:66:55" 2412 (-60),
      station "02:11:22:33:44:55" 2412 (-60)] := by
  intro h
  exact h 0 2 (station "00:11:22:33:44:55" 2412 (-60)) (station "02:11:22:33:44:55" 2412 (-60))
    (by decide) (by decide) (by decide) (by decide)

end SberWifi.Rating
