import SberWifi.Band
import Mathlib.Algebra.Order.Field.Basic
import Mathlib.Data.List.Chain
import Mathlib.Data.List.Pairwise

namespace SberWifi.ChannelTables

open Band

structure Run (range : Int32 × Int32) (pair : Pair) : Prop where
  first_channel : 1 ≤ pair.1.channel.toInt
  ordered : pair.1.channel.toInt ≤ pair.2.channel.toInt
  last_frequency : pair.2.frequency.toInt =
    pair.1.frequency.toInt + 5 * (pair.2.channel.toInt - pair.1.channel.toInt)
  range_first : range.1.toInt ≤ pair.1.frequency.toInt
  range_last : pair.2.frequency.toInt ≤ range.2.toInt

def Before (p q : Pair) : Prop :=
  p.2.frequency.toInt + 5 ≤ q.1.frequency.toInt ∧ p.2.channel.toInt < q.1.channel.toInt

structure Table (channels : WiFiChannels) : Prop where
  runs : ∀ pair ∈ channels.wiFiChannelPairs, Run channels.wiFiRange pair
  apart : channels.wiFiChannelPairs.IsChain Before

/-- The differences that the decoder takes are Ints, and the number after the
last channel is one. -/
structure Fits (range : Int32 × Int32) (pair : Pair) : Prop where
  below : -2147483648 ≤ range.1.toInt - pair.1.frequency.toInt
  above : range.2.toInt - pair.1.frequency.toInt ≤ 2147483647
  next_channel : pair.2.channel.toInt + 1 ≤ 2147483647

def Lists (pair : Pair) (channel : Int32) : Prop :=
  pair.1.channel.toInt ≤ channel.toInt ∧ channel.toInt ≤ pair.2.channel.toInt

def nominal (pair : Pair) (channel : Int32) : Int :=
  pair.1.frequency.toInt + 5 * (channel.toInt - pair.1.channel.toInt)

def Near (frequency : Int32) (pair : Pair) (channel : Int32) : Prop :=
  Lists pair channel ∧ |frequency.toInt - nominal pair channel| ≤ 2

structure Decodes (channels : WiFiChannels) : Prop where
  byFrequency : ∀ frequency channel,
    channels.getWiFiChannelByFrequency frequency = ⟨channel, frequency⟩ ∧
        channels.getWiFiChannelByFrequency frequency ≠ .unknown ↔
      channels.isInRange frequency ∧ ∃ pair ∈ channels.wiFiChannelPairs, Near frequency pair channel
  unknown : ∀ frequency, channels.getWiFiChannelByFrequency frequency = .unknown ↔
    ¬ ∃ channel, channels.isInRange frequency ∧
      ∃ pair ∈ channels.wiFiChannelPairs, Near frequency pair channel
  byChannel : ∀ channel, (∃ pair ∈ channels.wiFiChannelPairs, Lists pair channel) →
    channels.getWiFiChannelByFrequency (channels.getWiFiChannelByChannel channel).frequency =
      channels.getWiFiChannelByChannel channel
  increasing : (channels.wiFiChannels.map WiFiChannel.channel).Pairwise (· < ·)
  complete : ∀ channel, channel ∈ channels.wiFiChannels.map WiFiChannel.channel ↔
    ∃ pair ∈ channels.wiFiChannelPairs, Lists pair channel

/-- Adding one half and cutting off rounds to the nearest channel, and no
frequency is in the middle of two. -/
theorem toInt_eq_iff (d first : Int) {channel : Int} (hpos : 1 ≤ channel) (hlt : channel < 2147483647) :
    (toInt ((d : Rat) / 5 + first + 1 / 2)).toInt = channel ↔ |d - 5 * (channel - first)| ≤ 2 := by
  have hx : (d : Rat) / 5 + first + 1 / 2 = ((2 * d + 10 * first + 5 : Int) : Rat) / ((10 : Nat) : Rat) := by
    push_cast
    ring
  have hsign : 0 ≤ (d : Rat) / 5 + first + 1 / 2 ↔ 0 ≤ 2 * d + 10 * first + 5 := by
    rw [hx, le_div_iff₀ (by norm_num), zero_mul, Int.cast_nonneg_iff]
  have hclamp (z : Int) : (Int32.ofInt (max (-2147483648) (min 2147483647 z))).toInt =
      max (-2147483648) (min 2147483647 z) := by
    apply Int32.toInt_ofInt_of_le <;> omega
  rw [toInt, hclamp, abs_le]
  by_cases h : 0 ≤ 2 * d + 10 * first + 5
  · have hfloor : ((d : Rat) / 5 + first + 1 / 2).floor = (2 * d + 10 * first + 5) / 10 := by
      rw [hx]
      exact Rat.floor_intCast_div_natCast _ _
    rw [if_pos (hsign.2 h), hfloor]
    omega
  · have hceil : ((d : Rat) / 5 + first + 1 / 2).ceil ≤ 0 :=
      Rat.ceil_le_iff.2 (not_le.1 fun h' => h (hsign.1 h')).le
    rw [if_neg (fun h' => h (hsign.1 h'))]
    omega

section Pairs

variable {range : Int32 × Int32} {pair : Pair} {frequency channel : Int32}

theorem fits_difference (hfits : Fits range pair)
    (hfirst : range.1.toInt ≤ frequency.toInt) (hlast : frequency.toInt ≤ range.2.toInt) :
    (frequency - pair.1.frequency).toInt = frequency.toInt - pair.1.frequency.toInt := by
  have hbelow := hfits.below
  have habove := hfits.above
  rw [Int32.toInt_sub, Int.bmod_eq_of_le] <;> omega

/-- The number that the decoder computes for a pair is one of the pair exactly
when the frequency is near its nominal frequency. -/
theorem near_iff (hrun : Run range pair) (hfits : Fits range pair)
    (hfirst : range.1.toInt ≤ frequency.toInt) (hlast : frequency.toInt ≤ range.2.toInt) :
    Near frequency pair channel ↔ Lists pair channel ∧
      toInt (((frequency - pair.1.frequency).toInt : Rat) / frequencySpread.toInt +
        pair.1.channel.toInt + 1 / 2) = channel := by
  have hspread : ((frequencySpread.toInt : Int) : Rat) = 5 := by decide
  have hnext := hfits.next_channel
  have hpos := hrun.first_channel
  apply and_congr_right
  rintro ⟨hle, hge⟩
  have hround := toInt_eq_iff (frequency.toInt - pair.1.frequency.toInt) pair.1.channel.toInt
    (hpos.trans hle) (by omega)
  rw [fits_difference hfits hfirst hlast, hspread, ← Int32.toInt_inj, hround, nominal]
  ring_nf

theorem getWiFiChannel_of_near (hrun : Run range pair) (hfits : Fits range pair)
    (hfirst : range.1.toInt ≤ frequency.toInt) (hlast : frequency.toInt ≤ range.2.toInt)
    (hnear : Near frequency pair channel) : getWiFiChannel frequency pair = ⟨channel, frequency⟩ := by
  obtain ⟨⟨hle, hge⟩, hchannel⟩ := (near_iff hrun hfits hfirst hlast).1 hnear
  rw [getWiFiChannel]
  simp only [hchannel]
  rw [if_pos ⟨Int32.le_iff_toInt_le.2 hle, Int32.le_iff_toInt_le.2 hge⟩]

theorem near_of_getWiFiChannel (hrun : Run range pair) (hfits : Fits range pair)
    (hfirst : range.1.toInt ≤ frequency.toInt) (hlast : frequency.toInt ≤ range.2.toInt)
    (hknown : getWiFiChannel frequency pair ≠ .unknown) : ∃ channel, Near frequency pair channel := by
  rw [getWiFiChannel] at hknown
  split_ifs at hknown with hlisted
  · refine ⟨_, (near_iff hrun hfits hfirst hlast).2 ⟨?_, rfl⟩⟩
    exact ⟨Int32.le_iff_toInt_le.1 hlisted.1, Int32.le_iff_toInt_le.1 hlisted.2⟩
  · exact absurd rfl hknown

theorem known_of_lists (hrun : Run range pair) (hlists : Lists pair channel) :
    (⟨channel, frequency⟩ : WiFiChannel) ≠ .unknown := by
  intro h
  have hzero : channel = 0 := congrArg WiFiChannel.channel h
  have hpos := hrun.first_channel.trans hlists.1
  rw [hzero] at hpos
  exact absurd hpos (by decide)

end Pairs

/-- The decoder answers with the first pair that knows the frequency. -/
theorem getWiFiChannelByFrequency_cases (channels : WiFiChannels) (frequency : Int32) :
    (channels.getWiFiChannelByFrequency frequency = .unknown ∧ (channels.isInRange frequency →
        ∀ pair ∈ channels.wiFiChannelPairs, getWiFiChannel frequency pair = .unknown)) ∨
      (channels.isInRange frequency ∧ ∃ pair ∈ channels.wiFiChannelPairs,
        getWiFiChannel frequency pair ≠ .unknown ∧
          channels.getWiFiChannelByFrequency frequency = getWiFiChannel frequency pair) := by
  rw [WiFiChannels.getWiFiChannelByFrequency]
  by_cases hrange : channels.isInRange frequency
  · rw [if_pos hrange]
    cases hfind : channels.wiFiChannelPairs.find? fun pair =>
        WiFiChannel.unknown ≠ getWiFiChannel frequency pair with
    | none =>
        refine .inl ⟨rfl, fun _ pair hpair => ?_⟩
        have hunknown := List.find?_eq_none.1 hfind pair hpair
        rw [decide_eq_true_eq, ne_eq, not_not] at hunknown
        exact hunknown.symm
    | some found =>
        have hknown := List.find?_some hfind
        rw [decide_eq_true_eq] at hknown
        exact .inr ⟨hrange, found, List.mem_of_find?_eq_some hfind, hknown.symm, rfl⟩
  · rw [if_neg hrange]
    exact .inl ⟨rfl, fun h => absurd h hrange⟩

section Tables

variable {channels : WiFiChannels} (htable : Table channels)

include htable

theorem pairwise_before : channels.wiFiChannelPairs.Pairwise Before := by
  have htrans : Trans (fun p q => Run channels.wiFiRange q ∧ Before p q)
      (fun p q => Run channels.wiFiRange q ∧ Before p q) fun p q => Run channels.wiFiRange q ∧ Before p q :=
    ⟨fun {p q r} hpq hqr => by
      have hfrequency := hpq.1.last_frequency
      have hordered := hpq.1.ordered
      obtain ⟨_, hpq⟩ := hpq
      obtain ⟨hr, hqr⟩ := hqr
      refine ⟨hr, ?_, ?_⟩
      · have h := hpq.1.trans (show _ ≤ q.2.frequency.toInt by omega)
        exact h.trans ((Int.le_add_of_nonneg_right (by decide)).trans hqr.1)
      · exact hpq.2.trans (hordered.trans_lt hqr.2)⟩
  have hchain := htable.apart.imp_of_mem_imp fun p q _ hq hpq => And.intro (htable.runs q hq) hpq
  exact (List.isChain_iff_pairwise.1 hchain).imp And.right

theorem before_or_eq {p q : Pair} (hp : p ∈ channels.wiFiChannelPairs) (hq : q ∈ channels.wiFiChannelPairs) :
    p = q ∨ Before p q ∨ Before q p := by
  have hsymm : Std.Symm fun p q : Pair => p = q ∨ Before p q ∨ Before q p :=
    ⟨fun _ _ h => h.imp Eq.symm Or.symm⟩
  have hpairs : channels.wiFiChannelPairs.Pairwise fun p q => p = q ∨ Before p q ∨ Before q p :=
    (pairwise_before htable).imp fun h => .inr (.inl h)
  exact hpairs.forall_of_forall (R := fun p q => p = q ∨ Before p q ∨ Before q p)
    (fun _ _ => Or.inl rfl) hp hq

theorem lists_unique {p q : Pair} {channel : Int32} (hp : p ∈ channels.wiFiChannelPairs)
    (hq : q ∈ channels.wiFiChannelPairs) (hpc : Lists p channel) (hqc : Lists q channel) : p = q := by
  rcases before_or_eq htable hp hq with h | h | h
  · exact h
  · exact absurd (hpc.2.trans_lt h.2) (not_lt.2 hqc.1)
  · exact absurd (hqc.2.trans_lt h.2) (not_lt.2 hpc.1)

omit htable in
/-- Channels of two pairs are at least five MHz apart. -/
theorem nominal_before {p q : Pair} {c d : Int32} (hp : Run channels.wiFiRange p) (h : Before p q)
    (hpc : Lists p c) (hqd : Lists q d) : nominal p c + 5 ≤ nominal q d := by
  have hfrequency := hp.last_frequency
  obtain ⟨h, -⟩ := h
  obtain ⟨-, hc⟩ := hpc
  obtain ⟨hd, -⟩ := hqd
  rw [nominal, nominal]
  omega

theorem near_unique {p q : Pair} {frequency c d : Int32} (hp : p ∈ channels.wiFiChannelPairs)
    (hq : q ∈ channels.wiFiChannelPairs) (hpc : Near frequency p c) (hqd : Near frequency q d) : c = d := by
  obtain ⟨hc, hpc⟩ := hpc
  obtain ⟨hd, hqd⟩ := hqd
  rw [abs_le] at hpc hqd
  rcases before_or_eq htable hp hq with h | h | h
  · subst h
    rw [nominal] at hpc hqd
    apply Int32.toInt_inj.1
    omega
  · have hfar := nominal_before (htable.runs p hp) h hc hd
    omega
  · have hfar := nominal_before (htable.runs q hq) h hd hc
    omega

omit htable in
theorem isInRange_iff (frequency : Int32) : channels.isInRange frequency ↔
    channels.wiFiRange.1.toInt ≤ frequency.toInt ∧ frequency.toInt ≤ channels.wiFiRange.2.toInt := by
  rw [WiFiChannels.isInRange, Bool.and_eq_true, decide_eq_true_eq, decide_eq_true_eq,
    Int32.le_iff_toInt_le, Int32.le_iff_toInt_le]

variable (hfits : ∀ pair ∈ channels.wiFiChannelPairs, Fits channels.wiFiRange pair)

include hfits

theorem getWiFiChannelByFrequency_of_near {pair : Pair} {frequency channel : Int32}
    (hpair : pair ∈ channels.wiFiChannelPairs) (hrange : channels.isInRange frequency)
    (hnear : Near frequency pair channel) :
    channels.getWiFiChannelByFrequency frequency = ⟨channel, frequency⟩ := by
  obtain ⟨hfirst, hlast⟩ := (isInRange_iff frequency).1 hrange
  have hdecoded := getWiFiChannel_of_near (htable.runs pair hpair) (hfits pair hpair) hfirst hlast hnear
  rcases getWiFiChannelByFrequency_cases channels frequency with ⟨_, hnone⟩ | ⟨_, found, hfound, hknown, heq⟩
  · have hlisted := hnone hrange pair hpair
    rw [hdecoded] at hlisted
    exact absurd hlisted (known_of_lists (htable.runs pair hpair) hnear.1)
  · obtain ⟨d, hd⟩ := near_of_getWiFiChannel (htable.runs found hfound) (hfits found hfound) hfirst hlast hknown
    have hsame : d = channel := near_unique htable hfound hpair hd hnear
    rw [heq, ← hsame]
    exact getWiFiChannel_of_near (htable.runs found hfound) (hfits found hfound) hfirst hlast hd

theorem near_of_getWiFiChannelByFrequency {frequency : Int32}
    (hknown : channels.getWiFiChannelByFrequency frequency ≠ .unknown) :
    channels.isInRange frequency ∧
      ∃ pair ∈ channels.wiFiChannelPairs, ∃ channel, Near frequency pair channel := by
  rcases getWiFiChannelByFrequency_cases channels frequency with ⟨hnone, _⟩ | ⟨hrange, found, hfound, hfirst, _⟩
  · exact absurd hnone hknown
  · obtain ⟨hlow, hhigh⟩ := (isInRange_iff frequency).1 hrange
    exact ⟨hrange, found, hfound,
      near_of_getWiFiChannel (htable.runs found hfound) (hfits found hfound) hlow hhigh hfirst⟩

omit hfits in
theorem getWiFiChannelByChannel_of_lists {pair : Pair} {channel : Int32}
    (hpair : pair ∈ channels.wiFiChannelPairs) (hlists : Lists pair channel) :
    channels.getWiFiChannelByChannel channel =
      ⟨channel, pair.1.frequency + (channel - pair.1.channel) * frequencySpread⟩ := by
  have hpredicate (pair : Pair) : channelPredicate channel pair ↔ Lists pair channel := by
    rw [channelPredicate, Bool.and_eq_true, decide_eq_true_eq, decide_eq_true_eq, ge_iff_le,
      Int32.le_iff_toInt_le, Int32.le_iff_toInt_le]
    rfl
  rw [WiFiChannels.getWiFiChannelByChannel]
  cases hfind : channels.wiFiChannelPairs.find? (channelPredicate channel) with
  | none => exact absurd ((hpredicate pair).2 hlists) (List.find?_eq_none.1 hfind pair hpair)
  | some found =>
      have hsame : found = pair := lists_unique htable (List.mem_of_find?_eq_some hfind) hpair
        ((hpredicate found).1 (List.find?_some hfind)) hlists
      rw [hsame]

omit htable hfits in
theorem frequency_toInt {range : Int32 × Int32} {pair : Pair} {channel : Int32} (hrun : Run range pair)
    (hlists : Lists pair channel) :
    (pair.1.frequency + (channel - pair.1.channel) * frequencySpread).toInt = nominal pair channel := by
  have hlast := hrun.last_frequency
  have hfirst := hrun.first_channel
  have hle := pair.2.frequency.toInt_le
  have hle' := pair.2.channel.toInt_le
  have hge := pair.1.frequency.le_toInt
  rw [show Int32.maxValue.toInt = 2147483647 by decide] at hle hle'
  obtain ⟨hlow, hhigh⟩ := hlists
  have hsub : (channel - pair.1.channel).toInt = channel.toInt - pair.1.channel.toInt := by
    rw [Int32.toInt_sub, Int.bmod_eq_of_le] <;> omega
  rw [Int32.toInt_add, Int32.toInt_mul, hsub, show frequencySpread.toInt = 5 by decide,
    Int.add_bmod_bmod, nominal, mul_comm, Int.bmod_eq_of_le] <;> omega

theorem decode_encode {pair : Pair} {channel : Int32} (hpair : pair ∈ channels.wiFiChannelPairs)
    (hlists : Lists pair channel) :
    channels.getWiFiChannelByFrequency (channels.getWiFiChannelByChannel channel).frequency =
      channels.getWiFiChannelByChannel channel := by
  have hrun := htable.runs pair hpair
  have hlast := hrun.last_frequency
  have hfirst := hrun.range_first
  have hend := hrun.range_last
  have hnominal := frequency_toInt hrun hlists
  obtain ⟨hlow, hhigh⟩ := hlists
  rw [getWiFiChannelByChannel_of_lists htable hpair ⟨hlow, hhigh⟩]
  apply getWiFiChannelByFrequency_of_near htable hfits hpair
  · rw [isInRange_iff, hnominal, nominal]
    omega
  · refine ⟨⟨hlow, hhigh⟩, ?_⟩
    rw [hnominal, sub_self]
    decide

end Tables

section Listing

theorem mem_intRange {first last channel : Int32} :
    channel ∈ intRange first last ↔ first.toInt ≤ channel.toInt ∧ channel.toInt ≤ last.toInt := by
  have hlast := last.toInt_le
  have hfirst := first.le_toInt
  rw [show Int32.maxValue.toInt = 2147483647 by decide] at hlast
  simp only [intRange, List.mem_map, List.mem_range]
  constructor
  · rintro ⟨i, hi, rfl⟩
    rw [Int32.toInt_ofInt_of_le (by omega) (by omega)]
    omega
  · rintro ⟨hlow, hhigh⟩
    refine ⟨(channel.toInt - first.toInt).toNat, by omega, ?_⟩
    rw [← Int32.toInt_inj, Int32.toInt_ofInt_of_le] <;> omega

theorem intRange_pairwise (first last : Int32) : (intRange first last).Pairwise (· < ·) := by
  have hlast := last.toInt_le
  have hfirst := first.le_toInt
  rw [show Int32.maxValue.toInt = 2147483647 by decide] at hlast
  rw [intRange, List.pairwise_map]
  apply List.pairwise_lt_range.imp_of_mem
  intro i j hi hj hij
  rw [List.mem_range] at hi hj
  rw [Int32.lt_iff_toInt_lt, Int32.toInt_ofInt_of_le (by omega) (by omega),
    Int32.toInt_ofInt_of_le (by omega) (by omega)]
  omega

variable {channels : WiFiChannels} (htable : Table channels)

include htable

theorem wiFiChannels_channels : channels.wiFiChannels.map WiFiChannel.channel =
    channels.wiFiChannelPairs.flatMap fun pair => intRange pair.1.channel pair.2.channel := by
  rw [WiFiChannels.wiFiChannels, List.map_flatMap]
  apply List.flatMap_congr
  intro pair hpair
  rw [List.map_map]
  apply (List.map_congr_left _).trans (List.map_id _)
  intro channel hchannel
  rw [Function.comp_apply, getWiFiChannelByChannel_of_lists htable hpair (mem_intRange.1 hchannel)]
  rfl

theorem wiFiChannels_increasing : (channels.wiFiChannels.map WiFiChannel.channel).Pairwise (· < ·) := by
  rw [wiFiChannels_channels htable, List.pairwise_flatMap]
  refine ⟨fun pair _ => intRange_pairwise _ _, (pairwise_before htable).imp ?_⟩
  intro p q h c hc d hd
  have hlow := (mem_intRange.1 hc).2
  have hhigh := (mem_intRange.1 hd).1
  exact Int32.lt_iff_toInt_lt.2 (hlow.trans_lt (h.2.trans_le hhigh))

theorem mem_wiFiChannels (channel : Int32) : channel ∈ channels.wiFiChannels.map WiFiChannel.channel ↔
    ∃ pair ∈ channels.wiFiChannelPairs, Lists pair channel := by
  rw [wiFiChannels_channels htable, List.mem_flatMap]
  simp only [mem_intRange]
  rfl

end Listing

theorem decodes (channels : WiFiChannels) (htable : Table channels)
    (hfits : ∀ pair ∈ channels.wiFiChannelPairs, Fits channels.wiFiRange pair) : Decodes channels where
  byFrequency frequency channel := by
    constructor
    · rintro ⟨heq, hknown⟩
      obtain ⟨hrange, pair, hpair, c, hnear⟩ := near_of_getWiFiChannelByFrequency htable hfits hknown
      have hc := getWiFiChannelByFrequency_of_near htable hfits hpair hrange hnear
      have hsame : channel = c := congrArg WiFiChannel.channel (heq.symm.trans hc)
      exact ⟨hrange, pair, hpair, hsame ▸ hnear⟩
    · rintro ⟨hrange, pair, hpair, hnear⟩
      have heq := getWiFiChannelByFrequency_of_near htable hfits hpair hrange hnear
      refine ⟨heq, ?_⟩
      rw [heq]
      exact known_of_lists (htable.runs pair hpair) hnear.1
  unknown frequency := by
    constructor
    · rintro hunknown ⟨channel, hrange, pair, hpair, hnear⟩
      rw [getWiFiChannelByFrequency_of_near htable hfits hpair hrange hnear] at hunknown
      exact known_of_lists (htable.runs pair hpair) hnear.1 hunknown
    · intro hnone
      by_contra hknown
      obtain ⟨hrange, pair, hpair, c, hnear⟩ := near_of_getWiFiChannelByFrequency htable hfits hknown
      exact hnone ⟨c, hrange, pair, hpair, hnear⟩
  byChannel channel := by
    rintro ⟨pair, hpair, hlists⟩
    exact decode_encode htable hfits hpair hlists
  increasing := wiFiChannels_increasing htable
  complete := mem_wiFiChannels htable

instance (range : Int32 × Int32) (pair : Pair) : Decidable (Run range pair) :=
  decidable_of_iff (1 ≤ pair.1.channel.toInt ∧ pair.1.channel.toInt ≤ pair.2.channel.toInt ∧
    pair.2.frequency.toInt = pair.1.frequency.toInt + 5 * (pair.2.channel.toInt - pair.1.channel.toInt) ∧
    range.1.toInt ≤ pair.1.frequency.toInt ∧ pair.2.frequency.toInt ≤ range.2.toInt)
    ⟨fun h => ⟨h.1, h.2.1, h.2.2.1, h.2.2.2.1, h.2.2.2.2⟩, fun h => ⟨h.1, h.2, h.3, h.4, h.5⟩⟩

instance (range : Int32 × Int32) (pair : Pair) : Decidable (Fits range pair) :=
  decidable_of_iff (-2147483648 ≤ range.1.toInt - pair.1.frequency.toInt ∧
    range.2.toInt - pair.1.frequency.toInt ≤ 2147483647 ∧ pair.2.channel.toInt + 1 ≤ 2147483647)
    ⟨fun h => ⟨h.1, h.2.1, h.2.2⟩, fun h => ⟨h.1, h.2, h.3⟩⟩

instance : DecidableRel Before := fun _ _ => inferInstanceAs (Decidable (_ ∧ _))

theorem wiFiBand_table (band : WiFiBand) : Table band.wiFiChannels := by
  cases band with
  | GHZ2 => exact ⟨by decide, by decide⟩
  | GHZ5 => exact ⟨by decide, by decide⟩

theorem wiFiBand_fits (band : WiFiBand) :
    ∀ pair ∈ band.wiFiChannels.wiFiChannelPairs, Fits band.wiFiChannels.wiFiRange pair := by
  cases band with
  | GHZ2 => decide
  | GHZ5 => decide

theorem decodes_shipped : Decodes wiFiChannelsGHZ2 ∧ Decodes wiFiChannelsGHZ5 :=
  ⟨decodes _ (wiFiBand_table .GHZ2) (wiFiBand_fits .GHZ2),
    decodes _ (wiFiBand_table .GHZ5) (wiFiBand_fits .GHZ5)⟩

/-- A channel at one end of Int and a frequency at the other end. -/
theorem not_all_decode : ¬ ∀ channels : WiFiChannels, Table channels → Decodes channels := by
  intro h
  have hdecodes := h ⟨(-2147483648, 2147483647), [(⟨1, 2147483647⟩, ⟨1, 2147483647⟩)]⟩
    ⟨by decide, by decide⟩
  obtain ⟨-, pair, hpair, hnear⟩ := (hdecodes.byFrequency (-2147483648) 1).1
    ⟨by decide +kernel, by decide +kernel⟩
  rw [List.mem_singleton] at hpair
  rw [hpair] at hnear
  exact absurd hnear.2 (by decide)

end SberWifi.ChannelTables
