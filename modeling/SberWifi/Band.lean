import Mathlib.Data.List.Basic
import Mathlib.Data.Rat.Floor

namespace SberWifi.Band

structure WiFiChannel where
  channel : Int32
  frequency : Int32
deriving DecidableEq, Repr

def WiFiChannel.unknown : WiFiChannel := ⟨0, 0⟩

def frequencySpread : Int32 := 5

/-- `Double.toInt`: towards zero, and saturating at the ends of Int. -/
def toInt (x : Rat) : Int32 :=
  Int32.ofInt (max (-2147483648) (min 2147483647 (if 0 ≤ x then x.floor else x.ceil)))

abbrev Pair := WiFiChannel × WiFiChannel

/-- A band's frequency range and its runs of channels, each given by its first
and its last channel. -/
structure WiFiChannels where
  wiFiRange : Int32 × Int32
  wiFiChannelPairs : List Pair
deriving Repr

def WiFiChannels.isInRange (channels : WiFiChannels) (frequency : Int32) : Bool :=
  channels.wiFiRange.1 ≤ frequency && frequency ≤ channels.wiFiRange.2

/-- The Double expression is evaluated exactly. -/
def getWiFiChannel (frequency : Int32) (pair : Pair) : WiFiChannel :=
  let first := pair.1
  let last := pair.2
  let channel := toInt (((frequency - first.frequency).toInt : Rat) / frequencySpread.toInt +
    first.channel.toInt + 1 / 2)
  if channel ≥ first.channel ∧ channel ≤ last.channel then ⟨channel, frequency⟩ else .unknown

def WiFiChannels.getWiFiChannelByFrequency (channels : WiFiChannels) (frequency : Int32) : WiFiChannel :=
  let found :=
    if channels.isInRange frequency then
      channels.wiFiChannelPairs.find? fun pair => WiFiChannel.unknown ≠ getWiFiChannel frequency pair
    else none
  match found with
  | none => .unknown
  | some pair => getWiFiChannel frequency pair

def channelPredicate (channel : Int32) (pair : Pair) : Bool :=
  channel ≥ pair.1.channel && channel ≤ pair.2.channel

def WiFiChannels.getWiFiChannelByChannel (channels : WiFiChannels) (channel : Int32) : WiFiChannel :=
  match channels.wiFiChannelPairs.find? (channelPredicate channel) with
  | none => .unknown
  | some found => ⟨channel, found.1.frequency + (channel - found.1.channel) * frequencySpread⟩

def intRange (first last : Int32) : List Int32 :=
  (List.range (last.toInt - first.toInt + 1).toNat).map fun (i : Nat) => Int32.ofInt (first.toInt + i)

def WiFiChannels.wiFiChannels (channels : WiFiChannels) : List WiFiChannel :=
  channels.wiFiChannelPairs.flatMap fun pair =>
    (intRange pair.1.channel pair.2.channel).map channels.getWiFiChannelByChannel

def wiFiChannelsGHZ2 : WiFiChannels where
  wiFiRange := (2400, 2499)
  wiFiChannelPairs := [(⟨1, 2412⟩, ⟨13, 2472⟩), (⟨14, 2484⟩, ⟨14, 2484⟩)]

def wiFiChannelsGHZ5 : WiFiChannels where
  wiFiRange := (4900, 5899)
  wiFiChannelPairs := [(⟨36, 5180⟩, ⟨64, 5320⟩), (⟨100, 5500⟩, ⟨144, 5720⟩), (⟨149, 5745⟩, ⟨165, 5825⟩)]

inductive WiFiBand
  | GHZ2
  | GHZ5
deriving DecidableEq, Repr

def WiFiBand.values : List WiFiBand := [.GHZ2, .GHZ5]

def WiFiBand.wiFiChannels : WiFiBand → WiFiChannels
  | .GHZ2 => wiFiChannelsGHZ2
  | .GHZ5 => wiFiChannelsGHZ5

/-- `EnumUtils.find` by a predicate, over the values in the order in which their
set is walked. -/
def enumFind {T : Type} (values : List T) (predicate : T → Bool) (defaultValue : T) : T :=
  (values.filter predicate).headD defaultValue

def enumFindOrdinal {T : Type} (enumConstants : List T) (index : Int32) (defaultValue : T) : T :=
  if index < 0 ∨ index ≥ Int32.ofNat enumConstants.length then defaultValue
  else enumConstants.getD index.toInt.toNat defaultValue

def frequencyPredicate (frequency : Int32) (band : WiFiBand) : Bool :=
  band.wiFiChannels.isInRange frequency

def bandOf (values : List WiFiBand) (frequency : Int32) : WiFiBand :=
  enumFind values (frequencyPredicate frequency) .GHZ2

inductive WiFiWidth
  | MHZ_20
  | MHZ_40
  | MHZ_80
  | MHZ_160
  | MHZ_80_PLUS
deriving DecidableEq, Repr

def WiFiWidth.values : List WiFiWidth := [.MHZ_20, .MHZ_40, .MHZ_80, .MHZ_160, .MHZ_80_PLUS]

def WiFiWidth.frequencyWidth : WiFiWidth → Int32
  | .MHZ_20 => 20
  | .MHZ_40 => 40
  | .MHZ_80 => 80
  | .MHZ_160 => 160
  | .MHZ_80_PLUS => 80

def WiFiWidth.frequencyWidthHalf (width : WiFiWidth) : Int32 := width.frequencyWidth / 2

theorem bands_disjoint {frequency : Int32} (h2 : frequencyPredicate frequency .GHZ2)
    (h5 : frequencyPredicate frequency .GHZ5) : False := by
  simp only [frequencyPredicate, WiFiBand.wiFiChannels, wiFiChannelsGHZ2, wiFiChannelsGHZ5,
    WiFiChannels.isInRange, Bool.and_eq_true, decide_eq_true_eq, Int32.le_iff_toInt_le] at h2 h5
  have h := h2.2.trans_lt (show (2499 : Int32).toInt < (4900 : Int32).toInt by decide)
  omega

/-- The bands do not overlap, so the walking order of the set does not matter. -/
theorem bandOf_perm {values : List WiFiBand} (h : values.Perm WiFiBand.values) (frequency : Int32) :
    bandOf values frequency = bandOf WiFiBand.values frequency := by
  have hf := h.filter (frequencyPredicate frequency)
  have hshort : (WiFiBand.values.filter (frequencyPredicate frequency)).length ≤ 1 := by
    by_cases h2 : frequencyPredicate frequency .GHZ2
    · have h5 : ¬ frequencyPredicate frequency .GHZ5 := fun h5 => bands_disjoint h2 h5
      simp [WiFiBand.values, h2, h5]
    · by_cases h5 : frequencyPredicate frequency .GHZ5 <;> simp [WiFiBand.values, h2, h5]
  unfold bandOf enumFind
  rcases hl : WiFiBand.values.filter (frequencyPredicate frequency) with _ | ⟨b, _ | ⟨c, l⟩⟩
  · rw [hl] at hf
    rw [hf.eq_nil]
  · rw [hl] at hf
    rw [List.perm_singleton.1 hf]
  · simp [hl] at hshort

end SberWifi.Band
