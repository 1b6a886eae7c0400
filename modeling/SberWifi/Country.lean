import SberWifi.ChannelTables
import SberWifi.JavaString
import Mathlib.Data.List.Sort

namespace SberWifi.Country

open JavaString Band ChannelTables

/-- `Character.toTitleCase` on code points. Only its ASCII part is fixed here. -/
structure TitleTable where
  toTitleCase : UInt32 → UInt32
  toTitleCase_ascii : ∀ c : UInt16, c < 128 → toTitleCase c.toUInt32 = (asciiUpper c).toUInt32

def TitleTable.ascii : TitleTable where
  toTitleCase c := (asciiUpper c.toUInt16).toUInt32
  toTitleCase_ascii c _ := by rw [UInt16.toUInt16_toUInt32]

/-- `codePointAt(0)` and the code units after it. -/
def firstCodePoint (c : UInt16) (s : JString) : UInt32 × JString :=
  match s with
  | [] => (c.toUInt32, [])
  | d :: s =>
      if 0xD800 ≤ c ∧ c ≤ 0xDBFF ∧ 0xDC00 ≤ d ∧ d ≤ 0xDFFF then
        ((c.toUInt32 - 0xD800) * 0x400 + (d.toUInt32 - 0xDC00) + 0x10000, s)
      else (c.toUInt32, d :: s)

def codeUnits (codePoint : UInt32) : JString :=
  if codePoint < 0x10000 then [codePoint.toUInt16]
  else [((codePoint - 0x10000) / 0x400 + 0xD800).toUInt16, ((codePoint - 0x10000) % 0x400 + 0xDC00).toUInt16]

/-- `StringUtils.capitalize`, which changes the first character only. -/
def capitalize (titles : TitleTable) : JString → JString
  | [] => []
  | c :: s =>
      let (firstCodepoint, rest) := firstCodePoint c s
      let newCodePoint := titles.toTitleCase firstCodepoint
      if firstCodepoint = newCodePoint then c :: s else codeUnits newCodePoint ++ rest

structure Locale where
  country : JString
deriving DecidableEq, Repr

/-- What the process finds on its device when the locale lists are made. -/
structure Platform where
  default : Locale
  isoCountries : List JString
  availableLocales : List Locale

def Platform.AVAILABLE_LOCALES (platform : Platform) : List Locale :=
  platform.availableLocales.filter fun locale => locale.country ∈ platform.isoCountries

def treeSet (l : List Int32) : List Int32 :=
  l.foldl (fun set c => if c ∈ set then set else set.orderedInsert (· ≤ ·) c) []

def removeAll (set exclude : List Int32) : List Int32 := set.filter fun c => c ∉ exclude

section Tables

def countries : List JString :=
  [str "AS", str "CA", str "CO", str "DO", str "FM", str "GT", str "GU", str "MP", str "MX", str "PA",
    str "PR", str "UM", str "US", str "UZ", str "VI"]

def channels : List Int32 := treeSet [1, 2, 3, 4, 5, 6, 7, 8, 9, 10, 11]

def world : List Int32 := treeSet (channels ++ [12, 13])

def channelsSet1 : List Int32 := treeSet [36, 40, 44, 48, 52, 56, 60, 64]

def channelsSet2 : List Int32 := treeSet [100, 104, 108, 112, 116, 120, 124, 128, 132, 136, 140, 144]

def channelsSet3 : List Int32 := treeSet [149, 153, 157, 161, 165]

def channelsToExcludeCanada : List Int32 := treeSet [120, 124, 128]

def channelsToExcludeIsrael : List Int32 := treeSet (channelsSet2 ++ channelsSet3)

def channelsToExclude : List (JString × List Int32) :=
  [(str "AU", channelsToExcludeCanada), (str "CA", channelsToExcludeCanada), (str "CN", channelsSet2),
    (str "IL", channelsToExcludeIsrael), (str "JP", channelsSet3), (str "KR", channelsSet2),
    (str "TR", channelsSet3), (str "ZA", channelsSet3)]

def channelsGHZ5 : List Int32 := treeSet (channelsSet1 ++ channelsSet2 ++ channelsSet3)

end Tables

variable (titles : TitleTable) (platform : Platform)

def findChannelsGHZ2 (countryCode : JString) : List Int32 :=
  let code := capitalize titles countryCode
  if code ∈ countries then channels else world

def findChannelsGHZ5 (countryCode : JString) : List Int32 :=
  match channelsToExclude.lookup (capitalize titles countryCode) with
  | none => channelsGHZ5
  | some exclude => removeAll channelsGHZ5 exclude

def countryCodePredicate (countryCode : JString) (locale : Locale) : Bool :=
  capitalize titles countryCode = locale.country

def findByCountryCode (countryCode : JString) : Locale :=
  match platform.AVAILABLE_LOCALES.find? (countryCodePredicate titles countryCode) with
  | none => platform.default
  | some locale => locale

/-- `WiFiChannelCountry[countryCode]` with its channels of a band. -/
def countryChannels (band : WiFiBand) (countryCode : JString) : List Int32 :=
  let country := findByCountryCode titles platform countryCode
  match band with
  | .GHZ2 => findChannelsGHZ2 titles country.country
  | .GHZ5 => findChannelsGHZ5 titles country.country

def getAvailableChannels (band : WiFiBand) (countryCode : JString) : List WiFiChannel :=
  (countryChannels titles platform band countryCode).map band.wiFiChannels.getWiFiChannelByChannel

def isChannelAvailable (band : WiFiBand) (countryCode : JString) (channel : Int32) : Bool :=
  channel ∈ countryChannels titles platform band countryCode

def regulatory (band : WiFiBand) (code : JString) : List WiFiChannel :=
  match band with
  | .GHZ2 => (if code ∈ countries then intRange 1 11 else intRange 1 13).map fun c => ⟨c, 2407 + 5 * c⟩
  | .GHZ5 =>
      ([36, 40, 44, 48, 52, 56, 60, 64, 100, 104, 108, 112, 116, 120, 124, 128, 132, 136, 140, 144, 149,
        153, 157, 161, 165].filter fun c => c ∉ (channelsToExclude.lookup code).getD []).map fun c =>
          ⟨c, 5000 + 5 * c⟩

def Follows (band : WiFiBand) (countryCode code : JString) : Prop :=
  getAvailableChannels titles platform band countryCode = regulatory band code ∧
    ∀ channel, isChannelAvailable titles platform band countryCode channel ↔
      ∃ c ∈ regulatory band code, c.channel = channel

theorem findChannelsGHZ2_eq (countryCode : JString) :
    (findChannelsGHZ2 titles countryCode).map WiFiBand.GHZ2.wiFiChannels.getWiFiChannelByChannel =
      regulatory .GHZ2 (capitalize titles countryCode) := by
  rw [findChannelsGHZ2, regulatory]
  by_cases h : capitalize titles countryCode ∈ countries
  · simp only [h, if_true]
    decide
  · simp only [h, if_false]
    decide

theorem channelsGHZ5_eq : channelsGHZ5 = [36, 40, 44, 48, 52, 56, 60, 64, 100, 104, 108, 112, 116, 120,
    124, 128, 132, 136, 140, 144, 149, 153, 157, 161, 165] := by decide

theorem getWiFiChannelByChannel_GHZ5 : ∀ c ∈ channelsGHZ5,
    WiFiBand.GHZ5.wiFiChannels.getWiFiChannelByChannel c = ⟨c, 5000 + 5 * c⟩ :=
  forall_mem_of_all (by decide)

theorem findChannelsGHZ5_filter (countryCode : JString) : findChannelsGHZ5 titles countryCode =
    channelsGHZ5.filter fun c =>
      c ∉ (channelsToExclude.lookup (capitalize titles countryCode)).getD [] := by
  rw [findChannelsGHZ5]
  cases channelsToExclude.lookup (capitalize titles countryCode) with
  | none => simp
  | some exclude => rfl

theorem findChannelsGHZ5_eq (countryCode : JString) :
    (findChannelsGHZ5 titles countryCode).map WiFiBand.GHZ5.wiFiChannels.getWiFiChannelByChannel =
      regulatory .GHZ5 (capitalize titles countryCode) := by
  rw [findChannelsGHZ5_filter, regulatory, ← channelsGHZ5_eq]
  apply List.map_congr_left
  intro c hc
  exact getWiFiChannelByChannel_GHZ5 c (List.mem_of_mem_filter hc)

/-- Each band's channels are those that its rules give the country that was found. -/
theorem getAvailableChannels_eq (band : WiFiBand) (countryCode : JString) :
    getAvailableChannels titles platform band countryCode =
      regulatory band (capitalize titles (findByCountryCode titles platform countryCode).country) := by
  cases band with
  | GHZ2 => exact findChannelsGHZ2_eq titles _
  | GHZ5 => exact findChannelsGHZ5_eq titles _

theorem countryChannels_lists (band : WiFiBand) (countryCode : JString) :
    ∀ c ∈ countryChannels titles platform band countryCode,
      (band.wiFiChannels.getWiFiChannelByChannel c).channel = c := by
  intro c hc
  cases band with
  | GHZ2 =>
      have hworld : ∀ c ∈ channels ++ world, (WiFiBand.GHZ2.wiFiChannels.getWiFiChannelByChannel c).channel = c :=
        forall_mem_of_all (by decide)
      apply hworld
      rw [countryChannels, findChannelsGHZ2] at hc
      split_ifs at hc with h
      · exact List.mem_append_left _ hc
      · exact List.mem_append_right _ hc
  | GHZ5 =>
      rw [countryChannels, findChannelsGHZ5_filter] at hc
      rw [getWiFiChannelByChannel_GHZ5 c (List.mem_of_mem_filter hc)]

theorem isChannelAvailable_iff (band : WiFiBand) (countryCode : JString) (channel : Int32) :
    isChannelAvailable titles platform band countryCode channel ↔
      ∃ c ∈ getAvailableChannels titles platform band countryCode, c.channel = channel := by
  have hlists := countryChannels_lists titles platform band countryCode
  rw [isChannelAvailable, decide_eq_true_eq, getAvailableChannels]
  constructor
  · intro h
    exact ⟨_, List.mem_map_of_mem h, hlists channel h⟩
  · rintro ⟨c, hc, rfl⟩
    obtain ⟨d, hd, rfl⟩ := List.mem_map.1 hc
    rw [hlists d hd]
    exact hd

theorem follows_iff (band : WiFiBand) (countryCode code : JString) :
    Follows titles platform band countryCode code ↔
      getAvailableChannels titles platform band countryCode = regulatory band code := by
  constructor
  · exact fun h => h.1
  · intro h
    exact ⟨h, fun channel => h ▸ isChannelAvailable_iff titles platform band countryCode channel⟩

theorem capitalize_ascii {c : UInt16} (hc : c < 128) (s : JString) :
    capitalize titles (c :: s) = asciiUpper c :: s := by
  have hfirst : firstCodePoint c s = (c.toUInt32, s) := by
    cases s with
    | nil => rfl
    | cons d s =>
        have hsurrogate : ¬ 0xD800 ≤ c := UInt16.not_le.2 (UInt16.lt_trans hc (by decide))
        rw [firstCodePoint, if_neg fun h => hsurrogate h.1]
  have hbasic : (asciiUpper c).toUInt32 < 0x10000 := by
    rw [UInt32.lt_iff_toNat_lt, UInt16.toNat_toUInt32]
    exact (asciiUpper c).toNat_lt
  simp only [capitalize, hfirst, titles.toTitleCase_ascii c hc, UInt16.toUInt32_inj]
  by_cases h : c = asciiUpper c
  · rw [if_pos h, ← h]
  · rw [if_neg h, codeUnits, if_pos hbasic, UInt16.toUInt16_toUInt32]
    rfl

theorem findByCountryCode_of_mem {countryCode : JString}
    (h : capitalize titles countryCode ∈ platform.AVAILABLE_LOCALES.map Locale.country) :
    (findByCountryCode titles platform countryCode).country = capitalize titles countryCode := by
  obtain ⟨locale, hlocale, hcountry⟩ := List.mem_map.1 h
  rw [findByCountryCode]
  cases hfind : platform.AVAILABLE_LOCALES.find? (countryCodePredicate titles countryCode) with
  | none =>
      have hnone := List.find?_eq_none.1 hfind locale hlocale
      rw [countryCodePredicate, decide_eq_true_eq] at hnone
      exact absurd hcountry.symm hnone
  | some found =>
      have hfound := List.find?_some hfind
      rw [countryCodePredicate, decide_eq_true_eq] at hfound
      exact hfound.symm

theorem findByCountryCode_of_not_mem {countryCode : JString}
    (h : capitalize titles countryCode ∉ platform.AVAILABLE_LOCALES.map Locale.country) :
    findByCountryCode titles platform countryCode = platform.default := by
  have hnone : platform.AVAILABLE_LOCALES.find? (countryCodePredicate titles countryCode) = none := by
    rw [List.find?_eq_none]
    intro locale hlocale hcountry
    exact h (List.mem_map.2 ⟨locale, hlocale, (of_decide_eq_true hcountry).symm⟩)
  rw [findByCountryCode, hnone]

def IsUpper (c : UInt16) : Prop := 65 ≤ c ∧ c ≤ 90

def IsLower (c : UInt16) : Prop := 97 ≤ c ∧ c ≤ 122

instance : DecidablePred IsUpper := fun _ => inferInstanceAs (Decidable (_ ∧ _))

instance : DecidablePred IsLower := fun _ => inferInstanceAs (Decidable (_ ∧ _))

theorem ascii_of_letter {c : UInt16} (h : IsUpper c ∨ IsLower c) : c < 128 := by
  rcases h with h | h
  · exact UInt16.lt_of_le_of_lt h.2 (by decide)
  · exact UInt16.lt_of_le_of_lt h.2 (by decide)

theorem asciiUpper_of_upper {c : UInt16} (h : IsUpper c) : asciiUpper c = c := by
  have hlower : ¬ 97 ≤ c := UInt16.not_le.2 (UInt16.lt_of_le_of_lt h.2 (by decide))
  rw [asciiUpper, if_neg fun h' => hlower h'.1]

theorem asciiUpper_letter {c : UInt16} (h : IsUpper c ∨ IsLower c) : IsUpper (asciiUpper c) := by
  rcases h with h | ⟨hlow, hhigh⟩
  · rw [asciiUpper_of_upper h]
    exact h
  · have hle : (32 : UInt16) ≤ c := UInt16.le_trans (by decide) hlow
    rw [UInt16.le_iff_toNat_le] at hlow hhigh
    rw [asciiUpper, if_pos ⟨UInt16.le_iff_toNat_le.2 hlow, UInt16.le_iff_toNat_le.2 hhigh⟩, IsUpper,
      UInt16.le_iff_toNat_le, UInt16.le_iff_toNat_le, UInt16.toNat_sub_of_le _ _ hle]
    simp only [UInt16.reduceToNat] at hlow hhigh ⊢
    omega

theorem follows_requested (band : WiFiBand) (c d : UInt16) (hc : IsUpper c ∨ IsLower c) (hd : IsUpper d) :
    let countryCode := [c, d]
    let code := countryCode.map asciiUpper
    (code ∈ platform.AVAILABLE_LOCALES.map Locale.country →
        Follows titles platform band countryCode code) ∧
      (code ∉ platform.AVAILABLE_LOCALES.map Locale.country →
        Follows titles platform band countryCode (capitalize titles platform.default.country)) := by
  have hcode : capitalize titles [c, d] = [c, d].map asciiUpper := by
    rw [capitalize_ascii titles (ascii_of_letter hc), List.map_cons, List.map_singleton,
      asciiUpper_of_upper hd]
  have hupper := asciiUpper_letter hc
  have htwice : capitalize titles (capitalize titles [c, d]) = capitalize titles [c, d] := by
    rw [capitalize_ascii titles (ascii_of_letter hc), capitalize_ascii titles (ascii_of_letter (.inl hupper)),
      asciiUpper_of_upper hupper]
  constructor
  · intro h
    rw [follows_iff, getAvailableChannels_eq, findByCountryCode_of_mem titles platform (hcode ▸ h), htwice, hcode]
  · intro h
    rw [follows_iff, getAvailableChannels_eq, findByCountryCode_of_not_mem titles platform (hcode ▸ h)]

def device (availableLocales : List Locale) : Platform := ⟨⟨str "RU"⟩, [str "RU", str "US"], availableLocales⟩

theorem follows_requested_us : Follows .ascii (device [⟨str "RU"⟩, ⟨str "US"⟩]) .GHZ2 (str "uS") (str "US") :=
  (follows_requested .ascii (device [⟨str "RU"⟩, ⟨str "US"⟩]) .GHZ2 117 83 (by decide) (by decide)).1 (by decide)

/-- The default locale answers where no locale of the country is there, and
where the second letter is a small one. -/
theorem not_follows : ¬ Follows .ascii (device [⟨str "RU"⟩]) .GHZ2 (str "US") (str "US") ∧
    ¬ Follows .ascii (device [⟨str "RU"⟩, ⟨str "US"⟩]) .GHZ2 (str "us") (str "US") := by
  rw [follows_iff, follows_iff]
  decide

end SberWifi.Country
