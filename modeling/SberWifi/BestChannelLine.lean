import SberWifi.Interference
import SberWifi.NumberText
import SberWifi.TextFields

namespace SberWifi.BestChannelLine

open JavaString Band Rating Interference NumberText TextFields

def MAX_CHANNELS_TO_DISPLAY : Nat := 10

inductive Color
  | success
  | error
deriving DecidableEq

structure TextView where
  text : JString
  textColor : Color

def textResource : WiFiBand → JString
  | .GHZ2 => str "2.4 GHz"
  | .GHZ5 => str "5 GHz"

def channel_rating_best_none : JString := str "Нет"

def channel_rating_best_alternative : JString := str ", попробуйте альтернативный WiFi диапазон"

def number (channelAPCount : ChannelAPCount) : JString :=
  str (toString channelAPCount.wiFiChannel.channel.toInt)

/-- The loop of `bestChannels`, with what it has built and counted so far. -/
def appendChannels (result : JString) (channelCount : Nat) : List ChannelAPCount → JString
  | [] => result
  | channelAPCount :: channelAPCounts =>
      if channelCount > MAX_CHANNELS_TO_DISPLAY then result ++ str "..."
      else
        let separated := if result ≠ [] then result ++ str ", " else result
        appendChannels (separated ++ number channelAPCount) (channelCount + 1) channelAPCounts

def message (wiFiBand : WiFiBand) : JString :=
  if WiFiBand.GHZ2 = wiFiBand then
    channel_rating_best_none ++ channel_rating_best_alternative ++ str " " ++ textResource .GHZ5
  else channel_rating_best_none

def bestChannels (channelRating : ChannelRating) (wiFiBand : WiFiBand) (wiFiChannels : List WiFiChannel) :
    TextView :=
  let result := appendChannels [] 0 (getBestChannels channelRating wiFiChannels)
  if result ≠ [] then ⟨result, .success⟩ else ⟨message wiFiBand, .error⟩

def line (channelAPCounts : List ChannelAPCount) : JString :=
  (str ", ").intercalate (channelAPCounts.map number)

def Capped (channelAPCounts : List ChannelAPCount) (text : JString) : Prop :=
  (channelAPCounts ≠ [] →
    text = line (channelAPCounts.take (min channelAPCounts.length MAX_CHANNELS_TO_DISPLAY)) ++
      if channelAPCounts.length > MAX_CHANNELS_TO_DISPLAY then str "..." else []) ∧
    (str "..." <:+ text ↔ channelAPCounts.length > MAX_CHANNELS_TO_DISPLAY)

theorem number_units (channelAPCount : ChannelAPCount) :
    number channelAPCount ≠ [] ∧ ∀ u ∈ number channelAPCount, u = 45 ∨ 48 ≤ u := by
  rcases int_cases channelAPCount.wiFiChannel.channel.toInt with ⟨n, -, h⟩ | ⟨n, -, h⟩
  · rw [number, h]
    exact ⟨nat_ne_nil n, fun u hu => .inr (digit_of_mem_nat hu).1⟩
  · rw [number, h]
    refine ⟨List.cons_ne_nil _ _, fun u hu => ?_⟩
    rcases List.mem_cons.1 hu with rfl | hu
    · exact .inl rfl
    · exact .inr (digit_of_mem_nat hu).1

theorem line_nil : line [] = [] := rfl

theorem line_singleton (channelAPCount : ChannelAPCount) : line [channelAPCount] = number channelAPCount :=
  List.intercalate_singleton

theorem line_append {done rest : List ChannelAPCount} (hdone : done ≠ []) (hrest : rest ≠ []) :
    line (done ++ rest) = line done ++ str ", " ++ line rest := by
  rw [line, List.map_append, intercalate_append _ (by simpa using hdone) (by simpa using hrest)]
  rfl

theorem line_ne_nil {done : List ChannelAPCount} (h : done ≠ []) : line done ≠ [] := by
  cases done with
  | nil => exact absurd rfl h
  | cons c done =>
      cases done with
      | nil =>
          rw [line_singleton]
          exact (number_units c).1
      | cons d done =>
          have hsplit := line_append (List.cons_ne_nil c []) (List.cons_ne_nil d done)
          rw [List.singleton_append] at hsplit
          rw [hsplit, line_singleton]
          simp [(number_units c).1]

theorem dot_not_mem_line (done : List ChannelAPCount) : 46 ∉ line done := by
  have hnumber (c : ChannelAPCount) : 46 ∉ number c := by
    intro h
    rcases (number_units c).2 46 h with h | h <;> exact absurd h (by decide)
  induction done with
  | nil => exact List.not_mem_nil
  | cons c done ih =>
      by_cases hdone : done = []
      · rw [hdone, line_singleton]
        exact hnumber c
      · have hsplit := line_append (List.cons_ne_nil c []) hdone
        rw [List.singleton_append, line_singleton] at hsplit
        have hcomma : 46 ∉ str ", " := by decide
        simp [hsplit, hnumber c, ih, hcomma]

/-- The loop stops when it has counted one channel more than the limit. -/
theorem appendChannels_line (rest done : List ChannelAPCount) (hdone : done.length ≤ 11) :
    appendChannels (line done) done.length rest =
      line (done ++ rest.take (11 - done.length)) ++
        if done.length + rest.length > 11 then str "..." else [] := by
  induction rest generalizing done with
  | nil => simp [appendChannels, hdone]
  | cons c rest ih =>
      rw [appendChannels]
      by_cases hfull : done.length > MAX_CHANNELS_TO_DISPLAY
      · have hlength : done.length = 11 := Nat.le_antisymm hdone hfull
        rw [if_pos hfull, if_pos (by simp [hlength]), hlength]
        simp
      · have hroom : done.length ≤ 10 := Nat.le_of_not_lt hfull
        have hline : (if line done ≠ [] then line done ++ str ", " else line done) ++ number c =
            line (done ++ [c]) := by
          by_cases hnil : done = []
          · simp [hnil, line_nil, line_singleton]
          · rw [if_pos (line_ne_nil hnil), line_append hnil (List.cons_ne_nil c []), line_singleton]
        have hstep := ih (done ++ [c]) (by rw [List.length_append]; exact Nat.succ_le_succ hroom)
        have htake : 11 - done.length = (11 - (done ++ [c]).length) + 1 := by
          simp only [List.length_append, List.length_singleton]
          omega
        rw [if_neg hfull]
        dsimp only
        rw [hline]
        simp only [List.length_append, List.length_singleton] at hstep htake
        rw [hstep, htake, List.take_succ_cons, List.length_cons]
        simp [Nat.add_assoc, Nat.add_comm 1]

theorem bestChannels_text {channelRating : ChannelRating} {wiFiChannels : List WiFiChannel}
    (hne : getBestChannels channelRating wiFiChannels ≠ []) (wiFiBand : WiFiBand) :
    (bestChannels channelRating wiFiBand wiFiChannels).text =
      line ((getBestChannels channelRating wiFiChannels).take 11) ++
        if (getBestChannels channelRating wiFiChannels).length > 11 then str "..." else [] := by
  have hloop := appendChannels_line (getBestChannels channelRating wiFiChannels) [] (by simp)
  simp only [line_nil, List.length_nil, List.nil_append, Nat.sub_zero, Nat.zero_add] at hloop
  have hresult : appendChannels [] 0 (getBestChannels channelRating wiFiChannels) ≠ [] := by
    rw [hloop]
    have hline := line_ne_nil (mt List.take_eq_nil_iff.1 (not_or.2 ⟨by decide, hne⟩) :
      (getBestChannels channelRating wiFiChannels).take 11 ≠ [])
    simp [hline]
  rw [bestChannels, if_pos hresult, hloop]

theorem bestChannels_text_of_none {channelRating : ChannelRating} {wiFiChannels : List WiFiChannel}
    (hnil : getBestChannels channelRating wiFiChannels = []) (wiFiBand : WiFiBand) :
    (bestChannels channelRating wiFiBand wiFiChannels).text = message wiFiBand := by
  rw [bestChannels, hnil]
  rfl

theorem dots_not_isSuffix {text : JString} (h : 46 ∉ text) : ¬ str "..." <:+ text :=
  fun hsuffix => h (hsuffix.subset (by decide))

theorem dot_not_mem_message (wiFiBand : WiFiBand) : 46 ∉ message wiFiBand := by
  cases wiFiBand <;> decide

/-- An eleventh channel stands where the dots belong. -/
theorem line_eleven_ne {bests : List ChannelAPCount} (h : bests.length > 10) (rest : JString) :
    line (bests.take 11) ++ rest ≠ line (bests.take 10) ++ str "..." := by
  obtain ⟨c, hc⟩ : ∃ c, bests[10]? = some c := ⟨_, List.getElem?_eq_getElem h⟩
  have hsplit : bests.take 11 = bests.take 10 ++ [c] := by
    rw [List.take_add_one, hc, Option.toList_some]
  have hten : bests.take 10 ≠ [] := List.ne_nil_of_length_pos (by simp; omega)
  rw [hsplit, line_append hten (List.cons_ne_nil c []), List.append_assoc, List.append_assoc]
  intro heq
  have hdots := List.append_cancel_left heq
  exact absurd (List.cons.inj hdots).1 (by decide)

theorem capped_iff (channelRating : ChannelRating) (wiFiBand : WiFiBand) (wiFiChannels : List WiFiChannel) :
    Capped (getBestChannels channelRating wiFiChannels)
        (bestChannels channelRating wiFiBand wiFiChannels).text ↔
      (getBestChannels channelRating wiFiChannels).length ≤ MAX_CHANNELS_TO_DISPLAY := by
  by_cases hnil : getBestChannels channelRating wiFiChannels = []
  · rw [bestChannels_text_of_none hnil, hnil]
    refine iff_of_true ⟨fun hne => absurd rfl hne, ?_⟩ (Nat.zero_le _)
    exact iff_of_false (dots_not_isSuffix (dot_not_mem_message wiFiBand)) (by decide)
  · rw [bestChannels_text hnil]
    generalize getBestChannels channelRating wiFiChannels = bests at hnil
    constructor
    · rintro ⟨hnamed, -⟩
      by_contra hmore
      have hlength : bests.length > 10 := Nat.lt_of_not_le hmore
      have htext := hnamed hnil
      rw [MAX_CHANNELS_TO_DISPLAY, if_pos hlength, Nat.min_eq_right hlength.le] at htext
      exact line_eleven_ne hlength _ htext
    · intro hfew
      have hfew' : bests.length ≤ 10 := hfew
      rw [if_neg (by omega), List.append_nil, List.take_of_length_le (by omega)]
      refine ⟨fun _ => ?_, iff_of_false (dots_not_isSuffix (dot_not_mem_line bests)) (Nat.not_lt.2 hfew)⟩
      rw [if_neg (Nat.not_lt.2 hfew), List.append_nil, Nat.min_eq_left hfew, List.take_length]

def quiet : ChannelRating := ⟨[]⟩

def elevenChannels : List WiFiChannel := (List.range 11).map fun (i : Nat) =>
  ⟨Int32.ofNat (36 + 4 * i), Int32.ofNat (5180 + 20 * i)⟩

theorem not_capped_eleven :
    ¬ ∀ (channelRating : ChannelRating) (wiFiBand : WiFiBand) (wiFiChannels : List WiFiChannel),
      Capped (getBestChannels channelRating wiFiChannels)
        (bestChannels channelRating wiFiBand wiFiChannels).text := by
  intro h
  have hdots := (h quiet .GHZ5 elevenChannels).2.2 (by decide)
  exact absurd hdots (by decide)

end SberWifi.BestChannelLine
