import SberWifi.ReplaceInvalid

namespace SberWifi.ReportString

open CJsonPrint ReplaceInvalid

inductive EntryPoint
  | start
  | startServer
deriving DecidableEq

/-- What is passed to `NewStringUTF`, if the entry point comes to call it. -/
def newStringUTF (jsonOutputString : Option CString) : EntryPoint → Option Bytes
  | .start => (printStatistics (jsonOutputString.map CString.bytes)).bind replace_invalid
  | .startServer => printStatistics (jsonOutputString.map CString.bytes)

/-- A lead that does not make a sequence of Modified UTF-8 with the trail bytes
after it. -/
def BadLead (t : Bytes) : Prop :=
  ∃ c it, t = c :: it ∧ ¬ Trail c ∧ ¬ ModifiedSequence (c :: it.takeWhile is_trail)

def Intact (text : Bytes) : Prop :=
  (∀ c it, text = c :: it → ¬ Trail c) ∧ ¬ ∃ t, t <:+ text ∧ BadLead t

def Handles : EntryPoint → Bytes → Prop
  | .start, text => (∃ t, t <:+ text ∧ EndsInside t) ∨ ¬ ∃ q, FourBytes q ∧ q <:+: text
  | .startServer, text => Intact text

theorem not_trail_of_sequence {c : UInt8} {it : Bytes} (h : ModifiedSequence (c :: it)) : ¬ Trail c := by
  rintro ⟨hc, hc'⟩
  cases h with
  | one | two | three => omega
  | zero => simp at hc'

theorem trails_of_sequence {c : UInt8} {it : Bytes} (h : ModifiedSequence (c :: it)) :
    ∀ d ∈ it, Trail d := by
  cases h with
  | one => simp
  | zero =>
      intro d hd
      rw [List.mem_singleton.1 hd]
      decide
  | two ha ha' hb => simpa using hb
  | three ha ha' hb hc hab => simpa using ⟨hb, hc⟩

theorem not_trail_of_badLead {c : UInt8} {it : Bytes} (h : BadLead (c :: it)) : ¬ Trail c := by
  obtain ⟨_, _, heq, hc, -⟩ := h
  obtain ⟨rfl, rfl⟩ := List.cons.inj heq
  exact hc

theorem not_trail_of_modifiedUtf8 {c : UInt8} {it : Bytes} (h : ModifiedUtf8 (c :: it)) : ¬ Trail c := by
  generalize htext : c :: it = text at h
  cases h with
  | nil => cases htext
  | cons hq hrest =>
      obtain ⟨a, t, rfl, -⟩ := hq.head
      obtain rfl : c = a := (List.cons.inj htext).1
      exact not_trail_of_sequence hq

/-- The trail bytes after the first sequence's lead end where the sequence
does. -/
theorem takeWhile_trails {trails after : Bytes} (htrails : ∀ d ∈ trails, Trail d)
    (hafter : ∀ c it, after = c :: it → ¬ Trail c) : (trails ++ after).takeWhile is_trail = trails := by
  rw [List.takeWhile_append_of_pos fun d hd => (is_trail_iff d).2 (htrails d hd)]
  cases after with
  | nil => simp
  | cons c it => simp [mt (is_trail_iff c).1 (hafter c it rfl)]

theorem not_trail_dropWhile (it : Bytes) (c : UInt8) (rest : Bytes) (h : it.dropWhile is_trail = c :: rest) :
    ¬ Trail c := by
  intro hc
  have hhead := List.head?_dropWhile_not is_trail it
  rw [h] at hhead
  simp [(is_trail_iff c).2 hc] at hhead

theorem modifiedUtf8_iff_intact (text : Bytes) : ModifiedUtf8 text ↔ Intact text := by
  match text with
  | [] =>
      refine ⟨fun _ => ⟨by simp, ?_⟩, fun _ => .nil⟩
      rintro ⟨t, ht, _, _, heq, -⟩
      rw [List.suffix_nil.1 ht] at heq
      cases heq
  | lead :: it =>
      by_cases hlead : Trail lead
      · exact iff_of_false (fun h => not_trail_of_modifiedUtf8 h hlead) fun h => h.1 lead it rfl hlead
      · by_cases hq : ModifiedSequence (lead :: it.takeWhile is_trail)
        · have hshorter : (it.dropWhile is_trail).length < (lead :: it).length :=
            Nat.lt_succ_of_le (List.dropWhile_suffix is_trail).length_le
          have hrest := modifiedUtf8_iff_intact (it.dropWhile is_trail)
          have hsplit : it = it.takeWhile is_trail ++ it.dropWhile is_trail :=
            List.takeWhile_append_dropWhile.symm
          have hwhole : ¬ BadLead (lead :: (it.takeWhile is_trail ++ it.dropWhile is_trail)) := by
            rw [← hsplit]
            rintro ⟨_, _, heq, -, hbad⟩
            obtain ⟨rfl, rfl⟩ := List.cons.inj heq
            exact hbad hq
          have hsuffixes := exists_suffix_sequence (fun c t => not_trail_of_badLead) (trails_of_sequence hq) hwhole
          rw [← hsplit] at hsuffixes
          have htext := modifiedUtf8_append hq (it.dropWhile is_trail)
          rw [List.cons_append, ← hsplit] at htext
          rw [htext, hrest, Intact, Intact, hsuffixes]
          refine and_congr_left fun _ => ⟨fun _ c t h => ?_, fun _ => not_trail_dropWhile it⟩
          obtain ⟨rfl, -⟩ := List.cons.inj h
          exact hlead
        · refine iff_of_false (fun h => hq ?_) fun h => h.2 ⟨_, List.suffix_rfl, lead, it, rfl, hlead, hq⟩
          generalize htext : lead :: it = text at h
          cases h with
          | nil => cases htext
          | @cons q rest hq' hrest =>
              obtain ⟨a, trails, rfl, -⟩ := hq'.head
              obtain ⟨rfl, rfl⟩ := List.cons.inj htext
              have hafter : ∀ c t, rest = c :: t → ¬ Trail c := by
                rintro c t rfl
                exact not_trail_of_modifiedUtf8 hrest
              have htrails := takeWhile_trails (trails_of_sequence hq') hafter
              rwa [← htrails] at hq'
termination_by text.length
decreasing_by exact hshorter

theorem printStatistics_nul {jsonOutputString : Option CString} {text : Bytes}
    (h : printStatistics (jsonOutputString.map CString.bytes) = some text) : 0 ∉ text := by
  obtain ⟨output, houtput, rfl⟩ := Option.map_eq_some_iff.1 h
  obtain ⟨s, rfl, rfl⟩ := Option.map_eq_some_iff.1 houtput
  intro h0
  exact s.nul_free (List.mem_of_mem_filter (List.mem_of_mem_filter h0))

theorem exists_beginsFour_iff (text : Bytes) :
    (∃ t, t <:+ text ∧ BeginsFour t) ↔ ∃ q, FourBytes q ∧ q <:+: text := by
  constructor
  · rintro ⟨t, ht, q, hq, hprefix⟩
    exact ⟨q, hq, List.infix_iff_prefix_suffix.2 ⟨t, hprefix, ht⟩⟩
  · rintro ⟨q, hq, hinfix⟩
    obtain ⟨t, hprefix, ht⟩ := List.infix_iff_prefix_suffix.1 hinfix
    exact ⟨t, ht, q, hq, hprefix⟩

theorem handles_of_intact {text : Bytes} (h : Intact text) (entry : EntryPoint) : Handles entry text := by
  cases entry with
  | startServer => exact h
  | start =>
      refine .inr fun hfour => h.2 ?_
      obtain ⟨t, ht, hbegins⟩ := (exists_beginsFour_iff text).2 hfour
      obtain ⟨q, ⟨a, b, c, d, rfl, -, -, -, ha⟩, rest, rfl⟩ := id hbegins
      refine ⟨_, ht, a, b :: c :: d :: rest, rfl, not_trail_of_beginsFour hbegins, fun hq => ?_⟩
      obtain ⟨a', t', heq, ha', -⟩ := hq.head
      obtain ⟨rfl, -⟩ := List.cons.inj heq
      omega

/-- The strings for the virtual machine are Modified UTF-8 exactly where the
entry point handles the text that is left of the report. -/
theorem newStringUTF_iff (entry : EntryPoint) (jsonOutputString : Option CString) :
    (∀ s, newStringUTF jsonOutputString entry = some s → ModifiedUtf8 s) ↔
      ∀ text, printStatistics (jsonOutputString.map CString.bytes) = some text → Handles entry text := by
  cases entry with
  | startServer =>
      exact forall₂_congr fun text _ => modifiedUtf8_iff_intact text
  | start =>
      rw [newStringUTF]
      cases htext : printStatistics (jsonOutputString.map CString.bytes) with
      | none => simp
      | some text =>
          have h0 := printStatistics_nul htext
          simp only [Option.bind_some, Option.some.injEq, forall_eq', Handles]
          rw [← replace_invalid_eq_none_iff, ← exists_beginsFour_iff]
          cases hout : replace_invalid text with
          | none => simp
          | some out =>
              rw [← modifiedUtf8_replace_invalid h0 hout]
              simp

theorem replace_invalid_ascii {c : UInt8} (hc : c.toNat < 0x80) (it : Bytes) :
    replace_invalid (c :: it) = (replace_invalid it).map ([c] ++ ·) := by
  have hlength : sequence_length c = 1 := sequence_length_one c hc
  have hget : get_sequence c it = .ok (c.toUInt32, it) := by
    rw [get_sequence, hlength]
    rfl
  have hvalid := (checks_iff c.toUInt32 1).2
    ⟨by simp; omega, by simp; omega, fun _ => rfl, by simp; omega, by simp; omega⟩
  refine replace_invalid_some ?_
  simp [replaceNext, validate_next, hget, hlength, hvalid.1, hvalid.2, bind, Except.bind, pure, Except.pure]

def smileyReport : CString :=
  ⟨bytes "\x7b\n\t\"title\":\t\"" ++ [0xF0, 0x9F, 0x98, 0x80] ++ bytes "\"\n\x7d", by decide⟩

def smileyText : Bytes := bytes "\x7b\"title\":\"" ++ [0xF0, 0x9F, 0x98, 0x80] ++ bytes "\"\x7d"

/-- Both entry points pass it on as it is. -/
theorem not_modified_smiley :
    newStringUTF (some smileyReport) .startServer = some smileyText ∧
      newStringUTF (some smileyReport) .start = some smileyText ∧ ¬ ModifiedUtf8 smileyText := by
  have hstrip : printStatistics (some smileyReport.bytes) = some smileyText := by decide
  have hfour : replaceNext 0xF0 ([0x9F, 0x98, 0x80] ++ bytes "\"\x7d") =
      some ([0xF0, 0x9F, 0x98, 0x80], bytes "\"\x7d") := by decide
  have hrest : replace_invalid (bytes "\"\x7d") = some (bytes "\"\x7d") := by
    change replace_invalid [34, 125] = _
    rw [replace_invalid_ascii (by decide), replace_invalid_ascii (by decide), replace_invalid]
    rfl
  have hreplace : replace_invalid smileyText = some smileyText := by
    change replace_invalid (123 :: 34 :: 116 :: 105 :: 116 :: 108 :: 101 :: 34 :: 58 :: 34 :: 0xF0 ::
      ([0x9F, 0x98, 0x80] ++ bytes "\"\x7d")) = _
    iterate 10 rw [replace_invalid_ascii (by decide)]
    rw [replace_invalid_some hfour, hrest]
    rfl
  refine ⟨hstrip, ?_, ?_⟩
  · change (printStatistics (some smileyReport.bytes)).bind replace_invalid = _
    rw [hstrip]
    exact hreplace
  · rw [modifiedUtf8_replace_invalid (by decide) hreplace]
    refine not_not_intro ⟨[0xF0, 0x9F, 0x98, 0x80] ++ bytes "\"\x7d", ⟨bytes "\x7b\"title\":\"", by decide⟩, ?_⟩
    exact ⟨_, ⟨0xF0, 0x9F, 0x98, 0x80, rfl, by decide, by decide, by decide, by decide⟩, List.prefix_append _ _⟩

end SberWifi.ReportString
