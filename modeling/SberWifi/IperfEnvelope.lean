import SberWifi.JsonText

namespace SberWifi.IperfEnvelope

open JavaString JsonTokens JsonText

structure Info where
  uuid : JString
  bssid : JString
  ssid : JString

def Info.toString (info : Info) : JString :=
  str "\"info\":\x7b\"uuid\":\"" ++ info.uuid ++ str "\",\"bssid\":\"" ++ info.bssid ++
    str "\",\"ssid\":\"" ++ info.ssid ++ str "\"\x7d"

structure IperfReport where
  info : Info
  iperf : JString

def IperfReport.toString (report : IperfReport) : JString :=
  str "\x7b" ++ report.info.toString ++ str ", \"iperf\":" ++ report.iperf ++ str "\x7d\x7d"

def Decodes (text uuid bssid ssid : JString) (v : Json) : Prop :=
  ∃ ms info, parse text = some (.object ms) ∧ (∀ m ∈ ms, m.1 = str "info" ∨ m.1 = str "iperf") ∧
    Member ms (str "info") (.object info) ∧ Member info (str "uuid") (.string uuid) ∧
    Member info (str "bssid") (.string bssid) ∧ Member info (str "ssid") (.string ssid) ∧
    Member ms (str "iperf") v

theorem toString_eq (uuid bssid ssid r : JString) :
    IperfReport.toString ⟨⟨uuid, bssid, ssid⟩, r⟩ =
      123 :: 34 :: (str "info" ++ 34 :: 58 :: 123 :: 34 ::
        (str "uuid" ++ 34 :: 58 :: 34 :: (uuid ++ 34 :: ([44] ++ 34 ::
          (str "bssid" ++ 34 :: 58 :: 34 :: (bssid ++ 34 :: ([44] ++ 34 ::
            (str "ssid" ++ 34 :: 58 :: 34 :: (ssid ++ 34 :: ([125, 44, 32] ++ 34 ::
              (str "iperf" ++ 34 :: 58 :: (r ++ 125 :: [125])))))))))))) := by
  simp only [IperfReport.toString, Info.toString, List.append_assoc]
  rfl

/-- Where the strings of the info object are read back, the object ends where it
was closed, whatever the strings are. -/
theorem info_members {n : Nat} {uuid bssid ssid t rest : JString} {info : List (JString × Json)}
    (h : members (n + 4) (34 :: (str "uuid" ++ 34 :: 58 :: 34 :: (uuid ++ 34 :: ([44] ++ 34 ::
      (str "bssid" ++ 34 :: 58 :: 34 :: (bssid ++ 34 :: ([44] ++ 34 ::
        (str "ssid" ++ 34 :: 58 :: 34 :: (ssid ++ 34 :: ([125, 44, 32] ++ 34 :: t)))))))))) =
        some (info, rest))
    (huuid : Member info (str "uuid") (.string uuid)) (hbssid : Member info (str "bssid") (.string bssid))
    (hssid : Member info (str "ssid") (.string ssid)) : rest = [44, 32] ++ 34 :: t := by
  have hquote (x : JString) : expect 34 (34 :: x) = some x := expect_unit (by decide) x
  have hcomma (x : JString) : next ([44] ++ 34 :: x) = some (44, 34 :: x) := next_unit (by decide) _
  have hclose (x : JString) : next ([125, 44, 32] ++ 34 :: x) = some (125, [44, 32] ++ 34 :: x) :=
    next_unit (by decide) _
  have h₁ := members_raw (str "uuid") uuid [44] _ (by decide) (by decide) (by decide) (hquote _) h huuid.2
  rw [hcomma] at h₁
  rcases h₁ with h₁ | ⟨_, tail₁, he₁, htail₁, hsub₁⟩
  · exact absurd h₁ (by simp)
  obtain ⟨_, rfl⟩ := Prod.mk.inj (Option.some.inj he₁)
  have h₂ := members_raw (str "bssid") bssid [44] _ (by decide) (by decide) (by decide) (hquote _) htail₁
    fun v hv => hbssid.2 v (hsub₁ hv)
  rw [hcomma] at h₂
  rcases h₂ with h₂ | ⟨_, tail₂, he₂, htail₂, hsub₂⟩
  · exact absurd h₂ (by simp)
  obtain ⟨_, rfl⟩ := Prod.mk.inj (Option.some.inj he₂)
  have h₃ := members_raw (str "ssid") ssid [125, 44, 32] _ (by decide) (by decide) (by decide)
    (hquote _) htail₂
    fun v hv => hssid.2 v (hsub₁ (hsub₂ hv))
  rw [hclose] at h₃
  rcases h₃ with h₃ | ⟨_, _, he₃, _⟩
  · exact (Prod.mk.inj (Option.some.inj h₃)).2.symm
  · exact absurd he₃ (by simp)

/-- What is left after the outer object when its first member is an object that
ends where the template closes it: the brace that closes nothing. -/
theorem outer_rest {n : Nat} {x r rest : JString} {v : Json} {ms info : List (JString × Json)}
    (hr : parse r = some v) (hfuel : r.length ≤ n)
    (h : members (n + 2) (34 :: (str "info" ++ 34 :: 58 :: x)) = some (ms, rest))
    (hinfo : Member ms (str "info") (.object info))
    (hx : ∀ rest', value (n + 1) x = some (.object info, rest') →
      rest' = [44, 32] ++ 34 :: (str "iperf" ++ 34 :: 58 :: (r ++ 125 :: [125]))) : rest = [125] := by
  have hcomma (y : JString) : next ([44, 32] ++ 34 :: y) = some (44, [32] ++ 34 :: y) :=
    next_unit (by decide) _
  have hquote (y : JString) : expect 34 ([32] ++ 34 :: y) = some y :=
    expect_of_space (by decide) (by decide) y
  obtain ⟨v₀, r₀, hv₀, hmem, hend⟩ := members_key (str "info") x (by decide) (expect_unit (by decide) _) h
  cases hinfo.2 v₀ hmem
  rw [hx r₀ hv₀, hcomma] at hend
  rcases hend with ⟨_, he, _⟩ | ⟨_, tail, he, htail, _⟩
  · exact absurd he (by simp)
  obtain ⟨_, rfl⟩ := Prod.mk.inj (Option.some.inj he)
  obtain ⟨v₁, r₁, hv₁, _, hend⟩ :=
    members_key (str "iperf") (r ++ 125 :: [125]) (by decide) (hquote _) htail
  have hstops : Stops [125, 125] := by
    rintro c ⟨⟩
    decide
  obtain ⟨space, hspace, hvalue⟩ := value_of_parse hr hstops hfuel
  obtain ⟨_, rfl⟩ := Prod.mk.inj (Option.some.inj (hvalue.symm.trans hv₁))
  rw [next_of_space hspace (by decide)] at hend
  rcases hend with ⟨_, he, rfl⟩ | ⟨_, _, he, _⟩
  · exact (Prod.mk.inj (Option.some.inj he)).2.symm
  · exact absurd he (by simp)

/-- No envelope decodes to its parts: the template closes one brace more than
it opens. -/
theorem not_decodes (uuid bssid ssid r : JString) (v : Json) (h : parse r = some v) :
    ¬ Decodes (IperfReport.toString ⟨⟨uuid, bssid, ssid⟩, r⟩) uuid bssid ssid v := by
  rintro ⟨ms, info, hparse, _, hinfo, huuid, hbssid, hssid, _⟩
  obtain ⟨n, hn⟩ : ∃ n, (IperfReport.toString ⟨⟨uuid, bssid, ssid⟩, r⟩).length + 1 = r.length + n + 10 := by
    refine ⟨(IperfReport.toString ⟨⟨uuid, bssid, ssid⟩, r⟩).length - r.length - 9, ?_⟩
    simp only [toString_eq, List.length_cons, List.length_append]
    omega
  obtain ⟨rest, hv, hspace⟩ := parse_read hparse
  rw [hn, toString_eq] at hv
  obtain ⟨ms', hms', hmembers⟩ := value_object hv
  cases hms'
  have hbrace : rest = [125] := by
    refine outer_rest h (by omega) hmembers hinfo ?_
    intro rest' hinner
    obtain ⟨info', hinfo', hmembers'⟩ := value_object hinner
    cases hinfo'
    exact info_members hmembers' huuid hbssid hssid
  rw [hbrace] at hspace
  exact absurd hspace (by decide)

def sampleUuid : JString := str "123e4567-e89b-12d3-a456-426614174000"

def sampleBssid : JString := str "00:11:22:33:44:55"

theorem not_decodes_number : ¬ Decodes
    (IperfReport.toString ⟨⟨sampleUuid, sampleBssid, str "office"⟩, str "1"⟩)
    sampleUuid sampleBssid (str "office") (.number (str "1")) :=
  not_decodes sampleUuid sampleBssid (str "office") (str "1") (.number (str "1")) rfl

theorem not_roundTrip : ¬ ∀ uuid bssid ssid r v, parse r = some v →
    Decodes (IperfReport.toString ⟨⟨uuid, bssid, ssid⟩, r⟩) uuid bssid ssid v := by
  intro h
  obtain ⟨_, _, hparse, _⟩ := h sampleUuid sampleBssid (str "office") (str "1") (.number (str "1")) rfl
  have hnone : (parse (IperfReport.toString ⟨⟨sampleUuid, sampleBssid, str "office"⟩, str "1"⟩)).isNone := by
    decide +kernel
  rw [hparse] at hnone
  cases hnone

end SberWifi.IperfEnvelope
