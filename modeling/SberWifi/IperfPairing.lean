import SberWifi.IperfLedger

namespace SberWifi.IperfPairing

open JavaString IperfEnvelope IperfMachine IperfLedger Runs

def PairsUp (sent : List Sent) : Prop :=
  ∀ c ∈ sent, ∀ d ∈ sent, c.run = d.run ↔ c.uuid = d.uuid

variable {D : Type} (lib : Libraries D)

/-- Runs come one after the other, and both tests of each report what can be read. -/
def Reports (l : Ledger) : Event → Prop
  | .onSwipeForward => ∀ p ∈ l.fragment.tests, p = .finished
  | .report test report => ∀ reverse, l.fragment.tests[test]? = some (.testing reverse) →
      (report.bind (formatSent lib)).isSome ∧ (report.bind (formatReceived lib)).isSome
  | .exception test => ∀ reverse, l.fragment.tests[test]? ≠ some (.testing reverse)
  | _ => True

def Fresh (l : Ledger) : Prop := ∀ n < l.fragment.uuid, lib.randomUUID n ≠ lib.randomUUID l.fragment.uuid

def reading : Upload → Bool
  | .launched _ => true
  | .sending _ | .finished _ => false

def sending : Upload → Bool
  | .sending _ => true
  | .launched _ | .finished _ => false

/-- The first report of a run finds the counter back at zero, and no upload is
answered at two while another has still to read the identifier. -/
def InTurn (l : Ledger) : Event → Prop
  | .report test _ => l.fragment.tests[test]? = some (.testing false) → l.fragment.count = 0
  | .answer upload _ => l.fragment.uploads[upload]?.any sending → l.fragment.count = 2 →
      ∀ u ∈ l.fragment.uploads, ¬ reading u
  | _ => True

def Stage (count : Int32) : Option Phase → Prop
  | some (.returned false) | some (.testing true) => count = 1
  | _ => count = 0 ∨ count = 2

theorem Stage.afterReset {phase : Option Phase} (h : Stage 2 phase) : Stage 0 phase := by
  rcases phase with _ | _ | (_ | _) | (_ | _) | _ | _
  · exact .inl rfl
  · exact .inl rfl
  · exact .inl rfl
  · exact absurd (show (2 : Int32) = 1 from h) (by decide)
  · exact absurd (show (2 : Int32) = 1 from h) (by decide)
  · exact .inl rfl
  · exact .inl rfl
  · exact .inl rfl

def openRun (v : View) : Option Nat := if v.count = 0 then none else v.owners.getLast?

structure Pairing (v : View) : Prop where
  owned : Owned v
  last : OnlyLast v.tests
  stage : Stage v.count v.tests[v.tests.length - 1]?
  past : ∀ run ∈ v.owners, ∃ p, v.tests[run]? = some p ∧ p ≠ .launched ∧ p ≠ .testing false
  current : v.count = 1 → v.owners.getLast? = some (v.tests.length - 1)
  reads : ∀ (upload : Nat) report, v.uploads[upload]? = some (.launched report) →
    ∃ run, openRun v = some run ∧ v.owners[upload]? = some run
  uuids : ∀ c ∈ v.sent, (openRun v = some c.run ∧ c.uuid = lib.randomUUID v.uuid) ∨
    (openRun v ≠ some c.run ∧ ∃ n < v.uuid, c.uuid = lib.randomUUID n)
  sent_owners : ∀ c ∈ v.sent, c.run ∈ v.owners
  pairs : PairsUp v.sent

theorem pairing_start : Pairing lib (Ledger.view {}) where
  owned := rfl
  last := by simp [OnlyLast, Ledger.view]
  stage := .inl rfl
  past := by simp [Ledger.view]
  current h := absurd h (by decide)
  reads := by simp [Ledger.view]
  uuids := by simp [Ledger.view]
  sent_owners := by simp [Ledger.view]
  pairs := by simp [PairsUp, Ledger.view]

theorem launched_of_finish {v : View} {upload upload' : Nat} {text report : JString} {status : Int32}
    (hu : v.uploads[upload]? = some (.sending text))
    (hu' : (v.uploads.set upload (.finished status))[upload']? = some (.launched report)) :
    v.uploads[upload']? = some (.launched report) := by
  by_cases hne : upload = upload'
  · subst hne
    rw [List.getElem?_set_self (List.getElem?_eq_some_iff.1 hu).1] at hu'
    cases hu'
  · rwa [List.getElem?_set_ne hne] at hu'

section Steps

variable {lib} {v : View} (h : Pairing lib v)

include h

theorem pairing_launch (hfinished : ∀ p ∈ v.tests, p = .finished) :
    Pairing lib { v with tests := v.tests ++ [.launched] } := by
  have hstage : v.count = 0 ∨ v.count = 2 := by
    have hlast := h.stage
    cases hp : v.tests[v.tests.length - 1]? with
    | none => rwa [hp] at hlast
    | some p =>
        rw [hp, hfinished p (List.mem_of_getElem? hp)] at hlast
        exact hlast
  have hone : v.count ≠ 1 := by
    rcases hstage with hcount | hcount <;> rw [hcount] <;> decide
  refine ⟨h.owned, onlyLast_launch hfinished, ?_, ?_, fun hcount => absurd hcount hone, h.reads, h.uuids,
    h.sent_owners, h.pairs⟩
  · simpa [Stage] using hstage
  · intro run hrun
    obtain ⟨p, hp, hphase⟩ := h.past run hrun
    exact ⟨p, List.getElem?_append_left (List.getElem?_eq_some_iff.1 hp).1 ▸ hp, hphase⟩

theorem pairing_resume {test : Nat} {p q : Phase} (hp : v.tests[test]? = some p) (hpq : Resumed p q) :
    Pairing lib { v with tests := v.tests.set test q } := by
  have htest := h.last test p hp hpq.ne_finished
  have hself : (v.tests.set test q)[test]? = some q := List.getElem?_set_self (List.getElem?_eq_some_iff.1 hp).1
  have hstage := h.stage
  rw [← htest, hp] at hstage
  refine ⟨h.owned, h.last.set hp hpq.ne_finished q, ?_, ?_, ?_, h.reads, h.uuids, h.sent_owners, h.pairs⟩
  · change Stage v.count (v.tests.set test q)[(v.tests.set test q).length - 1]?
    rw [List.length_set, ← htest, hself]
    cases hpq <;> exact hstage
  · intro run hrun
    obtain ⟨r, hr, hphase⟩ := h.past run hrun
    by_cases hrun' : test = run
    · subst hrun'
      obtain rfl := Option.some.inj (hp.symm.trans hr)
      refine ⟨q, hself, ?_⟩
      cases hpq with
      | start => exact absurd rfl hphase.1
      | delayed | done | caught => simp
    · exact ⟨r, (List.getElem?_set_ne hrun').trans hr, hphase⟩
  · intro hcount
    change v.owners.getLast? = some ((v.tests.set test q).length - 1)
    rw [List.length_set]
    exact h.current hcount

section Added

variable {test : Nat} {reverse : Bool} (hp : v.tests[test]? = some (.testing reverse))
  (hfirst : reverse = false → v.count = 0)
include hp hfirst

/-- A run's first report finds the counter at zero, and its second one at one. -/
theorem count_added : reverse = false ∧ v.count = 0 ∨ reverse = true ∧ v.count = 1 := by
  have hstage := h.stage
  rw [← h.last test _ hp (by simp), hp] at hstage
  cases reverse with
  | false => exact .inl ⟨rfl, hfirst rfl⟩
  | true => exact .inr ⟨rfl, hstage⟩

theorem count_added_ne : v.count + 1 ≠ 0 := by
  rcases count_added h hp hfirst with ⟨_, hcount⟩ | ⟨_, hcount⟩ <;> rw [hcount] <;> decide

/-- Before its report the run is either new to the uploads or the one that is open. -/
theorem openRun_before : openRun v = none ∧ test ∉ v.owners ∨ openRun v = some test := by
  have htest := h.last test _ hp (by simp)
  rcases count_added h hp hfirst with ⟨rfl, hcount⟩ | ⟨rfl, hcount⟩
  · refine .inl ⟨if_pos hcount, fun howner => ?_⟩
    obtain ⟨p, hp', -, hphase⟩ := h.past test howner
    exact hphase (Option.some.inj (hp'.symm.trans hp))
  · refine .inr ?_
    rw [openRun, if_neg (by rw [hcount]; decide), h.current hcount, ← htest]

theorem stage_added : Stage (v.count + 1)
    (v.tests.set test (.returned reverse))[(v.tests.set test (.returned reverse)).length - 1]? := by
  rw [List.length_set, ← h.last test _ hp (by simp),
    List.getElem?_set_self (List.getElem?_eq_some_iff.1 hp).1]
  rcases count_added h hp hfirst with ⟨rfl, hcount⟩ | ⟨rfl, hcount⟩
  · rw [hcount]
    rfl
  · rw [hcount]
    exact .inr rfl

/-- Every upload that has still to read is of the run that reports. -/
theorem reads_added {report report' : JString} {upload : Nat}
    (hu : (v.uploads ++ [.launched report])[upload]? = some (.launched report')) :
    (v.owners ++ [test])[upload]? = some test := by
  have howned : v.owners.length = v.uploads.length := h.owned
  rw [List.getElem?_append] at hu ⊢
  rw [howned]
  split_ifs at hu ⊢ with hlt
  · obtain ⟨run, hrun, howner⟩ := h.reads upload report' hu
    rcases openRun_before h hp hfirst with ⟨hnone, -⟩ | hsome
    · rw [hnone] at hrun
      cases hrun
    · rw [hsome] at hrun
      rw [howner, ← hrun]
  · have hindex := (List.getElem?_eq_some_iff.1 hu).1
    rw [List.length_singleton] at hindex
    rw [Nat.lt_one_iff.1 hindex]
    rfl

theorem uuids_added : ∀ c ∈ v.sent, (some test = some c.run ∧ c.uuid = lib.randomUUID v.uuid) ∨
    (some test ≠ some c.run ∧ ∃ n < v.uuid, c.uuid = lib.randomUUID n) := by
  intro c hc
  rcases openRun_before h hp hfirst with ⟨hnone, hnew⟩ | hsome
  · refine .inr ⟨?_, ?_⟩
    · rintro ⟨⟩
      exact hnew (h.sent_owners c hc)
    · rcases h.uuids c hc with ⟨hrun, -⟩ | ⟨-, hold⟩
      · rw [hnone] at hrun
        cases hrun
      · exact hold
  · rw [← hsome]
    exact h.uuids c hc

/-- The report that opens a run or closes one: its upload is the run's. -/
theorem pairing_added {report result : JString} :
    Pairing lib
      { v with
        tests := v.tests.set test (.returned reverse), count := v.count + 1
        uploads := v.uploads ++ [.launched report], reports := v.reports ++ [result]
        owners := v.owners ++ [test] } := by
  have htest := h.last test _ hp (by simp)
  have hself : (v.tests.set test (.returned reverse))[test]? = some (.returned reverse) :=
    List.getElem?_set_self (List.getElem?_eq_some_iff.1 hp).1
  have hopen : (if v.count + 1 = 0 then none else (v.owners ++ [test]).getLast?) = some test := by
    rw [if_neg (count_added_ne h hp hfirst), List.getLast?_concat]
  refine ⟨?_, h.last.set hp (by simp) _, stage_added h hp hfirst, ?_, ?_, ?_, ?_, ?_, h.pairs⟩
  · have howned : v.owners.length = v.uploads.length := h.owned
    simp [Owned, howned]
  · intro run hrun
    by_cases hrun' : test = run
    · subst hrun'
      exact ⟨_, hself, by simp, by simp⟩
    · have hmem : run ∈ v.owners := by simpa [Ne.symm hrun'] using hrun
      obtain ⟨r, hr, hphase⟩ := h.past run hmem
      exact ⟨r, (List.getElem?_set_ne hrun').trans hr, hphase⟩
  · intro _
    change (v.owners ++ [test]).getLast? = some ((v.tests.set test _).length - 1)
    rw [List.getLast?_concat, List.length_set, htest]
  · intro upload report' hu
    exact ⟨test, hopen, reads_added h hp hfirst hu⟩
  · intro c hc
    change ((if v.count + 1 = 0 then none else (v.owners ++ [test]).getLast?) = some c.run ∧ _) ∨
      ((if v.count + 1 = 0 then none else (v.owners ++ [test]).getLast?) ≠ some c.run ∧ _)
    rw [hopen]
    exact uuids_added h hp hfirst c hc
  · intro c hc
    exact List.mem_append_left _ (h.sent_owners c hc)

end Added

theorem pairing_send (hfresh : ∀ n < v.uuid, lib.randomUUID n ≠ lib.randomUUID v.uuid) {upload run : Nat}
    {bssid ssid report : JString} (hu : v.uploads[upload]? = some (.launched report))
    (hrun : v.owners[upload]? = some run) (text : JString) :
    Pairing lib
      { v with
        uploads := v.uploads.set upload (.sending text)
        sent := v.sent ++ [⟨run, ⟨⟨lib.randomUUID v.uuid, bssid, ssid⟩, report⟩⟩] } := by
  obtain ⟨run', hopen, howner⟩ := h.reads upload report hu
  obtain rfl := Option.some.inj (hrun.symm.trans howner)
  have hcompare : ∀ c ∈ v.sent, c.run = run ↔ c.uuid = lib.randomUUID v.uuid := by
    intro c hc
    rcases h.uuids c hc with ⟨hc', huuid⟩ | ⟨hc', n, hn, huuid⟩
    · exact iff_of_true (Option.some.inj (hc'.symm.trans hopen)) huuid
    · refine iff_of_false (fun heq => hc' (heq ▸ hopen)) ?_
      rw [huuid]
      exact hfresh n hn
  refine ⟨?_, h.last, h.stage, h.past, h.current, ?_, ?_, ?_, ?_⟩
  · simpa [Owned] using h.owned
  · intro upload' report' hu'
    change (v.uploads.set upload (.sending text))[upload']? = some (.launched report') at hu'
    by_cases hne : upload = upload'
    · subst hne
      rw [List.getElem?_set_self (List.getElem?_eq_some_iff.1 hu).1] at hu'
      cases hu'
    · rw [List.getElem?_set_ne hne] at hu'
      exact h.reads upload' report' hu'
  · intro c hc
    rcases List.mem_append.1 hc with hc | hc
    · exact h.uuids c hc
    · rw [List.mem_singleton.1 hc]
      exact .inl ⟨hopen, rfl⟩
  · intro c hc
    rcases List.mem_append.1 hc with hc | hc
    · exact h.sent_owners c hc
    · rw [List.mem_singleton.1 hc]
      exact List.mem_of_getElem? hrun
  · intro c hc d hd
    rcases List.mem_append.1 hc with hc | hc <;> rcases List.mem_append.1 hd with hd | hd
    · exact h.pairs c hc d hd
    · rw [List.mem_singleton.1 hd]
      exact hcompare c hc
    · rw [List.mem_singleton.1 hc]
      exact eq_comm.trans ((hcompare d hd).trans eq_comm)
    · rw [List.mem_singleton.1 hc, List.mem_singleton.1 hd]
      exact iff_of_true rfl rfl

theorem pairing_answered {upload : Nat} {text : JString} {status : Int32}
    (hu : v.uploads[upload]? = some (.sending text)) :
    Pairing lib { v with uploads := v.uploads.set upload (.finished status) } where
  owned := by simpa [Owned] using h.owned
  last := h.last
  stage := h.stage
  past := h.past
  current := h.current
  reads upload' report hu' := h.reads upload' report (launched_of_finish hu hu')
  uuids := h.uuids
  sent_owners := h.sent_owners
  pairs := h.pairs

/-- Where every upload has read the identifier, a new one is for the next run. -/
theorem pairing_reset {upload : Nat} {text : JString} {status : Int32}
    (hu : v.uploads[upload]? = some (.sending text)) (hcount : v.count = 2)
    (hread : ∀ u ∈ v.uploads, ¬ reading u) :
    Pairing lib
      { v with uploads := v.uploads.set upload (.finished status), count := 0, uuid := v.uuid + 1 } where
  owned := by simpa [Owned] using h.owned
  last := h.last
  stage := (hcount ▸ h.stage).afterReset
  past := h.past
  current hone := absurd (show (0 : Int32) = 1 from hone) (by decide)
  reads upload' report hu' := absurd rfl (hread _ (List.mem_of_getElem? (launched_of_finish hu hu')))
  uuids c hc := by
    refine .inr ⟨by simp [openRun], ?_⟩
    rcases h.uuids c hc with ⟨-, huuid⟩ | ⟨-, n, hn, huuid⟩
    · exact ⟨v.uuid, Nat.lt_succ_self _, huuid⟩
    · exact ⟨n, Nat.lt_succ_of_lt hn, huuid⟩
  sent_owners := h.sent_owners
  pairs := h.pairs

end Steps

variable {lib}

theorem format_isSome {report : Option JString} (hsent : (report.bind (formatSent lib)).isSome)
    (hreceived : (report.bind (formatReceived lib)).isSome) (count : Int32) :
    (report.bind (format lib count)).isSome := by
  by_cases hcount : count = 0
  · have hformat : format lib count = formatSent lib := by
      funext r
      exact if_pos hcount
    rw [hformat]
    exact hsent
  · have hformat : format lib count = formatReceived lib := by
      funext r
      exact if_neg hcount
    rw [hformat]
    exact hreceived

theorem pairing_step {l : Ledger} (h : Pairing lib l.view) {e : Event} (hreports : Reports lib l e)
    (hfresh : Fresh lib l) (hturn : InTurn l e) : Pairing lib (IperfLedger.step lib l e).view := by
  have hmoves := step_moves lib l e h.owned
  generalize (IperfLedger.step lib l e).view = v at hmoves ⊢
  cases hmoves with
  | stay => exact h
  | launch => exact pairing_launch h hreports
  | stop => exact ⟨h.owned, h.last, h.stage, h.past, h.current, h.reads, h.uuids, h.sent_owners, h.pairs⟩
  | resume hp hpq => exact pairing_resume h hp hpq
  | unread hp hread =>
      obtain ⟨hsent, hreceived⟩ := hreports _ hp
      have hsome := format_isSome hsent hreceived l.view.count
      rw [hread] at hsome
      cases hsome
  | added hp hread =>
      refine pairing_added h hp ?_
      rintro rfl
      exact hturn hp
  | failed hp => exact absurd hp (hreports _)
  | send hu hrun => exact pairing_send h hfresh hu hrun _
  | answered hu => exact pairing_answered h hu
  | reset hu hcount =>
      refine pairing_reset h hu hcount (hturn ?_ hcount)
      change Option.any sending l.view.uploads[_]?
      rw [hu]
      rfl

/-- In every run whose reports come and are answered in turn, the identifiers
pair the uploads. -/
theorem pairsUp (events : List Event)
    (h : Along (IperfLedger.step lib) (fun l e => Reports lib l e ∧ Fresh lib l ∧ InTurn l e) {} events) :
    PairsUp (run (IperfLedger.step lib) {} events).sent :=
  (run_invariant (fun l => Pairing lib l.view) (fun _ _ hl he => pairing_step hl he.1 he.2.1 he.2.2)
    (pairing_start lib) h).pairs

section Runs

instance (l : Ledger) (e : Event) : Decidable (Reports samplePhone l e) := by
  cases e <;> unfold Reports <;> infer_instance

instance (l : Ledger) : Decidable (Fresh samplePhone l) := by
  unfold Fresh
  infer_instance

instance (l : Ledger) (e : Event) : Decidable (InTurn l e) := by
  cases e <;> unfold InTurn <;> infer_instance

instance (sent : List Sent) : Decidable (PairsUp sent) :=
  inferInstanceAs (Decidable (∀ c ∈ sent, ∀ d ∈ sent, _ ↔ _))

def inputs : List Event := [.inputHost (str "10.0.0.1"), .inputPort (str "5201")]

def twoRuns : List Event := inputs ++
  [.onSwipeForward, .resume 0, .report 0 (some smallReport), .resume 0, .report 0 (some smallReport),
    .send 1 [] [], .send 0 [] [], .answer 0 none, .resume 0, .onSwipeForward, .resume 1,
    .report 1 (some largeReport), .answer 1 none, .send 2 [] []]

theorem pairsUp_twoRuns : PairsUp (run (IperfLedger.step samplePhone) {} twoRuns).sent :=
  pairsUp twoRuns (by decide +kernel)

/-- The first upload is answered after the second report and before the second
upload has read the identifier. -/
theorem not_pairsUp : ¬ ∀ (D : Type) (lib : Libraries D) (events : List Event),
    Along (IperfLedger.step lib) (fun l e => Reports lib l e ∧ Fresh lib l) {} events →
    PairsUp (run (IperfLedger.step lib) {} events).sent := by
  intro h
  have hpairs := h Rat samplePhone (inputs ++ [.onSwipeForward, .resume 0, .report 0 (some smallReport),
    .send 0 [] [], .resume 0, .report 0 (some smallReport), .answer 0 none, .send 1 [] []]) (by decide +kernel)
  revert hpairs
  decide +kernel

end Runs

end SberWifi.IperfPairing
