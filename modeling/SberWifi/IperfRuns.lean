import Mathlib.Algebra.BigOperators.Group.Finset.Basic
import Mathlib.Algebra.Order.BigOperators.Group.Finset
import SberWifi.IperfOrder

namespace SberWifi.IperfRuns

open CJsonPrint hiding Test
open CJsonParse CJsonRoundTrip ControlSocket IperfParameters IperfTime IperfStreams IperfSession IperfStages IperfOrder

section Orders

variable {K Double : Type} [DecidableEq K] {lib : CLib Double} {clib : Strtod lib} {ints : Integers lib}
  {secs : Seconds lib} {hasTcpinfoRetransmits : Bool} {σ σ' : Network K Double} {k : K} {stage : Stage}
  {text : Bytes} {n : Nat}

def Keeps (σ σ' : Network K Double) (k : K) : Prop :=
  OutsideAt σ k → OutsideAt σ' k ∧
    turns (σ'.clients k).place (σ'.toClient k) ≤ turns (σ.clients k).place (σ.toClient k)

theorem Keeps.trans {σ'' : Network K Double} (h : Keeps σ σ' k) (h' : Keeps σ' σ'' k) : Keeps σ σ'' k := by
  intro hout
  obtain ⟨hout', hle⟩ := h hout
  obtain ⟨hout'', hle'⟩ := h' hout'
  exact ⟨hout'', hle'.trans hle⟩

theorem keeps_of_sameView (h : SameView σ σ' k) : Keeps σ σ' k := by
  intro hout
  refine ⟨hout.of_sameView h, ?_⟩
  rw [h.client, h.down]

theorem keeps_afterServer (listens : Bool) : Keeps σ (σ.afterServer listens) k := by
  intro hout
  refine ⟨hout.afterServer listens, ?_⟩
  have hclose : turns (σ.closeListener.clients k).place (σ.closeListener.toClient k) ≤
      turns (σ.clients k).place (σ.toClient k) := by
    simp only [Network.closeListener]
    split
    · cases (σ.clients k).place <;> cases σ.toClient k <;> simp [turns]
    · exact le_rfl
  rw [Network.afterServer]
  split
  · exact hclose
  · split
    · exact hclose
    · exact le_rfl

theorem orderly_served (h : Served clib ints secs hasTcpinfoRetransmits σ k stage text)
    (hothers : ∀ k' ≠ k, OutsideAt σ k')
    (hmoves : ∃ stage' text', stage'.rank < stage.rank ∧ Served clib ints secs hasTcpinfoRetransmits σ' k stage' text')
    (hkeeps : ∀ k' ≠ k, Keeps σ σ' k') :
    ∃ n', Orderly clib ints secs hasTcpinfoRetransmits σ' n' ∧ Closer σ σ' stage.rank n' := by
  obtain ⟨stage', text', hrank, h'⟩ := hmoves
  refine ⟨_, .served h' fun k' hne => (hkeeps k' hne (hothers k' hne)).1, ⟨hrank.le, fun k' => ?_, .inl hrank⟩⟩
  rw [turnsAt, turnsAt, h.ctrl_sck, h'.ctrl_sck]
  by_cases hk : k = k'
  · rw [if_pos (congrArg some hk), if_pos (congrArg some hk)]
  · have hne : ¬ some k = some k' := fun heq => hk (Option.some.inj heq)
    rw [if_neg hne, if_neg hne]
    exact (hkeeps k' (Ne.symm hk) (hothers k' (Ne.symm hk))).2

theorem orderly_outside (h : Orderly clib ints secs hasTcpinfoRetransmits σ n) (hk : σ.server.ctrl_sck ≠ some k)
    (hserver : σ'.server = σ.server) (hsame : ∀ k' ≠ k, SameView σ σ' k') (hout : OutsideAt σ' k)
    (hquiet : σ.server.ctrl_sck = none → σ'.toClient k = [] ∧ σ'.clientUp k)
    (hturns : turns (σ'.clients k).place (σ'.toClient k) < turns (σ.clients k).place (σ.toClient k)) :
    ∃ n', Orderly clib ints secs hasTcpinfoRetransmits σ' n' ∧ Closer σ σ' n n' := by
  have hcloser : Closer σ σ' n n := by
    refine ⟨le_rfl, fun k' => ?_, .inr ⟨k, ?_⟩⟩
    · rw [turnsAt, turnsAt, hserver]
      by_cases heq : k' = k
      · subst heq
        rw [if_neg hk, if_neg hk]
        exact hturns.le
      · rw [(hsame k' heq).client, (hsame k' heq).down]
    · rw [turnsAt, turnsAt, hserver, if_neg hk, if_neg hk]
      exact hturns
  cases h with
  | idle h =>
      refine ⟨600, .idle ?_, hcloser⟩
      exact {
        ctrl_sck := hserver ▸ h.ctrl_sck
        place := hserver ▸ h.place
        state := hserver ▸ h.state
        reset := hserver ▸ h.reset
        clients := fun k' => by
          by_cases heq : k' = k
          · exact heq ▸ hout
          · exact (h.clients k').of_sameView (hsame k' heq)
        quiet := fun k' => by
          by_cases heq : k' = k
          · exact heq ▸ hquiet h.ctrl_sck
          · obtain ⟨hdown, hup⟩ := h.quiet k'
            rw [(hsame k' heq).down, Network.clientUp, (hsame k' heq).client]
            exact ⟨hdown, hup⟩ }
  | @served k₀ stage text h hothers =>
      have hne : k₀ ≠ k := by
        rintro rfl
        exact hk h.ctrl_sck
      refine ⟨_, .served (h.of_sameView hserver (hsame k₀ hne)) fun k' hk' => ?_, hcloser⟩
      by_cases heq : k' = k
      · exact heq ▸ hout
      · exact (hothers k' hk').of_sameView (hsame k' heq)

theorem orderly_ctrl (h : Orderly clib ints secs hasTcpinfoRetransmits σ n) (hctrl : σ.server.ctrl_sck = some k) :
    ∃ stage text, Served clib ints secs hasTcpinfoRetransmits σ k stage text ∧ (∀ k' ≠ k, OutsideAt σ k') ∧
      n = stage.rank := by
  cases h with
  | idle h =>
      rw [h.ctrl_sck] at hctrl
      cases hctrl
  | @served k₀ stage text h hothers =>
      obtain rfl : k₀ = k := Option.some.inj (h.ctrl_sck.symm.trans hctrl)
      exact ⟨stage, text, h, hothers, rfl⟩

theorem orderly_outsideAt (h : Orderly clib ints secs hasTcpinfoRetransmits σ n) (hk : σ.server.ctrl_sck ≠ some k) :
    OutsideAt σ k := by
  cases h with
  | idle h => exact h.clients k
  | @served k₀ stage text h hothers =>
      refine hothers k ?_
      rintro rfl
      exact hk h.ctrl_sck

theorem orderly_connect (h : Orderly clib ints secs hasTcpinfoRetransmits σ n)
    (hplace : (σ.clients k).place = .start) :
    ∃ n', Orderly clib ints secs hasTcpinfoRetransmits
        ((σ.clientDoes k ({ σ.clients k with place := .select }, [])).connect (.control k)) n' ∧
      Closer σ ((σ.clientDoes k ({ σ.clients k with place := .select }, [])).connect (.control k)) n n' := by
  have hclient : ((σ.clientDoes k ({ σ.clients k with place := .select }, [])).connect (.control k)).clients k =
      { σ.clients k with place := .select } := by
    simp only [Network.connect, Network.clientDoes, Function.update_self]
  have hk : σ.server.ctrl_sck ≠ some k := by
    intro hctrl
    obtain ⟨stage, text, hserved, -⟩ := orderly_ctrl h hctrl
    exact stage.place_ne_start _ (hserved.place.symm.trans hplace)
  have hout := orderly_outsideAt h hk
  cases hout with
  | start _ hstate hup hdown hown hfresh =>
      refine orderly_outside h hk rfl (fun k' hne => (sameView_clientDoes hne _).trans (sameView_connect (Ne.symm hne)))
        ?_ (fun _ => ⟨hdown, ?_⟩) ?_
      · rw [OutsideAt, hclient]
        refine .waiting rfl hstate ?_ hdown ?_ hfresh
        · simp only [Network.connect, Network.clientDoes, Function.update_self, hup, List.append_nil]
        · have hown' : atListener (σ.clientDoes k ({ σ.clients k with place := .select }, [])) k = [] := hown
          rw [atListener_connect, hown']
          exact if_pos rfl
      · intro e
        rw [hclient]
        rintro ⟨⟩
      · rw [hclient, hplace]
        show turns .select (σ.toClient k) < _
        rw [hdown]
        decide
  | waiting hplace' | refused _ _ hplace' | gone _ _ hplace' =>
      rw [hplace] at hplace'
      cases hplace'

theorem serverUp_of_free (h : Orderly clib ints secs hasTcpinfoRetransmits σ n) (hctrl : σ.server.ctrl_sck = none) :
    Idle hasTcpinfoRetransmits σ ∧ σ.serverUp := by
  cases h with
  | idle h =>
      refine ⟨h, fun e he => ?_⟩
      rw [h.place] at he
      cases he
  | served h =>
      rw [h.ctrl_sck] at hctrl
      cases hctrl

theorem orderly_unconnected (h : Orderly clib ints secs hasTcpinfoRetransmits σ n)
    (hplace : (σ.clients k).place = .start) (hdown : ¬ σ.serverUp) :
    ∃ n', Orderly clib ints secs hasTcpinfoRetransmits
        (σ.clientDoes k ({ σ.clients k with place := .ended (some .IECONNECT) }, [])) n' ∧
      Closer σ (σ.clientDoes k ({ σ.clients k with place := .ended (some .IECONNECT) }, [])) n n' := by
  have hclient : (σ.clientDoes k ({ σ.clients k with place := .ended (some .IECONNECT) }, [])).clients k =
      { σ.clients k with place := .ended (some .IECONNECT) } := by
    simp only [Network.clientDoes, Function.update_self]
  have hk : σ.server.ctrl_sck ≠ some k := by
    intro hctrl
    obtain ⟨stage, text, hserved, -⟩ := orderly_ctrl h hctrl
    exact stage.place_ne_start _ (hserved.place.symm.trans hplace)
  have hout := orderly_outsideAt h hk
  cases hout with
  | start _ hstate hup hdown' hown hfresh =>
      refine orderly_outside h hk rfl (fun k' hne => sameView_clientDoes hne _) ?_
        (fun hctrl => (hdown (serverUp_of_free h hctrl).2).elim) ?_
      · rw [OutsideAt, hclient]
        exact .gone .IECONNECT (.inr (.inr rfl)) rfl hown
      · rw [hclient, hplace]
        show 0 < 3
        decide
  | waiting hplace' | refused _ _ hplace' | gone _ _ hplace' =>
      rw [hplace] at hplace'
      cases hplace'

theorem orderly_read (hshort : ShortNumbers lib) (h : Orderly clib ints secs hasTcpinfoRetransmits σ n)
    {m : Option Message} (hplace : (σ.clients k).place = .select)
    (hm : Receives (σ.serverUp ∨ σ.server.ctrl_sck ≠ some k) (σ.toClient k) m) :
    ∃ n', Orderly clib ints secs hasTcpinfoRetransmits
        ((σ.clientTook k).clientDoes k (clientRead ints secs m (σ.clients k))) n' ∧
      Closer σ ((σ.clientTook k).clientDoes k (clientRead ints secs m (σ.clients k))) n n' := by
  by_cases hk : σ.server.ctrl_sck = some k
  · obtain ⟨stage, text, hserved, hothers, rfl⟩ := orderly_ctrl h hk
    exact orderly_served hserved hothers (served_read hshort hserved hplace hm) fun k' hne =>
      keeps_of_sameView ((sameView_clientTook hne).trans (sameView_clientDoes hne _))
  · have hout := orderly_outsideAt h hk
    cases hout with
    | refused message hmessage _ hstate hdown hown =>
        rw [hdown] at hm
        cases hm with
        | message =>
            have hturned : ∃ e, (e = .IEACCESSDENIED ∨ e = .IERECVMESSAGE ∨ e = .IECONNECT) ∧
                (clientRead ints secs (some message) (σ.clients k)).1.place = .ended (some e) := by
              rcases hmessage with rfl | rfl
              · exact ⟨.IEACCESSDENIED, .inl rfl, rfl⟩
              · exact ⟨.IERECVMESSAGE, .inr (.inl rfl), rfl⟩
            obtain ⟨e, he, hended⟩ := hturned
            have hclient : ((σ.clientTook k).clientDoes k (clientRead ints secs (some message) (σ.clients k))).clients k =
                (clientRead ints secs (some message) (σ.clients k)).1 := by
              simp only [Network.clientDoes, Function.update_self]
            refine orderly_outside h hk rfl
              (fun k' hne => (sameView_clientTook hne).trans (sameView_clientDoes hne _)) ?_ (fun hctrl => ?_) ?_
            · rw [OutsideAt, hclient]
              exact .gone e he hended hown
            · have hquiet := ((serverUp_of_free h hctrl).1.quiet k).1
              rw [hdown] at hquiet
              cases hquiet
            · rw [hclient, hended, hplace, hdown]
              exact Nat.zero_lt_one
    | waiting _ hstate hup hdown hown hfresh =>
        rw [hdown] at hm
        cases hm with
        | closed hclosed => exact (hclosed (.inr hk)).elim
    | start hplace' | gone _ _ hplace' =>
        rw [hplace] at hplace'
        cases hplace'

theorem orderly_results (h : Orderly clib ints secs hasTcpinfoRetransmits σ n) {m : Option Message}
    (hplace : (σ.clients k).place = .results)
    (hm : Receives (σ.serverUp ∨ σ.server.ctrl_sck ≠ some k) (σ.toClient k) m) :
    ∃ n', Orderly clib ints secs hasTcpinfoRetransmits
        ((σ.clientTook k).clientDoes k (clientResults clib ints secs m (σ.clients k), [])) n' ∧
      Closer σ ((σ.clientTook k).clientDoes k (clientResults clib ints secs m (σ.clients k), [])) n n' := by
  by_cases hk : σ.server.ctrl_sck = some k
  · obtain ⟨stage, text, hserved, hothers, rfl⟩ := orderly_ctrl h hk
    exact orderly_served hserved hothers (served_results hserved hplace hm) fun k' hne =>
      keeps_of_sameView ((sameView_clientTook hne).trans (sameView_clientDoes hne _))
  · have hout := orderly_outsideAt h hk
    cases hout with
    | start hplace' | waiting hplace' | refused _ _ hplace' | gone _ _ hplace' =>
        rw [hplace] at hplace'
        cases hplace'

theorem creating_served (h : Orderly clib ints secs hasTcpinfoRetransmits σ n) {todo : List Bool}
    (hplace : (σ.clients k).place = .creating todo) :
    σ.serverUp ∧ ∃ stage text, Served clib ints secs hasTcpinfoRetransmits σ k stage text ∧ (∀ k' ≠ k, OutsideAt σ k') ∧
      n = stage.rank := by
  by_cases hk : σ.server.ctrl_sck = some k
  · obtain ⟨stage, text, hserved, hothers, rfl⟩ := orderly_ctrl h hk
    refine ⟨(serverUp_iff hserved).2 fun e he => ?_, stage, text, hserved, hothers, rfl⟩
    rw [hserved.place] at hplace
    cases stage with
    | creating => cases he
    | _ => cases hplace
  · have hout := orderly_outsideAt h hk
    cases hout with
    | start hplace' | waiting hplace' | refused _ _ hplace' | gone _ _ hplace' =>
        rw [hplace] at hplace'
        cases hplace'

theorem orderly_finish (h : Orderly clib ints secs hasTcpinfoRetransmits σ n) (hplace : (σ.clients k).place = .select)
    (hstate : (σ.clients k).state = .TEST_RUNNING) :
    ∃ n', Orderly clib ints secs hasTcpinfoRetransmits
        (σ.clientDoes k ({ σ.clients k with state := .TEST_END, done := true }, [.state .TEST_END])) n' ∧
      Closer σ (σ.clientDoes k ({ σ.clients k with state := .TEST_END, done := true }, [.state .TEST_END])) n n' := by
  by_cases hk : σ.server.ctrl_sck = some k
  · obtain ⟨stage, text, hserved, hothers, rfl⟩ := orderly_ctrl h hk
    exact orderly_served hserved hothers (served_finish hserved hplace hstate) fun k' hne =>
      keeps_of_sameView (sameView_clientDoes hne _)
  · have hout := orderly_outsideAt h hk
    cases hout with
    | waiting _ hstate' | refused _ _ _ hstate' =>
        rw [hstate] at hstate'
        cases hstate'
    | start hplace' | gone _ _ hplace' =>
        rw [hplace] at hplace'
        cases hplace'

/-- A connection at the listener that is not of the served client is that of a client that waits. -/
theorem waiting_of_head (h : Orderly clib ints secs hasTcpinfoRetransmits σ n) {c : Connection K}
    {rest : List (Connection K)} (hbacklog : σ.backlog = c :: rest) (hk : σ.server.ctrl_sck ≠ some c.cookie) :
    c = .control c.cookie ∧ (σ.clients c.cookie).place = .select ∧ (σ.clients c.cookie).state = .initial ∧
      σ.toServer c.cookie = [] ∧ σ.toClient c.cookie = [] ∧ atListener σ.accepted c.cookie = [] ∧
      Fresh (σ.clients c.cookie).test := by
  have hout := orderly_outsideAt h hk
  have hhead := atListener_accepted (k := c.cookie) hbacklog
  rw [if_pos rfl, List.singleton_append] at hhead
  cases hout with
  | waiting hplace hstate hup hdown hown hfresh =>
      rw [hown] at hhead
      obtain ⟨hc, hrest⟩ := List.cons.inj hhead
      exact ⟨hc.symm, hplace, hstate, hup, hdown, hrest.symm, hfresh⟩
  | start _ _ _ _ hown | refused _ _ _ _ _ hown | gone _ _ _ hown =>
      rw [hown] at hhead
      cases hhead

theorem orderly_stream (h : Orderly clib ints secs hasTcpinfoRetransmits σ n) {sender : Bool} {todo : List Bool}
    (hplace : (σ.clients k).place = .creating (sender :: todo)) :
    ∃ n', Orderly clib ints secs hasTcpinfoRetransmits
        ((σ.clientDoes k (createStream secs (σ.clients k).test.streams.length sender todo (σ.clients k), [])).connect
          (.stream k (σ.clients k).test.streams.length)) n' ∧
      Closer σ ((σ.clientDoes k (createStream secs (σ.clients k).test.streams.length sender todo (σ.clients k), [])).connect
        (.stream k (σ.clients k).test.streams.length)) n n' := by
  obtain ⟨-, stage, text, hserved, hothers, rfl⟩ := creating_served h hplace
  exact orderly_served hserved hothers (served_stream hserved hplace) fun k' hne =>
    keeps_of_sameView ((sameView_clientDoes hne _).trans (sameView_connect (Ne.symm hne)))

theorem orderly_accept (h : Orderly clib ints secs hasTcpinfoRetransmits σ n) {c : Connection K}
    {rest : List (Connection K)} (hctrl : σ.server.ctrl_sck = none) (hbacklog : σ.backlog = c :: rest) :
    ∃ n', Orderly clib ints secs hasTcpinfoRetransmits
        (σ.accepted.serverDoes c.cookie (acceptClient c.cookie σ.server, [.state .PARAM_EXCHANGE])) n' ∧
      Closer σ (σ.accepted.serverDoes c.cookie (acceptClient c.cookie σ.server, [.state .PARAM_EXCHANGE])) n n' := by
  have hk : σ.server.ctrl_sck ≠ some c.cookie := by
    rw [hctrl]
    rintro ⟨⟩
  obtain ⟨-, hplace, hstate, hup, hdown, hown, hfresh⟩ := waiting_of_head h hbacklog hk
  have hsame (k' : K) (hne : k' ≠ c.cookie) :
      SameView σ (σ.accepted.serverDoes c.cookie (acceptClient c.cookie σ.server, [.state .PARAM_EXCHANGE])) k' :=
    (sameView_accepted hbacklog (Ne.symm hne)).trans (sameView_serverDoes hne _)
  cases h with
  | idle h =>
      have hserved : Served clib ints secs hasTcpinfoRetransmits
          (σ.accepted.serverDoes c.cookie (acceptClient c.cookie σ.server, [.state .PARAM_EXCHANGE])) c.cookie .asked [] := by
        refine served_serverDoes rfl rfl rfl ?_ hup hown hplace hstate ⟨hfresh, ?_⟩
        · rw [show σ.accepted.toClient c.cookie = [] from hdown]
          rfl
        · exact {
            parameters := h.reset.parameters
            streams := h.reset.streams
            rec_streams_accepted := h.reset.rec_streams_accepted
            send_streams_accepted := h.reset.send_streams_accepted
            json_top := h.reset.json_top }
      refine ⟨_, .served hserved fun k' hne => (h.clients k').of_sameView (hsame k' hne), by decide, fun k' => ?_,
        .inl (by decide)⟩
      have hfree : ¬ (none : Option K) = some k' := by rintro ⟨⟩
      rw [turnsAt, turnsAt, hserved.ctrl_sck, hctrl, if_neg hfree]
      by_cases heq : c.cookie = k'
      · rw [if_pos (congrArg some heq)]
        exact Nat.zero_le _
      · rw [if_neg (fun hsome => heq (Option.some.inj hsome)), (hsame k' (Ne.symm heq)).client,
          (hsame k' (Ne.symm heq)).down]
  | served h =>
      rw [h.ctrl_sck] at hctrl
      cases hctrl

theorem deny_server (c : Connection K) : (σ.accepted.deny c).server = σ.server := by cases c <;> rfl

theorem orderly_deny (h : Orderly clib ints secs hasTcpinfoRetransmits σ n) {c : Connection K}
    {rest : List (Connection K)} (hctrl : σ.server.ctrl_sck = some k) (hbacklog : σ.backlog = c :: rest)
    (hcookie : c.cookie ≠ k) :
    ∃ n', Orderly clib ints secs hasTcpinfoRetransmits (σ.accepted.deny c) n' ∧ Closer σ (σ.accepted.deny c) n n' := by
  have hk : σ.server.ctrl_sck ≠ some c.cookie := by
    rw [hctrl]
    exact fun heq => hcookie (Option.some.inj heq).symm
  obtain ⟨hc, hplace, hstate, hup, hdown, hown, hfresh⟩ := waiting_of_head h hbacklog hk
  have hdeny : σ.accepted.deny c = σ.accepted.serverDoes c.cookie (σ.server, [.state .ACCESS_DENIED]) := by
    rw [hc]
    rfl
  have hdown' : (σ.accepted.serverDoes c.cookie (σ.server, [.state .ACCESS_DENIED])).toClient c.cookie =
      [.state .ACCESS_DENIED] := by
    simp only [Network.serverDoes, Network.accepted, Function.update_self, hdown, List.nil_append]
  rw [hdeny]
  refine orderly_outside h hk rfl
    (fun k' hne => (sameView_accepted hbacklog (Ne.symm hne)).trans (sameView_serverDoes hne _)) ?_
    (fun hnone => absurd (hctrl.symm.trans hnone) (Option.some_ne_none k)) ?_
  · exact .refused (.state .ACCESS_DENIED) (.inl rfl) hplace hstate hdown' hown
  · rw [hdown', hdown]
    show turns (σ.clients c.cookie).place _ < _
    rw [hplace]
    decide

/-- A connection at the listener that is not one of the streams of the served client is that of another client. -/
theorem cookie_ne (h : Orderly clib ints secs hasTcpinfoRetransmits σ n) {c : Connection K} {rest : List (Connection K)}
    (hctrl : σ.server.ctrl_sck = some k) (hstate : σ.server.state ≠ .CREATE_STREAMS) (hbacklog : σ.backlog = c :: rest) :
    c.cookie ≠ k := by
  intro hcookie
  obtain ⟨stage, text, hserved, -⟩ := orderly_ctrl h hctrl
  have hwaiting := hserved.waiting
  rw [atListener_accepted hbacklog, if_pos hcookie, List.singleton_append] at hwaiting
  cases stage with
  | creating i j => exact hstate hserved.serverState
  | _ => cases hwaiting

/-- While a stream is missing, the end of a round does nothing. -/
theorem roundEnd_denied (h : Orderly clib ints secs hasTcpinfoRetransmits σ n) {τ : Network K Double}
    (hctrl : σ.server.ctrl_sck = some k) (hstate : σ.server.state = .CREATE_STREAMS) (hserver : τ.server = σ.server) :
    τ.roundEnd k σ.server = τ := by
  obtain ⟨stage, text, hserved, -⟩ := orderly_ctrl h hctrl
  have hstage := hserved.serverState
  have hdata := hserved.data
  rw [hstate] at hstage
  have hwaits : startTest σ.server = (σ.server, []) ∧ σ.server.place = .select := by
    cases stage with
    | invited =>
        obtain ⟨⟨-, haccepted⟩, -, hpos⟩ := hdata
        exact ⟨haccepted.startTest.trans (if_neg hpos.ne), hserved.serverPlace⟩
    | creating i j =>
        obtain ⟨⟨-, haccepted⟩, -, -, hj⟩ := hdata
        exact ⟨haccepted.startTest.trans (if_neg hj.ne), hserved.serverPlace⟩
    | _ => cases hstage
  have hnothing : τ.serverDoes k (σ.server, []) = τ := by
    rw [Network.serverDoes, ← hserver, List.append_nil, Function.update_eq_self]
  rw [Network.roundEnd, hwaits.1, hnothing, hstate, show decide (State.CREATE_STREAMS = .TEST_RUNNING) = false from rfl,
    afterServer_false]
  intro e he
  rw [hserver, hwaits.2] at he
  cases he

theorem orderly_parameters (h : Orderly clib ints secs hasTcpinfoRetransmits σ n) {m : Option Message}
    (hplace : σ.server.place = .parameters) (hctrl : σ.server.ctrl_sck = some k)
    (hm : Receives (σ.clientUp k) (σ.toServer k) m) :
    ∃ n', Orderly clib ints secs hasTcpinfoRetransmits
        (((σ.serverTook k).serverDoes k (acceptParameters clib ints hasTcpinfoRetransmits m σ.server)).afterServer true) n' ∧
      Closer σ (((σ.serverTook k).serverDoes k
        (acceptParameters clib ints hasTcpinfoRetransmits m σ.server)).afterServer true) n n' := by
  obtain ⟨stage, text, hserved, hothers, rfl⟩ := orderly_ctrl h hctrl
  exact orderly_served hserved hothers (served_parameters hserved hplace hm) fun k' hne =>
    (keeps_of_sameView ((sameView_serverTook hne).trans (sameView_serverDoes hne _))).trans (keeps_afterServer _)

theorem orderly_acceptStream (h : Orderly clib ints secs hasTcpinfoRetransmits σ n) {c : Connection K}
    {rest : List (Connection K)} (hplace : σ.server.place = .select) (hstate : σ.server.state = .CREATE_STREAMS)
    (hctrl : σ.server.ctrl_sck = some k) (hbacklog : σ.backlog = c :: rest) (hcookie : c.cookie = k) :
    ∃ n', Orderly clib ints secs hasTcpinfoRetransmits
        (σ.accepted.roundEnd k (acceptStream secs c.socket σ.server)) n' ∧
      Closer σ (σ.accepted.roundEnd k (acceptStream secs c.socket σ.server)) n n' := by
  obtain ⟨stage, text, hserved, hothers, rfl⟩ := orderly_ctrl h hctrl
  exact orderly_served hserved hothers (served_acceptStream hserved hplace hstate hbacklog hcookie) fun k' hne =>
    (keeps_of_sameView ((sameView_accepted hbacklog (hcookie.trans_ne (Ne.symm hne))).trans
      (sameView_serverDoes hne _))).trans (keeps_afterServer _)

theorem orderly_message (h : Orderly clib ints secs hasTcpinfoRetransmits σ n) {m : Option Message}
    (hplace : σ.server.place = .select) (hctrl : σ.server.ctrl_sck = some k)
    (hm : Receives (σ.clientUp k) (σ.toServer k) m) :
    ∃ n', Orderly clib ints secs hasTcpinfoRetransmits
        (((σ.serverTook k).serverDoes k (serverRead m σ.server)).afterServer false) n' ∧
      Closer σ (((σ.serverTook k).serverDoes k (serverRead m σ.server)).afterServer false) n n' := by
  obtain ⟨stage, text, hserved, hothers, rfl⟩ := orderly_ctrl h hctrl
  exact orderly_served hserved hothers (served_serverRead hserved hplace hm) fun k' hne =>
    (keeps_of_sameView ((sameView_serverTook hne).trans (sameView_serverDoes hne _))).trans (keeps_afterServer _)

theorem orderly_serverResults (hshort : ShortNumbers lib) (h : Orderly clib ints secs hasTcpinfoRetransmits σ n)
    {m : Option Message} (hplace : σ.server.place = .results) (hctrl : σ.server.ctrl_sck = some k)
    (hm : Receives (σ.clientUp k) (σ.toServer k) m) :
    ∃ n', Orderly clib ints secs hasTcpinfoRetransmits
        (((σ.serverTook k).serverDoes k (serverResults clib ints secs m σ.server)).afterServer false) n' ∧
      Closer σ (((σ.serverTook k).serverDoes k (serverResults clib ints secs m σ.server)).afterServer false) n n' := by
  obtain ⟨stage, text, hserved, hothers, rfl⟩ := orderly_ctrl h hctrl
  exact orderly_served hserved hothers (served_serverResults hshort hserved hplace hm) fun k' hne =>
    (keeps_of_sameView ((sameView_serverTook hne).trans (sameView_serverDoes hne _))).trans (keeps_afterServer _)

/-- Whoever takes the next step, the session stays in order and comes closer to its end. -/
theorem orderly_act (hshort : ShortNumbers lib) (h : Orderly clib ints secs hasTcpinfoRetransmits σ n)
    (hact : Act clib ints secs hasTcpinfoRetransmits σ σ') :
    ∃ n', Orderly clib ints secs hasTcpinfoRetransmits σ' n' ∧ Closer σ σ' n n' := by
  cases hact with
  | connect k hplace hup => exact orderly_connect h hplace
  | unconnected k hplace hdown => exact orderly_unconnected h hplace hdown
  | read k hplace hm => exact orderly_read hshort h hplace hm
  | results k hplace hm => exact orderly_results h hplace hm
  | stream k hplace hup => exact orderly_stream h hplace
  | unstreamed k hplace hdown => exact (hdown (creating_served h hplace).1).elim
  | finish k hplace hstate => exact orderly_finish h hplace hstate
  | accept hplace hstate hctrl hbacklog => exact orderly_accept h hctrl hbacklog
  | deny k hplace hstate hctrl hbacklog => exact orderly_deny h hctrl hbacklog (cookie_ne h hctrl hstate hbacklog)
  | parameters k hplace hctrl hm => exact orderly_parameters h hplace hctrl hm
  | acceptStream k hplace hstate hctrl hbacklog hcookie =>
      exact orderly_acceptStream h hplace hstate hctrl hbacklog hcookie
  | denyStream k hplace hstate hctrl hbacklog hcookie =>
      obtain ⟨n', h', hcloser⟩ := orderly_deny h hctrl hbacklog hcookie
      rw [roundEnd_denied h hctrl hstate (deny_server _)]
      exact ⟨n', h', hcloser⟩
  | message k hplace hctrl hm => exact orderly_message h hplace hctrl hm
  | serverResults k hplace hctrl hm => exact orderly_serverResults hshort h hplace hctrl hm

theorem orderly_timeout (h : Orderly clib ints secs hasTcpinfoRetransmits σ n) (htimeout : Timeout σ σ') :
    ∃ n', Orderly clib ints secs hasTcpinfoRetransmits σ' n' ∧ Closer σ σ' n n' := by
  cases htimeout with
  | server hplace hstate hduration =>
      cases h with
      | idle h =>
          rw [h.state] at hstate
          cases hstate
      | served hserved hothers =>
          refine orderly_served hserved hothers (served_timeout hserved hplace hstate hduration) fun k' _ => ?_
          have hsame : SameView σ { σ with server := serverTimerProc σ.server } k' := ⟨rfl, rfl, rfl, rfl⟩
          exact (keeps_of_sameView hsame).trans (keeps_afterServer false)

section Measuring

variable {c s test : Test Double} {c' : Client Double}

theorem matched_client (h : Matched hasTcpinfoRetransmits c s) (htest : Measured c test) :
    Matched hasTcpinfoRetransmits test s where
  dual := by
    rw [htest.parameters]
    exact h.dual
  ends := by
    rw [ends_iff, htest.ids, htest.sockets, htest.senders]
    exact ends_iff.1 h.ends
  ids := by
    rw [htest.ids]
    exact h.ids
  senders := by
    rw [htest.senders, htest.parameters]
    exact h.senders
  fits := htest.fits
  server_fits := h.server_fits

theorem matched_server (h : Matched hasTcpinfoRetransmits c s) (htest : Measured s test) :
    Matched hasTcpinfoRetransmits c test where
  dual := by
    rw [htest.parameters]
    exact h.dual
  ends := by
    rw [ends_iff, htest.ids, htest.sockets, htest.senders]
    exact ends_iff.1 h.ends
  ids := h.ids
  senders := h.senders
  fits := h.fits
  server_fits := htest.fits

theorem served_measureClient (h : Served clib ints secs hasTcpinfoRetransmits σ k stage text)
    (hplace : (σ.clients k).place = .select)
    (hstate : (σ.clients k).state = .TEST_RUNNING ∨ (σ.clients k).state = .TEST_END)
    (htest : Transferred (σ.clients k) c') :
    Served clib ints secs hasTcpinfoRetransmits (σ.clientDoes k (c', [])) k stage text := by
  have hdata := h.data
  have hplace' := h.place
  rw [hplace] at hplace'
  have hserved (hplace : .select = stage.place (streamFlags c'.test.toParameters))
      (hdata : stage.Data clib ints secs hasTcpinfoRetransmits c'.test σ.server text) :
      Served clib ints secs hasTcpinfoRetransmits (σ.clientDoes k (c', [])) k stage text :=
    served_clientDoes h.ctrl_sck h.serverPlace h.serverState h.down (by rw [List.append_nil]; exact h.up) h.waiting
      ((htest.place.trans ‹(σ.clients k).place = .select›).trans hplace) (htest.state.trans h.state) hdata
  rw [h.state] at hstate
  cases stage with
  | running | ending | exchanging => exact hserved rfl (matched_client hdata htest.test)
  | cutRunning | cutEnding =>
      refine hserved rfl ?_
      rw [Stage.Data, htest.test.parameters]
      exact hdata
  | lost | lostEnding => cases hplace'
  | _ => rcases hstate with hstate | hstate <;> cases hstate

theorem served_measureServer (h : Served clib ints secs hasTcpinfoRetransmits σ k stage text)
    (hplace : σ.server.place = .select) (hstate : σ.server.state = .TEST_RUNNING) (htest : Measured σ.server.test test) :
    Served clib ints secs hasTcpinfoRetransmits { σ with server := { σ.server with test } } k stage text := by
  have hdata := h.data
  have hplace' := h.serverPlace
  have hstate' := h.serverState
  rw [hplace] at hplace'
  rw [hstate] at hstate'
  refine { h with data := ?_ }
  cases stage with
  | early => exact ⟨matched_server hdata.1 htest, hdata.2⟩
  | starting | started | running | ending => exact matched_server hdata htest
  | cutEarly | cutStarting | cutStarted | cutRunning | cutEnding | lost | lostEnding => cases hplace'
  | _ => cases hstate'

/-- What the transfer of data changes does not change the order. -/
theorem orderly_measure (h : Orderly clib ints secs hasTcpinfoRetransmits σ n) (hmeasure : Measure σ σ') :
    Orderly clib ints secs hasTcpinfoRetransmits σ' n ∧ ∀ k, turnsAt σ' k = turnsAt σ k := by
  cases hmeasure with
  | @client k c hplace hstate htest =>
      have hk : σ.server.ctrl_sck = some k := by
        by_contra hk
        have hout := orderly_outsideAt h hk
        cases hout with
        | waiting _ hstate' | refused _ _ _ hstate' =>
            rw [hstate'] at hstate
            rcases hstate with hstate | hstate <;> cases hstate
        | start hplace' | gone _ _ hplace' =>
            rw [hplace] at hplace'
            cases hplace'
      obtain ⟨stage, text, hserved, hothers, rfl⟩ := orderly_ctrl h hk
      refine ⟨.served (served_measureClient hserved hplace hstate htest) fun k' hne =>
        (hothers k' hne).of_sameView (sameView_clientDoes hne _), fun k' => ?_⟩
      rw [turnsAt, turnsAt]
      by_cases heq : k' = k
      · rw [heq, if_pos hk]
        exact if_pos hk
      · simp only [Network.clientDoes, Function.update_of_ne heq]
  | server hplace hstate htest =>
      refine ⟨?_, fun k' => rfl⟩
      cases h with
      | idle h =>
          rw [h.state] at hstate
          cases hstate
      | served hserved hothers => exact .served (served_measureServer hserved hplace hstate htest) hothers

end Measuring

end Orders

section Settings

variable {K Double : Type} [DecidableEq K] {lib : CLib Double} {clib : Strtod lib} {ints : Integers lib}
  {secs : Seconds lib} {hasTcpinfoRetransmits : Bool} {σ σ' : Network K Double} {k : K}

/-- A test whose parameters are still those of the command line, but for what the
other side says of its retransmits. -/
def SameSettings (c c' : Test Double) : Prop :=
  ∃ sender_has_retransmits, c'.toParameters = { c.toParameters with sender_has_retransmits }

theorem SameSettings.refl (c : Test Double) : SameSettings c c := ⟨_, rfl⟩

theorem SameSettings.trans {c c' c'' : Test Double} (h : SameSettings c c') (h' : SameSettings c' c'') :
    SameSettings c c'' := by
  obtain ⟨n, hn⟩ := h
  obtain ⟨n', hn'⟩ := h'
  exact ⟨n', by rw [hn', hn]⟩

theorem SameSettings.of_eq {c c' : Test Double} (h : c'.toParameters = c.toParameters) : SameSettings c c' := ⟨_, h⟩

theorem getServerOutput_parameters (j : CJSON Double) (test : Test Double) :
    (getServerOutput j test).1.toParameters = test.toParameters := by
  rw [getServerOutput]
  split
  · split
    · rfl
    · split <;> rfl
  · rfl

theorem getRetransmits_settings (n : Int32) (test : Test Double) : SameSettings test (getRetransmits n test) := by
  rw [getRetransmits]
  split
  · exact ⟨n, rfl⟩
  · exact .of_eq rfl
  · exact .refl test

theorem getResults_settings (j : Option (CJSON Double)) (test : Test Double) :
    SameSettings test (getResults ints secs j test).1 := by
  cases j with
  | none => exact .refl test
  | some j =>
      have hreports : SameSettings test (getReports ints secs j test).1 := by
        rw [getReports]
        split
        · exact .refl test
        · rename_i remote_cpu_util n hheader
          have hn : SameSettings test (getRetransmits n { test with remote_cpu_util }) :=
            .trans (.of_eq rfl) (getRetransmits_settings n _)
          dsimp only
          split
          · exact hn
          · exact hn.trans (.of_eq (getServerOutput_parameters _ _))
      exact hreports.trans (.of_eq rfl)

theorem clientRead_test (m : Option Message) (c : Client Double) : (clientRead ints secs m c).1.test = c.test := by
  have hhandle (state : State) : (iperfHandleMessageClient ints secs state c).1.test = c.test := by
    cases state with
    | PARAM_EXCHANGE | EXCHANGE_RESULTS =>
        rw [iperfHandleMessageClient]
        dsimp only
        split <;> rfl
    | _ => rfl
  cases m with
  | none => rfl
  | some m =>
      cases m with
      | state state => exact hhandle state
      | _ => rfl

theorem clientResults_test (m : Option Message) (c : Client Double) :
    (clientResults clib ints secs m c).test = (getResults ints secs (readTree clib m) c.test).1 := by
  rw [clientResults]
  split <;> rename_i heq <;> rw [heq]

theorem deny_clients (c : Connection K) : (σ.deny c).clients = σ.clients := by cases c <;> rfl

theorem afterServer_clients (listens : Bool) : (σ.afterServer listens).clients = σ.clients := by
  rw [Network.afterServer]
  split
  · rfl
  · split <;> rfl

theorem afterServer_server (listens : Bool) : (σ.afterServer listens).server = σ.server := by
  rw [Network.afterServer]
  split
  · rfl
  · split <;> rfl

theorem clientDoes_settings {k' : K} {c : Client Double} {msgs : List Message}
    (h : SameSettings (σ.clients k').test c.test) :
    SameSettings (σ.clients k).test ((σ.clientDoes k' (c, msgs)).clients k).test := by
  by_cases heq : k = k'
  · subst heq
    simpa only [Network.clientDoes, Function.update_self] using h
  · rw [(sameView_clientDoes heq _).client]
    exact .refl _

theorem act_settings (hact : Act clib ints secs hasTcpinfoRetransmits σ σ') (k : K) :
    SameSettings (σ.clients k).test (σ'.clients k).test := by
  cases hact with
  | connect k' | unconnected k' | unstreamed k' | finish k' => exact clientDoes_settings (.refl _)
  | read k' => exact clientDoes_settings (.of_eq (congrArg _ (clientRead_test _ _)))
  | results k' =>
      refine clientDoes_settings ?_
      rw [clientResults_test]
      exact getResults_settings _ _
  | stream k' => exact clientDoes_settings (.of_eq rfl)
  | accept => exact .refl _
  | deny k' =>
      rw [deny_clients]
      exact .refl _
  | denyStream k' =>
      rw [Network.roundEnd, afterServer_clients]
      exact .of_eq (by rw [Network.serverDoes, deny_clients]; rfl)
  | acceptStream k' =>
      rw [Network.roundEnd, afterServer_clients]
      exact .refl _
  | parameters k' | message k' | serverResults k' =>
      rw [afterServer_clients]
      exact .refl _

theorem measure_settings (hmeasure : Measure σ σ') (k : K) : SameSettings (σ.clients k).test (σ'.clients k).test := by
  cases hmeasure with
  | client k' hplace hstate htest => exact clientDoes_settings (.of_eq htest.test.parameters)
  | server => exact .refl _

theorem timeout_settings (htimeout : Timeout σ σ') (k : K) : SameSettings (σ.clients k).test (σ'.clients k).test := by
  cases htimeout with
  | server =>
      rw [afterServer_clients]
      exact .refl _

end Settings

section Errors

variable {K Double : Type} [DecidableEq K] {lib : CLib Double} {clib : Strtod lib} {ints : Integers lib}
  {secs : Seconds lib} {hasTcpinfoRetransmits : Bool} {σ σ' : Network K Double}

theorem getStream_error (j_streams : List (CJSON Double)) (s : List (Stream Double) × Option Error) :
    (j_streams.foldl (getStream ints secs) s).2 ∈ [s.2, some .IERECVRESULTS, some .IESTREAMID] := by
  induction j_streams generalizing s with
  | nil => simp
  | cons j_stream j_streams ih =>
      have hstep : (getStream ints secs s j_stream).2 ∈ [s.2, some .IERECVRESULTS, some .IESTREAMID] := by
        rw [getStream]
        split
        · simp
        · split <;> simp
      have hrest := ih (getStream ints secs s j_stream)
      simp only [List.mem_cons, List.not_mem_nil, or_false] at hstep hrest ⊢
      rw [List.foldl_cons]
      rcases hrest with hrest | hrest
      · rw [hrest]
        exact hstep
      · exact .inr hrest

theorem getResults_error (j : Option (CJSON Double)) (test : Test Double) :
    (getResults ints secs j test).2 ∈ [none, some .IERECVRESULTS, some .IESTREAMID] := by
  cases j with
  | none => simp [getResults]
  | some j =>
      have hreports : (getReports ints secs j test).2.2 ∈ [none, some .IERECVRESULTS, some .IESTREAMID] := by
        rw [getReports]
        split
        · simp
        · dsimp only
          split
          · simp
          · exact getStream_error _ (_, none)
      exact hreports

/-- Only its timer, and a call that fails, make the `select` of a server fail. -/
theorem act_server (hact : Act clib ints secs hasTcpinfoRetransmits σ σ')
    (hplace : σ.server.place ≠ .ended (some .IESELECT)) : σ'.server.place ≠ .ended (some .IESELECT) := by
  have hstart (s : Server K Double) : (startTest s).1.place = s.place := by
    rw [startTest]
    split <;> rfl
  cases hact with
  | connect | unconnected | read | results | stream | unstreamed | finish => exact hplace
  | accept => rintro ⟨⟩
  | deny =>
      rw [deny_server]
      exact hplace
  | @parameters k m =>
      rw [afterServer_server]
      show (acceptParameters clib ints hasTcpinfoRetransmits m σ.server).1.place ≠ _
      rw [acceptParameters]
      split
      · rintro ⟨⟩
      · dsimp only
        rw [hstart]
        rintro ⟨⟩
  | @acceptStream k c =>
      rw [Network.roundEnd, afterServer_server]
      show (startTest (acceptStream secs c.socket σ.server)).1.place ≠ _
      rw [hstart, acceptStream]
      dsimp only
      split
      · exact hplace
      · split <;> exact hplace
  | denyStream k =>
      rw [Network.roundEnd, afterServer_server]
      show (startTest σ.server).1.place ≠ _
      rw [hstart]
      exact hplace
  | @message k m hselect =>
      rw [afterServer_server]
      show (serverRead m σ.server).1.place ≠ _
      rcases m with - | ⟨state | _ | _ | _⟩
      · rintro ⟨⟩
      · cases state with
        | TEST_START => exact hplace
        | _ => rintro ⟨⟩
      all_goals rintro ⟨⟩
  | @serverResults k m =>
      rw [afterServer_server]
      show (serverResults clib ints secs m σ.server).1.place ≠ _
      have herror := @getResults_error _ _ ints secs (readTree clib m) σ.server.test
      rw [serverResults]
      split
      · rename_i heq
        rw [heq] at herror
        rintro ⟨⟩
        simp at herror
      · split <;> rintro ⟨⟩

end Errors

section Runs

variable {K Double : Type} [DecidableEq K] {lib : CLib Double} (clib : Strtod lib) (ints : Integers lib)
  (secs : Seconds lib) (hasTcpinfoRetransmits : Bool) {σ σ' : Network K Double} {n N : Nat}

inductive Run (σ : Network K Double) : Nat → Network K Double → Prop
  | start : Run σ 0 σ
  | act {n : Nat} {τ τ' : Network K Double} (h : Run σ n τ) (hact : Act clib ints secs hasTcpinfoRetransmits τ τ') :
      Run σ (n + 1) τ'
  | timeout {n : Nat} {τ τ' : Network K Double} (h : Run σ n τ) (htimeout : Timeout τ τ') : Run σ (n + 1) τ'
  | measure {n : Nat} {τ τ' : Network K Double} (h : Run σ n τ) (hmeasure : Measure τ τ') : Run σ n τ'

structure Ready (σ : Network K Double) : Prop where
  place : ∀ k, (σ.clients k).place = .start
  state : ∀ k, (σ.clients k).state = .initial
  fresh : ∀ k, Fresh (σ.clients k).test
  serverPlace : σ.server.place = .select
  serverState : σ.server.state = .IPERF_START
  ctrl_sck : σ.server.ctrl_sck = none
  reset : Reset hasTcpinfoRetransmits σ.server
  backlog : σ.backlog = []
  up : ∀ k, σ.toServer k = []
  down : ∀ k, σ.toClient k = []

/-- The session has come to its end: one client was served, or cut off, the others were not. -/
structure Finished (σ : Network K Double) (k : K) : Prop where
  ctrl_sck : σ.server.ctrl_sck = some k
  served : σ.server.place = .ended none ∧ (σ.clients k).place = .ended none ∨
    σ.server.place = .ended (some .IESELECT) ∧ (σ.clients k).place = .ended (some .IECTRLCLOSE)
  others : ∀ k' ≠ k, ∃ e, (e = .IEACCESSDENIED ∨ e = .IERECVMESSAGE ∨ e = .IECONNECT) ∧
    (σ.clients k').place = .ended (some e)

variable {clib ints secs hasTcpinfoRetransmits}

theorem idle_of_ready (h : Ready hasTcpinfoRetransmits σ) : Idle hasTcpinfoRetransmits σ where
  ctrl_sck := h.ctrl_sck
  place := h.serverPlace
  state := h.serverState
  reset := h.reset
  clients := fun k => .start (h.place k) (h.state k) (h.up k) (h.down k) (by rw [atListener, h.backlog]; rfl) (h.fresh k)
  quiet := fun k => ⟨h.down k, fun e he => by
    rw [h.place k] at he
    cases he⟩

theorem orderly_run (hshort : ShortNumbers lib) (hready : Ready hasTcpinfoRetransmits σ)
    (h : Run clib ints secs hasTcpinfoRetransmits σ n σ') : ∃ N, Orderly clib ints secs hasTcpinfoRetransmits σ' N := by
  induction h with
  | start => exact ⟨600, .idle (idle_of_ready hready)⟩
  | act _ hact ih =>
      obtain ⟨N, horderly⟩ := ih
      obtain ⟨N', horderly', -⟩ := orderly_act hshort horderly hact
      exact ⟨N', horderly'⟩
  | timeout _ htimeout ih =>
      obtain ⟨N, horderly⟩ := ih
      obtain ⟨N', horderly', -⟩ := orderly_timeout horderly htimeout
      exact ⟨N', horderly'⟩
  | measure _ hmeasure ih =>
      obtain ⟨N, horderly⟩ := ih
      exact ⟨N, (orderly_measure horderly hmeasure).1⟩

theorem settings_run (h : Run clib ints secs hasTcpinfoRetransmits σ n σ') (k : K) :
    SameSettings (σ.clients k).test (σ'.clients k).test := by
  induction h with
  | start => exact .refl _
  | act _ hact ih => exact ih.trans (act_settings hact k)
  | timeout _ htimeout ih => exact ih.trans (timeout_settings htimeout k)
  | measure _ hmeasure ih => exact ih.trans (measure_settings hmeasure k)

theorem closed_afterServer (listens : Bool) (hdown : ¬ (σ.afterServer listens).serverUp) :
    (σ.afterServer listens).backlog = [] := by
  rw [Network.afterServer] at hdown ⊢
  split at hdown
  · rfl
  · rename_i hup
    split
    · rfl
    · rename_i hopen
      rw [if_neg hopen] at hdown
      exact (hdown hup).elim

/-- Nothing waits at the listener of a server that has ended. -/
theorem closed_run (hready : Ready hasTcpinfoRetransmits σ) (h : Run clib ints secs hasTcpinfoRetransmits σ n σ') :
    ¬ σ'.serverUp → σ'.backlog = [] := by
  induction h with
  | start => exact fun _ => hready.backlog
  | act _ hact ih =>
      cases hact with
      | connect k hplace hup | stream k hplace hup => exact fun hdown => (hdown hup).elim
      | unconnected | read | results | unstreamed | finish => exact ih
      | accept => exact fun hdown => (hdown (by rintro e ⟨⟩)).elim
      | deny k hplace =>
          intro hdown
          refine (hdown fun e he => ?_).elim
          rw [deny_server, hplace] at he
          cases he
      | parameters | message | serverResults | acceptStream | denyStream => exact closed_afterServer _
  | timeout _ htimeout =>
      cases htimeout with
      | server => exact closed_afterServer _
  | measure _ hmeasure ih =>
      cases hmeasure with
      | client => exact ih
      | server => exact ih

/-- A served client ends with the results, or because its server was ended by its timer. -/
theorem served_ended {k : K} {stage : Stage} {text : Bytes} {e : Option Error}
    (h : Served clib ints secs hasTcpinfoRetransmits σ k stage text) (he : (σ.clients k).place = .ended e) :
    (e = none ∧ ∃ c s, Matched hasTcpinfoRetransmits c s ∧ Exchanged secs c s (σ.clients k).test σ.server.test) ∨
      e = some .IECTRLCLOSE ∧ σ.server.place = .ended (some .IESELECT) := by
  have hdata := h.data
  rw [h.place] at he
  cases stage with
  | leaving | done =>
      cases he
      exact .inl ⟨rfl, hdata⟩
  | lost | lostEnding =>
      cases he
      exact .inr ⟨rfl, h.serverPlace⟩
  | creating i j =>
      rw [Stage.place] at he
      rcases creating_cases ((streamFlags (σ.clients k).test.toParameters).drop i) with ⟨-, heq⟩ | ⟨-, heq⟩ <;>
        rw [heq] at he <;> cases he
  | _ => cases he

theorem served_serverEnded {k : K} {stage : Stage} {text : Bytes} {e : Option Error}
    (h : Served clib ints secs hasTcpinfoRetransmits σ k stage text) (he : σ.server.place = .ended e) :
    (e = none ∧ stage = .done) ∨ e = some .IESELECT ∧ (σ.clients k).test.duration ≠ 0 := by
  have hdata := h.data
  rw [h.serverPlace] at he
  cases stage with
  | done =>
      cases he
      exact .inl ⟨rfl, rfl⟩
  | cutEarly =>
      cases he
      exact .inr ⟨rfl, hdata.1⟩
  | cutStarting | cutStarted | cutRunning | cutEnding | lost | lostEnding =>
      cases he
      exact .inr ⟨rfl, hdata⟩
  | _ => cases he

theorem outside_ended {k : K} (h : OutsideAt σ k) {e : Option Error} (he : (σ.clients k).place = .ended e) :
    ∃ e', e = some e' ∧ (e' = .IEACCESSDENIED ∨ e' = .IERECVMESSAGE ∨ e' = .IECONNECT) := by
  cases h with
  | gone e' he' hplace =>
      rw [he] at hplace
      cases hplace
      exact ⟨e', rfl, he'⟩
  | start hplace | waiting hplace | refused _ _ hplace =>
      rw [he] at hplace
      cases hplace

/-- A client has an error if it was turned away, or if the timer of its server has cut it off. -/
theorem ended_with_error (h : Orderly clib ints secs hasTcpinfoRetransmits σ N) {k : K} {e : Error}
    (he : (σ.clients k).place = .ended (some e)) :
    σ.server.ctrl_sck ≠ some k ∧ (e = .IEACCESSDENIED ∨ e = .IERECVMESSAGE ∨ e = .IECONNECT) ∨
      σ.server.ctrl_sck = some k ∧ e = .IECTRLCLOSE ∧ σ.server.place = .ended (some .IESELECT) := by
  by_cases hk : σ.server.ctrl_sck = some k
  · obtain ⟨stage, text, hserved, -⟩ := orderly_ctrl h hk
    rcases served_ended hserved he with ⟨heq, -⟩ | ⟨heq, hserver⟩
    · cases heq
    · exact .inr ⟨hk, Option.some.inj heq, hserver⟩
  · obtain ⟨e', heq, he'⟩ := outside_ended (orderly_outsideAt h hk) he
    exact .inl ⟨hk, Option.some.inj heq ▸ he'⟩

theorem ended_served (hrun : Run clib ints secs hasTcpinfoRetransmits σ n σ')
    (h : Orderly clib ints secs hasTcpinfoRetransmits σ' N) {k : K} (he : (σ'.clients k).place = .ended none) :
    σ'.server.ctrl_sck = some k ∧ ∃ c s, SameSettings (σ.clients k).test c ∧ Matched hasTcpinfoRetransmits c s ∧
      Exchanged secs c s (σ'.clients k).test σ'.server.test := by
  have hk : σ'.server.ctrl_sck = some k := by
    by_contra hk
    obtain ⟨e', heq, -⟩ := outside_ended (orderly_outsideAt h hk) he
    cases heq
  obtain ⟨stage, text, hserved, -⟩ := orderly_ctrl h hk
  rcases served_ended hserved he with ⟨-, c, s, hmatched, hexchanged⟩ | ⟨heq, -⟩
  · obtain ⟨_, hsettings⟩ := settings_run hrun k
    -- what the client has taken over since is put back
    have hback := congrArg (fun p : Parameters => { p with sender_has_retransmits := c.sender_has_retransmits })
      (hexchanged.client.parameters.symm.trans hsettings)
    exact ⟨hk, c, s, ⟨_, hback⟩, hmatched, hexchanged⟩
  · cases heq

theorem server_ended (hrun : Run clib ints secs hasTcpinfoRetransmits σ n σ')
    (h : Orderly clib ints secs hasTcpinfoRetransmits σ' N) {e : Option Error} (he : σ'.server.place = .ended e) :
    ∃ k, σ'.server.ctrl_sck = some k ∧
      (e = none ∧ (σ'.clients k).place = .ended none ∨ e = some .IESELECT ∧ (σ.clients k).test.duration ≠ 0) := by
  cases h with
  | idle h =>
      rw [h.place] at he
      cases he
  | @served k stage text hserved =>
      refine ⟨k, hserved.ctrl_sck, ?_⟩
      rcases served_serverEnded hserved he with ⟨rfl, rfl⟩ | ⟨rfl, hduration⟩
      · exact .inl ⟨rfl, hserved.place⟩
      · obtain ⟨_, hsettings⟩ := settings_run hrun k
        rw [hsettings] at hduration
        exact .inr ⟨rfl, hduration⟩

/-- A client that is turned away has an error, and one that is served comes away
without one, with the same results as the server. The server ends after its client.
Only the timer of a test with a duration makes an exception: it ends the server, and
the client notices that. -/
theorem session_agrees (hshort : ShortNumbers lib) (hready : Ready hasTcpinfoRetransmits σ)
    (hrun : Run clib ints secs hasTcpinfoRetransmits σ n σ') :
    (∀ k e, (σ'.clients k).place = .ended (some e) →
      σ'.server.ctrl_sck ≠ some k ∧ (e = .IEACCESSDENIED ∨ e = .IERECVMESSAGE ∨ e = .IECONNECT) ∨
      σ'.server.ctrl_sck = some k ∧ e = .IECTRLCLOSE ∧ σ'.server.place = .ended (some .IESELECT)) ∧
    (∀ k, (σ'.clients k).place = .ended none → σ'.server.ctrl_sck = some k ∧
      ∃ c s, SameSettings (σ.clients k).test c ∧ Matched hasTcpinfoRetransmits c s ∧
        Exchanged secs c s (σ'.clients k).test σ'.server.test) ∧
    ∀ e, σ'.server.place = .ended e → ∃ k, σ'.server.ctrl_sck = some k ∧
      (e = none ∧ (σ'.clients k).place = .ended none ∨ e = some .IESELECT ∧ (σ.clients k).test.duration ≠ 0) := by
  obtain ⟨N, horderly⟩ := orderly_run hshort hready hrun
  exact ⟨fun k e => ended_with_error horderly, fun k => ended_served hrun horderly, fun e => server_ended hrun horderly⟩

section Testing

/-- A test that comes to an end: it has a duration, or a limit to what one of its streams sends. -/
def Limited (test : Parameters) : Prop :=
  test.duration ≠ 0 ∨ (test.bytes ≠ 0 ∨ test.blocks ≠ 0) ∧ true ∈ streamFlags test

theorem Limited.of_sameSettings {c c' : Test Double} (h : Limited c.toParameters) (hsame : SameSettings c c') :
    Limited c'.toParameters := by
  obtain ⟨_, heq⟩ := hsame
  rw [heq]
  exact h

theorem transferred_done {c : Client Double} (hfits : Fits c.test)
    (hsenders : c.test.streams.map Stream.sender = streamFlags c.test.toParameters) (hlimited : Limited c.test.toParameters) :
    ∃ c', Transferred c c' ∧ TestDone c' := by
  have hmeasured : Measured c.test c.test := ⟨rfl, rfl, rfl, rfl, hfits⟩
  rcases hlimited with hduration | ⟨hlimit, hsends⟩
  · refine ⟨{ c with omitting := false, done := true }, ?_, Bool.false_ne_true, .inl ⟨hduration, rfl⟩⟩
    exact ⟨rfl, rfl, hmeasured, fun h => (Bool.false_ne_true h).elim, .inr ⟨hduration, rfl⟩, .inl rfl, .inl rfl⟩
  · have hsender : ∃ sp ∈ c.test.streams, sp.sender := by
      rw [← hsenders] at hsends
      exact List.mem_map.1 hsends
    refine ⟨{ c with omitting := false, bytes_sent := c.test.bytes, blocks_sent := c.test.blocks }, ?_,
      Bool.false_ne_true, .inr (hlimit.imp (fun h => ⟨h, UInt64.le_refl _⟩) fun h => ⟨h, UInt64.le_refl _⟩)⟩
    exact ⟨rfl, rfl, hmeasured, fun h => (Bool.false_ne_true h).elim, .inl rfl, .inr (.inr hsender), .inr (.inr hsender)⟩

variable (clib ints secs hasTcpinfoRetransmits)

/-- The test of a served client runs. If it is limited, data and timers can bring it to its end. -/
structure Testing (σ : Network K Double) (k : K) : Prop where
  ctrl_sck : σ.server.ctrl_sck = some k
  place : (σ.clients k).place = .select
  state : (σ.clients k).state = .TEST_RUNNING
  going : ¬ TestDone (σ.clients k)
  ends : Limited (σ.clients k).test.toParameters →
    ∃ τ τ', Measure σ τ ∧ Act clib ints secs hasTcpinfoRetransmits τ τ'

end Testing

theorem listener_act {k : K} (hctrl : σ.server.ctrl_sck = some k) (hplace : σ.server.place = .select) (hbacklog : σ.backlog ≠ []) :
    ∃ τ, Act clib ints secs hasTcpinfoRetransmits σ τ := by
  obtain ⟨c, rest, hhead⟩ := List.exists_cons_of_ne_nil hbacklog
  by_cases hstate : σ.server.state = .CREATE_STREAMS
  · by_cases hcookie : c.cookie = k
    · exact ⟨_, .acceptStream k hplace hstate hctrl hhead hcookie⟩
    · exact ⟨_, .denyStream k hplace hstate hctrl hhead hcookie⟩
  · exact ⟨_, .deny k hplace hstate hctrl hhead⟩

theorem testing_of_running {k : K} (hctrl : σ.server.ctrl_sck = some k) (hplace : (σ.clients k).place = .select)
    (hstate : (σ.clients k).state = .TEST_RUNNING) (hgoing : ¬ TestDone (σ.clients k))
    (hmatched : Matched hasTcpinfoRetransmits (σ.clients k).test σ.server.test) :
    Testing clib ints secs hasTcpinfoRetransmits σ k := by
  refine ⟨hctrl, hplace, hstate, hgoing, fun hlimited => ?_⟩
  obtain ⟨c, htransferred, hdone⟩ := transferred_done hmatched.fits hmatched.senders hlimited
  have hclient : (σ.clientDoes k (c, [])).clients k = c := by
    simp only [Network.clientDoes, Function.update_self]
  refine ⟨_, _, .client k hplace (.inl hstate) htransferred, .finish k ?_ ?_ ?_⟩
  · rw [hclient, htransferred.place, hplace]
  · rw [hclient, htransferred.state, hstate]
  · rwa [hclient]

/-- Until the server and its client have ended, one of them can take a step, or the test runs. -/
theorem served_act {k : K} {stage : Stage} {text : Bytes}
    (h : Served clib ints secs hasTcpinfoRetransmits σ k stage text) (hup : σ.serverUp ∨ σ.clientUp k) :
    (∃ τ, Act clib ints secs hasTcpinfoRetransmits σ τ) ∨ Testing clib ints secs hasTcpinfoRetransmits σ k := by
  have hdata := h.data
  have hread (hplace : (σ.clients k).place = .select) {m : Message} {rest : List Message} (hdown : σ.toClient k = m :: rest) :
      ∃ τ, Act clib ints secs hasTcpinfoRetransmits σ τ :=
    ⟨_, .read k (m := some m) hplace (hdown ▸ .message m rest)⟩
  have hmessage (hplace : σ.server.place = .select) {m : Message} {rest : List Message} (hto : σ.toServer k = m :: rest) :
      ∃ τ, Act clib ints secs hasTcpinfoRetransmits σ τ :=
    ⟨_, .message k (m := some m) hplace h.ctrl_sck (hto ▸ .message m rest)⟩
  have hclosed (hplace : (σ.clients k).place = .select) (hempty : σ.toClient k = []) {e : Option Error}
      (hended : σ.server.place = .ended e) : ∃ τ, Act clib ints secs hasTcpinfoRetransmits σ τ := by
    have hdown : ¬ (σ.serverUp ∨ σ.server.ctrl_sck ≠ some k) := fun hopen =>
      hopen.elim (fun hup => hup _ hended) fun hne => hne h.ctrl_sck
    exact ⟨_, .read k (m := none) hplace (hempty ▸ .closed hdown)⟩
  cases stage with
  | asked | invited | starting | started | exchanging | shown => exact .inl (hread h.place h.down)
  | early | cutEarly | cutStarting | cutStarted => exact .inl (hread h.place h.down)
  | answered => exact .inl ⟨_, .parameters k (m := some (.tree text)) h.serverPlace h.ctrl_sck (h.up ▸ .message _ [])⟩
  | creating i j =>
      obtain ⟨-, -, ⟨hji, hi⟩, hj⟩ := hdata
      have hserver : σ.serverUp := (serverUp_iff h).2 fun e he => by cases he
      by_cases hall : i = (streamFlags (σ.clients k).test.toParameters).length
      · refine .inl (listener_act h.ctrl_sck h.serverPlace fun hempty => ?_)
        have hwaiting := h.waiting
        rw [atListener, hempty, Stage.waiting, show i - j = (i - j - 1) + 1 by omega, List.range'_succ] at hwaiting
        cases hwaiting
      · have hplace := h.place
        rw [Stage.place, List.drop_eq_getElem_cons (by omega)] at hplace
        exact .inl ⟨_, .stream k hplace hserver⟩
  | running =>
      by_cases hdone : TestDone (σ.clients k)
      · exact .inl ⟨_, .finish k h.place h.state hdone⟩
      · exact .inr (testing_of_running h.ctrl_sck h.place h.state hdone hdata)
  | ending | leaving => exact .inl (hmessage h.serverPlace h.up)
  | reported => exact .inl ⟨_, .serverResults k (m := some (.tree text)) h.serverPlace h.ctrl_sck (h.up ▸ .message _ [])⟩
  | returned => exact .inl ⟨_, .results k (m := some (.tree text)) h.place (h.down ▸ .message _ _)⟩
  | cutRunning | cutEnding => exact .inl (hclosed h.place h.down h.serverPlace)
  | done | lost | lostEnding => exact (hup.elim (fun hup => hup _ h.serverPlace) fun hup => hup _ h.place).elim

/-- When a client and its server have ended, the client has read the last message, or noticed that the server is gone. -/
theorem served_over {k : K} {stage : Stage} {text : Bytes}
    (h : Served clib ints secs hasTcpinfoRetransmits σ k stage text) (hserver : ¬ σ.serverUp) (hclient : ¬ σ.clientUp k) :
    σ.server.place = .ended none ∧ (σ.clients k).place = .ended none ∨
      σ.server.place = .ended (some .IESELECT) ∧ (σ.clients k).place = .ended (some .IECTRLCLOSE) := by
  cases stage with
  | done => exact .inl ⟨h.serverPlace, h.place⟩
  | lost | lostEnding => exact .inr ⟨h.serverPlace, h.place⟩
  | cutEarly | cutStarting | cutStarted | cutRunning | cutEnding =>
      refine (hclient fun e he => ?_).elim
      rw [h.place] at he
      cases he
  | _ =>
      refine (hserver fun e he => ?_).elim
      rw [h.serverPlace] at he
      cases he

theorem orderly_goes_on [Nonempty K] (h : Orderly clib ints secs hasTcpinfoRetransmits σ N)
    (hclosed : ¬ σ.serverUp → σ.backlog = []) :
    (∃ k, Finished σ k) ∨ (∃ τ, Act clib ints secs hasTcpinfoRetransmits σ τ) ∨
      ∃ k, Testing clib ints secs hasTcpinfoRetransmits σ k := by
  cases h with
  | idle h =>
      obtain ⟨k⟩ := ‹Nonempty K›
      obtain ⟨hquiet, hup⟩ := h.quiet k
      refine .inr (.inl ?_)
      cases h.clients k with
      | start hplace =>
          refine ⟨_, .connect k hplace fun e he => ?_⟩
          rw [h.place] at he
          cases he
      | waiting _ _ _ _ hown =>
          have hbacklog : σ.backlog ≠ [] := by
            intro hempty
            rw [atListener, hempty] at hown
            cases hown
          obtain ⟨c, rest, hhead⟩ := List.exists_cons_of_ne_nil hbacklog
          refine ⟨_, .accept h.place ?_ h.ctrl_sck hhead⟩
          rw [h.state]
          decide
      | refused m _ _ _ hdown =>
          rw [hquiet] at hdown
          cases hdown
      | gone e _ hplace => exact (hup _ hplace).elim
  | @served k stage text hserved hothers =>
      by_cases hup : σ.serverUp ∨ σ.clientUp k
      · exact .inr ((served_act hserved hup).imp_right fun htesting => ⟨k, htesting⟩)
      · rw [not_or] at hup
        obtain ⟨hdown, hclient⟩ := hup
        by_cases hgone : ∀ k' ≠ k, ∃ e, (e = .IEACCESSDENIED ∨ e = .IERECVMESSAGE ∨ e = .IECONNECT) ∧
            (σ.clients k').place = .ended (some e)
        · exact .inl ⟨k, hserved.ctrl_sck, served_over hserved hdown hclient, hgone⟩
        · push Not at hgone
          obtain ⟨k', hne, hleft⟩ := hgone
          refine .inr (.inl ?_)
          cases hothers k' hne with
          | start hplace => exact ⟨_, .unconnected k' hplace hdown⟩
          | waiting _ _ _ _ hown =>
              rw [atListener, hclosed hdown] at hown
              cases hown
          | refused m _ hplace _ hmessage => exact ⟨_, .read k' (m := some m) hplace (hmessage ▸ .message m [])⟩
          | gone e he hplace => exact (hleft e he hplace).elim

section Bound

variable [Fintype K]

omit [Fintype K] in
theorem turnsAt_le (k : K) : turnsAt σ k ≤ 3 := by
  rw [turnsAt]
  split
  · exact Nat.zero_le _
  · rw [turns.eq_def]
    split <;> decide

theorem closer_sum (h : Closer σ σ' n N) : N + ∑ k, turnsAt σ' k < n + ∑ k, turnsAt σ k := by
  rcases h.less with hless | ⟨k, hk⟩
  · exact Nat.add_lt_add_of_lt_of_le hless (Finset.sum_le_sum fun k _ => h.turns k)
  · exact Nat.add_lt_add_of_le_of_lt h.rank (Finset.sum_lt_sum (fun k _ => h.turns k) ⟨k, Finset.mem_univ k, hk⟩)

theorem run_bound (hshort : ShortNumbers lib) (hready : Ready hasTcpinfoRetransmits σ)
    (h : Run clib ints secs hasTcpinfoRetransmits σ n σ') :
    ∃ N, Orderly clib ints secs hasTcpinfoRetransmits σ' N ∧ n + (N + ∑ k, turnsAt σ' k) ≤ 600 + ∑ k, turnsAt σ k := by
  induction h with
  | start => exact ⟨600, .idle (idle_of_ready hready), by rw [Nat.zero_add]⟩
  | act _ hact ih =>
      obtain ⟨N, horderly, hle⟩ := ih
      obtain ⟨N', horderly', hcloser⟩ := orderly_act hshort horderly hact
      have hlt := closer_sum hcloser
      exact ⟨N', horderly', by omega⟩
  | timeout _ htimeout ih =>
      obtain ⟨N, horderly, hle⟩ := ih
      obtain ⟨N', horderly', hcloser⟩ := orderly_timeout horderly htimeout
      have hlt := closer_sum hcloser
      exact ⟨N', horderly', by omega⟩
  | measure _ hmeasure ih =>
      obtain ⟨N, horderly, hle⟩ := ih
      obtain ⟨horderly', hsame⟩ := orderly_measure horderly hmeasure
      exact ⟨N, horderly', by rwa [Finset.sum_congr rfl fun k _ => hsame k]⟩

theorem run_length (hshort : ShortNumbers lib) (hready : Ready hasTcpinfoRetransmits σ)
    (h : Run clib ints secs hasTcpinfoRetransmits σ n σ') : n ≤ 600 + 3 * Fintype.card K := by
  obtain ⟨N, -, hle⟩ := run_bound hshort hready h
  have hsum : ∑ k, turnsAt σ k ≤ Fintype.card K * 3 := Finset.sum_le_card_nsmul _ _ 3 fun k _ => turnsAt_le k
  omega

/-- A run of limited tests can be continued to the end of the session, before any timer fires. -/
theorem run_to_end [Nonempty K] (hshort : ShortNumbers lib) (hready : Ready hasTcpinfoRetransmits σ)
    (hlimited : ∀ k, Limited (σ.clients k).test.toParameters) (h : Run clib ints secs hasTcpinfoRetransmits σ n σ')
    (hserver : σ'.server.place ≠ .ended (some .IESELECT)) :
    ∃ n' τ k, Run clib ints secs hasTcpinfoRetransmits σ n' τ ∧ Finished τ k ∧ (τ.clients k).place = .ended none := by
  have hended {τ : Network K Double} {k : K} (hfinished : Finished τ k)
      (hserver : τ.server.place ≠ .ended (some .IESELECT)) : (τ.clients k).place = .ended none :=
    hfinished.served.elim And.right fun hcut => (hserver hcut.1).elim
  -- by the number of steps that the bound still allows
  generalize hd : 600 + 3 * Fintype.card K - n = d
  induction d generalizing n σ' with
  | zero =>
      obtain ⟨N, horderly⟩ := orderly_run hshort hready h
      rcases orderly_goes_on horderly (closed_run hready h) with ⟨k, hfinished⟩ | ⟨τ, hact⟩ | ⟨k, htesting⟩
      · exact ⟨n, σ', k, h, hfinished, hended hfinished hserver⟩
      · have hlength := run_length hshort hready (h.act hact)
        omega
      · obtain ⟨τ, τ', hmeasure, hact⟩ := htesting.ends ((hlimited k).of_sameSettings (settings_run h k))
        have hlength := run_length hshort hready ((h.measure hmeasure).act hact)
        omega
  | succ d ih =>
      obtain ⟨N, horderly⟩ := orderly_run hshort hready h
      rcases orderly_goes_on horderly (closed_run hready h) with ⟨k, hfinished⟩ | ⟨τ, hact⟩ | ⟨k, htesting⟩
      · exact ⟨n, σ', k, h, hfinished, hended hfinished hserver⟩
      · exact ih (h.act hact) (act_server hact hserver) (by omega)
      · obtain ⟨τ, τ', hmeasure, hact⟩ := htesting.ends ((hlimited k).of_sameSettings (settings_run h k))
        refine ih ((h.measure hmeasure).act hact) (act_server hact ?_) (by omega)
        cases hmeasure with
        | client | server => exact hserver

/-- Nothing gets stuck and nothing goes on for ever but a test without a limit: a
session of any number of clients comes to its end, in which one of them was served. -/
theorem session_finishes [Nonempty K] (hshort : ShortNumbers lib) (hready : Ready hasTcpinfoRetransmits σ)
    (hrun : Run clib ints secs hasTcpinfoRetransmits σ n σ') :
    n ≤ 600 + 3 * Fintype.card K ∧ ((∃ k, Finished σ' k) ∨ (∃ τ, Act clib ints secs hasTcpinfoRetransmits σ' τ) ∨
      ∃ k, Testing clib ints secs hasTcpinfoRetransmits σ' k) := by
  obtain ⟨N, horderly⟩ := orderly_run hshort hready hrun
  exact ⟨run_length hshort hready hrun, orderly_goes_on horderly (closed_run hready hrun)⟩

end Bound

end Runs

section Sample

open WholeDoubles

def sampleNetwork : Network Bool Int where
  clients _ := {
    place := .start
    state := .initial
    test := sampleTest .client []
    omitting := false
    done := false
    bytes_sent := 0
    blocks_sent := 0 }
  server := {
    place := .select
    state := .IPERF_START
    test := { sampleTest .server [] with toParameters := iperfResetTest true sampleClient }
    ctrl_sck := none
    rec_streams_accepted := 0
    send_streams_accepted := 0
    streams_to_rec := 0
    streams_to_send := 0 }
  backlog := []
  toServer _ := []
  toClient _ := []

theorem sampleTest_fresh : Fresh (sampleTest .client []) :=
  ⟨⟨rfl, .inl rfl, .inr ⟨rfl, rfl⟩, rfl, by decide, by decide, by decide, by decide⟩, rfl, by decide, rfl⟩

theorem sampleNetwork_ready : Ready true sampleNetwork where
  place _ := rfl
  state _ := rfl
  fresh _ := sampleTest_fresh
  serverPlace := rfl
  serverState := rfl
  ctrl_sck := rfl
  reset := ⟨⟨sampleClient, rfl⟩, rfl, rfl, rfl, rfl, by decide⟩
  backlog := rfl
  up _ := rfl
  down _ := rfl

theorem sampleNetwork_to_end : ∃ n σ k, Run integersStrtod wholeNumbers wholeSeconds true sampleNetwork n σ ∧
    Finished σ k ∧ (σ.clients k).place = .ended none :=
  run_to_end integers_short sampleNetwork_ready (fun _ => .inl (show (10 : Int32) ≠ 0 by decide)) .start (by rintro ⟨⟩)

theorem session_agrees_sample : ∃ n σ k, Run integersStrtod wholeNumbers wholeSeconds true sampleNetwork n σ ∧
    (σ.clients k).place = .ended none ∧ σ.server.ctrl_sck = some k ∧
      ∃ c s, SameSettings (sampleNetwork.clients k).test c ∧ Matched true c s ∧
        Exchanged wholeSeconds c s (σ.clients k).test σ.server.test := by
  obtain ⟨n, σ, k, hrun, -, hclient⟩ := sampleNetwork_to_end
  have hagrees := session_agrees integers_short sampleNetwork_ready hrun
  exact ⟨n, σ, k, hrun, hclient, hagrees.2.1 k hclient⟩

theorem session_finishes_sample : ∃ n σ k, Run integersStrtod wholeNumbers wholeSeconds true sampleNetwork n σ ∧
    Finished σ k ∧ n ≤ 606 := by
  obtain ⟨n, σ, k, hrun, hfinished, -⟩ := sampleNetwork_to_end
  exact ⟨n, σ, k, hrun, hfinished, (session_finishes integers_short sampleNetwork_ready hrun).1⟩

end Sample

end SberWifi.IperfRuns
