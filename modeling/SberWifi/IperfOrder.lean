import SberWifi.IperfStages

namespace SberWifi.IperfOrder

open CJsonPrint hiding Test
open CJsonParse CJsonRoundTrip ControlSocket IperfParameters IperfTime IperfStreams IperfSession IperfStages

section Exchanges

variable {K Double : Type} {lib : CLib Double} (clib : Strtod lib) (ints : Integers lib) (secs : Seconds lib)
  (hasTcpinfoRetransmits : Bool) {c s : Test Double} {server : Server K Double}

theorem made_fits {flags : List Bool} (hstreams : c.streams = made secs flags)
    (htop : c.role = .server → Plain (nestingLimit - 1) c.json_top) : Fits c :=
  ⟨hstreams ▸ made_bytes secs flags, htop⟩

theorem length_flags (hdual : Dual hasTcpinfoRetransmits c.toParameters s.toParameters) :
    (streamFlags c.toParameters).length ≤ 256 := by
  have hnum := hdual.num_streams
  rw [length_streamFlags, clientSends, clientReceives]
  split <;> split <;> omega

/-- When all streams are connected and accepted, they belong together. -/
theorem matched_of_accepted (hdual : Dual hasTcpinfoRetransmits c.toParameters server.test.toParameters)
    (haccepted : Accepted secs c.toParameters (streamFlags c.toParameters).length server)
    (hmade : c.streams = made secs (streamFlags c.toParameters)) : Matched hasTcpinfoRetransmits c server.test := by
  have hserver := haccepted.streams
  rw [List.take_length] at hserver
  exact {
    dual := hdual
    ends := by
      rw [hmade, hserver]
      exact made_ends secs _
    ids := by
      rw [hmade]
      exact made_nodup secs (length_flags hasTcpinfoRetransmits hdual)
    senders := by rw [hmade, made_sender]
    fits := made_fits secs hmade fun hrole => by
      rw [hdual.role] at hrole
      cases hrole
    server_fits := made_fits secs hserver fun _ => haccepted.json_top }

theorem ends_iff {cs ss : List (Stream Double)} :
    List.Forall₂ Ends cs ss ↔ cs.map Stream.id = ss.map Stream.id ∧ cs.map Stream.socket = ss.map Stream.socket ∧
      ss.map Stream.sender = (cs.map Stream.sender).map Bool.not := by
  induction cs generalizing ss with
  | nil => cases ss <;> simp
  | cons a cs ih =>
      cases ss with
      | nil => simp
      | cons b ss =>
          simp only [List.forall₂_cons, ih, List.map_cons, List.cons.injEq]
          constructor
          · rintro ⟨hends, hid, hsocket, hsender⟩
            exact ⟨⟨hends.id, hid⟩, ⟨hends.socket, hsocket⟩, hends.sender, hsender⟩
          · rintro ⟨⟨hid, hids⟩, ⟨hsocket, hsockets⟩, hsender, hsenders⟩
            exact ⟨⟨hid, hsocket, hsender⟩, hids, hsockets, hsenders⟩

/-- A server that only receives has no stream that sends. -/
theorem not_sender (h : Matched hasTcpinfoRetransmits c s) (hmode : s.mode = .receiver) :
    ∀ sp ∈ s.streams, ¬ sp.sender := by
  obtain ⟨before, hfollows⟩ := h.dual.follows
  have hsender : c.mode = .sender := by
    have hdual := hfollows.mode
    rw [hmode] at hdual
    cases hc : c.mode with
    | sender => rfl
    | receiver | bidirectional =>
        rw [hc] at hdual
        cases hdual
  intro sp hsp
  have hmem := List.mem_map_of_mem (f := Stream.sender) hsp
  rw [(ends_iff.1 h.ends).2.2, h.senders, streamFlags, hsender, List.map_replicate] at hmem
  rw [List.eq_of_mem_replicate hmem]
  decide

/-- What a client sends as its parameters is what the server takes over. -/
theorem dual_of_parameters (hfresh : Fresh c) (hreset : Reset hasTcpinfoRetransmits server) {text : Bytes}
    (htext : cJSON_PrintUnformatted lib (sendParameters ints c.toParameters) = some text) :
    ∃ j, cJSON_Parse clib text = some j ∧
      Dual hasTcpinfoRetransmits c.toParameters (getParameters ints hasTcpinfoRetransmits j server.test.toParameters) := by
  have hplain := (sendParameters_plain ints c.toParameters).mono (show 1 ≤ nestingLimit by decide)
  obtain ⟨j, hj, hagrees⟩ := (cJSON_Parse_agrees clib (hasRaw_of_plain _ hplain.plain) htext).1 hplain.nesting
  obtain ⟨before, hbefore⟩ := hreset.parameters
  refine ⟨j, hj, hfresh.set.role, hfresh.num_streams, before, ?_⟩
  rw [hbefore]
  exact getParameters_follows ints hasTcpinfoRetransmits hagrees hfresh.set before

/-- A server that has read the parameters has accepted no stream yet. -/
theorem accepted_parameters {parameters : Parameters} (hdual : Dual hasTcpinfoRetransmits c.toParameters parameters)
    (hreset : Reset hasTcpinfoRetransmits server) : Accepted secs c.toParameters 0 (takeParameters parameters server) := by
  obtain ⟨before, hfollows⟩ := hdual.follows
  have hcast := Int.toNat_of_nonneg hdual.num_streams.1
  exact {
    rec_streams_accepted := hreset.rec_streams_accepted.trans (Nat.zero_min _).symm
    send_streams_accepted := hreset.send_streams_accepted.trans (Nat.zero_sub _).symm
    streams_to_rec := by
      simp only [takeParameters, clientSends, hfollows.mode, hfollows.num_streams]
      cases c.mode <;> first | rfl | exact hcast.symm
    streams_to_send := by
      simp only [takeParameters, clientReceives, hfollows.mode, hfollows.num_streams]
      cases c.mode <;> first | rfl | exact hcast.symm
    streams := hreset.streams
    json_top := hreset.json_top }

theorem acceptParameters_tree {j : CJSON Double} {text : Bytes} (hj : cJSON_Parse clib text = some j) :
    acceptParameters clib ints hasTcpinfoRetransmits (some (.tree text)) server =
      ((startTest (takeParameters (getParameters ints hasTcpinfoRetransmits j server.test.toParameters) server)).1,
        .state .CREATE_STREAMS ::
          (startTest (takeParameters (getParameters ints hasTcpinfoRetransmits j server.test.toParameters) server)).2) := by
  simp only [acceptParameters, readTree, hj]

/-- The results of a client make the server write its own. -/
theorem serverResults_tree (hshort : ShortNumbers lib) {text : Bytes}
    (h : Matched hasTcpinfoRetransmits c server.test)
    (htext : cJSON_PrintUnformatted lib (sendResults ints secs c) = some text) :
    ∃ test str, getResults ints secs (cJSON_Parse clib text) server.test = (test, none) ∧
      cJSON_PrintUnformatted lib (sendResults ints secs test) = some str ∧
      serverResults clib ints secs (some (.tree text)) server =
        ({ server with place := .select, state := .DISPLAY_RESULTS, test }, [.tree str, .state .DISPLAY_RESULTS]) := by
  have hids := ends_ids h.ends
  obtain ⟨hreceived, hnone⟩ := getResults_text clib ints secs hids (hids ▸ h.ids) h.fits htext
  have hfits := hreceived.fits secs hids h.server_fits
  obtain ⟨str, hstr⟩ := printValue_plain hshort false 0 _ (sendResults_plain ints secs hfits).plain
  have hread : getResults ints secs (cJSON_Parse clib text) server.test =
      ((getResults ints secs (cJSON_Parse clib text) server.test).1, none) := Prod.ext rfl hnone
  refine ⟨_, str, hread, hstr, ?_⟩
  rw [serverResults, readTree, hread]
  simp only [cJSON_PrintUnformatted, hstr]

/-- The results that the server has read and written are the ones that the client takes over. -/
theorem exchanged (h : Matched hasTcpinfoRetransmits c s) {ctext stext : Bytes} {s' : Test Double}
    (hctext : cJSON_PrintUnformatted lib (sendResults ints secs c) = some ctext)
    (hs' : getResults ints secs (cJSON_Parse clib ctext) s = (s', none))
    (hstext : cJSON_PrintUnformatted lib (sendResults ints secs s') = some stext) :
    ∃ c', getResults ints secs (cJSON_Parse clib stext) c = (c', none) ∧ Exchanged secs c s c' s' := by
  have hids := ends_ids h.ends
  obtain ⟨hreceived, -⟩ := getResults_text clib ints secs hids (hids ▸ h.ids) h.fits hctext
  rw [hs'] at hreceived
  have hids' : s'.streams.map Stream.id = c.streams.map Stream.id :=
    (hreceived.streams_map secs hids takeOver_id).trans hids.symm
  obtain ⟨hreceived', hnone⟩ :=
    getResults_text clib ints secs hids' h.ids (hreceived.fits secs hids h.server_fits) hstext
  exact ⟨_, Prod.ext rfl hnone, hreceived, hreceived',
    settled_of_received secs h.ends (not_sender hasTcpinfoRetransmits h) hreceived hreceived'⟩

end Exchanges

section Served

variable {K Double : Type} [DecidableEq K] {lib : CLib Double} {clib : Strtod lib} {ints : Integers lib}
  {secs : Seconds lib} {hasTcpinfoRetransmits : Bool} {σ : Network K Double} {k : K} {stage stage' : Stage}
  {text text' : Bytes} {c : Client Double} {s : Server K Double} {msgs : List Message} {m : Option Message}

theorem served_clientDoes (hctrl : σ.server.ctrl_sck = some k) (hserverPlace : σ.server.place = stage'.serverPlace)
    (hserverState : σ.server.state = stage'.serverState) (hdown : σ.toClient k = stage'.down text')
    (hup : σ.toServer k ++ msgs = stage'.up text') (hwaiting : atListener σ k = stage'.waiting k)
    (hplace : c.place = stage'.place (streamFlags c.test.toParameters)) (hstate : c.state = stage'.state)
    (hdata : stage'.Data clib ints secs hasTcpinfoRetransmits c.test σ.server text') :
    Served clib ints secs hasTcpinfoRetransmits (σ.clientDoes k (c, msgs)) k stage' text' where
  ctrl_sck := hctrl
  place := by simpa only [Network.clientDoes, Function.update_self] using hplace
  state := by simpa only [Network.clientDoes, Function.update_self] using hstate
  serverPlace := hserverPlace
  serverState := hserverState
  down := hdown
  up := by simpa only [Network.clientDoes, Function.update_self] using hup
  waiting := hwaiting
  data := by simpa only [Network.clientDoes, Function.update_self] using hdata

theorem served_serverDoes (hctrl : s.ctrl_sck = some k) (hserverPlace : s.place = stage'.serverPlace)
    (hserverState : s.state = stage'.serverState) (hdown : σ.toClient k ++ msgs = stage'.down text')
    (hup : σ.toServer k = stage'.up text') (hwaiting : atListener σ k = stage'.waiting k)
    (hplace : (σ.clients k).place = stage'.place (streamFlags (σ.clients k).test.toParameters))
    (hstate : (σ.clients k).state = stage'.state)
    (hdata : stage'.Data clib ints secs hasTcpinfoRetransmits (σ.clients k).test s text') :
    Served clib ints secs hasTcpinfoRetransmits (σ.serverDoes k (s, msgs)) k stage' text' where
  ctrl_sck := hctrl
  place := hplace
  state := hstate
  serverPlace := hserverPlace
  serverState := hserverState
  down := by simpa only [Network.serverDoes, Function.update_self] using hdown
  up := hup
  waiting := hwaiting
  data := hdata

theorem serverUp_iff (h : Served clib ints secs hasTcpinfoRetransmits σ k stage text) :
    σ.serverUp ↔ ∀ e, stage.serverPlace ≠ .ended e := by
  rw [Network.serverUp, h.serverPlace]

/-- A client that waits has a message to read, or has read all that the server has sent before it ended. -/
theorem served_receives (h : Served clib ints secs hasTcpinfoRetransmits σ k stage text)
    (hm : Receives (σ.serverUp ∨ σ.server.ctrl_sck ≠ some k) (σ.toClient k) m) :
    (∃ message rest, m = some message ∧ stage.down text = message :: rest) ∨
      m = none ∧ stage.down text = [] ∧ ∃ e, stage.serverPlace = .ended e := by
  rw [h.down] at hm
  generalize stage.down text = down at hm
  cases hm with
  | message message rest => exact .inl ⟨message, rest, rfl, rfl⟩
  | closed hclosed =>
      refine .inr ⟨rfl, rfl, ?_⟩
      by_contra hup
      push Not at hup
      exact hclosed (.inl ((serverUp_iff h).2 hup))

/-- What a served client reads takes it to the next stage. -/
theorem served_read (hshort : ShortNumbers lib) (h : Served clib ints secs hasTcpinfoRetransmits σ k stage text)
    (hplace : (σ.clients k).place = .select)
    (hm : Receives (σ.serverUp ∨ σ.server.ctrl_sck ≠ some k) (σ.toClient k) m) :
    ∃ stage' text', stage'.rank < stage.rank ∧ Served clib ints secs hasTcpinfoRetransmits
      ((σ.clientTook k).clientDoes k (clientRead ints secs m (σ.clients k))) k stage' text' := by
  have htail : (σ.clientTook k).toClient k = (stage.down text).tail := by
    simp only [Network.clientTook, Function.update_self, h.down]
  have hdata := h.data
  have hmoves (stage' : Stage) (text' : Bytes) {c : Client Double} {msgs : List Message}
      (hread : clientRead ints secs m (σ.clients k) = (c, msgs))
      (hrank : stage'.rank < stage.rank) (hserverPlace : stage.serverPlace = stage'.serverPlace)
      (hserverState : stage.serverState = stage'.serverState) (hdown : (stage.down text).tail = stage'.down text')
      (hup : stage.up text ++ msgs = stage'.up text') (hwaiting : stage.waiting k = stage'.waiting k)
      (hplace : c.place = stage'.place (streamFlags c.test.toParameters)) (hstate : c.state = stage'.state)
      (hdata : stage'.Data clib ints secs hasTcpinfoRetransmits c.test σ.server text') :
      ∃ stage' text', stage'.rank < stage.rank ∧ Served clib ints secs hasTcpinfoRetransmits
        ((σ.clientTook k).clientDoes k (clientRead ints secs m (σ.clients k))) k stage' text' := by
    refine ⟨stage', text', hrank, ?_⟩
    rw [hread]
    exact served_clientDoes h.ctrl_sck (h.serverPlace.trans hserverPlace) (h.serverState.trans hserverState)
      (htail.trans hdown) (by rw [← hup, ← h.up]; rfl) (h.waiting.trans hwaiting) hplace hstate hdata
  have hplace' := hplace
  rw [h.place] at hplace'
  rcases served_receives h hm with ⟨message, rest, rfl, hdown⟩ | ⟨rfl, hdown, e, hended⟩
  · cases stage with
    | asked =>
        obtain ⟨rfl, rfl⟩ := List.cons.inj hdown
        obtain ⟨str, hstr⟩ :=
          printValue_plain hshort false 0 _ (sendParameters_plain ints (σ.clients k).test.toParameters).plain
        have hread : clientRead ints secs (some (.state .PARAM_EXCHANGE)) (σ.clients k) =
            ({ σ.clients k with state := .PARAM_EXCHANGE }, [.tree str]) := by
          simp only [clientRead, iperfHandleMessageClient, cJSON_PrintUnformatted, hstr]
        exact hmoves .answered str hread (by decide) rfl rfl rfl rfl rfl hplace rfl ⟨hdata, hstr⟩
    | invited =>
        obtain ⟨rfl, rfl⟩ := List.cons.inj hdown
        obtain ⟨hserver, hstreams, hpos⟩ := hdata
        exact hmoves (.creating 0 0) text rfl (by decide) rfl rfl rfl rfl rfl rfl rfl
          ⟨hserver, hstreams, ⟨le_rfl, Nat.zero_le _⟩, hpos⟩
    | early =>
        obtain ⟨rfl, rfl⟩ := List.cons.inj hdown
        obtain ⟨hmatched, hflags⟩ := hdata
        exact hmoves .starting text rfl (by decide) rfl rfl rfl rfl rfl
          (by simp only [hflags]; rfl) rfl hmatched
    | cutEarly =>
        obtain ⟨rfl, rfl⟩ := List.cons.inj hdown
        obtain ⟨hduration, hflags⟩ := hdata
        exact hmoves .cutStarting text rfl (by decide) rfl rfl rfl rfl rfl (by simp only [hflags]; rfl) rfl hduration
    | starting =>
        obtain ⟨rfl, rfl⟩ := List.cons.inj hdown
        exact hmoves .started text rfl (by decide) rfl rfl rfl rfl rfl hplace rfl hdata
    | cutStarting =>
        obtain ⟨rfl, rfl⟩ := List.cons.inj hdown
        exact hmoves .cutStarted text rfl (by decide) rfl rfl rfl rfl rfl hplace rfl hdata
    | started =>
        obtain ⟨rfl, rfl⟩ := List.cons.inj hdown
        exact hmoves .running text rfl (by decide) rfl rfl rfl rfl rfl hplace rfl hdata
    | cutStarted =>
        obtain ⟨rfl, rfl⟩ := List.cons.inj hdown
        exact hmoves .cutRunning text rfl (by decide) rfl rfl rfl rfl rfl hplace rfl hdata
    | exchanging =>
        obtain ⟨rfl, rfl⟩ := List.cons.inj hdown
        obtain ⟨str, hstr⟩ := printValue_plain hshort false 0 _ (sendResults_plain ints secs hdata.fits).plain
        have hread : clientRead ints secs (some (.state .EXCHANGE_RESULTS)) (σ.clients k) =
            ({ σ.clients k with place := .results, state := .EXCHANGE_RESULTS }, [.tree str]) := by
          simp only [clientRead, iperfHandleMessageClient, cJSON_PrintUnformatted, hstr]
        exact hmoves .reported str hread (by decide) rfl rfl rfl rfl rfl rfl rfl ⟨hdata, hstr⟩
    | shown =>
        obtain ⟨rfl, rfl⟩ := List.cons.inj hdown
        exact hmoves .leaving text rfl (by decide) rfl rfl rfl rfl rfl rfl rfl hdata
    | reported | returned => cases hplace'
    | _ => cases hdown
  · cases stage with
    | cutRunning => exact hmoves .lost text rfl (by decide) rfl rfl rfl rfl rfl rfl h.state hdata
    | cutEnding => exact hmoves .lostEnding text rfl (by decide) rfl rfl rfl rfl rfl rfl h.state hdata
    | cutEarly | cutStarting | cutStarted => cases hdown
    | done | lost | lostEnding => cases hplace'
    | _ => cases hended

theorem served_results (h : Served clib ints secs hasTcpinfoRetransmits σ k stage text)
    (hplace : (σ.clients k).place = .results)
    (hm : Receives (σ.serverUp ∨ σ.server.ctrl_sck ≠ some k) (σ.toClient k) m) :
    ∃ stage' text', stage'.rank < stage.rank ∧ Served clib ints secs hasTcpinfoRetransmits
      ((σ.clientTook k).clientDoes k (clientResults clib ints secs m (σ.clients k), [])) k stage' text' := by
  have htail : (σ.clientTook k).toClient k = (stage.down text).tail := by
    simp only [Network.clientTook, Function.update_self, h.down]
  have hdata := h.data
  have hplace' := h.place
  rw [hplace] at hplace'
  have hreceives := served_receives h hm
  cases stage with
  | returned =>
      obtain ⟨message, rest, rfl, hdown⟩ | ⟨-, hdown, -⟩ := hreceives
      swap
      · cases hdown
      obtain ⟨rfl, rfl⟩ := List.cons.inj hdown
      obtain ⟨before, ctext, hmatched, hctext, hbefore, htext⟩ := hdata
      obtain ⟨c', hc', hexchanged⟩ := exchanged clib ints secs hasTcpinfoRetransmits hmatched hctext hbefore htext
      have hread : clientResults clib ints secs (some (.tree text)) (σ.clients k) =
          { σ.clients k with place := .select, test := c' } := by
        simp only [clientResults, readTree, hc']
      refine ⟨.shown, text, by decide, ?_⟩
      rw [hread]
      exact served_clientDoes h.ctrl_sck h.serverPlace h.serverState htail (by rw [List.append_nil]; exact h.up)
        h.waiting rfl h.state ⟨_, _, hmatched, hexchanged⟩
  | reported =>
      obtain ⟨message, rest, -, hdown⟩ | ⟨-, -, e, hended⟩ := hreceives
      · cases hdown
      · cases hended
  | creating i j =>
      rw [Stage.place] at hplace'
      rcases creating_cases ((streamFlags (σ.clients k).test.toParameters).drop i) with ⟨-, heq⟩ | ⟨-, heq⟩ <;>
        rw [heq] at hplace' <;> cases hplace'
  | _ => cases hplace'

/-- A stream that is connected is the next one of the client. -/
theorem served_stream {sender : Bool} {todo : List Bool}
    (h : Served clib ints secs hasTcpinfoRetransmits σ k stage text)
    (hplace : (σ.clients k).place = .creating (sender :: todo)) :
    ∃ stage' text', stage'.rank < stage.rank ∧ Served clib ints secs hasTcpinfoRetransmits
      ((σ.clientDoes k (createStream secs (σ.clients k).test.streams.length sender todo (σ.clients k), [])).connect
        (.stream k (σ.clients k).test.streams.length)) k stage' text' := by
  have hplace' := h.place
  have hdata := h.data
  rw [hplace] at hplace'
  cases stage with
  | creating i j =>
      obtain ⟨⟨hdual, haccepted⟩, hstreams, ⟨hji, hi⟩, hj⟩ := hdata
      have hdrop : (streamFlags (σ.clients k).test.toParameters).drop i = sender :: todo := by
        rw [Stage.place] at hplace'
        rcases creating_cases ((streamFlags (σ.clients k).test.toParameters).drop i) with ⟨-, heq⟩ | ⟨-, heq⟩
        · rw [heq] at hplace'
          cases hplace'
        · rw [heq] at hplace'
          exact (ClientPlace.creating.inj hplace').symm
      have hlt : i < (streamFlags (σ.clients k).test.toParameters).length := by
        by_contra hge
        rw [List.drop_of_length_le (Nat.not_lt.1 hge)] at hdrop
        cases hdrop
      have hnext : (streamFlags (σ.clients k).test.toParameters)[i] = sender ∧
          (streamFlags (σ.clients k).test.toParameters).drop (i + 1) = todo := by
        rw [List.drop_eq_getElem_cons hlt] at hdrop
        exact List.cons.inj hdrop
      have hlength : (σ.clients k).test.streams.length = i := by
        rw [hstreams, length_made, List.length_take, Nat.min_eq_left hi]
      have hmade : iperfNewStream secs (σ.clients k).test.streams i sender =
          made secs ((streamFlags (σ.clients k).test.toParameters).take (i + 1)) := by
        rw [List.take_succ_eq_append_getElem hlt, made_concat, ← hstreams, hlength, hnext.1]
      have hbound := length_flags hasTcpinfoRetransmits hdual
      refine ⟨.creating (i + 1) j, text, ?_, ?_⟩
      · rw [Stage.rank, Stage.rank]
        omega
      · rw [hlength]
        have hclient : ((σ.clientDoes k (createStream secs i sender todo (σ.clients k), [])).connect
            (.stream k i)).clients k = createStream secs i sender todo (σ.clients k) := by
          simp only [Network.connect, Network.clientDoes, Function.update_self]
        have hup : ((σ.clientDoes k (createStream secs i sender todo (σ.clients k), [])).connect
            (.stream k i)).toServer k = σ.toServer k := by
          simp only [Network.connect, Network.clientDoes, Function.update_self, List.append_nil]
        refine {
          ctrl_sck := h.ctrl_sck
          serverPlace := h.serverPlace
          serverState := h.serverState
          down := h.down
          up := hup.trans h.up
          place := ?_
          state := ?_
          waiting := ?_
          data := ?_ }
        · rw [hclient, Stage.place]
          exact congrArg creating hnext.2.symm
        · rw [hclient]
          exact h.state
        · have hwaiting : atListener (σ.clientDoes k (createStream secs i sender todo (σ.clients k), [])) k = _ := h.waiting
          rw [atListener_connect, hwaiting, Stage.waiting, Stage.waiting, Nat.sub_add_comm hji, List.range'_1_concat,
            List.map_append, Nat.add_sub_cancel' hji]
          simp [Connection.cookie]
        · rw [hclient]
          exact ⟨⟨hdual, haccepted⟩, hmade, ⟨Nat.le_succ_of_le hji, hlt⟩, hj⟩
  | _ => cases hplace'

theorem served_finish (h : Served clib ints secs hasTcpinfoRetransmits σ k stage text)
    (hplace : (σ.clients k).place = .select) (hstate : (σ.clients k).state = .TEST_RUNNING) :
    ∃ stage' text', stage'.rank < stage.rank ∧ Served clib ints secs hasTcpinfoRetransmits
      (σ.clientDoes k ({ σ.clients k with state := .TEST_END, done := true }, [.state .TEST_END])) k stage' text' := by
  have hdata := h.data
  have hstate' := h.state
  rw [hstate] at hstate'
  have hplace' := h.place
  rw [hplace] at hplace'
  cases stage with
  | running =>
      exact ⟨.ending, text, by decide, served_clientDoes h.ctrl_sck h.serverPlace h.serverState h.down
        (by rw [h.up]; rfl) h.waiting hplace rfl hdata⟩
  | cutRunning =>
      exact ⟨.cutEnding, text, by decide, served_clientDoes h.ctrl_sck h.serverPlace h.serverState h.down
        (by rw [h.up]; rfl) h.waiting hplace rfl hdata⟩
  | lost => cases hplace'
  | _ => cases hstate'

/-- The timer of the server cuts its client off. -/
theorem served_timeout (h : Served clib ints secs hasTcpinfoRetransmits σ k stage text)
    (hplace : σ.server.place = .select) (hstate : σ.server.state = .TEST_RUNNING)
    (hduration : σ.server.test.duration ≠ 0) :
    ∃ stage' text', stage'.rank < stage.rank ∧ Served clib ints secs hasTcpinfoRetransmits
      (Network.afterServer { σ with server := serverTimerProc σ.server } false) k stage' text' := by
  have hdata := h.data
  have hplace' := h.serverPlace
  have hstate' := h.serverState
  rw [hplace] at hplace'
  rw [hstate] at hstate'
  have hcut (stage' : Stage) (hserverPlace : stage'.serverPlace = .ended (some .IESELECT))
      (hserverState : stage'.serverState = .TEST_RUNNING) (hempty : stage.waiting k = ([] : List (Connection K)))
      (hsame : (stage'.place (streamFlags (σ.clients k).test.toParameters), stage'.state, stage'.down text, stage'.up text) =
        (stage.place (streamFlags (σ.clients k).test.toParameters), stage.state, stage.down text, stage.up text))
      (hwaiting : stage'.waiting k = stage.waiting k)
      (hdata : stage'.Data clib ints secs hasTcpinfoRetransmits (σ.clients k).test (serverTimerProc σ.server) text) :
      Served clib ints secs hasTcpinfoRetransmits
        (Network.afterServer { σ with server := serverTimerProc σ.server } false) k stage' text := by
    simp only [Prod.mk.injEq] at hsame
    obtain ⟨hplace', hstate', hdown, hup⟩ := hsame
    have hserved : Served clib ints secs hasTcpinfoRetransmits { σ with server := serverTimerProc σ.server } k stage' text := {
      ctrl_sck := h.ctrl_sck
      place := h.place.trans hplace'.symm
      state := h.state.trans hstate'.symm
      serverPlace := hserverPlace.symm
      serverState := hstate.trans hserverState.symm
      down := h.down.trans hdown.symm
      up := h.up.trans hup.symm
      waiting := h.waiting.trans hwaiting.symm
      data := hdata }
    exact hserved.afterServer (h.waiting.trans hempty) false
  have hlong (hmatched : Matched hasTcpinfoRetransmits (σ.clients k).test σ.server.test) :
      (σ.clients k).test.duration ≠ 0 := by
    obtain ⟨before, hfollows⟩ := hmatched.dual.follows
    rwa [hfollows.duration] at hduration
  cases stage with
  | early => exact ⟨.cutEarly, text, by decide, hcut .cutEarly rfl rfl rfl rfl rfl ⟨hlong hdata.1, hdata.2⟩⟩
  | starting => exact ⟨.cutStarting, text, by decide, hcut .cutStarting rfl rfl rfl rfl rfl (hlong hdata)⟩
  | started => exact ⟨.cutStarted, text, by decide, hcut .cutStarted rfl rfl rfl rfl rfl (hlong hdata)⟩
  | running => exact ⟨.cutRunning, text, by decide, hcut .cutRunning rfl rfl rfl rfl rfl (hlong hdata)⟩
  | ending => exact ⟨.cutEnding, text, by decide, hcut .cutEnding rfl rfl rfl rfl rfl (hlong hdata)⟩
  | cutEarly | cutStarting | cutStarted | cutRunning | cutEnding | lost | lostEnding => cases hplace'
  | _ => cases hstate'

theorem clientUp_of_served (h : Served clib ints secs hasTcpinfoRetransmits σ k stage text) (hleaving : stage ≠ .leaving)
    (hserver : σ.serverUp) : σ.clientUp k := by
  intro e he
  rw [h.place] at he
  rw [serverUp_iff h] at hserver
  cases stage with
  | creating i j =>
      rw [Stage.place] at he
      rcases creating_cases ((streamFlags (σ.clients k).test.toParameters).drop i) with ⟨-, heq⟩ | ⟨-, heq⟩ <;>
        rw [heq] at he <;> cases he
  | leaving => exact hleaving rfl
  | done | lost | lostEnding => exact hserver _ rfl
  | _ => cases he

/-- While its client is up, or has something to say, a server that waits has a message to read. -/
theorem served_serverMessage (h : Served clib ints secs hasTcpinfoRetransmits σ k stage text) (hserver : σ.serverUp)
    (hm : Receives (σ.clientUp k) (σ.toServer k) m) :
    ∃ message rest, m = some message ∧ stage.up text = message :: rest := by
  have hup := h.up
  generalize σ.toServer k = up at hm hup
  cases hm with
  | message message rest => exact ⟨message, rest, rfl, hup.symm⟩
  | closed hclosed =>
      refine (hclosed (clientUp_of_served h ?_ hserver)).elim
      rintro rfl
      cases hup

theorem served_parameters (h : Served clib ints secs hasTcpinfoRetransmits σ k stage text)
    (hplace : σ.server.place = .parameters) (hm : Receives (σ.clientUp k) (σ.toServer k) m) :
    ∃ stage' text', stage'.rank < stage.rank ∧ Served clib ints secs hasTcpinfoRetransmits
      (((σ.serverTook k).serverDoes k (acceptParameters clib ints hasTcpinfoRetransmits m σ.server)).afterServer true)
      k stage' text' := by
  have hserver : σ.serverUp := fun e he => by
    rw [hplace] at he
    cases he
  obtain ⟨message, rest, rfl, hup⟩ := served_serverMessage h hserver hm
  have htail : (σ.serverTook k).toServer k = rest := by
    simp only [Network.serverTook, Function.update_self, h.up, hup, List.tail_cons]
  have hdata := h.data
  have hplace' := h.serverPlace
  rw [hplace] at hplace'
  cases stage with
  | answered =>
      obtain ⟨rfl, rfl⟩ := List.cons.inj hup
      obtain ⟨⟨hfresh, hreset⟩, htext⟩ := hdata
      obtain ⟨j, hj, hdual⟩ := dual_of_parameters clib ints hasTcpinfoRetransmits hfresh hreset htext
      have haccepted := accepted_parameters secs hasTcpinfoRetransmits hdual hreset
      have hempty (r : Server K Double × List Message) : atListener ((σ.serverTook k).serverDoes k r) k = [] := h.waiting
      have hdown (msgs : List Message) : (σ.serverTook k).toClient k ++ msgs = msgs := by
        rw [show (σ.serverTook k).toClient k = [] from h.down, List.nil_append]
      rw [acceptParameters_tree clib ints hasTcpinfoRetransmits hj, haccepted.startTest]
      split
      · rename_i hnone
        have hflags : streamFlags (σ.clients k).test.toParameters = [] := List.length_eq_zero_iff.1 hnone.symm
        have hmade : (σ.clients k).test.streams = made secs (streamFlags (σ.clients k).test.toParameters) := by
          rw [hflags, hfresh.streams, made_nil]
        rw [hnone] at haccepted
        have hmatched := matched_of_accepted secs hasTcpinfoRetransmits hdual haccepted hmade
        refine ⟨.early, text, by decide, Served.afterServer ?_ (hempty _) true⟩
        exact served_serverDoes h.ctrl_sck rfl rfl (hdown _) htail h.waiting h.place h.state ⟨hmatched, hflags⟩
      · rename_i hsome
        refine ⟨.invited, text, by decide, Served.afterServer ?_ (hempty _) true⟩
        exact served_serverDoes h.ctrl_sck rfl rfl (hdown _) htail h.waiting h.place h.state
          ⟨⟨hdual, haccepted⟩, hfresh.streams, Nat.pos_of_ne_zero (Ne.symm hsome)⟩
  | asked => cases hup
  | _ => cases hplace'

omit [DecidableEq K] in
/-- The stream at the head of the listener is the one that the server takes next. -/
theorem waiting_head {i j : Nat} {c : Connection K} {rest : List (Connection K)}
    (h : (Stage.creating i j).waiting k = c :: rest) :
    j < i ∧ c = .stream k j ∧ rest = (Stage.creating i (j + 1)).waiting k := by
  rw [Stage.waiting] at h
  obtain ⟨n, hn⟩ : ∃ n, i - j = n + 1 := Nat.exists_eq_succ_of_ne_zero (by
    intro h0
    rw [h0] at h
    cases h)
  rw [hn, List.range'_succ, List.map_cons] at h
  obtain ⟨hc, hrest⟩ := List.cons.inj h
  refine ⟨by omega, hc.symm, ?_⟩
  rw [Stage.waiting, show i - (j + 1) = n by omega]
  exact hrest.symm

theorem served_acceptStream {c : Connection K} {rest : List (Connection K)}
    (h : Served clib ints secs hasTcpinfoRetransmits σ k stage text) (hplace : σ.server.place = .select)
    (hstate : σ.server.state = .CREATE_STREAMS) (hbacklog : σ.backlog = c :: rest) (hcookie : c.cookie = k) :
    ∃ stage' text', stage'.rank < stage.rank ∧ Served clib ints secs hasTcpinfoRetransmits
      (σ.accepted.roundEnd k (acceptStream secs c.socket σ.server)) k stage' text' := by
  have hstate' := h.serverState
  have hdata := h.data
  have hwaiting := h.waiting
  rw [hstate] at hstate'
  rw [atListener_accepted hbacklog, if_pos hcookie, List.singleton_append] at hwaiting
  cases stage with
  | creating i j =>
      obtain ⟨⟨hdual, haccepted⟩, hstreams, ⟨hji, hi⟩, hj⟩ := hdata
      obtain ⟨hlt, rfl, hrest⟩ := waiting_head hwaiting.symm
      obtain ⟨haccepted', hplace', hstate', hctrl, hparameters⟩ := haccepted.acceptStream secs hj
      have hbound := length_flags hasTcpinfoRetransmits hdual
      have hup : σ.accepted.toServer k = (Stage.creating i (j + 1)).up text := h.up
      have hdown : σ.accepted.toClient k = [] := h.down
      rw [← hparameters] at hdual
      rw [Connection.socket, Network.roundEnd, haccepted'.startTest]
      split
      · rename_i hall
        have hieq : i = (streamFlags (σ.clients k).test.toParameters).length := by omega
        rw [hieq, List.take_length] at hstreams
        rw [hall] at haccepted'
        have hmatched := matched_of_accepted secs hasTcpinfoRetransmits hdual haccepted' hstreams
        have hnone : atListener σ.accepted k = [] := by
          rw [hrest, Stage.waiting, show i - (j + 1) = 0 by omega]
          rfl
        have hempty (r : Server K Double × List Message) : atListener (σ.accepted.serverDoes k r) k = [] := hnone
        have hclient : (σ.clients k).place = .select := by
          rw [h.place, Stage.place, hieq, List.drop_length]
          rfl
        refine ⟨.starting, text, ?_, Served.afterServer ?_ (hempty _) _⟩
        · rw [Stage.rank, Stage.rank]
          omega
        · exact served_serverDoes (hctrl.trans h.ctrl_sck) (hplace'.trans hplace) rfl (by rw [hdown]; rfl) hup hnone hclient
            h.state hmatched
      · rename_i hmore
        have hnext : j + 1 < (streamFlags (σ.clients k).test.toParameters).length := by omega
        refine ⟨.creating i (j + 1), text, ?_, ?_⟩
        · rw [Stage.rank, Stage.rank]
          omega
        · rw [show (acceptStream secs j σ.server).state = .CREATE_STREAMS from hstate'.trans hstate,
            show decide (State.CREATE_STREAMS = .TEST_RUNNING) = false from rfl, afterServer_false]
          · exact served_serverDoes (hctrl.trans h.ctrl_sck) (hplace'.trans hplace) (hstate'.trans hstate)
              (by rw [hdown]; rfl) hup hrest h.place h.state
              ⟨⟨hdual, haccepted'⟩, hstreams, ⟨hlt, hi⟩, hnext⟩
          · intro e he
            have hselect : (acceptStream secs j σ.server).place = .select := hplace'.trans hplace
            rw [Network.serverDoes, hselect] at he
            cases he
  | invited => cases hwaiting
  | _ => cases hstate'

theorem served_serverRead (h : Served clib ints secs hasTcpinfoRetransmits σ k stage text)
    (hplace : σ.server.place = .select) (hm : Receives (σ.clientUp k) (σ.toServer k) m) :
    ∃ stage' text', stage'.rank < stage.rank ∧ Served clib ints secs hasTcpinfoRetransmits
      (((σ.serverTook k).serverDoes k (serverRead m σ.server)).afterServer false) k stage' text' := by
  have hserver : σ.serverUp := fun e he => by
    rw [hplace] at he
    cases he
  obtain ⟨message, rest, rfl, hup⟩ := served_serverMessage h hserver hm
  have htail : (σ.serverTook k).toServer k = rest := by
    simp only [Network.serverTook, Function.update_self, h.up, hup, List.tail_cons]
  have hempty (hwaiting : stage.waiting k = ([] : List (Connection K))) (r : Server K Double × List Message) :
      atListener ((σ.serverTook k).serverDoes k r) k = [] := h.waiting.trans hwaiting
  have hdown (msgs : List Message) : (σ.serverTook k).toClient k ++ msgs = stage.down text ++ msgs := by
    rw [← h.down]
    rfl
  have hdata := h.data
  cases stage with
  | ending =>
      obtain ⟨rfl, rfl⟩ := List.cons.inj hup
      refine ⟨.exchanging, text, by decide, Served.afterServer ?_ (hempty rfl _) false⟩
      exact served_serverDoes h.ctrl_sck rfl rfl (hdown _) htail h.waiting h.place h.state hdata
  | leaving =>
      obtain ⟨rfl, rfl⟩ := List.cons.inj hup
      refine ⟨.done, text, by decide, Served.afterServer ?_ (hempty rfl _) false⟩
      exact served_serverDoes h.ctrl_sck rfl rfl (hdown _) htail h.waiting h.place h.state hdata
  | answered | reported | cutEnding | lostEnding =>
      rw [h.serverPlace] at hplace
      cases hplace
  | _ => cases hup

theorem served_serverResults (hshort : ShortNumbers lib)
    (h : Served clib ints secs hasTcpinfoRetransmits σ k stage text) (hplace : σ.server.place = .results)
    (hm : Receives (σ.clientUp k) (σ.toServer k) m) :
    ∃ stage' text', stage'.rank < stage.rank ∧ Served clib ints secs hasTcpinfoRetransmits
      (((σ.serverTook k).serverDoes k (serverResults clib ints secs m σ.server)).afterServer false) k stage' text' := by
  have hserver : σ.serverUp := fun e he => by
    rw [hplace] at he
    cases he
  obtain ⟨message, rest, rfl, hup⟩ := served_serverMessage h hserver hm
  have htail : (σ.serverTook k).toServer k = rest := by
    simp only [Network.serverTook, Function.update_self, h.up, hup, List.tail_cons]
  have hdata := h.data
  have hplace' := h.serverPlace
  rw [hplace] at hplace'
  cases stage with
  | reported =>
      obtain ⟨rfl, rfl⟩ := List.cons.inj hup
      obtain ⟨hmatched, htext⟩ := hdata
      obtain ⟨test, str, hread, hstr, hresults⟩ := serverResults_tree clib ints secs hasTcpinfoRetransmits hshort hmatched htext
      have hempty (r : Server K Double × List Message) : atListener ((σ.serverTook k).serverDoes k r) k = [] := h.waiting
      have hdown (msgs : List Message) : (σ.serverTook k).toClient k ++ msgs = msgs := by
        rw [show (σ.serverTook k).toClient k = [] from h.down, List.nil_append]
      rw [hresults]
      refine ⟨.returned, str, by decide, Served.afterServer ?_ (hempty _) false⟩
      exact served_serverDoes h.ctrl_sck rfl rfl (hdown _) htail h.waiting h.place h.state
        ⟨_, text, hmatched, htext, hread, hstr⟩
  | exchanging => cases hup
  | _ => cases hplace'

end Served

end SberWifi.IperfOrder
