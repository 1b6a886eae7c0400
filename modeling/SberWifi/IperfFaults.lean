import SberWifi.IperfRuns

namespace SberWifi.IperfFaults

open CJsonPrint hiding Test
open CJsonParse CJsonRoundTrip ControlSocket IperfParameters IperfTime IperfStreams IperfSession IperfStages IperfRuns

section Counting

def clientCount : ClientPlace → Nat
  | .ended _ => 0
  | _ => 1

def serverCount : ServerPlace → Nat
  | .ended _ => 0
  | _ => 1

end Counting

section Freezing

variable {K Double : Type} {lib : CLib Double} {clib : Strtod lib} {ints : Integers lib}
  {secs : Seconds lib} {hasTcpinfoRetransmits : Bool} {σ σ' σ₀ σ₀' : Network K Double} {k : K}

inductive Final : Message → Prop
  | terminate : Final (.state .SERVER_TERMINATE)
  | error (e : Error) (he : e ≠ .IEMESSAGE) : Final (.error e)
  | reset : Final .reset

/-- In the second session those that have been stopped in the first do nothing any more. -/
structure Frozen (σ σ₀ : Network K Double) : Prop where
  client : ∀ k, σ.clients k = σ₀.clients k ∨ ∃ e, (σ.clients k).place = .ended (some e) ∧ e ≠ .IEMESSAGE
  server : σ.server = σ₀.server ∨ ∃ e, σ.server.place = .ended e ∧ e ≠ some .IEMESSAGE
  ctrl_sck : σ.server.ctrl_sck = σ₀.server.ctrl_sck
  test : σ.server.test = σ₀.server.test
  backlog : σ.serverUp → σ.backlog = σ₀.backlog
  up : σ.serverUp → ∀ k, ∃ extra, σ.toServer k = σ₀.toServer k ++ extra ∧
    (∀ m ∈ extra, m = .state .CLIENT_TERMINATE) ∧ (σ.clientUp k → extra = [])
  down : ∀ k, σ.clientUp k → ∃ extra, σ.toClient k = σ₀.toClient k ++ extra ∧ (∀ m ∈ extra, Final m) ∧
    (σ.serverUp → extra = [])
  heard : ¬ σ.serverUp → ∀ k, σ.clientUp k → .control k ∈ σ₀.backlog → σ.toClient k ≠ []

structure Level (σ σ₀ : Network K Double) : Prop where
  client : ∀ k, σ.clients k = σ₀.clients k ∨ ∃ e, (σ.clients k).place = .ended (some e) ∧ e ≠ .IEMESSAGE
  server : σ.server = σ₀.server
  backlog : σ.backlog = σ₀.backlog
  up : ∀ k, ∃ extra, σ.toServer k = σ₀.toServer k ++ extra ∧ (∀ m ∈ extra, m = .state .CLIENT_TERMINATE) ∧
    (σ.clientUp k → extra = [])
  down : ∀ k, σ.clientUp k → σ.toClient k = σ₀.toClient k

theorem Level.frozen (h : Level σ σ₀) (hclosed : ¬ σ.serverUp → σ.backlog = []) : Frozen σ σ₀ where
  client := h.client
  server := .inl h.server
  ctrl_sck := by rw [h.server]
  test := by rw [h.server]
  backlog := fun _ => h.backlog
  up := fun _ => h.up
  down := fun k hk => ⟨[], by rw [h.down k hk, List.append_nil], by simp, fun _ => rfl⟩
  heard := fun hdown k _ hwaiting => by
    rw [← h.backlog, hclosed hdown] at hwaiting
    cases hwaiting

theorem Frozen.level (h : Frozen σ σ₀) (hup : σ.serverUp) : Level σ σ₀ where
  client := h.client
  server := by
    rcases h.server with heq | ⟨e, he, -⟩
    · exact heq
    · exact (hup e he).elim
  backlog := h.backlog hup
  up := h.up hup
  down := fun k hk => by
    obtain ⟨extra, hextra, -, hnone⟩ := h.down k hk
    rw [hextra, hnone hup, List.append_nil]

theorem Frozen.same (h : Frozen σ σ₀) (hup : σ.clientUp k) : σ.clients k = σ₀.clients k := by
  rcases h.client k with heq | ⟨e, he, -⟩
  · exact heq
  · exact (hup _ he).elim

theorem level_accepted (h : Level σ σ₀) : Level σ.accepted σ₀.accepted where
  client := h.client
  server := h.server
  backlog := congrArg List.tail h.backlog
  up := h.up
  down := h.down

theorem frozen_connect (h : Frozen σ σ₀) (hserver : σ.serverUp) (c : Connection K) : Frozen (σ.connect c) (σ₀.connect c) where
  client := h.client
  server := h.server
  ctrl_sck := h.ctrl_sck
  test := h.test
  backlog := fun hup => by rw [Network.connect, h.backlog hup]; rfl
  up := h.up
  down := h.down
  heard := fun hdown => (hdown hserver).elim

def LastWords (σ σ' : Network K Double) : Prop :=
  ∀ k, ∃ extra, σ'.toClient k = σ.toClient k ++ extra ∧ ∀ m ∈ extra, Final m

theorem LastWords.of_eq (h : σ'.toClient = σ.toClient) : LastWords σ σ' :=
  fun k => ⟨[], by rw [h, List.append_nil], by simp⟩

theorem LastWords.trans {σ'' : Network K Double} (h : LastWords σ σ') (h' : LastWords σ' σ'') : LastWords σ σ'' := by
  intro k
  obtain ⟨extra, hextra, hfinal⟩ := h k
  obtain ⟨extra', hextra', hfinal'⟩ := h' k
  refine ⟨extra ++ extra', ?_, List.forall_mem_append.2 ⟨hfinal, hfinal'⟩⟩
  rw [hextra', hextra, List.append_assoc]

theorem frozen_stopServer (h : Frozen σ σ₀) (hup : σ.serverUp) {e : Option Error} (hplace : σ'.server.place = .ended e)
    (he : e ≠ some .IEMESSAGE) (hctrl : σ'.server.ctrl_sck = σ.server.ctrl_sck) (htest : σ'.server.test = σ.server.test)
    (hclients : σ'.clients = σ.clients) (hdown : LastWords σ σ')
    (hheard : ∀ k, .control k ∈ σ.backlog → σ'.toClient k ≠ []) : Frozen σ' σ₀ where
  client := by
    rw [hclients]
    exact h.client
  server := .inr ⟨e, hplace, he⟩
  ctrl_sck := by rw [hctrl, h.ctrl_sck]
  test := by rw [htest, h.test]
  backlog := fun hup => (hup _ hplace).elim
  up := fun hup => (hup _ hplace).elim
  down := fun k hk => by
    rw [Network.clientUp, hclients] at hk
    obtain ⟨extra, hextra, hfinal, -⟩ := h.down k hk
    obtain ⟨extra', hextra', hfinal'⟩ := hdown k
    refine ⟨extra ++ extra', ?_, List.forall_mem_append.2 ⟨hfinal, hfinal'⟩, fun hup => (hup _ hplace).elim⟩
    rw [hextra', hextra, List.append_assoc]
  heard := fun _ k _ hwaiting => hheard k (h.backlog hup ▸ hwaiting)

section Reading

/-- A client is stopped by the last words of the server, or by the end of them. -/
theorem clientRead_last {m : Option Message} (hm : ∀ message ∈ m, Final message) (c : Client Double) :
    ∃ e, e ≠ .IEMESSAGE ∧ (clientRead ints secs m c).1.place = .ended (some e) ∧ (clientRead ints secs m c).2 = [] := by
  cases m with
  | none => exact ⟨.IECTRLCLOSE, by decide, rfl, rfl⟩
  | some m =>
      cases hm m rfl with
      | terminate => exact ⟨.IESERVERTERM, by decide, rfl, rfl⟩
      | error e he => exact ⟨e, he, rfl, rfl⟩
      | reset => exact ⟨.IERECVMESSAGE, by decide, rfl, rfl⟩

theorem clientResults_last {m : Option Message} (hm : ∀ message ∈ m, Final message) (c : Client Double) :
    clientResults clib ints secs m c = { c with place := .ended (some .IERECVRESULTS) } := by
  have htree : readTree clib m = none := by
    cases m with
    | none => rfl
    | some m => cases hm m rfl <;> rfl
  rw [clientResults, htree]
  rfl

/-- A server that its client has left ends. -/
theorem serverRead_last {m : Option Message} (hm : ∀ message ∈ m, message = .state .CLIENT_TERMINATE)
    (s : Server K Double) : serverRead m s = ({ s with place := .ended none, state := .IPERF_DONE }, []) := by
  cases m with
  | none => rfl
  | some m =>
      rw [hm m rfl]
      rfl

theorem readTree_last {m : Option Message} (hm : ∀ message ∈ m, message = .state .CLIENT_TERMINATE) :
    readTree clib m = none := by
  cases m with
  | none => rfl
  | some m =>
      rw [hm m rfl]
      rfl

/-- What a client reads is what it reads in the other session, or the last words of the server. -/
theorem client_receives (h : Frozen σ σ₀) (hup : σ.clientUp k) {m : Option Message}
    (hm : Receives (σ.serverUp ∨ σ.server.ctrl_sck ≠ some k) (σ.toClient k) m) :
    (∃ message rest, m = some message ∧ σ₀.toClient k = message :: rest) ∨ ∀ message ∈ m, Final message := by
  obtain ⟨extra, hextra, hfinal, -⟩ := h.down k hup
  rw [hextra] at hm
  cases hfirst : σ₀.toClient k with
  | nil =>
      rw [hfirst, List.nil_append] at hm
      refine .inr ?_
      cases hm with
      | message message rest =>
          rintro _ ⟨⟩
          exact hfinal message List.mem_cons_self
      | closed => rintro _ ⟨⟩
  | cons message rest =>
      rw [hfirst] at hm
      cases hm
      exact .inl ⟨message, rest, rfl, rfl⟩

theorem server_receives (h : Level σ σ₀) {m : Option Message} (hm : Receives (σ.clientUp k) (σ.toServer k) m) :
    (∃ message rest, m = some message ∧ σ₀.toServer k = message :: rest) ∨
      ∀ message ∈ m, message = .state .CLIENT_TERMINATE := by
  obtain ⟨extra, hextra, hterminate, -⟩ := h.up k
  rw [hextra] at hm
  cases hfirst : σ₀.toServer k with
  | nil =>
      rw [hfirst, List.nil_append] at hm
      refine .inr ?_
      cases hm with
      | message message rest =>
          rintro _ ⟨⟩
          exact hterminate message List.mem_cons_self
      | closed => rintro _ ⟨⟩
  | cons message rest =>
      rw [hfirst] at hm
      cases hm
      exact .inl ⟨message, rest, rfl, rfl⟩

theorem clientCount_eq {place : ClientPlace} : clientCount place = 1 ↔ ∀ e, place ≠ .ended e := by
  cases place <;> simp [clientCount]

theorem serverCount_eq {place : ServerPlace} : serverCount place = 1 ↔ ∀ e, place ≠ .ended e := by
  cases place <;> simp [serverCount]

theorem clientUp_of_place {place : ClientPlace} (hplace : (σ.clients k).place = place) (hup : clientCount place = 1) :
    σ.clientUp k := clientCount_eq.1 (hplace ▸ hup)

theorem serverUp_of_place {place : ServerPlace} (hplace : σ.server.place = place) (hup : serverCount place = 1) :
    σ.serverUp := serverCount_eq.1 (hplace ▸ hup)

end Reading

variable [DecidableEq K]

section Together

omit [DecidableEq K] in
theorem level_server (h : Level σ σ₀) (f : Server K Double → Server K Double) :
    Level { σ with server := f σ.server } { σ₀ with server := f σ₀.server } where
  client := h.client
  server := congrArg f h.server
  backlog := h.backlog
  up := h.up
  down := h.down

theorem level_serverDoes (h : Level σ σ₀) (k : K) (r : Server K Double × List Message) :
    Level (σ.serverDoes k r) (σ₀.serverDoes k r) where
  client := h.client
  server := rfl
  backlog := h.backlog
  up := h.up
  down := fun k' hk' => by
    by_cases heq : k' = k
    · subst heq
      simp only [Network.serverDoes, Function.update_self, h.down k' hk']
    · simp only [Network.serverDoes, Function.update_of_ne heq, h.down k' hk']

theorem level_deny (h : Level σ σ₀) (c : Connection K) : Level (σ.deny c) (σ₀.deny c) := by
  cases c with
  | control k =>
      rw [Network.deny, Network.deny, h.server]
      exact level_serverDoes h k _
  | stream => exact h

theorem level_serverTook (h : Level σ σ₀) {m : Message} {rest : List Message} (hm : σ₀.toServer k = m :: rest) :
    Level (σ.serverTook k) (σ₀.serverTook k) where
  client := h.client
  server := h.server
  backlog := h.backlog
  up := fun k' => by
    obtain ⟨extra, hextra, hterminate, hnone⟩ := h.up k'
    refine ⟨extra, ?_, hterminate, hnone⟩
    by_cases heq : k' = k
    · subst heq
      simp only [Network.serverTook, Function.update_self, hextra, hm, List.cons_append, List.tail_cons]
    · simp only [Network.serverTook, Function.update_of_ne heq, hextra]
  down := h.down

theorem level_afterServer (h : Level σ σ₀) (listens : Bool) : Level (σ.afterServer listens) (σ₀.afterServer listens) := by
  have hclose : Level σ.closeListener σ₀.closeListener := {
    client := h.client
    server := h.server
    backlog := rfl
    up := h.up
    down := fun k hk => by
      simp only [Network.closeListener, h.backlog, h.down k hk] }
  rw [Network.afterServer, Network.afterServer, h.server]
  split
  · exact hclose
  · split
    · exact hclose
    · exact h

theorem frozen_clientDoes (h : Frozen σ σ₀) (hup : σ.clientUp k) (c : Client Double) (msgs : List Message) :
    Frozen (σ.clientDoes k (c, msgs)) (σ₀.clientDoes k (c, msgs)) where
  client := fun k' => by
    by_cases heq : k' = k
    · subst heq
      simp only [Network.clientDoes, Function.update_self, true_or]
    · simpa only [Network.clientDoes, Function.update_of_ne heq] using h.client k'
  server := h.server
  ctrl_sck := h.ctrl_sck
  test := h.test
  backlog := h.backlog
  up := fun hserver k' => by
    obtain ⟨extra, hextra, hterminate, hnone⟩ := h.up hserver k'
    refine ⟨extra, ?_, hterminate, ?_⟩
    · by_cases heq : k' = k
      · subst heq
        rw [hnone hup, List.append_nil] at hextra
        simp only [Network.clientDoes, Function.update_self, hextra, hnone hup, List.append_nil]
      · simpa only [Network.clientDoes, Function.update_of_ne heq] using hextra
    · intro hup'
      by_cases heq : k' = k
      · exact hnone (heq ▸ hup)
      · refine hnone fun e he => hup' e ?_
        simpa only [Network.clientDoes, Function.update_of_ne heq] using he
  down := fun k' hk' => by
    by_cases heq : k' = k
    · exact heq ▸ h.down k hup
    · refine h.down k' fun e he => hk' e ?_
      simpa only [Network.clientDoes, Function.update_of_ne heq] using he
  heard := fun hserver k' hk' hwaiting => by
    by_cases heq : k' = k
    · exact heq ▸ h.heard hserver k hup (heq ▸ hwaiting)
    · refine h.heard hserver k' (fun e he => hk' e ?_) hwaiting
      simpa only [Network.clientDoes, Function.update_of_ne heq] using he

theorem frozen_clientTook (h : Frozen σ σ₀) (hwaits : .control k ∉ σ₀.backlog) {m : Message} {rest : List Message}
    (hm : σ₀.toClient k = m :: rest) :
    Frozen (σ.clientTook k) (σ₀.clientTook k) where
  client := h.client
  server := h.server
  ctrl_sck := h.ctrl_sck
  test := h.test
  backlog := h.backlog
  up := h.up
  down := fun k' hk' => by
    obtain ⟨extra, hextra, hfinal, hnone⟩ := h.down k' hk'
    refine ⟨extra, ?_, hfinal, hnone⟩
    by_cases heq : k' = k
    · subst heq
      simp only [Network.clientTook, Function.update_self, hextra, hm, List.cons_append, List.tail_cons]
    · simp only [Network.clientTook, Function.update_of_ne heq, hextra]
  heard := fun hserver k' hk' hwaiting => by
    have heq : k' ≠ k := fun heq => hwaits (heq ▸ hwaiting)
    simpa only [Network.clientTook, Function.update_of_ne heq] using h.heard hserver k' hk' hwaiting

end Together

section Stopping

theorem frozen_stopClient (h : Frozen σ σ₀) {c : Client Double} {msgs : List Message} {e : Error}
    (hplace : c.place = .ended (some e)) (he : e ≠ .IEMESSAGE) (hmsgs : ∀ m ∈ msgs, m = .state .CLIENT_TERMINATE)
    (hclients : σ'.clients = Function.update σ.clients k c) (hserver : σ'.server = σ.server)
    (hbacklog : σ'.backlog = σ.backlog) (hup : σ'.toServer = Function.update σ.toServer k (σ.toServer k ++ msgs))
    (hdown : ∀ k' ≠ k, σ'.toClient k' = σ.toClient k') : Frozen σ' σ₀ where
  client := fun k' => by
    rw [hclients]
    by_cases heq : k' = k
    · subst heq
      rw [Function.update_self]
      exact .inr ⟨e, hplace, he⟩
    · rw [Function.update_of_ne heq]
      exact h.client k'
  server := by
    rw [hserver]
    exact h.server
  ctrl_sck := by rw [hserver, h.ctrl_sck]
  test := by rw [hserver, h.test]
  backlog := fun hserverUp => by
    rw [Network.serverUp, hserver] at hserverUp
    rw [hbacklog, h.backlog hserverUp]
  up := fun hserverUp k' => by
    rw [Network.serverUp, hserver] at hserverUp
    obtain ⟨extra, hextra, hterminate, hnone⟩ := h.up hserverUp k'
    by_cases heq : k' = k
    · subst heq
      refine ⟨extra ++ msgs, ?_, List.forall_mem_append.2 ⟨hterminate, hmsgs⟩, fun hk => ?_⟩
      · rw [hup, Function.update_self, hextra, List.append_assoc]
      · rw [Network.clientUp, hclients, Function.update_self] at hk
        exact (hk _ hplace).elim
    · refine ⟨extra, ?_, hterminate, fun hk => ?_⟩
      · rw [hup, Function.update_of_ne heq, hextra]
      · rw [Network.clientUp, hclients, Function.update_of_ne heq] at hk
        exact hnone hk
  down := fun k' hk' => by
    by_cases heq : k' = k
    · subst heq
      rw [Network.clientUp, hclients, Function.update_self] at hk'
      exact (hk' _ hplace).elim
    · rw [Network.clientUp, hclients, Function.update_of_ne heq] at hk'
      obtain ⟨extra, hextra, hfinal, hnone⟩ := h.down k' hk'
      refine ⟨extra, by rw [hdown k' heq, hextra], hfinal, fun hserverUp => ?_⟩
      rw [Network.serverUp, hserver] at hserverUp
      exact hnone hserverUp
  heard := fun hserverDown k' hk' hwaiting => by
    rw [Network.serverUp, hserver] at hserverDown
    by_cases heq : k' = k
    · subst heq
      rw [Network.clientUp, hclients, Function.update_self] at hk'
      exact (hk' _ hplace).elim
    · rw [Network.clientUp, hclients, Function.update_of_ne heq] at hk'
      rw [hdown k' heq]
      exact h.heard hserverDown k' hk' hwaiting

theorem lastWords_serverDoes {r : Server K Double × List Message} (h : ∀ m ∈ r.2, Final m) :
    LastWords σ (σ.serverDoes k r) := by
  intro k'
  by_cases heq : k' = k
  · subst heq
    exact ⟨r.2, by simp only [Network.serverDoes, Function.update_self], h⟩
  · exact ⟨[], by simp only [Network.serverDoes, Function.update_of_ne heq, List.append_nil], by simp⟩

theorem lastWords_afterServer (listens : Bool) : LastWords σ (σ.afterServer listens) := by
  have hclose : LastWords σ σ.closeListener := by
    intro k
    rw [Network.closeListener]
    dsimp only
    split
    · exact ⟨[.reset], rfl, fun m hm => List.mem_singleton.1 hm ▸ .reset⟩
    · exact ⟨[], (List.append_nil _).symm, by simp⟩
  rw [Network.afterServer]
  split
  · exact hclose
  · split
    · exact hclose
    · exact .of_eq rfl

theorem afterServer_ended {e : Option Error} (listens : Bool) (hplace : σ.server.place = .ended e) :
    σ.afterServer listens = σ.closeListener := by
  rw [Network.afterServer, hplace]

theorem frozen_serverDown (h : Frozen σ σ₀) (hup : σ.serverUp) {e : Option Error} (listens : Bool)
    (hplace : σ'.server.place = .ended e) (he : e ≠ some .IEMESSAGE) (hctrl : σ'.server.ctrl_sck = σ.server.ctrl_sck)
    (htest : σ'.server.test = σ.server.test) (hclients : σ'.clients = σ.clients) (hbacklog : σ'.backlog = σ.backlog)
    (hdown : LastWords σ σ') : Frozen (σ'.afterServer listens) σ₀ := by
  refine frozen_stopServer h hup ?_ he ?_ ?_ ?_ (hdown.trans (lastWords_afterServer listens)) fun k hk => ?_
  · rw [afterServer_server, hplace]
  · rw [afterServer_server, hctrl]
  · rw [afterServer_server, htest]
  · rw [afterServer_clients, hclients]
  · rw [← hbacklog] at hk
    simp only [afterServer_ended listens hplace, Network.closeListener, hk, if_true]
    exact List.append_ne_nil_of_right_ne_nil _ (List.cons_ne_nil _ _)

theorem frozen_serverEnds (h : Frozen σ σ₀) (hup : σ.serverUp) {s : Server K Double} {msgs : List Message}
    {e : Option Error} (listens : Bool) (hplace : s.place = .ended e) (he : e ≠ some .IEMESSAGE)
    (hctrl : s.ctrl_sck = σ.server.ctrl_sck) (htest : s.test = σ.server.test) (hmsgs : ∀ m ∈ msgs, Final m)
    (hclients : σ'.clients = σ.clients) (hbacklog : σ'.backlog = σ.backlog) (hdown : σ'.toClient = σ.toClient) :
    Frozen ((σ'.serverDoes k (s, msgs)).afterServer listens) σ₀ :=
  frozen_serverDown h hup listens hplace he hctrl htest hclients hbacklog
    ((LastWords.of_eq hdown).trans (lastWords_serverDoes hmsgs))

end Stopping

def Stops (σ σ' : Network K Double) : Prop := (σ.serverUp ∧ ¬ σ'.serverUp) ∨ ∃ k, σ.clientUp k ∧ ¬ σ'.clientUp k

theorem stops_clientDoes {r : Client Double × List Message} {e : Option Error} (hup : σ.clientUp k)
    (hplace : r.1.place = .ended e) : Stops σ (σ'.clientDoes k r) := by
  refine .inr ⟨k, hup, fun hup' => hup' e ?_⟩
  simpa only [Network.clientDoes, Function.update_self] using hplace

theorem stops_serverDoes {r : Server K Double × List Message} {e : Option Error} (hup : σ.serverUp)
    (hplace : r.1.place = .ended e) (listens : Bool) : Stops σ ((σ'.serverDoes k r).afterServer listens) := by
  refine .inl ⟨hup, fun hup' => hup' e ?_⟩
  rw [afterServer_server]
  exact hplace

section Steps

variable {n : Nat}

/-- A client at the listener has nothing to read yet. -/
theorem control_not_mem (h : Orderly clib ints secs hasTcpinfoRetransmits σ n) {m : Message} {rest : List Message}
    (hm : σ.toClient k = m :: rest) : .control k ∉ σ.backlog := by
  rw [control_mem]
  by_cases hk : σ.server.ctrl_sck = some k
  · obtain ⟨stage, text, hserved, -⟩ := orderly_ctrl h hk
    rw [hserved.waiting]
    cases stage <;> simp [Stage.waiting]
  · cases orderly_outsideAt h hk with
    | waiting _ _ _ hdown =>
        rw [hm] at hdown
        cases hdown
    | start _ _ _ _ hown | refused _ _ _ _ _ hown | gone _ _ _ hown =>
        rw [hown]
        exact List.not_mem_nil

theorem frozen_act (horderly : Orderly clib ints secs hasTcpinfoRetransmits σ₀ n) (h : Frozen σ σ₀)
    (hact : Act clib ints secs hasTcpinfoRetransmits σ σ') :
    (Frozen σ' σ₀ ∧ Stops σ σ') ∨ ∃ σ₀', Act clib ints secs hasTcpinfoRetransmits σ₀ σ₀' ∧ Frozen σ' σ₀' := by
  cases hact with
  | connect k hplace hserver =>
      have hup : σ.clientUp k := clientUp_of_place hplace rfl
      have hsame := h.same hup
      refine .inr ⟨_, .connect k (hsame ▸ hplace) ?_, ?_⟩
      · rw [Network.serverUp, ← (h.level hserver).server]
        exact hserver
      · rw [← hsame]
        exact frozen_connect (frozen_clientDoes h hup _ _) hserver _
  | unconnected k hplace hdown =>
      exact .inl ⟨frozen_stopClient h rfl (by decide) (by simp) rfl rfl rfl rfl fun _ _ => rfl,
        stops_clientDoes (clientUp_of_place hplace rfl) rfl⟩
  | @read k m hplace hm =>
      have hup : σ.clientUp k := clientUp_of_place hplace rfl
      have hsame := h.same hup
      rcases client_receives h hup hm with ⟨message, rest, rfl, hfirst⟩ | hlast
      · refine .inr ⟨_, .read k (m := some message) (hsame ▸ hplace) (hfirst ▸ .message message rest), ?_⟩
        rw [← hsame]
        exact frozen_clientDoes (frozen_clientTook h (control_not_mem horderly hfirst) hfirst) hup _ _
      · obtain ⟨e, he, hended, hnothing⟩ := clientRead_last hlast (σ.clients k)
        exact .inl ⟨frozen_stopClient h hended he (by simp [hnothing]) rfl rfl rfl rfl
          fun k' hne => (sameView_clientTook hne).down, stops_clientDoes hup hended⟩
  | @results k m hplace hm =>
      have hup : σ.clientUp k := clientUp_of_place hplace rfl
      have hsame := h.same hup
      rcases client_receives h hup hm with ⟨message, rest, rfl, hfirst⟩ | hlast
      · refine .inr ⟨_, .results k (m := some message) (hsame ▸ hplace) (hfirst ▸ .message message rest), ?_⟩
        rw [← hsame]
        exact frozen_clientDoes (frozen_clientTook h (control_not_mem horderly hfirst) hfirst) hup _ _
      · rw [clientResults_last hlast]
        exact .inl ⟨frozen_stopClient h rfl (by decide) (by simp) rfl rfl rfl rfl
          fun k' hne => (sameView_clientTook hne).down, stops_clientDoes hup rfl⟩
  | stream k hplace hserver =>
      have hup : σ.clientUp k := clientUp_of_place hplace rfl
      have hsame := h.same hup
      refine .inr ⟨_, .stream k (hsame ▸ hplace) ?_, ?_⟩
      · rw [Network.serverUp, ← (h.level hserver).server]
        exact hserver
      · rw [← hsame]
        exact frozen_connect (frozen_clientDoes h hup _ _) hserver _
  | unstreamed k hplace hdown =>
      exact .inl ⟨frozen_stopClient h rfl (by decide) (by simp) rfl rfl rfl rfl fun _ _ => rfl,
        stops_clientDoes (clientUp_of_place hplace rfl) rfl⟩
  | finish k hplace hstate hdone =>
      have hup : σ.clientUp k := clientUp_of_place hplace rfl
      have hsame := h.same hup
      refine .inr ⟨_, .finish k (hsame ▸ hplace) (hsame ▸ hstate) (hsame ▸ hdone), ?_⟩
      rw [← hsame]
      exact frozen_clientDoes h hup _ _
  | accept hplace hstate hctrl hbacklog =>
      have hlevel := h.level (serverUp_of_place hplace rfl)
      rw [hlevel.server] at hplace hstate hctrl
      rw [hlevel.backlog] at hbacklog
      refine .inr ⟨_, .accept hplace hstate hctrl hbacklog, ?_⟩
      rw [hlevel.server]
      exact (level_serverDoes (level_accepted hlevel) _ _).frozen
        fun hdown => (hdown (serverUp_of_place rfl rfl)).elim
  | deny k hplace hstate hctrl hbacklog =>
      have hup : σ.serverUp := serverUp_of_place hplace rfl
      have hlevel := h.level hup
      rw [hlevel.server] at hplace hstate hctrl
      rw [hlevel.backlog] at hbacklog
      refine .inr ⟨_, .deny k hplace hstate hctrl hbacklog, (level_deny (level_accepted hlevel) _).frozen fun hdown => ?_⟩
      rw [Network.serverUp, deny_server] at hdown
      exact (hdown hup).elim
  | @parameters k m hplace hctrl hm =>
      have hup : σ.serverUp := serverUp_of_place hplace rfl
      have hlevel := h.level hup
      rcases server_receives hlevel hm with ⟨message, rest, rfl, hfirst⟩ | hlast
      · rw [hlevel.server] at hplace hctrl
        refine .inr ⟨_, .parameters k (m := some message) hplace hctrl (hfirst ▸ .message message rest), ?_⟩
        rw [hlevel.server]
        exact (level_afterServer (level_serverDoes (level_serverTook hlevel hfirst) _ _) _).frozen (closed_afterServer _)
      · rw [acceptParameters, readTree_last hlast]
        exact .inl ⟨frozen_serverEnds h hup _ rfl (by decide) rfl rfl (by simp) rfl rfl rfl, stops_serverDoes hup rfl _⟩
  | acceptStream k hplace hstate hctrl hbacklog hcookie =>
      have hlevel := h.level (serverUp_of_place hplace rfl)
      rw [hlevel.server] at hplace hstate hctrl
      rw [hlevel.backlog] at hbacklog
      refine .inr ⟨_, .acceptStream k hplace hstate hctrl hbacklog hcookie, ?_⟩
      rw [hlevel.server]
      exact (level_afterServer (level_serverDoes (level_accepted hlevel) _ _) _).frozen (closed_afterServer _)
  | denyStream k hplace hstate hctrl hbacklog hcookie =>
      have hlevel := h.level (serverUp_of_place hplace rfl)
      rw [hlevel.server] at hplace hstate hctrl
      rw [hlevel.backlog] at hbacklog
      refine .inr ⟨_, .denyStream k hplace hstate hctrl hbacklog hcookie, ?_⟩
      rw [hlevel.server]
      exact (level_afterServer (level_serverDoes (level_deny (level_accepted hlevel) _) _ _) _).frozen
        (closed_afterServer _)
  | @message k m hplace hctrl hm =>
      have hup : σ.serverUp := serverUp_of_place hplace rfl
      have hlevel := h.level hup
      rcases server_receives hlevel hm with ⟨message, rest, rfl, hfirst⟩ | hlast
      · rw [hlevel.server] at hplace hctrl
        refine .inr ⟨_, .message k (m := some message) hplace hctrl (hfirst ▸ .message message rest), ?_⟩
        rw [hlevel.server]
        exact (level_afterServer (level_serverDoes (level_serverTook hlevel hfirst) _ _) _).frozen (closed_afterServer _)
      · rw [serverRead_last hlast]
        exact .inl ⟨frozen_serverEnds h hup _ rfl (by decide) rfl rfl (by simp) rfl rfl rfl, stops_serverDoes hup rfl _⟩
  | @serverResults k m hplace hctrl hm =>
      have hup : σ.serverUp := serverUp_of_place hplace rfl
      have hlevel := h.level hup
      rcases server_receives hlevel hm with ⟨message, rest, rfl, hfirst⟩ | hlast
      · rw [hlevel.server] at hplace hctrl
        refine .inr ⟨_, .serverResults k (m := some message) hplace hctrl (hfirst ▸ .message message rest), ?_⟩
        rw [hlevel.server]
        exact (level_afterServer (level_serverDoes (level_serverTook hlevel hfirst) _ _) _).frozen (closed_afterServer _)
      · rw [IperfSession.serverResults, readTree_last hlast]
        exact .inl ⟨frozen_serverEnds h hup _ rfl (by decide) rfl rfl (by simp) rfl rfl rfl, stops_serverDoes hup rfl _⟩

theorem frozen_measure (h : Frozen σ σ₀) (hmeasure : Measure σ σ') : ∃ σ₀', Measure σ₀ σ₀' ∧ Frozen σ' σ₀' := by
  cases hmeasure with
  | @client k c hplace hstate htest =>
      have hup : σ.clientUp k := clientUp_of_place hplace rfl
      have hsame := h.same hup
      exact ⟨_, .client k (hsame ▸ hplace) (hsame ▸ hstate) (hsame ▸ htest), frozen_clientDoes h hup _ _⟩
  | @server test hplace hstate htest =>
      have hup : σ.serverUp := serverUp_of_place hplace rfl
      have hlevel := h.level hup
      rw [hlevel.server] at hplace hstate htest
      exact ⟨_, .server hplace hstate htest,
        (level_server hlevel fun s => { s with test }).frozen fun hdown => (hdown hup).elim⟩

theorem frozen_timeout (h : Frozen σ σ₀) (htimeout : Timeout σ σ') : ∃ σ₀', Timeout σ₀ σ₀' ∧ Frozen σ' σ₀' := by
  cases htimeout with
  | server hplace hstate hduration =>
      have hlevel := h.level (serverUp_of_place hplace rfl)
      have hafter := level_afterServer (level_server hlevel serverTimerProc) false
      rw [hlevel.server] at hplace hstate hduration
      exact ⟨_, .server hplace hstate hduration, hafter.frozen (closed_afterServer _)⟩

theorem frozen_fault (h : Frozen σ σ₀) (hfault : Fault clib σ σ') : Frozen σ' σ₀ := by
  have hlisten : ∀ e ∈ listenErrors, e ≠ .IEMESSAGE := by decide
  have hcall : ∀ e ∈ callErrors, e ≠ .IEMESSAGE := by decide
  have hsome {e : Error} (he : e ≠ .IEMESSAGE) : some e ≠ some .IEMESSAGE := fun heq => he (Option.some.inj heq)
  cases hfault with
  | interruptClient k hup hplace =>
      exact frozen_stopClient h rfl (by decide) (by simp) rfl rfl rfl rfl fun _ _ => rfl
  | interruptUnconnected k hplace =>
      exact frozen_stopClient h rfl (by decide) (by simp) rfl rfl rfl rfl fun _ _ => rfl
  | interruptServer k hup hctrl =>
      exact frozen_serverEnds h hup _ rfl (by decide) rfl rfl (fun m hm => List.mem_singleton.1 hm ▸ .terminate)
        rfl rfl rfl
  | interruptFree hup hctrl => exact frozen_serverDown h hup _ rfl (by decide) rfl rfl rfl rfl (.of_eq rfl)
  | listen k e he hplace hctrl hm hread =>
      exact frozen_serverEnds h (serverUp_of_place hplace rfl) _ rfl (hsome (hlisten e he)) rfl rfl
        (fun m hm => List.mem_singleton.1 hm ▸ .error e (hlisten e he)) rfl rfl rfl
  | client k e he hup =>
      exact frozen_stopClient h rfl (hcall e he) (by simp) rfl rfl rfl rfl fun _ _ => rfl
  | server e he hup => exact frozen_serverDown h hup _ rfl (hsome (hcall e he)) rfl rfl rfl rfl (.of_eq rfl)

end Steps

section Runs

variable (clib ints secs hasTcpinfoRetransmits)

inductive FaultyRun (σ : Network K Double) : Nat → Network K Double → Prop
  | start : FaultyRun σ 0 σ
  | act {n : Nat} {τ τ' : Network K Double} (h : FaultyRun σ n τ) (hact : Act clib ints secs hasTcpinfoRetransmits τ τ') :
      FaultyRun σ (n + 1) τ'
  | timeout {n : Nat} {τ τ' : Network K Double} (h : FaultyRun σ n τ) (htimeout : Timeout τ τ') : FaultyRun σ (n + 1) τ'
  | measure {n : Nat} {τ τ' : Network K Double} (h : FaultyRun σ n τ) (hmeasure : Measure τ τ') : FaultyRun σ n τ'
  | fault {n : Nat} {τ τ' : Network K Double} (h : FaultyRun σ n τ) (hfault : Fault clib τ τ') : FaultyRun σ n τ'

variable {clib ints secs hasTcpinfoRetransmits} {n : Nat}

omit [DecidableEq K] in
theorem frozen_of_ready (h : Ready hasTcpinfoRetransmits σ) : Frozen σ σ :=
  Level.frozen ⟨fun _ => .inl rfl, rfl, rfl, fun _ => ⟨[], (List.append_nil _).symm, by simp, fun _ => rfl⟩, fun _ _ => rfl⟩
    fun _ => h.backlog

/-- For those that are not stopped, a run is one in which nobody is. -/
theorem frozen_run (hshort : ShortNumbers lib) (hready : Ready hasTcpinfoRetransmits σ)
    (h : FaultyRun clib ints secs hasTcpinfoRetransmits σ n σ') :
    ∃ n₀ σ₀, Run clib ints secs hasTcpinfoRetransmits σ n₀ σ₀ ∧ Frozen σ' σ₀ := by
  induction h with
  | start => exact ⟨0, σ, .start, frozen_of_ready hready⟩
  | act _ hact ih =>
      obtain ⟨n₀, σ₀, hrun, hfrozen⟩ := ih
      obtain ⟨N, horderly⟩ := orderly_run hshort hready hrun
      rcases frozen_act horderly hfrozen hact with ⟨hfrozen', -⟩ | ⟨σ₀', hact', hfrozen'⟩
      · exact ⟨n₀, σ₀, hrun, hfrozen'⟩
      · exact ⟨_, σ₀', .act hrun hact', hfrozen'⟩
  | timeout _ htimeout ih =>
      obtain ⟨n₀, σ₀, hrun, hfrozen⟩ := ih
      obtain ⟨σ₀', htimeout', hfrozen'⟩ := frozen_timeout hfrozen htimeout
      exact ⟨_, σ₀', .timeout hrun htimeout', hfrozen'⟩
  | measure _ hmeasure ih =>
      obtain ⟨n₀, σ₀, hrun, hfrozen⟩ := ih
      obtain ⟨σ₀', hmeasure', hfrozen'⟩ := frozen_measure hfrozen hmeasure
      exact ⟨n₀, σ₀', .measure hrun hmeasure', hfrozen'⟩
  | fault _ hfault ih =>
      obtain ⟨n₀, σ₀, hrun, hfrozen⟩ := ih
      exact ⟨n₀, σ₀, hrun, frozen_fault hfrozen hfault⟩

/-- Whoever is stopped, nobody gets a message that it does not expect, and a client
without an error has the same results as the server. -/
theorem faults_contained (hshort : ShortNumbers lib) (hready : Ready hasTcpinfoRetransmits σ)
    (hrun : FaultyRun clib ints secs hasTcpinfoRetransmits σ n σ') :
    (∀ k, (σ'.clients k).place ≠ .ended (some .IEMESSAGE)) ∧ σ'.server.place ≠ .ended (some .IEMESSAGE) ∧
    ∀ k, (σ'.clients k).place = .ended none → σ'.server.ctrl_sck = some k ∧
      ∃ c s, SameSettings (σ.clients k).test c ∧ Matched hasTcpinfoRetransmits c s ∧
        Exchanged secs c s (σ'.clients k).test σ'.server.test := by
  obtain ⟨n₀, σ₀, hrun₀, hfrozen⟩ := frozen_run hshort hready hrun
  obtain ⟨N, horderly⟩ := orderly_run hshort hready hrun₀
  refine ⟨fun k hended => ?_, fun hended => ?_, fun k hended => ?_⟩
  · rcases hfrozen.client k with hsame | ⟨e, he, hne⟩
    · rw [hsame] at hended
      obtain ⟨-, hdenied | hreset | hconnect⟩ | ⟨-, hcut, -⟩ := ended_with_error horderly hended
      · cases hdenied
      · cases hreset
      · cases hconnect
      · cases hcut
    · rw [hended] at he
      cases he
      exact hne rfl
  · rcases hfrozen.server with hsame | ⟨e, he, hne⟩
    · rw [hsame] at hended
      obtain ⟨k, -, ⟨hnone, -⟩ | ⟨hcut, -⟩⟩ := server_ended hrun₀ horderly hended
      · cases hnone
      · cases hcut
    · rw [hended] at he
      cases he
      exact hne rfl
  · rcases hfrozen.client k with hsame | ⟨e, he, -⟩
    · rw [hsame] at hended ⊢
      rw [hfrozen.ctrl_sck, hfrozen.test]
      exact ended_served hrun₀ horderly hended
    · rw [hended] at he
      cases he

end Runs

section Ending

structure Stays (σ σ' : Network K Double) : Prop where
  server : σ'.serverUp → σ.serverUp
  client : ∀ k, σ'.clientUp k → σ.clientUp k

omit [DecidableEq K] in
theorem Stays.connect (h : Stays σ σ') (c : Connection K) : Stays σ (σ'.connect c) := ⟨h.server, h.client⟩

section Counting

variable [Fintype K]

end Counting

section Progress

variable {n : Nat}

omit [DecidableEq K] in
theorem Frozen.clientUp (h : Frozen σ σ₀) (hup : σ.clientUp k) : σ₀.clientUp k := by
  rw [Network.clientUp, ← h.same hup]
  exact hup

end Progress

end Ending

end Freezing

section Sample

open WholeDoubles

/-- The server is interrupted when it has accepted the first client. -/
theorem faulty_sample : ∃ σ, FaultyRun integersStrtod wholeNumbers wholeSeconds true sampleNetwork 2 σ ∧
    σ.server.place = .ended (some .IESERVERTERM) ∧ (σ.clients false).place = .select := by
  have hup (σ : Network Bool Int) {place : ServerPlace} (hplace : σ.server.place = place) (h : serverCount place = 1) :
      σ.serverUp := serverUp_of_place hplace h
  refine ⟨_, .fault (.act (.act .start (.connect false rfl (hup _ rfl rfl))) (.accept rfl ?_ rfl rfl))
    (.interruptServer false (hup _ rfl rfl) rfl), rfl, rfl⟩
  decide

theorem faults_contained_sample : ∃ σ, FaultyRun integersStrtod wholeNumbers wholeSeconds true sampleNetwork 2 σ ∧
    σ.server.place = .ended (some .IESERVERTERM) ∧ ∀ k, (σ.clients k).place ≠ .ended (some .IEMESSAGE) := by
  obtain ⟨σ, hrun, hserver, -⟩ := faulty_sample
  exact ⟨σ, hrun, hserver, (faults_contained integers_short sampleNetwork_ready hrun).1⟩

end Sample

end SberWifi.IperfFaults
