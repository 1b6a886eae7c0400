import Mathlib.Data.List.Nodup
import Mathlib.Data.List.Range
import SberWifi.IperfSession

namespace SberWifi.IperfStages

open CJsonPrint hiding Test
open CJsonParse CJsonRoundTrip ControlSocket IperfParameters IperfTime IperfStreams IperfSession

section Making

variable {K Double : Type} {lib : CLib Double} (secs : Seconds lib)

def made (flags : List Bool) : List (Stream Double) :=
  flags.foldl (fun streams sender => iperfNewStream secs streams streams.length sender) []

@[simp] theorem made_nil : made secs [] = [] := rfl

theorem made_concat (flags : List Bool) (flag : Bool) :
    made secs (flags ++ [flag]) = iperfNewStream secs (made secs flags) (made secs flags).length flag := by
  rw [made, List.foldl_append]
  rfl

@[simp] theorem length_made (flags : List Bool) : (made secs flags).length = flags.length := by
  induction flags using List.reverseRecOn with
  | nil => rfl
  | append_singleton flags flag ih => rw [made_concat, iperfNewStream, List.length_append, List.length_append, ih]; rfl

def streamId (n : Nat) : Int32 := if n = 0 then 1 else .ofNat (n + 2)

theorem made_id (flags : List Bool) : (made secs flags).map Stream.id = (List.range flags.length).map streamId := by
  induction flags using List.reverseRecOn with
  | nil => rfl
  | append_singleton flags flag ih =>
      have hempty : made secs flags = [] ↔ flags.length = 0 := by
        rw [← length_made secs, List.length_eq_zero_iff]
      rw [made_concat, iperfNewStream, List.map_append, ih, List.length_append, List.length_singleton, List.range_succ,
        List.map_append]
      simp only [List.map_cons, List.map_nil, streamId, hempty, length_made]

theorem streamId_inj {m n : Nat} (hm : m ≤ 256) (hn : n ≤ 256) (h : streamId m = streamId n) : m = n := by
  have hvalue {n : Nat} (hn : n ≤ 256) : (streamId n).toInt = if n = 0 then 1 else (n : Int) + 2 := by
    rw [streamId]
    split
    · rfl
    · rw [Int32.toInt_ofNat_of_lt (by omega)]
      omega
  have heq := congrArg Int32.toInt h
  rw [hvalue hm, hvalue hn] at heq
  split at heq <;> split at heq <;> omega

theorem made_nodup {flags : List Bool} (h : flags.length ≤ 256) : ((made secs flags).map Stream.id).Nodup := by
  rw [made_id]
  refine List.Nodup.map_on ?_ List.nodup_range
  intro m hm n hn heq
  rw [List.mem_range] at hm hn
  exact streamId_inj (by omega) (by omega) heq

theorem made_sender (flags : List Bool) : (made secs flags).map Stream.sender = flags := by
  induction flags using List.reverseRecOn with
  | nil => rfl
  | append_singleton flags flag ih => rw [made_concat, iperfNewStream, List.map_append, ih]; rfl

theorem made_bytes (flags : List Bool) : ∀ sp ∈ made secs flags, (bytesTransferred sp).toNat ≤ 2 ^ 53 := by
  induction flags using List.reverseRecOn with
  | nil => exact fun sp hsp => nomatch hsp
  | append_singleton flags flag ih =>
      rw [made_concat, iperfNewStream, List.forall_mem_append]
      refine ⟨ih, fun sp hsp => ?_⟩
      rw [List.mem_singleton.1 hsp]
      cases flag <;> simp [bytesTransferred]

/-- The streams of the two sides are the ends of the same connections, if one side sends where the other does not. -/
theorem made_ends (flags : List Bool) : List.Forall₂ Ends (made secs flags) (made secs (flags.map Bool.not)) := by
  induction flags using List.reverseRecOn with
  | nil => exact .nil
  | append_singleton flags flag ih =>
      have hlength : (made secs flags).length = (made secs (flags.map Bool.not)).length := by simp
      have hempty : made secs flags = [] ↔ made secs (flags.map Bool.not) = [] := by
        rw [← List.length_eq_zero_iff, hlength, List.length_eq_zero_iff]
      rw [List.map_append, List.map_singleton, made_concat, made_concat, iperfNewStream, iperfNewStream]
      refine List.rel_append ih (.cons ⟨?_, hlength, rfl⟩ .nil)
      simp only [hempty, hlength]

end Making

section Accepting

variable {K Double : Type} {lib : CLib Double} (secs : Seconds lib) {c : Parameters} {s : Server K Double} {j : Nat}

def clientSends (c : Parameters) : Nat := if c.mode = .receiver then 0 else c.num_streams.toInt.toNat

def clientReceives (c : Parameters) : Nat := if c.mode = .sender then 0 else c.num_streams.toInt.toNat

theorem streamFlags_eq (c : Parameters) :
    streamFlags c = List.replicate (clientSends c) true ++ List.replicate (clientReceives c) false := by
  cases h : c.mode <;> simp [streamFlags, clientSends, clientReceives, h]

theorem length_streamFlags (c : Parameters) : (streamFlags c).length = clientSends c + clientReceives c := by
  rw [streamFlags_eq, List.length_append, List.length_replicate, List.length_replicate]

structure Accepted (c : Parameters) (j : Nat) (s : Server K Double) : Prop where
  rec_streams_accepted : s.rec_streams_accepted = min j (clientSends c)
  send_streams_accepted : s.send_streams_accepted = j - clientSends c
  streams_to_rec : s.streams_to_rec = clientSends c
  streams_to_send : s.streams_to_send = clientReceives c
  streams : s.test.streams = made secs (((streamFlags c).take j).map Bool.not)
  json_top : Plain (nestingLimit - 1) s.test.json_top

theorem take_succ_flags (hj : j < (streamFlags c).length) :
    (streamFlags c).take (j + 1) = (streamFlags c).take j ++ [decide (j < clientSends c)] := by
  rw [List.take_succ_eq_append_getElem hj]
  simp only [streamFlags_eq]
  by_cases h : j < clientSends c
  · rw [List.getElem_append_left (by simpa using h), List.getElem_replicate]
    simp [h]
  · rw [List.getElem_append_right (by simpa using h), List.getElem_replicate]
    simp [h]

/-- The server takes the next stream for what it is to the client. -/
theorem Accepted.acceptStream (h : Accepted secs c j s) (hj : j < (streamFlags c).length) :
    Accepted secs c (j + 1) (acceptStream secs j s) ∧ (acceptStream secs j s).place = s.place ∧
      (acceptStream secs j s).state = s.state ∧ (acceptStream secs j s).ctrl_sck = s.ctrl_sck ∧
      (acceptStream secs j s).test.toParameters = s.test.toParameters := by
  have hlength : (made secs (((streamFlags c).take j).map Bool.not)).length = j := by
    rw [length_made, List.length_map, List.length_take]
    omega
  have hmade (flag : Bool) (hflag : decide (j < clientSends c) = !flag) : iperfNewStream secs s.test.streams j flag =
      made secs (((streamFlags c).take (j + 1)).map Bool.not) := by
    rw [take_succ_flags hj, List.map_append, List.map_singleton, made_concat, hlength, hflag, Bool.not_not, h.streams]
  rw [length_streamFlags] at hj
  rw [IperfSession.acceptStream]
  dsimp only
  by_cases hrec : j < clientSends c
  · rw [if_pos (by rw [h.rec_streams_accepted, h.streams_to_rec]; omega)]
    refine ⟨?_, rfl, rfl, rfl, rfl⟩
    exact {
      rec_streams_accepted := by
        show s.rec_streams_accepted + 1 = _
        rw [h.rec_streams_accepted]
        omega
      send_streams_accepted := by
        show s.send_streams_accepted = _
        rw [h.send_streams_accepted]
        omega
      streams_to_rec := h.streams_to_rec
      streams_to_send := h.streams_to_send
      streams := hmade false (by simpa using hrec)
      json_top := h.json_top }
  · rw [if_neg (by rw [h.rec_streams_accepted, h.streams_to_rec]; omega),
      if_pos (by rw [h.send_streams_accepted, h.streams_to_send]; omega)]
    refine ⟨?_, rfl, rfl, rfl, rfl⟩
    exact {
      rec_streams_accepted := by
        show s.rec_streams_accepted = _
        rw [h.rec_streams_accepted]
        omega
      send_streams_accepted := by
        show s.send_streams_accepted + 1 = _
        rw [h.send_streams_accepted]
        omega
      streams_to_rec := h.streams_to_rec
      streams_to_send := h.streams_to_send
      streams := hmade true (by simpa using hrec)
      json_top := h.json_top }

theorem Accepted.startTest (h : Accepted secs c j s) :
    IperfSession.startTest s =
      if j = (streamFlags c).length
      then ({ s with state := .TEST_RUNNING }, [.state .TEST_START, .state .TEST_RUNNING])
      else (s, []) := by
  rw [length_streamFlags, IperfSession.startTest, h.rec_streams_accepted, h.streams_to_rec, h.send_streams_accepted, h.streams_to_send]
  congr 1
  rw [eq_iff_iff]
  omega

end Accepting

/-- How far a client and the server are. Streams are counted as they are connected and
accepted. A client that is cut off goes on until it has read all that the server has sent. -/
inductive Stage
  | asked
  | answered
  | invited
  | creating (i j : Nat)
  | early
  | starting
  | started
  | running
  | ending
  | exchanging
  | reported
  | returned
  | shown
  | leaving
  | done
  | cutEarly
  | cutStarting
  | cutStarted
  | cutRunning
  | cutEnding
  | lost
  | lostEnding

theorem creating_cases (todo : List Bool) :
    (todo = [] ∧ creating todo = .select) ∨ (todo ≠ [] ∧ creating todo = .creating todo) := by
  cases todo with
  | nil => exact .inl ⟨rfl, rfl⟩
  | cons => exact .inr ⟨List.cons_ne_nil _ _, rfl⟩

namespace Stage

def place (flags : List Bool) : Stage → ClientPlace
  | .creating i _ => IperfSession.creating (flags.drop i)
  | .reported | .returned => .results
  | .leaving | .done => .ended none
  | .lost | .lostEnding => .ended (some .IECTRLCLOSE)
  | _ => .select

theorem place_ne_start (stage : Stage) (flags : List Bool) : stage.place flags ≠ .start := by
  intro h
  cases stage with
  | creating i j =>
      rw [place] at h
      rcases creating_cases (flags.drop i) with ⟨-, heq⟩ | ⟨-, heq⟩ <;> rw [heq] at h <;> cases h
  | _ => cases h

def state : Stage → State
  | .asked => .initial
  | .answered | .invited | .early | .cutEarly => .PARAM_EXCHANGE
  | .creating _ _ | .starting | .cutStarting => .CREATE_STREAMS
  | .started | .cutStarted => .TEST_START
  | .running | .cutRunning | .lost => .TEST_RUNNING
  | .ending | .exchanging | .cutEnding | .lostEnding => .TEST_END
  | .reported | .returned | .shown => .EXCHANGE_RESULTS
  | .leaving | .done => .IPERF_DONE

def serverPlace : Stage → ServerPlace
  | .asked | .answered => .parameters
  | .exchanging | .reported => .results
  | .done => .ended none
  | .cutEarly | .cutStarting | .cutStarted | .cutRunning | .cutEnding | .lost | .lostEnding =>
      .ended (some .IESELECT)
  | _ => .select

def serverState : Stage → State
  | .asked | .answered => .PARAM_EXCHANGE
  | .invited | .creating _ _ => .CREATE_STREAMS
  | .early | .starting | .started | .running | .ending | .cutEarly | .cutStarting | .cutStarted | .cutRunning |
      .cutEnding | .lost | .lostEnding => .TEST_RUNNING
  | .exchanging | .reported => .EXCHANGE_RESULTS
  | .returned | .shown | .leaving => .DISPLAY_RESULTS
  | .done => .IPERF_DONE

/-- What the client has not read yet. At most one tree is under way at a time. -/
def down (text : Bytes) : Stage → List Message
  | .asked => [.state .PARAM_EXCHANGE]
  | .invited => [.state .CREATE_STREAMS]
  | .early | .cutEarly => [.state .CREATE_STREAMS, .state .TEST_START, .state .TEST_RUNNING]
  | .starting | .cutStarting => [.state .TEST_START, .state .TEST_RUNNING]
  | .started | .cutStarted => [.state .TEST_RUNNING]
  | .exchanging => [.state .EXCHANGE_RESULTS]
  | .returned => [.tree text, .state .DISPLAY_RESULTS]
  | .shown => [.state .DISPLAY_RESULTS]
  | _ => []

def up (text : Bytes) : Stage → List Message
  | .answered | .reported => [.tree text]
  | .ending | .cutEnding | .lostEnding => [.state .TEST_END]
  | .leaving => [.state .IPERF_DONE]
  | _ => []

def waiting {K : Type} (k : K) : Stage → List (Connection K)
  | .creating i j => (List.range' j (i - j)).map (.stream k)
  | _ => []

/-- A bound on the steps that are left. There are at most 256 streams. -/
def rank : Stage → Nat
  | .asked => 530
  | .answered => 529
  | .invited => 528
  | .creating i j => 14 + (256 - i) + (256 - j)
  | .early => 13
  | .starting => 12
  | .started => 11
  | .running => 10
  | .ending => 9
  | .exchanging => 8
  | .reported => 7
  | .returned => 6
  | .shown => 5
  | .leaving => 4
  | .cutEarly => 5
  | .cutStarting => 4
  | .cutStarted => 3
  | .cutRunning => 2
  | .cutEnding => 1
  | .done | .lost | .lostEnding => 0

end Stage

section Sessions

variable {K Double : Type} {lib : CLib Double} (clib : Strtod lib) (ints : Integers lib)
  (secs : Seconds lib) (hasTcpinfoRetransmits : Bool)

/-- A client as its command line has set it up. -/
structure Fresh (c : Test Double) : Prop where
  set : ClientSet c.toParameters
  tcp : c.protocol = .Ptcp
  num_streams : 0 ≤ c.num_streams.toInt ∧ c.num_streams.toInt ≤ 128
  streams : c.streams = []

structure Reset (s : Server K Double) : Prop where
  parameters : ∃ before, s.test.toParameters = iperfResetTest hasTcpinfoRetransmits before
  streams : s.test.streams = []
  rec_streams_accepted : s.rec_streams_accepted = 0
  send_streams_accepted : s.send_streams_accepted = 0
  json_top : Plain (nestingLimit - 1) s.test.json_top

structure Dual (c s : Parameters) : Prop where
  role : c.role = .client
  num_streams : 0 ≤ c.num_streams.toInt ∧ c.num_streams.toInt ≤ 128
  follows : ∃ before, Follows hasTcpinfoRetransmits c before s

structure Matched (c s : Test Double) : Prop where
  dual : Dual hasTcpinfoRetransmits c.toParameters s.toParameters
  ends : List.Forall₂ Ends c.streams s.streams
  ids : (c.streams.map Stream.id).Nodup
  senders : c.streams.map Stream.sender = streamFlags c.toParameters
  fits : Fits c
  server_fits : Fits s

structure Exchanged (c s c' s' : Test Double) : Prop where
  server : Received secs s c s'
  client : Received secs c s' c'
  settled : List.Forall₂ (fun p q => SettledEnds secs c s p.1 p.2 q.1 q.2) (c.streams.zip s.streams)
    (c'.streams.zip s'.streams)

/-- What is known of the two tests, and of the tree that is under way. -/
def Stage.Data (c : Test Double) (s : Server K Double) (text : Bytes) : Stage → Prop
  | .asked => Fresh c ∧ Reset hasTcpinfoRetransmits s
  | .answered => (Fresh c ∧ Reset hasTcpinfoRetransmits s) ∧
      cJSON_PrintUnformatted lib (sendParameters ints c.toParameters) = some text
  | .invited => (Dual hasTcpinfoRetransmits c.toParameters s.test.toParameters ∧ Accepted secs c.toParameters 0 s) ∧
      c.streams = [] ∧ 0 < (streamFlags c.toParameters).length
  | .creating i j => (Dual hasTcpinfoRetransmits c.toParameters s.test.toParameters ∧ Accepted secs c.toParameters j s) ∧
      c.streams = made secs ((streamFlags c.toParameters).take i) ∧
      (j ≤ i ∧ i ≤ (streamFlags c.toParameters).length) ∧ j < (streamFlags c.toParameters).length
  | .early => Matched hasTcpinfoRetransmits c s.test ∧ streamFlags c.toParameters = []
  | .starting | .started | .running | .ending | .exchanging => Matched hasTcpinfoRetransmits c s.test
  | .reported => Matched hasTcpinfoRetransmits c s.test ∧
      cJSON_PrintUnformatted lib (sendResults ints secs c) = some text
  | .returned => ∃ before ctext, Matched hasTcpinfoRetransmits c before ∧
      cJSON_PrintUnformatted lib (sendResults ints secs c) = some ctext ∧
      getResults ints secs (cJSON_Parse clib ctext) before = (s.test, none) ∧
      cJSON_PrintUnformatted lib (sendResults ints secs s.test) = some text
  | .shown | .leaving | .done => ∃ c₀ s₀, Matched hasTcpinfoRetransmits c₀ s₀ ∧ Exchanged secs c₀ s₀ c s.test
  | .cutEarly => c.duration ≠ 0 ∧ streamFlags c.toParameters = []
  | .cutStarting | .cutStarted | .cutRunning | .cutEnding | .lost | .lostEnding => c.duration ≠ 0

end Sessions

section Networks

variable {K Double : Type} [DecidableEq K] {lib : CLib Double} (clib : Strtod lib) (ints : Integers lib)
  (secs : Seconds lib) (hasTcpinfoRetransmits : Bool)

def atListener (σ : Network K Double) (k : K) : List (Connection K) := σ.backlog.filter (·.cookie = k)

structure Served (σ : Network K Double) (k : K) (stage : Stage) (text : Bytes) : Prop where
  ctrl_sck : σ.server.ctrl_sck = some k
  place : (σ.clients k).place = stage.place (streamFlags (σ.clients k).test.toParameters)
  state : (σ.clients k).state = stage.state
  serverPlace : σ.server.place = stage.serverPlace
  serverState : σ.server.state = stage.serverState
  down : σ.toClient k = stage.down text
  up : σ.toServer k = stage.up text
  waiting : atListener σ k = stage.waiting k
  data : stage.Data clib ints secs hasTcpinfoRetransmits (σ.clients k).test σ.server text

/-- A client is not served: it has not come yet, it waits at the listener, it has
been turned away, or it has read that. -/
inductive Outside (k : K) (c : Client Double) (up down : List Message) (own : List (Connection K)) : Prop
  | start (hplace : c.place = .start) (hstate : c.state = .initial) (hup : up = []) (hdown : down = []) (hown : own = [])
      (hfresh : Fresh c.test)
  | waiting (hplace : c.place = .select) (hstate : c.state = .initial) (hup : up = []) (hdown : down = [])
      (hown : own = [.control k]) (hfresh : Fresh c.test)
  | refused (m : Message) (hm : m = .state .ACCESS_DENIED ∨ m = .reset) (hplace : c.place = .select)
      (hstate : c.state = .initial) (hdown : down = [m]) (hown : own = [])
  | gone (e : Error) (he : e = .IEACCESSDENIED ∨ e = .IERECVMESSAGE ∨ e = .IECONNECT)
      (hplace : c.place = .ended (some e)) (hown : own = [])

def OutsideAt (σ : Network K Double) (k : K) : Prop :=
  Outside k (σ.clients k) (σ.toServer k) (σ.toClient k) (atListener σ k)

structure Idle (σ : Network K Double) : Prop where
  ctrl_sck : σ.server.ctrl_sck = none
  place : σ.server.place = .select
  state : σ.server.state = .IPERF_START
  reset : Reset hasTcpinfoRetransmits σ.server
  clients : ∀ k, OutsideAt σ k
  quiet : ∀ k, σ.toClient k = [] ∧ σ.clientUp k

/-- Either no client is served yet, or one is. With it goes a bound on the steps
of the server and its client that are left. -/
inductive Orderly (σ : Network K Double) : Nat → Prop
  | idle (h : Idle hasTcpinfoRetransmits σ) : Orderly σ 600
  | served {k : K} {stage : Stage} {text : Bytes} (h : Served clib ints secs hasTcpinfoRetransmits σ k stage text)
      (hothers : ∀ k' ≠ k, OutsideAt σ k') : Orderly σ stage.rank

def turns : ClientPlace → List Message → Nat
  | .start, _ => 3
  | .select, [] => 2
  | .select, _ :: _ => 1
  | _, _ => 0

def turnsAt (σ : Network K Double) (k : K) : Nat :=
  if σ.server.ctrl_sck = some k then 0 else turns (σ.clients k).place (σ.toClient k)

structure Closer (σ σ' : Network K Double) (n n' : Nat) : Prop where
  rank : n' ≤ n
  turns : ∀ k, turnsAt σ' k ≤ turnsAt σ k
  less : n' < n ∨ ∃ k, turnsAt σ' k < turnsAt σ k

section Views

variable {σ σ' : Network K Double} {k : K} {stage : Stage} {text : Bytes}

theorem atListener_connect (c : Connection K) : atListener (σ.connect c) k = atListener σ k ++ if c.cookie = k then [c] else [] := by
  rw [atListener, Network.connect, List.filter_append, List.filter_singleton, atListener]
  simp

theorem atListener_accepted {c : Connection K} {rest : List (Connection K)} (h : σ.backlog = c :: rest) :
    atListener σ k = (if c.cookie = k then [c] else []) ++ atListener σ.accepted k := by
  rw [atListener, atListener, Network.accepted, h, List.tail_cons, List.filter_cons]
  split <;> simp_all

theorem control_mem : .control k ∈ σ.backlog ↔ .control k ∈ atListener σ k := by
  simp [atListener, Connection.cookie]

variable {clib ints secs hasTcpinfoRetransmits}

structure SameView (σ σ' : Network K Double) (k : K) : Prop where
  client : σ'.clients k = σ.clients k
  down : σ'.toClient k = σ.toClient k
  up : σ'.toServer k = σ.toServer k
  waiting : atListener σ' k = atListener σ k

theorem SameView.trans {σ'' : Network K Double} (h : SameView σ σ' k) (h' : SameView σ' σ'' k) : SameView σ σ'' k where
  client := h'.client.trans h.client
  down := h'.down.trans h.down
  up := h'.up.trans h.up
  waiting := h'.waiting.trans h.waiting

theorem sameView_clientDoes {k' : K} (hne : k' ≠ k) (r : Client Double × List Message) :
    SameView σ (σ.clientDoes k r) k' where
  client := Function.update_of_ne hne _ _
  down := rfl
  up := Function.update_of_ne hne _ _
  waiting := rfl

theorem sameView_clientTook {k' : K} (hne : k' ≠ k) : SameView σ (σ.clientTook k) k' where
  client := rfl
  down := Function.update_of_ne hne _ _
  up := rfl
  waiting := rfl

theorem sameView_serverDoes {k' : K} (hne : k' ≠ k) (r : Server K Double × List Message) :
    SameView σ (σ.serverDoes k r) k' where
  client := rfl
  down := Function.update_of_ne hne _ _
  up := rfl
  waiting := rfl

theorem sameView_serverTook {k' : K} (hne : k' ≠ k) : SameView σ (σ.serverTook k) k' where
  client := rfl
  down := rfl
  up := Function.update_of_ne hne _ _
  waiting := rfl

theorem sameView_connect {c : Connection K} (hne : c.cookie ≠ k) : SameView σ (σ.connect c) k where
  client := rfl
  down := rfl
  up := rfl
  waiting := by rw [atListener_connect, if_neg hne, List.append_nil]

theorem sameView_accepted {c : Connection K} {rest : List (Connection K)} (hbacklog : σ.backlog = c :: rest)
    (hne : c.cookie ≠ k) : SameView σ σ.accepted k where
  client := rfl
  down := rfl
  up := rfl
  waiting := by rw [atListener_accepted hbacklog, if_neg hne, List.nil_append]

theorem Served.of_sameView (h : Served clib ints secs hasTcpinfoRetransmits σ k stage text)
    (hserver : σ'.server = σ.server) (hview : SameView σ σ' k) :
    Served clib ints secs hasTcpinfoRetransmits σ' k stage text where
  ctrl_sck := by rw [hserver, h.ctrl_sck]
  place := by rw [hview.client, h.place]
  state := by rw [hview.client, h.state]
  serverPlace := by rw [hserver, h.serverPlace]
  serverState := by rw [hserver, h.serverState]
  down := by rw [hview.down, h.down]
  up := by rw [hview.up, h.up]
  waiting := by rw [hview.waiting, h.waiting]
  data := by rw [hserver, hview.client]; exact h.data

theorem OutsideAt.of_sameView (h : OutsideAt σ k) (hview : SameView σ σ' k) : OutsideAt σ' k := by
  rw [OutsideAt, hview.client, hview.down, hview.up, hview.waiting]
  exact h

/-- Who waits at a listener that is closed is turned away. -/
theorem OutsideAt.closeListener (h : OutsideAt σ k) : OutsideAt σ.closeListener k := by
  have hdown : σ.closeListener.toClient k = if .control k ∈ atListener σ k then σ.toClient k ++ [.reset] else σ.toClient k := by
    simp only [Network.closeListener, control_mem]
  have hown : atListener σ.closeListener k = [] := rfl
  rw [OutsideAt, hdown, hown]
  cases h with
  | start hplace hstate hup hdown hown hfresh =>
      rw [hown, if_neg List.not_mem_nil]
      exact .start hplace hstate hup hdown rfl hfresh
  | waiting hplace hstate hup hdown hown hfresh =>
      rw [hown, if_pos List.mem_cons_self, hdown]
      exact .refused .reset (.inr rfl) hplace hstate rfl rfl
  | refused m hm hplace hstate hdown hown =>
      rw [hown, if_neg List.not_mem_nil]
      exact .refused m hm hplace hstate hdown rfl
  | gone e he hplace hown => exact .gone e he hplace rfl

theorem OutsideAt.afterServer (h : OutsideAt σ k) (listens : Bool) : OutsideAt (σ.afterServer listens) k := by
  rw [Network.afterServer]
  split
  · exact h.closeListener
  · split
    · exact h.closeListener
    · exact h

theorem afterServer_false (hup : σ.serverUp) : σ.afterServer false = σ := by
  rw [Network.afterServer]
  split
  · rename_i e he
    exact (hup e he).elim
  · exact if_neg fun h => Bool.false_ne_true h.1

/-- A client with nothing at the listener does not notice that it is closed. -/
theorem Served.afterServer (h : Served clib ints secs hasTcpinfoRetransmits σ k stage text) (hown : atListener σ k = [])
    (listens : Bool) : Served clib ints secs hasTcpinfoRetransmits (σ.afterServer listens) k stage text := by
  have hclose : Served clib ints secs hasTcpinfoRetransmits σ.closeListener k stage text := by
    refine h.of_sameView rfl ⟨rfl, ?_, rfl, hown.symm⟩
    simp only [Network.closeListener, control_mem, hown, List.not_mem_nil, if_false]
  rw [Network.afterServer]
  split
  · exact hclose
  · split
    · exact hclose
    · exact h

end Views

end Networks

end SberWifi.IperfStages
