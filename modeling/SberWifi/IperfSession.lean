import SberWifi.IperfStreams

namespace SberWifi.IperfSession

open CJsonPrint hiding Test
open CJsonParse CJsonRoundTrip ControlSocket IperfParameters IperfTime IperfStreams

/-- The states of `iperf_api.h` that are used, and 0. -/
inductive State
  | initial
  | TEST_START
  | TEST_RUNNING
  | TEST_END
  | PARAM_EXCHANGE
  | CREATE_STREAMS
  | SERVER_TERMINATE
  | CLIENT_TERMINATE
  | EXCHANGE_RESULTS
  | DISPLAY_RESULTS
  | IPERF_START
  | IPERF_DONE
  | ACCESS_DENIED
  deriving DecidableEq

/-- What goes over a control connection: a state, a tree that was printed, or
`SERVER_ERROR` with its error. A connection that is reset ends so. -/
inductive Message
  | state (state : State)
  | tree (str : Bytes)
  | error (i_errno : Error)
  | reset

/-- Where a client is: before `iperf_connect`, in the `select` of its loop, in
`iperf_create_streams` before streams that send or not, in `get_results`, or at
the end of `iperf_run_client`. -/
inductive ClientPlace
  | start
  | select
  | creating (todo : List Bool)
  | results
  | ended (error : Option Error)

inductive ServerPlace
  | select
  | parameters
  | results
  | ended (error : Option Error)

/-- The last four fields are those of the test that its end is decided by. -/
structure Client (Double : Type) where
  place : ClientPlace
  state : State
  test : Test Double
  omitting : Bool
  done : Bool
  bytes_sent : UInt64
  blocks_sent : UInt64

/-- The local variables of `iperf_run_server` are fields. -/
structure Server (K Double : Type) where
  place : ServerPlace
  state : State
  test : Test Double
  ctrl_sck : Option K
  rec_streams_accepted : Nat
  send_streams_accepted : Nat
  streams_to_rec : Int
  streams_to_send : Int

/-- What waits at the listener. Each connection brings the cookie of its client. -/
inductive Connection (K : Type)
  | control (k : K)
  | stream (k : K) (i : Nat)
  deriving DecidableEq

def Connection.cookie {K : Type} : Connection K → K
  | .control k => k
  | .stream k _ => k

structure Network (K Double : Type) where
  clients : K → Client Double
  server : Server K Double
  backlog : List (Connection K)
  toServer : K → List Message
  toClient : K → List Message

section Client

variable {Double : Type} {lib : CLib Double} (clib : Strtod lib) (ints : Integers lib) (secs : Seconds lib)

def streamFlags (test : Parameters) : List Bool :=
  let n := test.num_streams.toInt.toNat
  match test.mode with
  | .bidirectional => List.replicate n true ++ List.replicate n false
  | .sender => List.replicate n true
  | .receiver => List.replicate n false

def creating : List Bool → ClientPlace
  | [] => .select
  | todo => .creating todo

def createClientTimers (c : Client Double) : Client Double :=
  { c with done := if c.test.duration ≠ 0 then false else c.done }

def createClientOmitTimer (c : Client Double) : Client Double := { c with omitting := c.test.«omit» ≠ 0 }

/-- What `iperf_run_client` asks after each transfer: "Is the test done yet?" -/
def TestDone (c : Client Double) : Prop :=
  ¬ c.omitting ∧ (c.test.duration ≠ 0 ∧ c.done ∨ c.test.bytes ≠ 0 ∧ c.test.bytes ≤ c.bytes_sent ∨
    c.test.blocks ≠ 0 ∧ c.test.blocks ≤ c.blocks_sent)

def iperfHandleMessageClient (state : State) (c : Client Double) : Client Double × List Message :=
  let c := { c with state }
  match state with
  | .PARAM_EXCHANGE =>
      match cJSON_PrintUnformatted lib (sendParameters ints c.test.toParameters) with
      | some str => (c, [.tree str])
      | none => ({ c with place := .ended (some .IESENDPARAMS) }, [])
  | .CREATE_STREAMS => ({ c with place := creating (streamFlags c.test.toParameters) }, [])
  | .TEST_START => (createClientOmitTimer (createClientTimers c), [])
  | .TEST_RUNNING => (c, [])
  | .EXCHANGE_RESULTS =>
      match cJSON_PrintUnformatted lib (sendResults ints secs c.test) with
      | some str => ({ c with place := .results }, [.tree str])
      | none => ({ c with place := .ended (some .IESENDRESULTS) }, [])
  | .DISPLAY_RESULTS => ({ c with place := .ended none, state := .IPERF_DONE }, [.state .IPERF_DONE])
  | .IPERF_DONE => ({ c with place := .ended none }, [])
  | .SERVER_TERMINATE => ({ c with place := .ended (some .IESERVERTERM) }, [])
  | .ACCESS_DENIED => ({ c with place := .ended (some .IEACCESSDENIED) }, [])
  | _ => ({ c with place := .ended (some .IEMESSAGE) }, [])

/-- What a client does in its loop with what it reads, or at the end of the
connection. The first byte of a tree is 0. -/
def clientRead (m : Option Message) (c : Client Double) : Client Double × List Message :=
  match m with
  | none => ({ c with place := .ended (some .IECTRLCLOSE) }, [])
  | some (.state state) => iperfHandleMessageClient ints secs state c
  | some (.error i_errno) => ({ c with place := .ended (some i_errno) }, [])
  | some .reset => ({ c with place := .ended (some .IERECVMESSAGE) }, [])
  | some (.tree _) => ({ c with place := .ended (some .IEMESSAGE) }, [])

/-- `JSON_read`, which gives nothing when something else comes or nothing more. -/
def readTree : Option Message → Option (CJSON Double)
  | some (.tree str) => cJSON_Parse clib str
  | _ => none

def clientResults (m : Option Message) (c : Client Double) : Client Double :=
  match getResults ints secs (readTree clib m) c.test with
  | (test, none) => { c with place := .select, test }
  | (test, some e) => { c with place := .ended (some e), test }

def createStream (s : Nat) (sender : Bool) (todo : List Bool) (c : Client Double) : Client Double :=
  { c with place := creating todo, test := { c.test with streams := iperfNewStream secs c.test.streams s sender } }

end Client

section Server

variable {K Double : Type} {lib : CLib Double} (clib : Strtod lib) (ints : Integers lib) (secs : Seconds lib)

def relistens (test : Parameters) : Bool := test.no_delay ≠ 0 ∨ test.mss ≠ 0 ∨ test.socket_bufsize ≠ 0

/-- The end of a round of the loop in `CREATE_STREAMS`: the test is started when all streams are there. -/
def startTest (s : Server K Double) : Server K Double × List Message :=
  if s.rec_streams_accepted = s.streams_to_rec ∧ s.send_streams_accepted = s.streams_to_send then
    ({ s with state := .TEST_RUNNING }, [.state .TEST_START, .state .TEST_RUNNING])
  else (s, [])

/-- The part of `iperf_accept` that a new client gets, up to its parameters. -/
def acceptClient (k : K) (s : Server K Double) : Server K Double :=
  { s with ctrl_sck := some k, state := .PARAM_EXCHANGE, place := .parameters }

variable (hasTcpinfoRetransmits : Bool)

def takeParameters (parameters : Parameters) (s : Server K Double) : Server K Double :=
  { s with
    place := .select
    state := .CREATE_STREAMS
    test := { s.test with toParameters := parameters }
    streams_to_send := if parameters.mode = .receiver then 0 else parameters.num_streams.toInt
    streams_to_rec := if parameters.mode = .sender then 0 else parameters.num_streams.toInt }

def acceptParameters (m : Option Message) (s : Server K Double) : Server K Double × List Message :=
  match readTree clib m with
  | none => ({ s with place := .ended (some .IERECVPARAMS) }, [])
  | some j =>
      let (s, started) := startTest (takeParameters (getParameters ints hasTcpinfoRetransmits j s.test.toParameters) s)
      (s, .state .CREATE_STREAMS :: started)

/-- A stream that was accepted. Those to receive on come first. -/
def acceptStream (i : Nat) (s : Server K Double) : Server K Double :=
  let new (flag : Bool) : Test Double := { s.test with streams := iperfNewStream secs s.test.streams i flag }
  if s.rec_streams_accepted ≠ s.streams_to_rec then
    { s with rec_streams_accepted := s.rec_streams_accepted + 1, test := new false }
  else if s.send_streams_accepted ≠ s.streams_to_send then
    { s with send_streams_accepted := s.send_streams_accepted + 1, test := new true }
  else s

def iperfHandleMessageServer (state : State) (s : Server K Double) : Server K Double × List Message :=
  let s := { s with state }
  match state with
  | .TEST_START => (s, [])
  | .TEST_END => ({ s with place := .results, state := .EXCHANGE_RESULTS }, [.state .EXCHANGE_RESULTS])
  | .IPERF_DONE => ({ s with place := .ended none }, [])
  | .CLIENT_TERMINATE => ({ s with place := .ended none, state := .IPERF_DONE }, [])
  | _ => ({ s with place := .ended (some .IEMESSAGE) }, [])

/-- What a server does in its loop with what it reads. A connection that was closed ends the test. -/
def serverRead (m : Option Message) (s : Server K Double) : Server K Double × List Message :=
  match m with
  | none => ({ s with place := .ended none, state := .IPERF_DONE }, [])
  | some (.state state) => iperfHandleMessageServer state s
  | some .reset => ({ s with place := .ended (some .IERECVMESSAGE) }, [])
  | some _ => ({ s with place := .ended (some .IEMESSAGE) }, [])

/-- `iperf_exchange_results` of a server that has sent the state, and the rest of its message handler. -/
def serverResults (m : Option Message) (s : Server K Double) : Server K Double × List Message :=
  match getResults ints secs (readTree clib m) s.test with
  | (test, some e) => ({ s with place := .ended (some e), test }, [])
  | (test, none) =>
      match cJSON_PrintUnformatted lib (sendResults ints secs test) with
      | none => ({ s with place := .ended (some .IESENDRESULTS), test }, [])
      | some str =>
          ({ s with place := .select, state := .DISPLAY_RESULTS, test }, [.tree str, .state .DISPLAY_RESULTS])

end Server

section Steps

variable {K Double : Type} [DecidableEq K] {lib : CLib Double} (clib : Strtod lib) (ints : Integers lib)
  (secs : Seconds lib) (hasTcpinfoRetransmits : Bool)

namespace Network

def clientDoes (σ : Network K Double) (k : K) (r : Client Double × List Message) : Network K Double :=
  { σ with
    clients := Function.update σ.clients k r.1
    toServer := Function.update σ.toServer k (σ.toServer k ++ r.2) }

def serverDoes (σ : Network K Double) (k : K) (r : Server K Double × List Message) : Network K Double :=
  { σ with
    server := r.1
    toClient := Function.update σ.toClient k (σ.toClient k ++ r.2) }

def clientTook (σ : Network K Double) (k : K) : Network K Double :=
  { σ with toClient := Function.update σ.toClient k (σ.toClient k).tail }

def serverTook (σ : Network K Double) (k : K) : Network K Double :=
  { σ with toServer := Function.update σ.toServer k (σ.toServer k).tail }

def connect (σ : Network K Double) (c : Connection K) : Network K Double := { σ with backlog := σ.backlog ++ [c] }

def accepted (σ : Network K Double) : Network K Double := { σ with backlog := σ.backlog.tail }

/-- The listener is closed, which resets what waits at it. -/
def closeListener (σ : Network K Double) : Network K Double :=
  { σ with
    backlog := []
    toClient := fun k => if .control k ∈ σ.backlog then σ.toClient k ++ [.reset] else σ.toClient k }

def deny (σ : Network K Double) : Connection K → Network K Double
  | .control k => σ.serverDoes k (σ.server, [.state .ACCESS_DENIED])
  | .stream _ _ => σ

/-- The listener of a server that has ended is closed, and so is that of one that makes it again. -/
def afterServer (σ : Network K Double) (listens : Bool) : Network K Double :=
  match σ.server.place with
  | .ended _ => σ.closeListener
  | _ => if listens ∧ relistens σ.server.test.toParameters then σ.closeListener else σ

def roundEnd (σ : Network K Double) (k : K) (s : Server K Double) : Network K Double :=
  (σ.serverDoes k (startTest s)).afterServer ((startTest s).1.state = .TEST_RUNNING)

def serverUp (σ : Network K Double) : Prop := ∀ e, σ.server.place ≠ .ended e

def clientUp (σ : Network K Double) (k : K) : Prop := ∀ e, (σ.clients k).place ≠ .ended e

end Network

open Network

/-- The next message, or the end of what the other side has sent before it ended. -/
inductive Receives (up : Prop) : List Message → Option Message → Prop
  | message (m : Message) (rest : List Message) : Receives up (m :: rest) (some m)
  | closed (h : ¬ up) : Receives up [] none

def Connection.socket : Connection K → Nat
  | .control _ => 0
  | .stream _ i => i

/-- What a client or the server does next by itself. One round of the loop of the
server deals with one descriptor; a round with several is several rounds. -/
inductive Act (σ : Network K Double) : Network K Double → Prop
  | connect (k : K) (hplace : (σ.clients k).place = .start) (hup : σ.serverUp) :
      Act σ ((σ.clientDoes k ({ σ.clients k with place := .select }, [])).connect (.control k))
  | unconnected (k : K) (hplace : (σ.clients k).place = .start) (hdown : ¬ σ.serverUp) :
      Act σ (σ.clientDoes k ({ σ.clients k with place := .ended (some .IECONNECT) }, []))
  | read (k : K) {m : Option Message} (hplace : (σ.clients k).place = .select)
      (hm : Receives (σ.serverUp ∨ σ.server.ctrl_sck ≠ some k) (σ.toClient k) m) :
      Act σ ((σ.clientTook k).clientDoes k (clientRead ints secs m (σ.clients k)))
  | results (k : K) {m : Option Message} (hplace : (σ.clients k).place = .results)
      (hm : Receives (σ.serverUp ∨ σ.server.ctrl_sck ≠ some k) (σ.toClient k) m) :
      Act σ ((σ.clientTook k).clientDoes k (clientResults clib ints secs m (σ.clients k), []))
  | stream (k : K) {sender : Bool} {todo : List Bool} (hplace : (σ.clients k).place = .creating (sender :: todo))
      (hup : σ.serverUp) :
      Act σ ((σ.clientDoes k (createStream secs (σ.clients k).test.streams.length sender todo (σ.clients k), [])).connect
        (.stream k (σ.clients k).test.streams.length))
  | unstreamed (k : K) {sender : Bool} {todo : List Bool}
      (hplace : (σ.clients k).place = .creating (sender :: todo)) (hdown : ¬ σ.serverUp) :
      Act σ (σ.clientDoes k ({ σ.clients k with place := .ended (some .IESTREAMCONNECT) }, []))
  | finish (k : K) (hplace : (σ.clients k).place = .select) (hstate : (σ.clients k).state = .TEST_RUNNING)
      (hdone : TestDone (σ.clients k)) :
      Act σ (σ.clientDoes k ({ σ.clients k with state := .TEST_END, done := true }, [.state .TEST_END]))
  | accept {c : Connection K} {rest : List (Connection K)} (hplace : σ.server.place = .select)
      (hstate : σ.server.state ≠ .CREATE_STREAMS) (hctrl : σ.server.ctrl_sck = none) (hbacklog : σ.backlog = c :: rest) :
      Act σ (σ.accepted.serverDoes c.cookie (acceptClient c.cookie σ.server, [.state .PARAM_EXCHANGE]))
  | deny (k : K) {c : Connection K} {rest : List (Connection K)} (hplace : σ.server.place = .select)
      (hstate : σ.server.state ≠ .CREATE_STREAMS) (hctrl : σ.server.ctrl_sck = some k)
      (hbacklog : σ.backlog = c :: rest) : Act σ (σ.accepted.deny c)
  | parameters (k : K) {m : Option Message} (hplace : σ.server.place = .parameters)
      (hctrl : σ.server.ctrl_sck = some k) (hm : Receives (σ.clientUp k) (σ.toServer k) m) :
      Act σ (((σ.serverTook k).serverDoes k
        (acceptParameters clib ints hasTcpinfoRetransmits m σ.server)).afterServer true)
  | acceptStream (k : K) {c : Connection K} {rest : List (Connection K)} (hplace : σ.server.place = .select)
      (hstate : σ.server.state = .CREATE_STREAMS) (hctrl : σ.server.ctrl_sck = some k) (hbacklog : σ.backlog = c :: rest)
      (hcookie : c.cookie = k) :
      Act σ (σ.accepted.roundEnd k (acceptStream secs c.socket σ.server))
  | denyStream (k : K) {c : Connection K} {rest : List (Connection K)} (hplace : σ.server.place = .select)
      (hstate : σ.server.state = .CREATE_STREAMS) (hctrl : σ.server.ctrl_sck = some k) (hbacklog : σ.backlog = c :: rest)
      (hcookie : c.cookie ≠ k) :
      Act σ ((σ.accepted.deny c).roundEnd k σ.server)
  | message (k : K) {m : Option Message} (hplace : σ.server.place = .select) (hctrl : σ.server.ctrl_sck = some k)
      (hm : Receives (σ.clientUp k) (σ.toServer k) m) :
      Act σ (((σ.serverTook k).serverDoes k (serverRead m σ.server)).afterServer false)
  | serverResults (k : K) {m : Option Message} (hplace : σ.server.place = .results)
      (hctrl : σ.server.ctrl_sck = some k) (hm : Receives (σ.clientUp k) (σ.toServer k) m) :
      Act σ (((σ.serverTook k).serverDoes k (serverResults clib ints secs m σ.server)).afterServer false)

/-- The streams are freed. As `ctrl_sck` is closed, the next `select` fails. -/
def serverTimerProc (s : Server K Double) : Server K Double :=
  { s with place := .ended (some .IESELECT), test := { s.test with streams := [] } }

/-- The timer of a test fires on the server, which has not heard of the end of the
test. As there is no clock here, this may happen at any time. -/
inductive Timeout (σ : Network K Double) : Network K Double → Prop
  | server (hplace : σ.server.place = .select) (hstate : σ.server.state = .TEST_RUNNING)
      (hduration : σ.server.test.duration ≠ 0) :
      Timeout σ (Network.afterServer { σ with server := serverTimerProc σ.server } false)

/-- What the transfer of data, the timers and the output change. -/
structure Measured (test test' : Test Double) : Prop where
  parameters : test'.toParameters = test.toParameters
  ids : test'.streams.map Stream.id = test.streams.map Stream.id
  sockets : test'.streams.map Stream.socket = test.streams.map Stream.socket
  senders : test'.streams.map Stream.sender = test.streams.map Stream.sender
  fits : Fits test'

/-- What they change of a client. The omitted period ends once, `test_timer_proc` ends a
test with a duration, and only a client with a stream that sends counts what it has sent. -/
structure Transferred (c c' : Client Double) : Prop where
  place : c'.place = c.place
  state : c'.state = c.state
  test : Measured c.test c'.test
  omitting : c'.omitting → c.omitting
  done : c'.done = c.done ∨ c.test.duration ≠ 0 ∧ c'.done
  bytes_sent : c'.bytes_sent = c.bytes_sent ∨ c'.bytes_sent = 0 ∨ ∃ sp ∈ c.test.streams, sp.sender
  blocks_sent : c'.blocks_sent = c.blocks_sent ∨ c'.blocks_sent = 0 ∨ ∃ sp ∈ c.test.streams, sp.sender

/-- Data are transferred while a test runs. A client that receives goes on when it is over. -/
inductive Measure (σ : Network K Double) : Network K Double → Prop
  | client (k : K) {c : Client Double} (hplace : (σ.clients k).place = .select)
      (hstate : (σ.clients k).state = .TEST_RUNNING ∨ (σ.clients k).state = .TEST_END)
      (htest : Transferred (σ.clients k) c) :
      Measure σ (σ.clientDoes k (c, []))
  | server {test : Test Double} (hplace : σ.server.place = .select) (hstate : σ.server.state = .TEST_RUNNING)
      (htest : Measured σ.server.test test) : Measure σ { σ with server := { σ.server with test } }

def listenErrors : List Error :=
  [.IESTREAMLISTEN, .IESETNODELAY, .IESETMSS, .IESETBUF, .IEREUSEADDR, .IEV6ONLY, .IESETBUF2]

def callErrors : List Error :=
  [.IESELECT, .IEACCEPT, .IERECVCOOKIE, .IELISTEN, .IEINITTEST, .IECREATESTREAM, .IEINITSTREAM, .IESTREAMACCEPT,
    .IESTREAMCONNECT, .IESTREAMWRITE, .IESTREAMREAD, .IECTRLREAD, .IESENDMESSAGE]

/-- What stops a client or the server: a signal, a listener that is not made again, or any other call that fails. -/
inductive Fault (σ : Network K Double) : Network K Double → Prop
  | interruptClient (k : K) (hup : σ.clientUp k) (hplace : (σ.clients k).place ≠ .start) :
      Fault σ (σ.clientDoes k ({ σ.clients k with place := .ended (some .IECLIENTTERM), state := .CLIENT_TERMINATE },
        [.state .CLIENT_TERMINATE]))
  | interruptUnconnected (k : K) (hplace : (σ.clients k).place = .start) :
      Fault σ (σ.clientDoes k ({ σ.clients k with place := .ended (some .IECLIENTTERM) }, []))
  | interruptServer (k : K) (hup : σ.serverUp) (hctrl : σ.server.ctrl_sck = some k) :
      Fault σ ((σ.serverDoes k ({ σ.server with
        place := .ended (some .IESERVERTERM)
        state := .SERVER_TERMINATE }, [.state .SERVER_TERMINATE])).afterServer false)
  | interruptFree (hup : σ.serverUp) (hctrl : σ.server.ctrl_sck = none) :
      Fault σ (Network.afterServer { σ with
        server := { σ.server with place := .ended (some .IESERVERTERM) } } false)
  | listen (k : K) {str : Bytes} {rest : List Message} (e : Error) (he : e ∈ listenErrors)
      (hplace : σ.server.place = .parameters) (hctrl : σ.server.ctrl_sck = some k)
      (hm : σ.toServer k = .tree str :: rest) (hread : (cJSON_Parse clib str).isSome) :
      Fault σ (((σ.serverTook k).serverDoes k ({ σ.server with place := .ended (some e) }, [.error e])).afterServer false)
  | client (k : K) (e : Error) (he : e ∈ callErrors) (hup : σ.clientUp k) :
      Fault σ (σ.clientDoes k ({ σ.clients k with place := .ended (some e) }, []))
  | server (e : Error) (he : e ∈ callErrors) (hup : σ.serverUp) :
      Fault σ (Network.afterServer { σ with server := { σ.server with place := .ended (some e) } } false)

end Steps

end SberWifi.IperfSession
