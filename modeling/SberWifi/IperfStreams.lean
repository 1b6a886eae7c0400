import SberWifi.IperfParameters
import SberWifi.IperfTime

namespace SberWifi.IperfStreams

open CJsonPrint CJsonParse CJsonRoundTrip ControlSocket IperfParameters IperfTime

/-- How times become seconds in a double, and how these are subtracted. -/
structure Seconds {Double : Type} (lib : CLib Double) where
  zero : Double
  inSecs : Time → Double
  sub : Double → Double → Double
  finite_inSecs : ∀ t, lib.finite (inSecs t)
  sub_inSecs : ∀ a b t, lib.same a (inSecs t) → lib.same b (inSecs ⟨0, 0⟩) → lib.same (sub a b) (inSecs t)

/-- The fields of a stream and its result that the results need. Both ends of a
connection have the same socket here. -/
structure Stream (Double : Type) where
  id : Int32
  socket : Nat
  sender : Bool
  start_time : Time
  end_time : Time
  bytes_received : UInt64
  bytes_sent : UInt64
  bytes_sent_omit : UInt64
  stream_retrans : Int32
  sender_time : Double
  receiver_time : Double
  jitter : Double
  cnt_error : Int32
  packet_count : Int32
  peer_packet_count : Int32

structure CpuUtil (Double : Type) where
  total : Double
  user : Double
  system : Double

structure Test (Double : Type) extends Parameters where
  other_side_has_retransmits : Int32
  json_output : Bool
  cpu_util : CpuUtil Double
  remote_cpu_util : CpuUtil Double
  streams : List (Stream Double)
  json_top : CJSON Double
  server_output_list : List CString
  json_server_output : Option (CJSON Double)
  server_output_text : Option CString
  remote_congestion_used : Option CString

inductive Error
  | IEINITTEST
  | IELISTEN
  | IECONNECT
  | IEACCEPT
  | IERECVCOOKIE
  | IECTRLREAD
  | IECTRLCLOSE
  | IEMESSAGE
  | IESENDMESSAGE
  | IERECVMESSAGE
  | IESENDPARAMS
  | IERECVPARAMS
  | IESENDRESULTS
  | IERECVRESULTS
  | IESELECT
  | IECLIENTTERM
  | IESERVERTERM
  | IEACCESSDENIED
  | IESETNODELAY
  | IESETMSS
  | IESETBUF
  | IEREUSEADDR
  | IEV6ONLY
  | IESETBUF2
  | IECREATESTREAM
  | IEINITSTREAM
  | IESTREAMLISTEN
  | IESTREAMCONNECT
  | IESTREAMACCEPT
  | IESTREAMWRITE
  | IESTREAMREAD
  | IESTREAMID
  deriving DecidableEq

section Adding

variable {Double : Type} {lib : CLib Double} (secs : Seconds lib)

/-- `iperf_new_stream`, which `iperf_add_stream` puts at the end. -/
def iperfNewStream (streams : List (Stream Double)) (s : Nat) (sender : Bool) : List (Stream Double) :=
  streams ++ [{
    id := if streams = [] then 1 else .ofNat (streams.length + 2)
    socket := s
    sender
    start_time := ⟨0, 0⟩
    end_time := ⟨0, 0⟩
    bytes_received := 0
    bytes_sent := 0
    bytes_sent_omit := 0
    stream_retrans := 0
    sender_time := secs.zero
    receiver_time := secs.zero
    jitter := secs.zero
    cnt_error := 0
    packet_count := 0
    peer_packet_count := 0 }]

end Adding

section Exchange

variable {Double : Type} {lib : CLib Double} (ints : Integers lib) (secs : Seconds lib)

def duration (start stop : Time) : Double := secs.inSecs (timeDiff start stop).1

def bytesTransferred (sp : Stream Double) : UInt64 :=
  if sp.sender then sp.bytes_sent - sp.bytes_sent_omit else sp.bytes_received

def retransmits (test : Test Double) (sp : Stream Double) : Int32 :=
  if sp.sender ∧ test.sender_has_retransmits ≠ 0 then sp.stream_retrans else -1

def streamFields (test : Test Double) (sp : Stream Double) : List (CString × Option (CJSON Double)) :=
  [(literal "id", some (.number (ints.ofInt sp.id))),
    (literal "bytes", some (.number (ints.ofUInt64 (bytesTransferred sp)))),
    (literal "retransmits", some (.number (ints.ofInt (retransmits test sp)))),
    (literal "jitter", some (.number sp.jitter)),
    (literal "errors", some (.number (ints.ofInt sp.cnt_error))),
    (literal "packets", some (.number (ints.ofInt sp.packet_count))),
    (literal "start_time", some (.number (duration secs sp.start_time sp.start_time))),
    (literal "end_time", some (.number (duration secs sp.start_time sp.end_time)))]

def streamItem (test : Test Double) (sp : Stream Double) : CJSON Double :=
  .object (members (streamFields ints secs test sp))

def serverOutput (lines : List CString) : CString :=
  ⟨lines.flatMap CString.bytes, fun h => by
    obtain ⟨line, -, h0⟩ := List.mem_flatMap.1 h
    exact line.nul_free h0⟩

def resultFields (test : Test Double) : List (CString × Option (CJSON Double)) :=
  let sender_has_retransmits := if test.mode = .receiver then -1 else test.sender_has_retransmits
  let output := test.role = .server ∧ test.get_server_output ≠ 0
  [(literal "cpu_util_total", some (.number test.cpu_util.total)),
    (literal "cpu_util_user", some (.number test.cpu_util.user)),
    (literal "cpu_util_system", some (.number test.cpu_util.system)),
    (literal "sender_has_retransmits", some (.number (ints.ofInt sender_has_retransmits))),
    (literal "congestion_used", test.congestion_used.map fun s => .string (some s)),
    (literal "server_output_json", if output ∧ test.json_output then some test.json_top else none),
    (literal "server_output_text",
      if output ∧ ¬ test.json_output then some (.string (some (serverOutput test.server_output_list))) else none),
    (literal "streams", some (.array (test.streams.map (streamItem ints secs test))))]

def sendResults (test : Test Double) : CJSON Double := .object (members (resultFields ints secs test))

def valuedouble : CJSON Double → Double
  | .number valuedouble => valuedouble
  | _ => secs.zero

def arrayItems : CJSON Double → List (CJSON Double)
  | .array child => child
  | .object child => child.map Prod.snd
  | _ => []

def cJSON_DetachItemFromObject (object : CJSON Double) (string : CString) : Option (CJSON Double) × CJSON Double :=
  (cJSON_GetObjectItem object string,
    match object with
    | .object child => .object (child.eraseP fun m => m.1.any (sameName string))
    | _ => object)

structure Report (Double : Type) where
  sid : Int32
  bytes_transferred : UInt64
  retransmits : Int32
  jitter : Double
  cerror : Int32
  pcount : Int32
  time : Double

def readReport (j_stream : CJSON Double) : Option (Report Double) := do
  let item (string : String) : Option (CJSON Double) := cJSON_GetObjectItem j_stream (literal string)
  let j_id ← item "id"
  let j_bytes ← item "bytes"
  let j_retransmits ← item "retransmits"
  let j_jitter ← item "jitter"
  let j_errors ← item "errors"
  let j_packets ← item "packets"
  return {
    sid := (valueint ints j_id).toInt32
    bytes_transferred := (valueint ints j_bytes).toUInt64
    retransmits := (valueint ints j_retransmits).toInt32
    jitter := valuedouble secs j_jitter
    cerror := (valueint ints j_errors).toInt32
    pcount := (valueint ints j_packets).toInt32
    time :=
      match item "start_time", item "end_time" with
      | some j_start_time, some j_end_time => secs.sub (valuedouble secs j_end_time) (valuedouble secs j_start_time)
      | _, _ => secs.zero }

def Stream.takeOver (r : Report Double) (sp : Stream Double) : Stream Double :=
  if sp.sender then
    { sp with
      jitter := r.jitter
      cnt_error := r.cerror
      peer_packet_count := r.pcount
      bytes_received := r.bytes_transferred
      receiver_time := r.time }
  else
    { sp with
      peer_packet_count := r.pcount
      bytes_sent := r.bytes_transferred
      stream_retrans := r.retransmits
      sender_time := r.time }

/-- The first stream with the number takes the report over. -/
def updateStream (r : Report Double) : List (Stream Double) → Option (List (Stream Double))
  | [] => none
  | sp :: streams =>
      if sp.id = r.sid then some (sp.takeOver r :: streams) else (updateStream r streams).map (sp :: ·)

/-- One round of the loop over the streams that were read. An error does not end it. -/
def getStream (s : List (Stream Double) × Option Error) (j_stream : CJSON Double) :
    List (Stream Double) × Option Error :=
  match readReport ints secs j_stream with
  | none => (s.1, some .IERECVRESULTS)
  | some r =>
      match updateStream r s.1 with
      | none => (s.1, some .IESTREAMID)
      | some streams => (streams, s.2)

def readHeader (j : CJSON Double) : Option (CpuUtil Double × Int32) := do
  let item (string : String) : Option (CJSON Double) := cJSON_GetObjectItem j (literal string)
  let j_cpu_util_total ← item "cpu_util_total"
  let j_cpu_util_user ← item "cpu_util_user"
  let j_cpu_util_system ← item "cpu_util_system"
  let j_sender_has_retransmits ← item "sender_has_retransmits"
  return (⟨valuedouble secs j_cpu_util_total, valuedouble secs j_cpu_util_user, valuedouble secs j_cpu_util_system⟩,
    (valueint ints j_sender_has_retransmits).toInt32)

def getRetransmits (result_has_retransmits : Int32) (test : Test Double) : Test Double :=
  match test.mode with
  | .receiver => { test with sender_has_retransmits := result_has_retransmits, other_side_has_retransmits := 0 }
  | .bidirectional => { test with other_side_has_retransmits := result_has_retransmits }
  | .sender => test

/-- What a client does with the output of the server. A tree is taken out of the report. -/
def getServerOutput (j : CJSON Double) (test : Test Double) : Test Double × CJSON Double :=
  if test.role = .client ∧ test.get_server_output ≠ 0 then
    match cJSON_DetachItemFromObject j (literal "server_output_json") with
    | (some j_server_output, j) => ({ test with json_server_output := some j_server_output }, j)
    | (none, j) =>
        match cJSON_GetObjectItem j (literal "server_output_text") with
        | some j_server_output => ({ test with server_output_text := valuestring j_server_output }, j)
        | none => (test, j)
  else (test, j)

/-- The part of `get_results` that can fail once there is a tree, and what is left of the tree. -/
def getReports (j : CJSON Double) (test : Test Double) : Test Double × CJSON Double × Option Error :=
  match readHeader ints secs j with
  | none => (test, j, some .IERECVRESULTS)
  | some (remote_cpu_util, result_has_retransmits) =>
      let test := getRetransmits result_has_retransmits { test with remote_cpu_util }
      match cJSON_GetObjectItem j (literal "streams") with
      | none => (test, j, some .IERECVRESULTS)
      | some j_streams =>
          let (streams, r) := (arrayItems j_streams).foldl (getStream ints secs) (test.streams, none)
          let (test, j) := getServerOutput j { test with streams }
          (test, j, r)

def getResults (j : Option (CJSON Double)) (test : Test Double) : Test Double × Option Error :=
  match j with
  | none => (test, some .IERECVRESULTS)
  | some j =>
      let (test, j, r) := getReports ints secs j test
      ({ test with
        remote_congestion_used :=
          (cJSON_GetObjectItem j (literal "congestion_used")).elim test.remote_congestion_used valuestring }, r)

end Exchange

section Reading

variable {Double : Type} {lib : CLib Double} (ints : Integers lib) (secs : Seconds lib) {test : Test Double}
  {sp : Stream Double}

theorem streamFields_names : ((streamFields ints secs test sp).map Prod.fst).Pairwise fun s t => ¬ sameName s t := by
  have hnames : (streamFields ints secs test sp).map Prod.fst =
      (["id", "bytes", "retransmits", "jitter", "errors", "packets", "start_time", "end_time"] : List String).map
        literal := rfl
  rw [hnames]
  decide +kernel

theorem resultFields_names :
    ((resultFields ints secs test).map Prod.fst).Pairwise fun s t => ¬ sameName s t := by
  have hnames : (resultFields ints secs test).map Prod.fst =
      (["cpu_util_total", "cpu_util_user", "cpu_util_system", "sender_has_retransmits", "congestion_used",
        "server_output_json", "server_output_text", "streams"] : List String).map literal := rfl
  rw [hnames]
  decide +kernel

/-- A double is read as it was sent, if it is a number at all. -/
theorem double_read {d : Double} {o : Option (CJSON Double)}
    (h : Option.Rel (Agrees lib) (some (.number d)) o) :
    ∃ i, o = some i ∧ (lib.finite d → lib.same (valuedouble secs i) d) := by
  cases h with
  | @some _ i hi =>
      refine ⟨i, rfl, fun hd => ?_⟩
      cases i with
      | number d' => exact hi.2
      | null => exact (hi hd).elim
      | _ => exact hi.elim

theorem ofInt_read {n : Int32} {o : Option (CJSON Double)}
    (h : Option.Rel (Agrees lib) (some (.number (ints.ofInt n))) o) :
    ∃ i, o = some i ∧ (valueint ints i).toInt32 = n := by
  obtain ⟨d, rfl, -⟩ := number_read (ints.finite_ofInt n) h
  exact ⟨_, rfl, int_read ints h 0⟩

theorem ofUInt64_read {n : UInt64} (hn : n.toNat ≤ 2 ^ 53) {o : Option (CJSON Double)}
    (h : Option.Rel (Agrees lib) (some (.number (ints.ofUInt64 n))) o) :
    ∃ i, o = some i ∧ (valueint ints i).toUInt64 = n := by
  obtain ⟨d, rfl, -⟩ := number_read (ints.finite_ofUInt64 n) h
  have hread := nonzero64_read ints (p := True) hn (by rwa [if_pos trivial]) 0
  rw [if_pos trivial] at hread
  exact ⟨_, rfl, hread⟩

structure Reports (test : Test Double) (sp : Stream Double) (r : Report Double) : Prop where
  sid : r.sid = sp.id
  bytes : r.bytes_transferred = bytesTransferred sp
  retransmits : r.retransmits = retransmits test sp
  jitter : lib.finite sp.jitter → lib.same r.jitter sp.jitter
  cerror : r.cerror = sp.cnt_error
  pcount : r.pcount = sp.packet_count
  time : lib.same r.time (duration secs sp.start_time sp.end_time)

theorem timeDiff_self (t : Time) : (timeDiff t t).1 = ⟨0, 0⟩ := by
  have hcompare : timeCompare t t = 0 := by simp [timeCompare]
  rw [timeDiff, hcompare]
  rfl

theorem readReport_reports (hbytes : (bytesTransferred sp).toNat ≤ 2 ^ 53) {j_stream : CJSON Double}
    (hj : Agrees lib (streamItem ints secs test sp) j_stream) :
    ∃ r, readReport ints secs j_stream = some r ∧ Reports secs test sp r := by
  have hitem (name : String) {item : Option (CJSON Double)}
      (h : (literal name, item) ∈ streamFields ints secs test sp) := item_read (streamFields_names ints secs) hj h
  obtain ⟨j_id, hid, hsid⟩ := ofInt_read ints (n := sp.id) (hitem "id" (by simp [streamFields]))
  obtain ⟨j_bytes, hbytes, htransferred⟩ := ofUInt64_read ints hbytes (hitem "bytes" (by simp [streamFields]))
  obtain ⟨j_retransmits, hretransmits, hretrans⟩ :=
    ofInt_read ints (n := retransmits test sp) (hitem "retransmits" (by simp [streamFields]))
  obtain ⟨j_jitter, hjitter, hdouble⟩ := double_read secs (d := sp.jitter) (hitem "jitter" (by simp [streamFields]))
  obtain ⟨j_errors, herrors, hcerror⟩ :=
    ofInt_read ints (n := sp.cnt_error) (hitem "errors" (by simp [streamFields]))
  obtain ⟨j_packets, hpackets, hpcount⟩ :=
    ofInt_read ints (n := sp.packet_count) (hitem "packets" (by simp [streamFields]))
  obtain ⟨j_start_time, hstart, hzero⟩ := double_read secs (d := duration secs sp.start_time sp.start_time)
    (hitem "start_time" (by simp [streamFields]))
  obtain ⟨j_end_time, hend, htime⟩ := double_read secs (d := duration secs sp.start_time sp.end_time)
    (hitem "end_time" (by simp [streamFields]))
  rw [duration, timeDiff_self] at hzero
  simp only [readReport, hid, hbytes, hretransmits, hjitter, herrors, hpackets, hstart, hend, Option.bind_eq_bind,
    Option.bind_some, Option.pure_def, Option.some.injEq, exists_eq_left']
  exact {
    sid := hsid
    bytes := htransferred
    retransmits := hretrans
    jitter := hdouble
    cerror := hcerror
    pcount := hpcount
    time := secs.sub_inSecs _ _ _ (htime (secs.finite_inSecs _)) (hzero (secs.finite_inSecs _)) }

theorem takeOver_id (r : Report Double) (sp : Stream Double) : (sp.takeOver r).id = sp.id := by
  rw [Stream.takeOver]
  split <;> rfl

theorem updateStream_append {r : Report Double} {done streams : List (Stream Double)} (hid : sp.id = r.sid)
    (hdone : sp.id ∉ done.map Stream.id) :
    updateStream r (done ++ sp :: streams) = some (done ++ sp.takeOver r :: streams) := by
  induction done with
  | nil => exact if_pos hid
  | cons first done ih =>
      rw [List.map_cons, List.mem_cons, not_or] at hdone
      rw [List.cons_append, updateStream, if_neg (fun h => hdone.1 (hid.trans h.symm)), ih hdone.2]
      rfl

/-- The loop gives every stream the report of its peer. -/
theorem getStreams_reports {peers streams : List (Stream Double)} {items : List (CJSON Double)}
    (hpairs : peers.map Stream.id = streams.map Stream.id) (hbytes : ∀ sp ∈ peers, (bytesTransferred sp).toNat ≤ 2 ^ 53)
    (hitems : AgreesItems lib (peers.map (streamItem ints secs test)) items) (done : List (Stream Double))
    (hnodup : ((done ++ streams).map Stream.id).Nodup) :
    ∃ reports, List.Forall₂ (Reports secs test) peers reports ∧
      items.foldl (getStream ints secs) (done ++ streams, none) =
        (done ++ List.zipWith Stream.takeOver reports streams, none) := by
  induction peers generalizing streams items done with
  | nil =>
      cases items with
      | cons => exact hitems.elim
      | nil =>
          obtain rfl : streams = [] := List.map_eq_nil_iff.1 hpairs.symm
          exact ⟨[], .nil, rfl⟩
  | cons peer peers ih =>
      cases items with
      | nil => exact hitems.elim
      | cons j_stream items =>
          cases streams with
          | nil => cases hpairs
          | cons sp streams =>
              obtain ⟨hid, hrest⟩ := List.cons.inj hpairs
              obtain ⟨r, hread, hreports⟩ := readReport_reports ints secs (hbytes peer (by simp)) hitems.1
              have hsid : sp.id = r.sid := (hreports.sid.trans hid).symm
              have hdone : sp.id ∉ done.map Stream.id := by
                rw [List.map_append, List.map_cons] at hnodup
                exact fun hmem => (List.nodup_append.1 hnodup).2.2 _ hmem _ (by simp) rfl
              have hnodup' : (((done ++ [sp.takeOver r]) ++ streams).map Stream.id).Nodup := by
                rw [List.append_assoc, List.singleton_append]
                simpa [takeOver_id] using hnodup
              obtain ⟨reports, hreports', hfold⟩ :=
                ih hrest (fun sp hsp => hbytes sp (by simp [hsp])) hitems.2 (done ++ [sp.takeOver r]) hnodup'
              refine ⟨r :: reports, .cons hreports hreports', ?_⟩
              have hstep : getStream ints secs (done ++ sp :: streams, none) j_stream =
                  ((done ++ [sp.takeOver r]) ++ streams, none) := by
                rw [getStream, hread]
                dsimp only
                rw [updateStream_append hsid hdone]
                simp
              rw [List.foldl_cons, hstep, hfold]
              simp

end Reading

section Receiving

variable {Double : Type} {lib : CLib Double} (ints : Integers lib) (secs : Seconds lib) {own peer : Test Double}
  {j : CJSON Double}

theorem sameName_trans {s t u : CString} (hst : sameName s t) (hut : sameName u t) : sameName s u := by
  rw [sameName, beq_iff_eq] at hst hut ⊢
  exact hst.trans hut.symm

theorem find?_eraseP {α : Type} {p q : α → Bool} (h : ∀ a, q a → ¬ p a) (l : List α) :
    (l.eraseP q).find? p = l.find? p := by
  induction l with
  | nil => rfl
  | cons a l ih =>
      by_cases hq : q a
      · rw [List.eraseP_cons_of_pos hq, List.find?_cons_of_neg (h a hq)]
      · rw [List.eraseP_cons_of_neg hq]
        by_cases hp : p a
        · rw [List.find?_cons_of_pos hp, List.find?_cons_of_pos hp]
        · rw [List.find?_cons_of_neg hp, List.find?_cons_of_neg hp, ih]

/-- An item of another name is still found after one was taken out. -/
theorem getObjectItem_detach (object : CJSON Double) {name other : CString} (h : ¬ sameName name other) :
    cJSON_GetObjectItem (cJSON_DetachItemFromObject object other).2 name = cJSON_GetObjectItem object name := by
  cases object with
  | object child =>
      simp only [cJSON_DetachItemFromObject, cJSON_GetObjectItem]
      rw [find?_eraseP]
      rintro ⟨string, item⟩ hother hname
      cases string with
      | none => cases hother
      | some s => exact h (sameName_trans hname hother)
  | _ => rfl

def claims (test : Test Double) : Int32 := if test.mode = .receiver then -1 else test.sender_has_retransmits

variable (lib) in
structure SameLoad (load sent : CpuUtil Double) : Prop where
  total : lib.finite sent.total → lib.same load.total sent.total
  user : lib.finite sent.user → lib.same load.user sent.user
  system : lib.finite sent.system → lib.same load.system sent.system

def Asks (own peer : Test Double) : Prop :=
  (own.role = .client ∧ own.get_server_output ≠ 0) ∧ peer.role = .server ∧ peer.get_server_output ≠ 0

structure Received (own peer new : Test Double) : Prop where
  streams : ∃ reports, List.Forall₂ (Reports secs peer) peer.streams reports ∧
    new.streams = List.zipWith Stream.takeOver reports own.streams
  parameters : new.toParameters = { own.toParameters with
    sender_has_retransmits := if own.mode = .receiver then claims peer else own.sender_has_retransmits }
  other_side : new.other_side_has_retransmits =
    if own.mode = .receiver then 0
    else if own.mode = .bidirectional then claims peer
    else own.other_side_has_retransmits
  load : SameLoad lib new.remote_cpu_util peer.cpu_util
  cpu_util : new.cpu_util = own.cpu_util
  json_output : new.json_output = own.json_output
  json_top : new.json_top = own.json_top
  server_output_list : new.server_output_list = own.server_output_list
  congestion : new.remote_congestion_used = peer.congestion_used.or own.remote_congestion_used
  tree : Asks own peer → peer.json_output →
    ∃ item, new.json_server_output = some item ∧ Agrees lib peer.json_top item
  text : Asks own peer → ¬ peer.json_output →
    new.server_output_text = some (serverOutput peer.server_output_list)
  unasked : ¬ (own.role = .client ∧ own.get_server_output ≠ 0) →
    new.json_server_output = own.json_server_output ∧ new.server_output_text = own.server_output_text

theorem getRetransmits_eq (n : Int32) (test : Test Double) : getRetransmits n test = { test with
    sender_has_retransmits := if test.mode = .receiver then n else test.sender_has_retransmits
    other_side_has_retransmits :=
      if test.mode = .receiver then 0
      else if test.mode = .bidirectional then n
      else test.other_side_has_retransmits } := by
  obtain ⟨⟨⟨_, mode⟩⟩⟩ := test
  cases mode <;> rfl

theorem readHeader_reads (hj : Agrees lib (sendResults ints secs peer) j) :
    ∃ load, readHeader ints secs j = some (load, claims peer) ∧ SameLoad lib load peer.cpu_util := by
  have hitem (name : String) {item : Option (CJSON Double)}
      (h : (literal name, item) ∈ resultFields ints secs peer) := item_read (resultFields_names ints secs) hj h
  obtain ⟨j_total, htotal, hsame⟩ :=
    double_read secs (d := peer.cpu_util.total) (hitem "cpu_util_total" (by simp [resultFields]))
  obtain ⟨j_user, huser, hsame'⟩ :=
    double_read secs (d := peer.cpu_util.user) (hitem "cpu_util_user" (by simp [resultFields]))
  obtain ⟨j_system, hsystem, hsame''⟩ :=
    double_read secs (d := peer.cpu_util.system) (hitem "cpu_util_system" (by simp [resultFields]))
  obtain ⟨j_retransmits, hretransmits, hclaims⟩ :=
    ofInt_read ints (n := claims peer) (hitem "sender_has_retransmits" (by simp [resultFields, claims]))
  refine ⟨⟨valuedouble secs j_total, valuedouble secs j_user, valuedouble secs j_system⟩, ?_, ⟨hsame, hsame', hsame''⟩⟩
  simp only [readHeader, htotal, huser, hsystem, hretransmits, Option.bind_eq_bind, Option.bind_some, Option.pure_def,
    hclaims]

/-- The output of the server is where the client looks for it. -/
theorem getServerOutput_reads (hj : Agrees lib (sendResults ints secs peer) j) (test : Test Double) :
    ∃ output text, (getServerOutput j test).1 =
        { test with json_server_output := output, server_output_text := text } ∧
      (Asks test peer → peer.json_output → ∃ item, output = some item ∧ Agrees lib peer.json_top item) ∧
      (Asks test peer → ¬ peer.json_output → text = some (serverOutput peer.server_output_list)) ∧
      (¬ (test.role = .client ∧ test.get_server_output ≠ 0) →
        output = test.json_server_output ∧ text = test.server_output_text) ∧
      cJSON_GetObjectItem (getServerOutput j test).2 (literal "congestion_used") =
        cJSON_GetObjectItem j (literal "congestion_used") := by
  have hitem (name : String) {item : Option (CJSON Double)}
      (h : (literal name, item) ∈ resultFields ints secs peer) := item_read (resultFields_names ints secs) hj h
  have htree : Option.Rel (Agrees lib)
      (if (peer.role = .server ∧ peer.get_server_output ≠ 0) ∧ peer.json_output then some peer.json_top else none)
      (cJSON_GetObjectItem j (literal "server_output_json")) := hitem _ (by simp [resultFields])
  have htext : Option.Rel (Agrees lib)
      (if (peer.role = .server ∧ peer.get_server_output ≠ 0) ∧ ¬ peer.json_output
        then some (.string (some (serverOutput peer.server_output_list))) else none)
      (cJSON_GetObjectItem j (literal "server_output_text")) := hitem _ (by simp [resultFields])
  have hcongestion : ¬ sameName (literal "congestion_used") (literal "server_output_json") := by decide +kernel
  have hother : ¬ sameName (literal "server_output_text") (literal "server_output_json") := by decide +kernel
  rw [getServerOutput]
  by_cases hclient : test.role = .client ∧ test.get_server_output ≠ 0
  · rw [if_pos hclient]
    have hrest := getObjectItem_detach j hother
    have hrest' := getObjectItem_detach j hcongestion
    have hdetach : (cJSON_DetachItemFromObject j (literal "server_output_json")).1 =
        cJSON_GetObjectItem j (literal "server_output_json") := rfl
    generalize cJSON_DetachItemFromObject j (literal "server_output_json") = detached at hrest hrest' hdetach ⊢
    obtain ⟨o, rest⟩ := detached
    obtain rfl : o = _ := hdetach
    rw [← hrest] at htext
    dsimp only at hrest'
    cases htree' : cJSON_GetObjectItem j (literal "server_output_json") with
    | some item =>
        rw [htree'] at htree
        refine ⟨some item, test.server_output_text, rfl, ?_, ?_, fun h => (h hclient).elim, hrest'⟩
        · intro hasks hjson
          rw [if_pos ⟨hasks.2, hjson⟩] at htree
          cases htree with
          | some h => exact ⟨item, rfl, h⟩
        · intro hasks hjson
          rw [if_neg fun h => hjson h.2] at htree
          cases htree
    | none =>
        rw [htree'] at htree
        have hno : ¬ ((peer.role = .server ∧ peer.get_server_output ≠ 0) ∧ peer.json_output) := by
          intro h
          rw [if_pos h] at htree
          cases htree
        dsimp only
        cases htext' : cJSON_GetObjectItem rest (literal "server_output_text") with
        | none =>
            rw [htext'] at htext
            refine ⟨test.json_server_output, test.server_output_text, rfl, fun hasks hjson => (hno ⟨hasks.2, hjson⟩).elim,
              ?_, fun h => (h hclient).elim, hrest'⟩
            intro hasks hjson
            rw [if_pos ⟨hasks.2, hjson⟩] at htext
            cases htext
        | some item =>
            rw [htext'] at htext
            refine ⟨test.json_server_output, valuestring item, rfl, fun hasks hjson => (hno ⟨hasks.2, hjson⟩).elim,
              ?_, fun h => (h hclient).elim, hrest'⟩
            intro hasks hjson
            rw [if_pos ⟨hasks.2, hjson⟩] at htext
            exact text_read (s := some (serverOutput peer.server_output_list)) htext none
  · rw [if_neg hclient]
    exact ⟨_, _, rfl, fun hasks => (hclient hasks.1).elim, fun hasks => (hclient hasks.1).elim, fun _ => ⟨rfl, rfl⟩, rfl⟩

/-- The results of the other side are taken over without an error. -/
theorem getResults_received (hpairs : peer.streams.map Stream.id = own.streams.map Stream.id)
    (hnodup : (own.streams.map Stream.id).Nodup)
    (hbytes : ∀ sp ∈ peer.streams, (bytesTransferred sp).toNat ≤ 2 ^ 53)
    (hj : Agrees lib (sendResults ints secs peer) j) :
    Received secs own peer (getResults ints secs (some j) own).1 ∧ (getResults ints secs (some j) own).2 = none := by
  have hitem (name : String) {item : Option (CJSON Double)}
      (h : (literal name, item) ∈ resultFields ints secs peer) := item_read (resultFields_names ints secs) hj h
  have hstreams : Option.Rel (Agrees lib) (some (.array (peer.streams.map (streamItem ints secs peer))))
      (cJSON_GetObjectItem j (literal "streams")) := hitem _ (by simp [resultFields])
  have hcongestion : Option.Rel (Agrees lib) (peer.congestion_used.map fun s => .string (some s))
      (cJSON_GetObjectItem j (literal "congestion_used")) := hitem _ (by simp [resultFields])
  obtain ⟨load, hheader, hload⟩ := readHeader_reads ints secs hj
  cases hlookup : cJSON_GetObjectItem j (literal "streams") with
  | none =>
      rw [hlookup] at hstreams
      cases hstreams
  | some j_streams =>
      rw [hlookup] at hstreams
      cases hstreams with
      | some hagrees =>
          cases j_streams with
          | array items =>
              obtain ⟨reports, hreports, hfold⟩ :=
                getStreams_reports ints secs hpairs hbytes hagrees [] hnodup
              rw [List.nil_append, List.nil_append] at hfold
              obtain ⟨output, text, houtput, htree, htext, hunasked, hrest⟩ := getServerOutput_reads ints secs hj
                { getRetransmits (claims peer) { own with remote_cpu_util := load } with
                  streams := List.zipWith Stream.takeOver reports own.streams }
              rw [getRetransmits_eq] at houtput htree htext hunasked hrest
              have hreported : getReports ints secs j own =
                  ({ own with
                    toParameters := { own.toParameters with
                      sender_has_retransmits :=
                        if own.mode = .receiver then claims peer else own.sender_has_retransmits }
                    other_side_has_retransmits :=
                      if own.mode = .receiver then 0
                      else if own.mode = .bidirectional then claims peer
                      else own.other_side_has_retransmits
                    remote_cpu_util := load
                    streams := List.zipWith Stream.takeOver reports own.streams
                    json_server_output := output
                    server_output_text := text }, (getServerOutput j
                { getRetransmits (claims peer) { own with remote_cpu_util := load } with
                  streams := List.zipWith Stream.takeOver reports own.streams }).2, none) := by
                rw [getReports, hheader]
                dsimp only
                rw [hlookup, getRetransmits_eq]
                dsimp only [arrayItems]
                rw [hfold]
                dsimp only
                rw [houtput]
              have hcongestion' := text_read hcongestion own.remote_congestion_used
              rw [← hrest, ← getRetransmits_eq] at hcongestion'
              rw [getResults, hreported]
              exact ⟨{
                streams := ⟨reports, hreports, rfl⟩
                parameters := rfl
                other_side := rfl
                load := hload
                cpu_util := rfl
                json_output := rfl
                json_top := rfl
                server_output_list := rfl
                congestion := hcongestion'
                tree := htree
                text := htext
                unasked := hunasked }, rfl⟩
          | _ => exact hagrees.elim

end Receiving

section Sending

variable {Double : Type} {lib : CLib Double} (ints : Integers lib) (secs : Seconds lib) {test : Test Double}

/-- The counters are exact in a double, and the output of a server can be sent. -/
structure Fits (test : Test Double) : Prop where
  bytes : ∀ sp ∈ test.streams, (bytesTransferred sp).toNat ≤ 2 ^ 53
  json_top : test.role = .server → Plain (nestingLimit - 1) test.json_top

theorem streamItem_plain (sp : Stream Double) : Plain 1 (streamItem ints secs test sp) := by
  apply plain_members
  have hnumber (d : Double) : ∀ item ∈ some (CJSON.number d), Plain 0 item := by
    rintro _ ⟨⟩
    exact ⟨rfl, le_rfl⟩
  simp only [streamFields, List.forall_mem_cons]
  exact ⟨hnumber _, hnumber _, hnumber _, hnumber _, hnumber _, hnumber _, hnumber _, hnumber _, fun _ h => nomatch h⟩

theorem sendResults_plain (h : Fits test) : Plain nestingLimit (sendResults ints secs test) := by
  apply plain_members (n := nestingLimit - 1)
  have hleaf {i : CJSON Double} (hi : Leaf i) : ∀ item ∈ some i, Plain (nestingLimit - 1) item := by
    rintro _ ⟨⟩
    exact hi.isPlain.mono (Nat.zero_le _)
  have hif {p : Prop} [Decidable p] {i : CJSON Double} (hi : p → Plain (nestingLimit - 1) i) :
      ∀ item ∈ if p then some i else none, Plain (nestingLimit - 1) item := by
    split
    · rename_i hp
      rintro _ ⟨⟩
      exact hi hp
    · exact fun _ h => nomatch h
  have htext : Leaf (.string (some (serverOutput test.server_output_list)) : CJSON Double) := trivial
  simp only [resultFields, List.forall_mem_cons]
  refine ⟨hleaf trivial, hleaf trivial, hleaf trivial, hleaf trivial, ?_, ?_, ?_, ?_, fun _ h => nomatch h⟩
  · cases test.congestion_used with
    | none => exact fun _ h => nomatch h
    | some s => exact hleaf trivial
  · exact hif fun hp => h.json_top hp.1.1
  · exact hif fun _ => htext.isPlain.mono (Nat.zero_le _)
  · rintro _ ⟨⟩
    refine Plain.mono (Plain.array (n := 1) ?_) (by decide)
    simpa using fun sp _ => streamItem_plain ints secs sp

end Sending

section Settling

variable {Double : Type} {lib : CLib Double} (clib : Strtod lib) (ints : Integers lib) (secs : Seconds lib)
  {c s : Test Double}

structure Ends (a b : Stream Double) : Prop where
  id : a.id = b.id
  socket : a.socket = b.socket
  sender : b.sender = !a.sender

structure Settled (test : Test Double) (a b a' b' : Stream Double) : Prop where
  received : a'.bytes_received = b.bytes_received ∧ b'.bytes_received = b.bytes_received
  sent : a'.bytes_sent = a.bytes_sent ∧ b'.bytes_sent = a.bytes_sent - a.bytes_sent_omit
  retrans : b'.stream_retrans = if test.sender_has_retransmits ≠ 0 then a.stream_retrans else -1
  jitter : b'.jitter = b.jitter ∧ (lib.finite b.jitter → lib.same a'.jitter b.jitter)
  errors : a'.cnt_error = b.cnt_error ∧ b'.cnt_error = b.cnt_error
  packets : a'.peer_packet_count = b.packet_count ∧ b'.peer_packet_count = a.packet_count
  times : lib.same a'.receiver_time (duration secs b.start_time b.end_time) ∧
    lib.same b'.sender_time (duration secs a.start_time a.end_time)

structure SentReport (test : Test Double) (sp : Stream Double) (r : Report Double) : Prop where
  bytes : r.bytes_transferred = sp.bytes_sent - sp.bytes_sent_omit
  retransmits : r.retransmits = if test.sender_has_retransmits ≠ 0 then sp.stream_retrans else -1
  pcount : r.pcount = sp.packet_count
  time : lib.same r.time (duration secs sp.start_time sp.end_time)

structure ReceivedReport (sp : Stream Double) (r : Report Double) : Prop where
  bytes : r.bytes_transferred = sp.bytes_received
  jitter : lib.finite sp.jitter → lib.same r.jitter sp.jitter
  cerror : r.cerror = sp.cnt_error
  pcount : r.pcount = sp.packet_count
  time : lib.same r.time (duration secs sp.start_time sp.end_time)

variable {test : Test Double} {sp : Stream Double} {r : Report Double}

theorem Reports.sent (h : Reports secs test sp r) (hsp : sp.sender) : SentReport secs test sp r where
  bytes := h.bytes.trans (if_pos hsp)
  retransmits := by
    rw [h.retransmits, IperfStreams.retransmits]
    simp only [hsp, true_and]
  pcount := h.pcount
  time := h.time

theorem Reports.received (h : Reports secs test sp r) (hsp : ¬ sp.sender) : ReceivedReport secs sp r where
  bytes := h.bytes.trans (if_neg hsp)
  jitter := h.jitter
  cerror := h.cerror
  pcount := h.pcount
  time := h.time

theorem takeOver_sender (r : Report Double) (sp : Stream Double) : (sp.takeOver r).sender = sp.sender := by
  rw [Stream.takeOver]
  split <;> rfl

/-- A report that was taken over does not change what a sending end reports itself. -/
theorem SentReport.own {r' : Report Double} (h : SentReport secs test (sp.takeOver r') r) (hsp : sp.sender) :
    SentReport secs test sp r := by
  rw [Stream.takeOver, if_pos hsp] at h
  exact ⟨h.bytes, h.retransmits, h.pcount, h.time⟩

theorem ReceivedReport.own {r' : Report Double} (h : ReceivedReport secs (sp.takeOver r') r) (hsp : ¬ sp.sender) :
    ReceivedReport secs sp r := by
  rw [Stream.takeOver, if_neg hsp] at h
  exact ⟨h.bytes, h.jitter, h.cerror, h.pcount, h.time⟩

theorem settled_of_reports {a b : Stream Double} (ha : a.sender) (hb : ¬ b.sender) {ra rb : Report Double}
    (hra : SentReport secs test a ra) (hrb : ReceivedReport secs b rb) :
    Settled secs test a b (a.takeOver rb) (b.takeOver ra) := by
  rw [Stream.takeOver, Stream.takeOver, if_pos ha, if_neg hb]
  exact {
    received := ⟨hrb.bytes, rfl⟩
    sent := ⟨rfl, hra.bytes⟩
    retrans := hra.retransmits
    jitter := ⟨rfl, hrb.jitter⟩
    errors := ⟨hrb.cerror, rfl⟩
    packets := ⟨hrb.pcount, hra.pcount⟩
    times := ⟨hrb.time, hra.time⟩ }

def SettledEnds (c s : Test Double) (a b a' b' : Stream Double) : Prop :=
  if a.sender then Settled secs c a b a' b' else Settled secs s b a b' a'

/-- The report of the server is written after it has taken over the one of the client. -/
theorem settledEnds_of_reports {s' : Test Double} {a b : Stream Double} (hends : Ends a b)
    (hs' : b.sender → s'.sender_has_retransmits = s.sender_has_retransmits) {ra rb : Report Double}
    (hra : Reports secs c a ra) (hrb : Reports secs s' (b.takeOver ra) rb) :
    SettledEnds secs c s a b (a.takeOver rb) (b.takeOver ra) := by
  have hsender := hends.sender
  rw [SettledEnds]
  cases ha : a.sender with
  | true =>
      have hb : ¬ b.sender := by simp [hsender, ha]
      have hb' : ¬ (b.takeOver ra).sender := by rwa [takeOver_sender]
      rw [if_pos rfl]
      exact settled_of_reports secs ha hb (hra.sent secs ha) ((hrb.received secs hb').own secs hb)
  | false =>
      have ha' : ¬ a.sender := by simp [ha]
      have hb : b.sender := by simp [hsender, ha]
      have hb' : (b.takeOver ra).sender := by rwa [takeOver_sender]
      have hsent := (hrb.sent secs hb').own secs hb
      rw [if_neg (by decide)]
      refine settled_of_reports secs hb ha' ⟨hsent.bytes, ?_, hsent.pcount, hsent.time⟩ (hra.received secs ha')
      rw [← hs' hb]
      exact hsent.retransmits

theorem settled_streams {s' : Test Double} {cs ss : List (Stream Double)} (hends : List.Forall₂ Ends cs ss)
    (hs' : ∀ b ∈ ss, b.sender → s'.sender_has_retransmits = s.sender_has_retransmits) {ras rbs : List (Report Double)}
    (hras : List.Forall₂ (Reports secs c) cs ras)
    (hrbs : List.Forall₂ (Reports secs s') (List.zipWith Stream.takeOver ras ss) rbs) :
    List.Forall₂ (fun p q => SettledEnds secs c s p.1 p.2 q.1 q.2) (cs.zip ss)
      ((List.zipWith Stream.takeOver rbs cs).zip (List.zipWith Stream.takeOver ras ss)) := by
  induction hends generalizing ras rbs with
  | nil =>
      cases hras
      cases hrbs
      exact .nil
  | cons hab hends ih =>
      cases hras with
      | cons hra hras =>
          cases hrbs with
          | cons hrb hrbs =>
              refine .cons ?_ (ih (fun b hb => hs' b (by simp [hb])) hras hrbs)
              exact settledEnds_of_reports secs hab (hs' _ (by simp)) hra hrb

/-- The results that were printed by the other side are taken over without an error. -/
theorem getResults_text {own peer : Test Double} (hpairs : peer.streams.map Stream.id = own.streams.map Stream.id)
    (hnodup : (own.streams.map Stream.id).Nodup) (hfits : Fits peer) {str : Bytes}
    (hstr : cJSON_PrintUnformatted lib (sendResults ints secs peer) = some str) :
    Received secs own peer (getResults ints secs (cJSON_Parse clib str) own).1 ∧
      (getResults ints secs (cJSON_Parse clib str) own).2 = none := by
  have hplain := sendResults_plain ints secs hfits
  obtain ⟨j, hj, hagrees⟩ := (cJSON_Parse_agrees clib (hasRaw_of_plain _ hplain.plain) hstr).1 hplain.nesting
  rw [hj]
  exact getResults_received ints secs hpairs hnodup hfits.bytes hagrees

/-- What no report changes is the same in all streams after the reports. -/
theorem zipWith_map {β : Type} {f : Stream Double → β} (hf : ∀ r sp, f (Stream.takeOver r sp) = f sp)
    {reports : List (Report Double)} {streams : List (Stream Double)} (h : reports.length = streams.length) :
    (List.zipWith Stream.takeOver reports streams).map f = streams.map f := by
  induction reports generalizing streams with
  | nil =>
      obtain rfl : streams = [] := List.length_eq_zero_iff.1 h.symm
      rfl
  | cons r reports ih =>
      cases streams with
      | nil => cases h
      | cons sp streams =>
          rw [List.zipWith_cons_cons, List.map_cons, hf, ih (Nat.succ.inj h), List.map_cons]

theorem takeOver_bytes (r : Report Double) (sp : Stream Double) :
    bytesTransferred (sp.takeOver r) = bytesTransferred sp := by
  rw [Stream.takeOver]
  cases h : sp.sender <;> simp [bytesTransferred, h]

theorem Received.streams_map {own peer new : Test Double} (h : Received secs own peer new)
    (hpairs : peer.streams.map Stream.id = own.streams.map Stream.id) {β : Type} {f : Stream Double → β}
    (hf : ∀ r sp, f (Stream.takeOver r sp) = f sp) : new.streams.map f = own.streams.map f := by
  obtain ⟨reports, hreports, hstreams⟩ := h.streams
  rw [hstreams]
  apply zipWith_map hf
  rw [← hreports.length_eq]
  simpa using congrArg List.length hpairs

theorem Received.fits {own peer new : Test Double} (h : Received secs own peer new)
    (hpairs : peer.streams.map Stream.id = own.streams.map Stream.id) (hfits : Fits own) : Fits new where
  bytes sp hsp := by
    have hmem := List.mem_map_of_mem (f := bytesTransferred) hsp
    rw [h.streams_map secs hpairs takeOver_bytes] at hmem
    obtain ⟨sp', hsp', hbytes⟩ := List.mem_map.1 hmem
    rw [← hbytes]
    exact hfits.bytes sp' hsp'
  json_top hrole := by
    rw [h.parameters] at hrole
    rw [h.json_top]
    exact hfits.json_top hrole

theorem ends_ids {cs ss : List (Stream Double)} (h : List.Forall₂ Ends cs ss) : cs.map Stream.id = ss.map Stream.id := by
  induction h with
  | nil => rfl
  | cons hab _ ih => rw [List.map_cons, List.map_cons, hab.id, ih]

/-- The streams are settled when both sides have received the results, the server first. -/
theorem settled_of_received (hends : List.Forall₂ Ends c.streams s.streams)
    (hmode : s.mode = .receiver → ∀ sp ∈ s.streams, ¬ sp.sender) {s' c' : Test Double}
    (hs' : Received secs s c s') (hc' : Received secs c s' c') :
    List.Forall₂ (fun p q => SettledEnds secs c s p.1 p.2 q.1 q.2) (c.streams.zip s.streams)
      (c'.streams.zip s'.streams) := by
  obtain ⟨ras, hras, hstreams⟩ := hs'.streams
  obtain ⟨rbs, hrbs, hstreams'⟩ := hc'.streams
  rw [hstreams] at hrbs
  rw [hstreams, hstreams']
  refine settled_streams secs hends (fun b hb hsender => ?_) hras hrbs
  have hne : s.mode ≠ .receiver := fun h => hmode h b hb hsender
  rw [hs'.parameters]
  exact if_neg hne

/-- After the exchange both sides have the same figures of every stream. -/
theorem results_settled (hends : List.Forall₂ Ends c.streams s.streams) (hnodup : (c.streams.map Stream.id).Nodup)
    (hmode : s.mode = .receiver → ∀ sp ∈ s.streams, ¬ sp.sender) (hc : Fits c) (hs : Fits s) {ctext stext : Bytes}
    {s' c' : Test Double × Option Error}
    (hctext : cJSON_PrintUnformatted lib (sendResults ints secs c) = some ctext)
    (hs' : getResults ints secs (cJSON_Parse clib ctext) s = s')
    (hstext : cJSON_PrintUnformatted lib (sendResults ints secs s'.1) = some stext)
    (hc' : getResults ints secs (cJSON_Parse clib stext) c = c') :
    (s'.2 = none ∧ Received secs s c s'.1) ∧ (c'.2 = none ∧ Received secs c s'.1 c'.1) ∧
      List.Forall₂ (fun p q => SettledEnds secs c s p.1 p.2 q.1 q.2) (c.streams.zip s.streams)
        (c'.1.streams.zip s'.1.streams) := by
  have hids := ends_ids hends
  obtain ⟨hreceived, hnone⟩ := getResults_text clib ints secs hids (hids ▸ hnodup) hc hctext
  rw [hs'] at hreceived hnone
  have hids' : s'.1.streams.map Stream.id = c.streams.map Stream.id :=
    (hreceived.streams_map secs hids takeOver_id).trans hids.symm
  obtain ⟨hreceived', hnone'⟩ := getResults_text clib ints secs hids' hnodup (hreceived.fits secs hids hs) hstext
  rw [hc'] at hreceived' hnone'
  exact ⟨⟨hnone, hreceived⟩, ⟨hnone', hreceived'⟩, settled_of_received secs hends hmode hreceived hreceived'⟩

end Settling

section Sample

open WholeDoubles

theorem wholeSeconds_sub (a b : Int) (t : Time) (ha : integers.same a t.secs.toNat) (hb : integers.same b 0) :
    integers.same (a - b) t.secs.toNat := by
  obtain rfl : a = t.secs.toNat := beq_iff_eq.1 ha
  obtain rfl : b = 0 := beq_iff_eq.1 hb
  exact beq_iff_eq.2 (sub_zero _)

def wholeSeconds : Seconds integers where
  zero := 0
  inSecs t := t.secs.toNat
  sub a b := a - b
  finite_inSecs t := short_of_lt (by have hlt := t.secs.toNat_lt; omega)
  sub_inSecs := wholeSeconds_sub

def sampleStream (id : Int32) (sender : Bool) (bytes : UInt64) : Stream Int where
  id
  socket := 0
  sender
  start_time := ⟨100, 5⟩
  end_time := ⟨110, 5⟩
  bytes_received := if sender then 0 else bytes
  bytes_sent := if sender then bytes + 500 else 0
  bytes_sent_omit := if sender then 200 else 0
  stream_retrans := if sender then 4 else 0
  sender_time := 0
  receiver_time := 0
  jitter := 0
  cnt_error := 0
  packet_count := 0
  peer_packet_count := 0

def sampleTest (role : Role) (streams : List (Stream Int)) : Test Int where
  toParameters := { sampleClient with
    role
    mode := .bidirectional
    sender_has_retransmits := 1
    reverse := 0
    bidirectional := 1
    get_server_output := 1 }
  other_side_has_retransmits := 0
  json_output := false
  cpu_util := ⟨30, 10, 20⟩
  remote_cpu_util := ⟨0, 0, 0⟩
  streams
  json_top := .null
  server_output_list := [literal "Server listening on 5201\n"]
  json_server_output := none
  server_output_text := none
  remote_congestion_used := none

def sampleTests : Test Int × Test Int :=
  (sampleTest .client [sampleStream 1 true 4000, sampleStream 3 false 7000],
    sampleTest .server [sampleStream 1 false 3000, sampleStream 3 true 8000])

def resultText (test : Test Int) : Bytes :=
  (cJSON_PrintUnformatted integers (sendResults wholeNumbers wholeSeconds test)).getD []

def afterResults (test peer : Test Int) : Test Int × Option Error :=
  getResults wholeNumbers wholeSeconds (cJSON_Parse integersStrtod (resultText peer)) test

theorem resultText_eq {test : Test Int}
    (h : (cJSON_PrintUnformatted integers (sendResults wholeNumbers wholeSeconds test)).isSome) :
    cJSON_PrintUnformatted integers (sendResults wholeNumbers wholeSeconds test) = some (resultText test) := by
  obtain ⟨str, hstr⟩ := Option.isSome_iff_exists.1 h
  rw [resultText, hstr, Option.getD_some]

example : let s := afterResults sampleTests.2 sampleTests.1
    let c := afterResults sampleTests.1 s.1
    c.1.streams.map (fun sp => (sp.bytes_sent, sp.bytes_received)) = [(4500, 3000), (8300, 7000)] := by decide +kernel

theorem results_settled_sample :
    let c := sampleTests.1
    let s := sampleTests.2
    let s' := afterResults s c
    let c' := afterResults c s'.1
    (s'.2 = none ∧ Received wholeSeconds s c s'.1) ∧ (c'.2 = none ∧ Received wholeSeconds c s'.1 c'.1) ∧
      List.Forall₂ (fun p q => SettledEnds wholeSeconds c s p.1 p.2 q.1 q.2) (c.streams.zip s.streams)
        (c'.1.streams.zip s'.1.streams) :=
  results_settled integersStrtod wholeNumbers wholeSeconds
    (.cons ⟨rfl, rfl, rfl⟩ (.cons ⟨rfl, rfl, rfl⟩ .nil)) (by decide) (by decide)
    ⟨by decide, fun _ => ⟨rfl, by decide⟩⟩ ⟨by decide, fun _ => ⟨rfl, by decide⟩⟩ (resultText_eq (by decide +kernel)) rfl
    (resultText_eq (by decide +kernel)) rfl

end Sample

end SberWifi.IperfStreams
