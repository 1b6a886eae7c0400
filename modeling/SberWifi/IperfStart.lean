import SberWifi.IperfStages
import SberWifi.TestSettings

namespace SberWifi.IperfStart

open CJsonPrint hiding Test
open CJsonParse CJsonRoundTrip ControlSocket IperfParameters TestSettings

section Constructor

variable (hasTcpinfoRetransmits : Bool)

def iperfSetTestRole (ipt : Direction) (role : Role) : Direction :=
  let mode : Mode :=
    if ipt.reverse = 0 then
      if ipt.bidirectional ≠ 0 then .bidirectional
      else
        match role with
        | .client => .sender
        | .server => .receiver
    else
      match role with
      | .client => .receiver
      | .server => .sender
  checkSenderHasRetransmits hasTcpinfoRetransmits { ipt with role, mode }

/-- `iperf_defaults` on the memory of `iperf_new_test`, in which the mode is that of a
receiver. The role is set before it is read. -/
def iperfDefaults : Parameters where
  toDirection := setProtocol hasTcpinfoRetransmits
    { role := .server, mode := .receiver, sender_has_retransmits := 0, protocol := .Ptcp, reverse := 0,
      bidirectional := 0 } .Ptcp
  «omit» := 0
  server_affinity := -1
  duration := 10
  bytes := 0
  blocks := 0
  mss := 0
  no_delay := 0
  num_streams := 1
  socket_bufsize := 0
  blksize := 128 * 1024
  rate := 0
  fqrate := 0
  pacing_timer := 1000
  burst := 0
  tos := 0
  flowlabel := 0
  title := none
  extra_data := none
  congestion := none
  congestion_used := none
  get_server_output := 0
  udp_counters_64bit := 0
  repeating_payload := 0

def iperfTest (host : Bytes) (role : Role) (reverse : Bool) : Except String Parameters :=
  let test := iperfDefaults hasTcpinfoRetransmits
  let direction := iperfSetTestRole hasTcpinfoRetransmits test.toDirection role
  let direction := iperfSetTestReverse hasTcpinfoRetransmits direction (if reverse then 1 else 0)
  if role = .client ∧ host = [] then .error "Укажите правильный host" else .ok { test with toDirection := direction }

def set (setter : TestSettings.Test → Except String TestSettings.Test) (test : Parameters) : Except String Parameters :=
  (setter ⟨test.omit, test.duration, test.num_streams, 1⟩).map fun t =>
    { test with «omit» := t.omit, duration := t.duration, num_streams := t.num_streams }

def start (host : Bytes) (duration streams : Int32) (reverse : Bool) : Except String Parameters := do
  let test ← iperfTest hasTcpinfoRetransmits host .client reverse
  let test ← set (set_duration · duration) test
  set (set_num_streams · streams) test

def startServer (reverse : Bool) : Except String Parameters := iperfTest hasTcpinfoRetransmits [] .server reverse

end Constructor

section Started

variable {hasTcpinfoRetransmits : Bool} {host : Bytes} {duration streams : Int32} {reverse : Bool} {c : Parameters}

def started (hasTcpinfoRetransmits : Bool) (role : Role) (reverse : Bool) : Direction :=
  iperfSetTestReverse hasTcpinfoRetransmits
    (iperfSetTestRole hasTcpinfoRetransmits (iperfDefaults hasTcpinfoRetransmits).toDirection role)
    (if reverse then 1 else 0)

/-- What is started, and when nothing is. -/
theorem start_eq : start hasTcpinfoRetransmits host duration streams reverse =
    if host = [] then .error "Укажите правильный host"
    else if duration > MAX_TIME then .error "Duration параметр должен быть не более 86400"
    else if streams > MAX_STREAMS then .error "Streams параметр должен быть не более 128"
    else .ok { iperfDefaults hasTcpinfoRetransmits with
      toDirection := started hasTcpinfoRetransmits .client reverse
      duration
      num_streams := streams } := by
  rw [start, iperfTest]
  by_cases hhost : host = []
  · simp only [hhost]
    rfl
  rw [if_neg (by simp [hhost]), if_neg hhost]
  by_cases hduration : duration > MAX_TIME
  · rw [if_pos hduration]
    simp [bind, Except.bind, set, set_duration, checked, hduration, Except.map]
  rw [if_neg hduration]
  by_cases hstreams : streams > MAX_STREAMS
  · rw [if_pos hstreams]
    simp [bind, Except.bind, set, set_duration, set_num_streams, checked, hduration, hstreams, Except.map]
  rw [if_neg hstreams]
  simp [bind, Except.bind, set, set_duration, set_num_streams, checked, hduration, hstreams, Except.map, started,
    iperf_set_test_duration, iperf_set_test_num_streams]

theorem start_ok (h : start hasTcpinfoRetransmits host duration streams reverse = .ok c) :
    streams ≤ MAX_STREAMS ∧ c = { iperfDefaults hasTcpinfoRetransmits with
      toDirection := started hasTcpinfoRetransmits .client reverse
      duration
      num_streams := streams } := by
  rw [start_eq] at h
  split at h
  · cases h
  split at h
  · cases h
  split at h
  · cases h
  · rename_i hstreams
    exact ⟨Int32.not_lt.1 hstreams, (Except.ok.inj h).symm⟩

theorem startServer_eq (reverse : Bool) : startServer hasTcpinfoRetransmits reverse =
    .ok { iperfDefaults hasTcpinfoRetransmits with toDirection := started hasTcpinfoRetransmits .server reverse } := by
  rw [startServer, iperfTest, if_neg (by rintro ⟨h, -⟩; cases h)]
  rfl

/-- What is started is a client as sessions have it. -/
theorem clientSet_start (h : start hasTcpinfoRetransmits host duration streams reverse = .ok c) : ClientSet c := by
  obtain ⟨-, rfl⟩ := start_ok h
  have hexact : (0 : UInt64).toNat ≤ 2 ^ 53 := Nat.zero_le _
  cases reverse with
  | false => exact ⟨rfl, .inl rfl, .inl rfl, rfl, hexact, hexact, hexact, hexact⟩
  | true => exact ⟨rfl, .inr rfl, .inl rfl, rfl, hexact, hexact, hexact, hexact⟩

theorem fresh_start {Double : Type} {test : IperfStreams.Test Double}
    (h : start hasTcpinfoRetransmits host duration streams reverse = .ok test.toParameters)
    (hstreams : 0 ≤ streams.toInt) (hnone : test.streams = []) : IperfStages.Fresh test where
  set := clientSet_start h
  tcp := by
    rw [(start_ok h).2]
    cases reverse <;> rfl
  num_streams := by
    rw [(start_ok h).2]
    exact ⟨hstreams, Int32.le_iff_toInt_le.1 (start_ok h).1⟩
  streams := hnone

theorem startServer_reset : ∃ s, startServer hasTcpinfoRetransmits false = .ok s ∧
    s = iperfResetTest hasTcpinfoRetransmits s := by
  refine ⟨_, startServer_eq false, ?_⟩
  simp [started, iperfResetTest, iperfDefaults, iperfSetTestReverse, iperfSetTestRole, setProtocol,
    checkSenderHasRetransmits]

variable {Double : Type} {lib : CLib Double} {clib : Strtod lib} {ints : Integers lib}

theorem getDirection_started {j : CJSON Double} (hj : Agrees lib (sendParameters ints c) j)
    (h : start hasTcpinfoRetransmits host duration streams reverse = .ok c) (reverse' : Bool) :
    (getDirection hasTcpinfoRetransmits j (started hasTcpinfoRetransmits .server reverse')).mode =
      if reverse || reverse' then .sender else .receiver := by
  have htcp : Option.Rel (Agrees lib) (if c.protocol = .Ptcp then some .true else none)
      (cJSON_GetObjectItem j (literal "tcp")) := item_sent ints hj (by simp [fields])
  have hudp : Option.Rel (Agrees lib) (if c.protocol = .Pudp then some .true else none)
      (cJSON_GetObjectItem j (literal "udp")) := item_sent ints hj (by simp [fields])
  have hrev : Option.Rel (Agrees lib) (if c.reverse ≠ 0 then some .true else none)
      (cJSON_GetObjectItem j (literal "reverse")) := item_sent ints hj (by simp [fields])
  have hbidir : Option.Rel (Agrees lib) (if c.bidirectional ≠ 0 then some .true else none)
      (cJSON_GetObjectItem j (literal "bidirectional")) := item_sent ints hj (by simp [fields])
  obtain ⟨-, rfl⟩ := start_ok h
  rw [getDirection]
  dsimp only
  rw [flag_read htcp, flag_read hudp, flag_read hrev, flag_read hbidir]
  cases reverse <;> cases reverse' <;> cases hasTcpinfoRetransmits <;> rfl

/-- A server takes the streams and the duration of the client over, and the two sides
run in opposite directions unless the server alone is reversed. Then both of them send. -/
theorem directions_started (h : start hasTcpinfoRetransmits host duration streams reverse = .ok c) {str : Bytes}
    (hprinted : cJSON_PrintUnformatted lib (sendParameters ints c) = some str) (reverse' : Bool) :
    ∃ s j, startServer hasTcpinfoRetransmits reverse' = .ok s ∧ cJSON_Parse clib str = some j ∧
      let t := getParameters ints hasTcpinfoRetransmits j s
      t.num_streams = streams ∧ t.duration = duration ∧ (t.mode = c.mode.dual ↔ (reverse' → reverse)) ∧
        (reverse' ∧ ¬ reverse → c.mode = .sender ∧ t.mode = .sender) := by
  have hplain := (sendParameters_plain ints c).mono (show 1 ≤ nestingLimit by decide)
  obtain ⟨j, hparse, hj⟩ := (cJSON_Parse_agrees clib (hasRaw_of_plain _ hplain.plain) hprinted).1 hplain.nesting
  refine ⟨_, j, startServer_eq reverse', hparse, ?_⟩
  intro t
  have hmode : t.mode = if reverse || reverse' then .sender else .receiver := getDirection_started hj h reverse'
  have hsent {name : String} {item : Option (CJSON Double)} (hmem : (literal name, item) ∈ fields ints c) :=
    item_sent ints hj hmem
  have hstreams : t.num_streams = c.num_streams := int_read ints (hsent (by simp [fields])) _
  have hduration : t.duration = c.duration := int_read ints (hsent (by simp [fields])) _
  have hclient : c.mode = if reverse then .receiver else .sender := by
    obtain ⟨-, rfl⟩ := start_ok h
    cases reverse <;> rfl
  obtain ⟨-, hc⟩ := start_ok h
  refine ⟨hstreams.trans (by rw [hc]), hduration.trans (by rw [hc]), ?_, ?_⟩
  · rw [hmode, hclient]
    cases reverse <;> cases reverse' <;> decide
  · rintro ⟨hserver, hforward⟩
    rw [hmode, hclient, hserver, if_neg hforward, Bool.or_true]
    exact ⟨rfl, rfl⟩

end Started

section Sample

open WholeDoubles

def sampleClient : Parameters := ((start true [49] 5 2 false).toOption).getD (iperfDefaults true)

def sampleText : Bytes := (cJSON_PrintUnformatted integers (sendParameters wholeNumbers sampleClient)).getD []

theorem sampleText_eq :
    cJSON_PrintUnformatted integers (sendParameters wholeNumbers sampleClient) = some sampleText := by
  have hsome : (cJSON_PrintUnformatted integers (sendParameters wholeNumbers sampleClient)).isSome := by decide +kernel
  obtain ⟨str, hstr⟩ := Option.isSome_iff_exists.1 hsome
  rw [sampleText, hstr, Option.getD_some]

/-- Two senders. -/
theorem directions_started_sample :
    ∃ s j, startServer true true = .ok s ∧ cJSON_Parse integersStrtod sampleText = some j ∧
      sampleClient.mode = .sender ∧ (getParameters wholeNumbers true j s).mode = .sender := by
  obtain ⟨s, j, hs, hj, -, -, -, hboth⟩ :=
    directions_started (show start true [49] 5 2 false = .ok sampleClient from rfl) sampleText_eq true
  exact ⟨s, j, hs, hj, hboth ⟨rfl, by decide⟩⟩

end Sample

end SberWifi.IperfStart
