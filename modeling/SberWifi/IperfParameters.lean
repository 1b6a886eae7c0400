import SberWifi.ControlSocket
import SberWifi.LastWrite
import SberWifi.Runs
import SberWifi.WholeDoubles

namespace SberWifi.IperfParameters

open CJsonPrint CJsonParse CJsonRoundTrip ControlSocket LastWrite Runs

/-- How numbers become doubles and back. A double has every `int` and the
integers up to 2^53. -/
structure Integers {Double : Type} (lib : CLib Double) where
  ofInt : Int32 → Double
  ofUInt64 : UInt64 → Double
  reachesMax : Double → Bool
  reachesMin : Double → Bool
  toInt64 : Double → Int64
  finite_ofInt : ∀ n, lib.finite (ofInt n)
  finite_ofUInt64 : ∀ n, lib.finite (ofUInt64 n)
  toInt64_ofInt : ∀ n d, lib.same d (ofInt n) → ¬ reachesMax d ∧ ¬ reachesMin d ∧ toInt64 d = n.toInt64
  toInt64_ofUInt64 : ∀ n d, n.toNat ≤ 2 ^ 53 → lib.same d (ofUInt64 n) →
    ¬ reachesMax d ∧ ¬ reachesMin d ∧ toInt64 d = n.toInt64

def literal (s : String) : CString := terminated (bytes s)

section Items

variable {Double : Type} {lib : CLib Double}

def tolower (c : UInt8) : UInt8 := if 65 ≤ c ∧ c ≤ 90 then c + 32 else c

/-- `case_insensitive_strcmp` gives 0. -/
def sameName (string1 string2 : CString) : Bool := string1.bytes.map tolower == string2.bytes.map tolower

/-- Items of an array have no names. -/
def cJSON_GetObjectItem (object : CJSON Double) (string : CString) : Option (CJSON Double) :=
  match object with
  | .object child => (child.find? fun m => m.1.any (sameName string)).map Prod.snd
  | _ => none

variable (ints : Integers lib)

def valueint : CJSON Double → Int64
  | .number number =>
      if ints.reachesMax number then Int64.maxValue
      else if ints.reachesMin number then Int64.minValue
      else ints.toInt64 number
  | .true => 1
  | _ => 0

def valuestring : CJSON Double → Option CString
  | .string valuestring => valuestring
  | _ => none

end Items

inductive Role
  | client
  | server
  deriving DecidableEq

inductive Mode
  | sender
  | receiver
  | bidirectional
  deriving DecidableEq

inductive Protocol
  | Ptcp
  | Pudp
  deriving DecidableEq

structure Direction where
  role : Role
  mode : Mode
  sender_has_retransmits : Int32
  protocol : Protocol
  reverse : Int32
  bidirectional : Int32

structure Parameters extends Direction where
  «omit» : Int32
  server_affinity : Int32
  duration : Int32
  bytes : UInt64
  blocks : UInt64
  mss : Int32
  no_delay : Int32
  num_streams : Int32
  socket_bufsize : Int32
  blksize : Int32
  rate : UInt64
  fqrate : UInt64
  pacing_timer : Int32
  burst : Int32
  tos : Int32
  flowlabel : Int32
  title : Option CString
  extra_data : Option CString
  congestion : Option CString
  congestion_used : Option CString
  get_server_output : Int32
  udp_counters_64bit : Int32
  repeating_payload : Int32

section Setters

variable (hasTcpinfoRetransmits : Bool) (ipt : Direction)

def checkSenderHasRetransmits : Direction :=
  { ipt with
    sender_has_retransmits := if ipt.mode ≠ .receiver ∧ ipt.protocol = .Ptcp ∧ hasTcpinfoRetransmits then 1 else 0 }

def iperfSetTestReverse (reverse : Int32) : Direction :=
  let mode : Mode :=
    if reverse = 0 then
      match ipt.role with
      | .client => .sender
      | .server => .receiver
    else
      match ipt.role with
      | .client => .receiver
      | .server => .sender
  checkSenderHasRetransmits hasTcpinfoRetransmits { ipt with reverse, mode }

def iperfSetTestBidirectional (bidirectional : Int32) : Direction :=
  if bidirectional ≠ 0 then { ipt with bidirectional, mode := .bidirectional }
  else iperfSetTestReverse hasTcpinfoRetransmits { ipt with bidirectional } ipt.reverse

def setProtocol (prot_id : Protocol) : Direction :=
  checkSenderHasRetransmits hasTcpinfoRetransmits { ipt with protocol := prot_id }

def iperfResetTest (test : Parameters) : Parameters :=
  let direction : Direction := { test with role := .server, mode := .receiver, sender_has_retransmits := 0 }
  { test with
    toDirection := { setProtocol hasTcpinfoRetransmits direction .Ptcp with reverse := 0, bidirectional := 0 }
    «omit» := 0
    duration := 10
    server_affinity := -1
    no_delay := 0
    num_streams := 1
    socket_bufsize := 0
    blksize := 128 * 1024
    rate := 0
    burst := 0
    mss := 0
    tos := 0
    udp_counters_64bit := 0
    title := none
    extra_data := none }

end Setters

section Exchange

variable {Double : Type} {lib : CLib Double} (ints : Integers lib)

def IPERF_VERSION : CString := literal "3.7+"

def fields (test : Parameters) : List (CString × Option (CJSON Double)) :=
  let number (n : Int32) : Option (CJSON Double) := some (.number (ints.ofInt n))
  let nonzero (n : Int32) : Option (CJSON Double) := if n ≠ 0 then number n else none
  let nonzero64 (n : UInt64) : Option (CJSON Double) := if n ≠ 0 then some (.number (ints.ofUInt64 n)) else none
  let flag (n : Int32) : Option (CJSON Double) := if n ≠ 0 then some .true else none
  let text (s : Option CString) : Option (CJSON Double) := s.map fun s => .string (some s)
  [(literal "tcp", if test.protocol = .Ptcp then some .true else none),
    (literal "udp", if test.protocol = .Pudp then some .true else none),
    (literal "omit", number test.omit),
    (literal "server_affinity", if test.server_affinity ≠ -1 then number test.server_affinity else none),
    (literal "time", number test.duration),
    (literal "num", nonzero64 test.bytes),
    (literal "blockcount", nonzero64 test.blocks),
    (literal "MSS", nonzero test.mss),
    (literal "nodelay", flag test.no_delay),
    (literal "parallel", number test.num_streams),
    (literal "reverse", flag test.reverse),
    (literal "bidirectional", flag test.bidirectional),
    (literal "window", nonzero test.socket_bufsize),
    (literal "len", nonzero test.blksize),
    (literal "bandwidth", nonzero64 test.rate),
    (literal "fqrate", nonzero64 test.fqrate),
    (literal "pacing_timer", nonzero test.pacing_timer),
    (literal "burst", nonzero test.burst),
    (literal "TOS", nonzero test.tos),
    (literal "flowlabel", nonzero test.flowlabel),
    (literal "title", text test.title),
    (literal "extra_data", text test.extra_data),
    (literal "congestion", text test.congestion),
    (literal "congestion_used", text test.congestion_used),
    (literal "get_server_output", nonzero test.get_server_output),
    (literal "udp_counters_64bit", nonzero test.udp_counters_64bit),
    (literal "repeating_payload", nonzero test.repeating_payload),
    (literal "client_version", some (.string (some IPERF_VERSION)))]

def members (fields : List (CString × Option (CJSON Double))) : List (Option CString × CJSON Double) :=
  fields.filterMap fun f => f.2.map fun item => (some f.1, item)

def sendParameters (test : Parameters) : CJSON Double := .object (members (fields ints test))

variable (hasTcpinfoRetransmits : Bool)

def getDirection (j : CJSON Double) (test : Direction) : Direction :=
  let item (string : String) : Option (CJSON Double) := cJSON_GetObjectItem j (literal string)
  let test := (item "tcp").elim test fun _ => setProtocol hasTcpinfoRetransmits test .Ptcp
  let test := (item "udp").elim test fun _ => setProtocol hasTcpinfoRetransmits test .Pudp
  let test := (item "reverse").elim test fun _ => iperfSetTestReverse hasTcpinfoRetransmits test 1
  let test := (item "bidirectional").elim test fun _ => iperfSetTestBidirectional hasTcpinfoRetransmits test 1
  if test.mode ≠ .receiver ∧ test.protocol = .Ptcp ∧ hasTcpinfoRetransmits then
    { test with sender_has_retransmits := 1 }
  else test

def getParameters (j : CJSON Double) (test : Parameters) : Parameters :=
  let item (string : String) : Option (CJSON Double) := cJSON_GetObjectItem j (literal string)
  let int (string : String) (n : Int32) : Int32 := (item string).elim n fun j_p => (valueint ints j_p).toInt32
  let uint64 (string : String) (n : UInt64) : UInt64 := (item string).elim n fun j_p => (valueint ints j_p).toUInt64
  let flag (string : String) (n : Int32) : Int32 := (item string).elim n fun _ => 1
  let text (string : String) (s : Option CString) : Option CString := (item string).elim s valuestring
  { toDirection := getDirection hasTcpinfoRetransmits j test.toDirection
    «omit» := int "omit" test.omit
    server_affinity := int "server_affinity" test.server_affinity
    duration := int "time" test.duration
    bytes := uint64 "num" test.bytes
    blocks := uint64 "blockcount" test.blocks
    mss := int "MSS" test.mss
    no_delay := flag "nodelay" test.no_delay
    num_streams := int "parallel" test.num_streams
    socket_bufsize := int "window" test.socket_bufsize
    blksize := int "len" test.blksize
    rate := uint64 "bandwidth" test.rate
    fqrate := uint64 "fqrate" test.fqrate
    pacing_timer := int "pacing_timer" test.pacing_timer
    burst := int "burst" test.burst
    tos := int "TOS" test.tos
    flowlabel := int "flowlabel" test.flowlabel
    title := text "title" test.title
    extra_data := text "extra_data" test.extra_data
    congestion := text "congestion" test.congestion
    congestion_used := text "congestion_used" test.congestion_used
    get_server_output := flag "get_server_output" test.get_server_output
    udp_counters_64bit := flag "udp_counters_64bit" test.udp_counters_64bit
    repeating_payload := flag "repeating_payload" test.repeating_payload }

end Exchange

section Lookup

variable {Double : Type} {lib : CLib Double}

theorem rereadString_some (s : CString) : rereadString (some s) = s := by
  cases s
  rfl

/-- Looking a name up in what was read finds what was sent under it. -/
theorem getObjectItem_agrees {child child' : List (Option CString × CJSON Double)} (hnames : ∀ m ∈ child, m.1.isSome)
    (h : AgreesMembers lib child child') (name : CString) :
    Option.Rel (Agrees lib) (cJSON_GetObjectItem (.object child) name) (cJSON_GetObjectItem (.object child') name) := by
  induction child generalizing child' with
  | nil =>
      cases child' with
      | nil => exact .none
      | cons m' child' => exact h.elim
  | cons m child ih =>
      cases child' with
      | nil => exact h.elim
      | cons m' child' =>
          obtain ⟨string, item⟩ := m
          obtain ⟨string', item'⟩ := m'
          obtain ⟨hstring, hitem, hnext⟩ := h
          obtain ⟨s, rfl⟩ := Option.isSome_iff_exists.1 (hnames (string, item) (by simp))
          rw [rereadString_some] at hstring
          subst hstring
          have hrest := ih (fun m hm => hnames m (by simp [hm])) hnext
          simp only [cJSON_GetObjectItem] at hrest ⊢
          by_cases hs : sameName name s
          · rw [List.find?_cons_of_pos (by exact hs), List.find?_cons_of_pos (by exact hs)]
            exact .some hitem
          · rw [List.find?_cons_of_neg (by exact hs), List.find?_cons_of_neg (by exact hs)]
            exact hrest

theorem sameName_comm (s t : CString) : sameName s t = sameName t s := by
  rw [sameName, sameName, Bool.eq_iff_iff, beq_iff_eq, beq_iff_eq]
  exact eq_comm

/-- The item that is found under a name that stands once among the fields. -/
theorem getObjectItem_members {fields : List (CString × Option (CJSON Double))}
    (hnames : (fields.map Prod.fst).Pairwise fun s t => ¬ sameName s t) {name : CString}
    {item : Option (CJSON Double)} (h : (name, item) ∈ fields) :
    cJSON_GetObjectItem (.object (members fields)) name = item := by
  induction fields with
  | nil => cases h
  | cons f fields ih =>
      obtain ⟨s, o⟩ := f
      obtain ⟨hfirst, hrest⟩ := List.pairwise_cons.1 hnames
      have hother (hs : ¬ sameName name s) : cJSON_GetObjectItem (.object (members ((s, o) :: fields))) name =
          cJSON_GetObjectItem (.object (members fields)) name := by
        rw [members, List.filterMap_cons]
        cases o with
        | none => rfl
        | some i =>
            simp only [Option.map_some, cJSON_GetObjectItem]
            rw [List.find?_cons_of_neg (by exact hs), members]
      rcases List.mem_cons.1 h with heq | hmem
      · cases heq
        cases item with
        | some i =>
            have hself : sameName name name := beq_self_eq_true _
            rw [members, List.filterMap_cons]
            simp only [Option.map_some, cJSON_GetObjectItem]
            rw [List.find?_cons_of_pos (by exact hself), Option.map_some]
        | none =>
            have habsent : (members fields).find? (fun m => m.1.any (sameName name)) = none := by
              rw [List.find?_eq_none]
              intro m hm
              obtain ⟨⟨t, i⟩, hf, hmap⟩ := List.mem_filterMap.1 hm
              obtain ⟨i, -, rfl⟩ := Option.map_eq_some_iff.1 hmap
              exact hfirst t (List.mem_map_of_mem hf)
            rw [members, List.filterMap_cons]
            simp only [Option.map_none, cJSON_GetObjectItem]
            rw [← members, habsent, Option.map_none]
      · have hs : ¬ sameName name s := by
          rw [sameName_comm]
          exact hfirst name (List.mem_map_of_mem hmem)
        rw [hother hs]
        exact ih hrest hmem

theorem plain_members {n : Nat} {fields : List (CString × Option (CJSON Double))}
    (h : ∀ f ∈ fields, ∀ item ∈ f.2, Plain n item) : Plain (n + 1) (.object (members fields)) := by
  apply Plain.object
  intro m hm
  obtain ⟨f, hf, hmap⟩ := List.mem_filterMap.1 hm
  obtain ⟨item, hitem, rfl⟩ := Option.map_eq_some_iff.1 hmap
  exact h f hf item hitem

/-- What is found under a name in what was read, where the names of the fields differ. -/
theorem item_read {fields : List (CString × Option (CJSON Double))}
    (hnames : (fields.map Prod.fst).Pairwise fun s t => ¬ sameName s t) {j : CJSON Double}
    (hj : Agrees lib (.object (members fields)) j) {name : CString} {item : Option (CJSON Double)}
    (h : (name, item) ∈ fields) : Option.Rel (Agrees lib) item (cJSON_GetObjectItem j name) := by
  cases j with
  | object child =>
      have hsome : ∀ m ∈ members fields, m.1.isSome := by
        intro m hm
        obtain ⟨f, -, hmap⟩ := List.mem_filterMap.1 hm
        obtain ⟨i, -, rfl⟩ := Option.map_eq_some_iff.1 hmap
        rfl
      have hrel := getObjectItem_agrees hsome hj name
      rwa [getObjectItem_members hnames h] at hrel
  | _ => exact hj.elim

end Lookup

section Sending

variable {Double : Type} {lib : CLib Double} (ints : Integers lib) (test : Parameters)

def Leaf : CJSON Double → Prop
  | .number _ | .true | .string _ => True
  | _ => False

theorem Leaf.isPlain {item : CJSON Double} (h : Leaf item) : Plain 0 item := by
  cases item with
  | number | true | string => exact ⟨rfl, le_rfl⟩
  | _ => exact h.elim

theorem fields_leaf : ∀ f ∈ fields ints test, ∀ item ∈ f.2, Leaf item := by
  have hsome {i : CJSON Double} (hi : Leaf i) : ∀ item ∈ some i, Leaf item := by
    rintro _ ⟨⟩
    exact hi
  have hif {p : Prop} [Decidable p] {i : CJSON Double} (hi : Leaf i) : ∀ item ∈ if p then some i else none, Leaf item := by
    split
    · exact hsome hi
    · exact fun _ h => nomatch h
  have htext (s : Option CString) : ∀ item ∈ s.map fun s => (.string (some s) : CJSON Double), Leaf item := by
    cases s with
    | none => exact fun _ h => nomatch h
    | some s => exact hsome trivial
  simp only [fields, List.forall_mem_cons]
  and_intros
  all_goals first | exact hif trivial | exact hsome trivial | exact htext _ | exact fun _ h => nomatch h

theorem sendParameters_plain : Plain 1 (sendParameters ints test) :=
  plain_members fun f hf item hitem => (fields_leaf ints test f hf item hitem).isPlain

theorem fields_names : ((fields ints test).map Prod.fst).Pairwise fun s t => ¬ sameName s t := by
  have hnames : (fields ints test).map Prod.fst = (["tcp", "udp", "omit", "server_affinity", "time", "num",
      "blockcount", "MSS", "nodelay", "parallel", "reverse", "bidirectional", "window", "len", "bandwidth", "fqrate",
      "pacing_timer", "burst", "TOS", "flowlabel", "title", "extra_data", "congestion", "congestion_used",
      "get_server_output", "udp_counters_64bit", "repeating_payload", "client_version"] : List String).map literal := rfl
  rw [hnames]
  decide +kernel

end Sending

section Reading

variable {Double : Type} {lib : CLib Double} (ints : Integers lib) {o : Option (CJSON Double)} {p : Prop} [Decidable p]

omit [Decidable p] in
theorem number_read {d : Double} (hd : lib.finite d) (h : Option.Rel (Agrees lib) (some (.number d)) o) :
    ∃ d', o = some (.number d') ∧ lib.same d' d := by
  cases h with
  | @some _ i hi =>
      cases i with
      | number d' => exact ⟨d', rfl, hi.2⟩
      | null => exact (hi hd).elim
      | _ => exact hi.elim

omit [Decidable p] in
theorem int_read {n : Int32} (h : Option.Rel (Agrees lib) (some (.number (ints.ofInt n))) o) (k : Int32) :
    (o.elim k fun j_p => (valueint ints j_p).toInt32) = n := by
  obtain ⟨d, rfl, hd⟩ := number_read (ints.finite_ofInt n) h
  obtain ⟨hmax, hmin, hvalue⟩ := ints.toInt64_ofInt n d hd
  rw [Option.elim_some, valueint, if_neg hmax, if_neg hmin, hvalue, Int32.toInt32_toInt64]

theorem nonzero_read {n : Int32} (h : Option.Rel (Agrees lib) (if p then some (.number (ints.ofInt n)) else none) o)
    (k : Int32) : (o.elim k fun j_p => (valueint ints j_p).toInt32) = if p then n else k := by
  split at h
  · rename_i hp
    rw [if_pos hp, int_read ints h]
  · rename_i hp
    cases h
    exact (if_neg hp).symm

theorem nonzero64_read {n : UInt64} (hn : n.toNat ≤ 2 ^ 53)
    (h : Option.Rel (Agrees lib) (if p then some (.number (ints.ofUInt64 n)) else none) o) (k : UInt64) :
    (o.elim k fun j_p => (valueint ints j_p).toUInt64) = if p then n else k := by
  split at h
  · rename_i hp
    obtain ⟨d, rfl, hd⟩ := number_read (ints.finite_ofUInt64 n) h
    obtain ⟨hmax, hmin, hvalue⟩ := ints.toInt64_ofUInt64 n d hn hd
    rw [if_pos hp, Option.elim_some, valueint, if_neg hmax, if_neg hmin, hvalue, UInt64.toUInt64_toInt64]
  · rename_i hp
    cases h
    exact (if_neg hp).symm

/-- A number that is only left out where it is the default is always known. -/
theorem default_read {n k : Int32} (h : Option.Rel (Agrees lib) (if n ≠ k then some (.number (ints.ofInt n)) else none) o) :
    (o.elim k fun j_p => (valueint ints j_p).toInt32) = n := by
  rw [nonzero_read ints h, ite_eq_left_iff, not_not]
  exact Eq.symm

theorem default64_read {n k : UInt64} (hn : n.toNat ≤ 2 ^ 53)
    (h : Option.Rel (Agrees lib) (if n ≠ k then some (.number (ints.ofUInt64 n)) else none) o) :
    (o.elim k fun j_p => (valueint ints j_p).toUInt64) = n := by
  rw [nonzero64_read ints hn h, ite_eq_left_iff, not_not]
  exact Eq.symm

theorem flag_read {α : Type} {i : CJSON Double} (h : Option.Rel (Agrees lib) (if p then some i else none) o) (k a : α) :
    (o.elim k fun _ => a) = if p then a else k := by
  split at h
  · rename_i hp
    cases h
    exact (if_pos hp).symm
  · rename_i hp
    cases h
    exact (if_neg hp).symm

omit [Decidable p] in
theorem text_read {s : Option CString}
    (h : Option.Rel (Agrees lib) (s.map fun s => CJSON.string (some s)) o) (k : Option CString) :
    o.elim k valuestring = s.or k := by
  cases s with
  | none =>
      cases h
      rfl
  | some s =>
      cases h with
      | @some _ i hi =>
          cases i with
          | string s' =>
              have hs : s' = some (rereadString (some s)) := hi
              rw [hs, rereadString_some]
              rfl
          | _ => exact hi.elim

end Reading

/-- The client has been set up: only one of the directions other than sending is asked for. -/
structure ClientSet (c : Parameters) : Prop where
  role : c.role = .client
  reverse : c.reverse = 0 ∨ c.reverse = 1
  bidirectional : c.bidirectional = 0 ∨ c.bidirectional = 1 ∧ c.reverse = 0
  mode : c.mode = if c.bidirectional ≠ 0 then .bidirectional else if c.reverse ≠ 0 then .receiver else .sender
  exact : c.bytes.toNat ≤ 2 ^ 53 ∧ c.blocks.toNat ≤ 2 ^ 53 ∧ c.rate.toNat ≤ 2 ^ 53 ∧ c.fqrate.toNat ≤ 2 ^ 53

def Mode.dual : Mode → Mode
  | .sender => .receiver
  | .receiver => .sender
  | .bidirectional => .bidirectional

structure Follows (hasTcpinfoRetransmits : Bool) (c s t : Parameters) : Prop where
  role : t.role = .server
  mode : t.mode = c.mode.dual
  protocol : t.protocol = c.protocol
  retransmits : t.sender_has_retransmits =
    if t.mode ≠ .receiver ∧ t.protocol = .Ptcp ∧ hasTcpinfoRetransmits then 1 else 0
  reverse : t.reverse = c.reverse
  bidirectional : t.bidirectional = c.bidirectional
  omitted : t.«omit» = c.«omit»
  server_affinity : t.server_affinity = c.server_affinity
  duration : t.duration = c.duration
  bytes : t.bytes = if c.bytes ≠ 0 then c.bytes else s.bytes
  blocks : t.blocks = if c.blocks ≠ 0 then c.blocks else s.blocks
  mss : t.mss = c.mss
  no_delay : t.no_delay = if c.no_delay ≠ 0 then 1 else 0
  num_streams : t.num_streams = c.num_streams
  socket_bufsize : t.socket_bufsize = c.socket_bufsize
  blksize : t.blksize = if c.blksize ≠ 0 then c.blksize else 128 * 1024
  rate : t.rate = c.rate
  fqrate : t.fqrate = if c.fqrate ≠ 0 then c.fqrate else s.fqrate
  pacing_timer : t.pacing_timer = if c.pacing_timer ≠ 0 then c.pacing_timer else s.pacing_timer
  burst : t.burst = c.burst
  tos : t.tos = c.tos
  flowlabel : t.flowlabel = if c.flowlabel ≠ 0 then c.flowlabel else s.flowlabel
  title : t.title = c.title
  extra_data : t.extra_data = c.extra_data
  congestion : t.congestion = c.congestion.or s.congestion
  congestion_used : t.congestion_used = c.congestion_used.or s.congestion_used
  get_server_output : t.get_server_output = if c.get_server_output ≠ 0 then 1 else s.get_server_output
  udp_counters_64bit : t.udp_counters_64bit = if c.udp_counters_64bit ≠ 0 then 1 else 0
  repeating_payload : t.repeating_payload = if c.repeating_payload ≠ 0 then 1 else s.repeating_payload

section Following

variable {Double : Type} {lib : CLib Double} (ints : Integers lib) (hasTcpinfoRetransmits : Bool) {c : Parameters}
  {j : CJSON Double} (hj : Agrees lib (sendParameters ints c) j)
include hj

theorem item_sent {name : CString} {item : Option (CJSON Double)} (h : (name, item) ∈ fields ints c) :
    Option.Rel (Agrees lib) item (cJSON_GetObjectItem j name) := item_read (fields_names ints c) hj h

def resetDirection : Direction where
  role := .server
  mode := .receiver
  sender_has_retransmits := 0
  protocol := .Ptcp
  reverse := 0
  bidirectional := 0

omit hj in
theorem iperfResetTest_direction (s : Parameters) :
    (iperfResetTest hasTcpinfoRetransmits s).toDirection = resetDirection := by
  simp [iperfResetTest, setProtocol, checkSenderHasRetransmits, resetDirection]

theorem getDirection_sent (hc : ClientSet c) {d : Direction}
    (hd : getDirection hasTcpinfoRetransmits j resetDirection = d) :
    d.role = .server ∧ d.mode = c.mode.dual ∧ d.protocol = c.protocol ∧ d.sender_has_retransmits =
        (if d.mode ≠ .receiver ∧ d.protocol = .Ptcp ∧ hasTcpinfoRetransmits then 1 else 0) ∧
      d.reverse = c.reverse ∧ d.bidirectional = c.bidirectional := by
  have htcp : Option.Rel (Agrees lib) (if c.protocol = .Ptcp then some .true else none)
      (cJSON_GetObjectItem j (literal "tcp")) := item_sent ints hj (by simp [fields])
  have hudp : Option.Rel (Agrees lib) (if c.protocol = .Pudp then some .true else none)
      (cJSON_GetObjectItem j (literal "udp")) := item_sent ints hj (by simp [fields])
  have hrev : Option.Rel (Agrees lib) (if c.reverse ≠ 0 then some .true else none)
      (cJSON_GetObjectItem j (literal "reverse")) := item_sent ints hj (by simp [fields])
  have hbidir : Option.Rel (Agrees lib) (if c.bidirectional ≠ 0 then some .true else none)
      (cJSON_GetObjectItem j (literal "bidirectional")) := item_sent ints hj (by simp [fields])
  rw [getDirection] at hd
  dsimp only at hd
  rw [flag_read htcp, flag_read hudp, flag_read hrev, flag_read hbidir] at hd
  have hmode := hc.mode
  subst hd
  -- the client asks for one of three directions, over one of two protocols
  rcases hc.bidirectional with hb | ⟨hb, hr⟩
  · rcases hc.reverse with hr | hr <;> cases hprotocol : c.protocol <;> cases hasTcpinfoRetransmits <;>
      simp [resetDirection, setProtocol, checkSenderHasRetransmits, iperfSetTestReverse, hmode, Mode.dual, hr, hb]
  · cases hprotocol : c.protocol <;> cases hasTcpinfoRetransmits <;>
      simp [resetDirection, setProtocol, checkSenderHasRetransmits, iperfSetTestBidirectional, hmode, Mode.dual, hr, hb]

/-- A reset server that reads what a client sent takes its parameters over. -/
theorem getParameters_follows (hc : ClientSet c) (s : Parameters) :
    Follows hasTcpinfoRetransmits c s
      (getParameters ints hasTcpinfoRetransmits j (iperfResetTest hasTcpinfoRetransmits s)) := by
  obtain ⟨hbytes, hblocks, hrate, hfqrate⟩ := hc.exact
  have hdirection := getDirection_sent ints hasTcpinfoRetransmits hj hc rfl
  rw [← iperfResetTest_direction hasTcpinfoRetransmits s] at hdirection
  obtain ⟨hrole, hmode, hprotocol, hretransmits, hreverse, hbidirectional⟩ := hdirection
  have hsent {name : String} {item : Option (CJSON Double)} (h : (literal name, item) ∈ fields ints c) :=
    item_sent ints hj h
  exact {
    role := hrole
    mode := hmode
    protocol := hprotocol
    retransmits := hretransmits
    reverse := hreverse
    bidirectional := hbidirectional
    omitted := int_read ints (hsent (by simp [fields])) _
    server_affinity := default_read ints (k := -1) (hsent (by simp [fields]))
    duration := int_read ints (hsent (by simp [fields])) _
    bytes := nonzero64_read ints hbytes (hsent (by simp [fields])) _
    blocks := nonzero64_read ints hblocks (hsent (by simp [fields])) _
    mss := default_read ints (k := 0) (hsent (by simp [fields]))
    no_delay := flag_read (i := .true) (hsent (by simp [fields])) _ _
    num_streams := int_read ints (hsent (by simp [fields])) _
    socket_bufsize := default_read ints (k := 0) (hsent (by simp [fields]))
    blksize := nonzero_read ints (hsent (by simp [fields])) _
    rate := default64_read ints (k := 0) hrate (hsent (by simp [fields]))
    fqrate := nonzero64_read ints hfqrate (hsent (by simp [fields])) _
    pacing_timer := nonzero_read ints (hsent (by simp [fields])) _
    burst := default_read ints (k := 0) (hsent (by simp [fields]))
    tos := default_read ints (k := 0) (hsent (by simp [fields]))
    flowlabel := nonzero_read ints (hsent (by simp [fields])) _
    title := (text_read (hsent (by simp [fields])) _).trans (Option.or_none)
    extra_data := (text_read (hsent (by simp [fields])) _).trans (Option.or_none)
    congestion := text_read (hsent (by simp [fields])) _
    congestion_used := text_read (hsent (by simp [fields])) _
    get_server_output := flag_read (i := .number (ints.ofInt c.get_server_output)) (hsent (by simp [fields])) _ _
    udp_counters_64bit := flag_read (i := .number (ints.ofInt c.udp_counters_64bit)) (hsent (by simp [fields])) _ _
    repeating_payload := flag_read (i := .number (ints.ofInt c.repeating_payload)) (hsent (by simp [fields])) _ _ }

end Following

section Serving

variable {Double : Type} {lib : CLib Double} (clib : Strtod lib) (ints : Integers lib) (hasTcpinfoRetransmits : Bool)

/-- A client that a server serves, and how the sockets cut up what it sends. The
client is set up, and no call fails. -/
structure Session where
  client : Parameters
  str : Bytes
  nsize : Bytes
  writes : List Call
  reads : List Call
  client_set : ClientSet client
  printed : cJSON_PrintUnformatted lib (sendParameters ints client) = some str
  str_length : str.length < 2 ^ 31
  nsize_length : nsize.length = 4
  writes_steady : Steady writes
  reads_steady : Steady reads

/-- What `cleanup_server` does to the parameters at the end of `iperf_run_server`. -/
def cleanupServer (s : Parameters) : Parameters := { s with congestion_used := none }

def serve (s : Parameters) (x : Session ints) : Parameters :=
  let s := iperfResetTest hasTcpinfoRetransmits (cleanupServer s)
  let stream := (jsonWrite lib x.writes (sendParameters ints x.client)).moved
  (jsonRead clib x.nsize x.reads stream).json.elim s fun j => getParameters ints hasTcpinfoRetransmits j s

theorem serve_follows (s : Parameters) (x : Session ints) :
    Follows hasTcpinfoRetransmits x.client (cleanupServer s) (serve clib ints hasTcpinfoRetransmits s x) := by
  have hplain := (sendParameters_plain ints x.client).mono (show 1 ≤ nestingLimit by decide)
  obtain ⟨calls, -, hwrite⟩ := jsonWrite_steady x.writes_steady x.printed x.str_length
  obtain ⟨calls', -, hread⟩ := jsonRead_steady clib x.nsize_length x.reads_steady x.str_length []
  obtain ⟨j, hj, hagrees⟩ := (cJSON_Parse_agrees clib (hasRaw_of_plain _ hplain.plain) x.printed).1 hplain.nesting
  rw [List.append_nil] at hread
  rw [serve, hwrite, hread, hj, Option.elim_some]
  exact getParameters_follows ints hasTcpinfoRetransmits hagrees x.client_set (cleanupServer s)

def served (s : Parameters) (xs : List (Session ints)) : Parameters :=
  run (serve clib ints hasTcpinfoRetransmits) s xs

theorem field_kept {β : Type} (field value : Parameters → β) (sent : Parameters → Bool)
    (hfield : ∀ {c s t}, Follows hasTcpinfoRetransmits c (cleanupServer s) t →
      field t = if sent c then value c else field s)
    (s : Parameters) (xs : List (Session ints)) : some (field (served clib ints hasTcpinfoRetransmits s xs)) =
      lastWrite (fun x => sent x.client) (fun x => value x.client) (some (field s)) xs :=
  lastWrite_field _ _ (serve clib ints hasTcpinfoRetransmits) field
    (fun s x => hfield (serve_follows clib ints hasTcpinfoRetransmits s x)) s xs

/-- However many clients a server has served, it takes the parameters of the last
one over. Those that a reset leaves are as the last client that sent them had them. -/
theorem server_follows_last (s : Parameters) (xs : List (Session ints)) (last : Session ints) :
    let before := served clib ints hasTcpinfoRetransmits s xs
    let now := served clib ints hasTcpinfoRetransmits s (xs ++ [last])
    Follows hasTcpinfoRetransmits last.client (cleanupServer before) now ∧
    some before.bytes = lastWrite (fun x => x.client.bytes ≠ 0) (fun x => x.client.bytes) (some s.bytes) xs ∧
    some before.blocks = lastWrite (fun x => x.client.blocks ≠ 0) (fun x => x.client.blocks) (some s.blocks) xs ∧
    some before.fqrate = lastWrite (fun x => x.client.fqrate ≠ 0) (fun x => x.client.fqrate) (some s.fqrate) xs ∧
    some before.pacing_timer =
      lastWrite (fun x => x.client.pacing_timer ≠ 0) (fun x => x.client.pacing_timer) (some s.pacing_timer) xs ∧
    some before.flowlabel =
      lastWrite (fun x => x.client.flowlabel ≠ 0) (fun x => x.client.flowlabel) (some s.flowlabel) xs ∧
    some before.congestion =
      lastWrite (fun x => x.client.congestion.isSome) (fun x => x.client.congestion) (some s.congestion) xs ∧
    some before.get_server_output =
      lastWrite (fun x => x.client.get_server_output ≠ 0) (fun _ => 1) (some s.get_server_output) xs ∧
    some before.repeating_payload =
      lastWrite (fun x => x.client.repeating_payload ≠ 0) (fun _ => 1) (some s.repeating_payload) xs := by
  have hkept {β : Type} (field value : Parameters → β) (sent : Parameters → Bool)
      (hfield : ∀ {c s t}, Follows hasTcpinfoRetransmits c (cleanupServer s) t →
        field t = if sent c then value c else field s) :=
    field_kept clib ints hasTcpinfoRetransmits field value sent hfield s xs
  refine ⟨?_, ?_, ?_, ?_, ?_, ?_, ?_, ?_, ?_⟩
  · rw [served, served, run_append]
    exact serve_follows clib ints hasTcpinfoRetransmits _ last
  · exact hkept (·.bytes) (·.bytes) (·.bytes ≠ 0) fun h => by simpa [cleanupServer] using h.bytes
  · exact hkept (·.blocks) (·.blocks) (·.blocks ≠ 0) fun h => by simpa [cleanupServer] using h.blocks
  · exact hkept (·.fqrate) (·.fqrate) (·.fqrate ≠ 0) fun h => by simpa [cleanupServer] using h.fqrate
  · exact hkept (·.pacing_timer) (·.pacing_timer) (·.pacing_timer ≠ 0) fun h => by
      simpa [cleanupServer] using h.pacing_timer
  · exact hkept (·.flowlabel) (·.flowlabel) (·.flowlabel ≠ 0) fun h => by simpa [cleanupServer] using h.flowlabel
  · exact hkept (·.congestion) (·.congestion) (·.congestion.isSome) fun {c _ _} h => by
      rw [h.congestion]
      cases c.congestion <;> rfl
  · exact hkept (·.get_server_output) (fun _ => 1) (·.get_server_output ≠ 0) fun h => by
      simpa [cleanupServer] using h.get_server_output
  · exact hkept (·.repeating_payload) (fun _ => 1) (·.repeating_payload ≠ 0) fun h => by
      simpa [cleanupServer] using h.repeating_payload

end Serving

open WholeDoubles

theorem integers_ofInt (n : Int32) (d : Int) (h : integers.same d n.toInt) :
    ¬ decide (d ≥ 2 ^ 63) ∧ ¬ decide (d ≤ -2 ^ 63) ∧ Int64.ofInt d = n.toInt64 := by
  obtain rfl : d = n.toInt := beq_iff_eq.1 h
  have hlt := n.toInt_lt
  have hge := n.le_toInt
  exact ⟨by simp; omega, by simp; omega, Int64.ofInt_int32ToInt n⟩

theorem integers_ofUInt64 (n : UInt64) (d : Int) (hn : n.toNat ≤ 2 ^ 53) (h : integers.same d n.toNat) :
    ¬ decide (d ≥ 2 ^ 63) ∧ ¬ decide (d ≤ -2 ^ 63) ∧ Int64.ofInt d = n.toInt64 := by
  obtain rfl : d = n.toNat := beq_iff_eq.1 h
  refine ⟨by simp; omega, by simp; omega, ?_⟩
  rw [Int64.ofInt_eq_ofNat, ← UInt64.toInt64_ofNat', UInt64.ofNat_toNat]

theorem short_of_lt {n : Int} (h : n.natAbs < 2 ^ 65) : integers.finite n :=
  decide_eq_true (h.trans (by decide))

def wholeNumbers : Integers integers where
  ofInt n := n.toInt
  ofUInt64 n := n.toNat
  reachesMax d := decide (d ≥ 2 ^ 63)
  reachesMin d := decide (d ≤ -2 ^ 63)
  toInt64 d := Int64.ofInt d
  finite_ofInt n := short_of_lt (by have hlt := n.toInt_lt; have hge := n.le_toInt; omega)
  finite_ofUInt64 n := short_of_lt (by have hlt := n.toNat_lt; omega)
  toInt64_ofInt := integers_ofInt
  toInt64_ofUInt64 := integers_ofUInt64

def sampleClient : Parameters where
  role := .client
  mode := .receiver
  sender_has_retransmits := 0
  protocol := .Ptcp
  reverse := 1
  bidirectional := 0
  «omit» := 3
  server_affinity := -1
  duration := 10
  bytes := 1000000
  blocks := 0
  mss := 0
  no_delay := 0
  num_streams := 4
  socket_bufsize := 0
  blksize := 131072
  rate := 0
  fqrate := 0
  pacing_timer := 1000
  burst := 0
  tos := 0
  flowlabel := 0
  title := none
  extra_data := none
  congestion := none
  congestion_used := none
  get_server_output := 0
  udp_counters_64bit := 0
  repeating_payload := 0

def sampleSession : Session wholeNumbers where
  client := sampleClient
  str := bytes "\x7b\"tcp\":true,\"omit\":3,\"time\":10,\"num\":1000000,\"parallel\":4,\"reverse\":true," ++
    bytes "\"len\":131072,\"pacing_timer\":1000,\"client_version\":\"3.7+\"\x7d"
  nsize := [0, 0, 0, 0]
  writes := [.moves 6]
  reads := [.moves 1, .moves 20]
  client_set := ⟨rfl, .inr rfl, .inl rfl, rfl, by decide, by decide, by decide, by decide⟩
  printed := by decide +kernel
  str_length := by decide +kernel
  nsize_length := rfl
  writes_steady := steady_moves 6
  reads_steady := by
    intro call hcall
    simp only [List.mem_cons, List.not_mem_nil, or_false] at hcall
    exact hcall.elim (fun h => ⟨1, h⟩) fun h => ⟨20, h⟩

example : (serve integersStrtod wholeNumbers true sampleClient sampleSession).mode = .sender := by decide +kernel

end SberWifi.IperfParameters
