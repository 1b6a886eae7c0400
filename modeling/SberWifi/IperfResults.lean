import SberWifi.JsonPath
import SberWifi.CJsonPrint

namespace SberWifi.IperfResults

open JavaString CJsonPrint JsonPath
open JsonText (Json parse)

inductive VaArg (Double : Type)
  | int (v : Int32)
  | int64 (v : Int64)
  | double (v : Double)
  | string (v : CString)

section Printf

variable {Double : Type} (ofInt64 : Int64 → Double)

/-- An argument of another type than that of the conversion makes no item. -/
def createItem (conversion : UInt8) : VaArg Double → Option (CJSON Double)
  | .int v => if conversion = 98 then some (if v ≠ 0 then .true else .false) else none
  | .int64 v => if conversion = 100 then some (.number (ofInt64 v)) else none
  | .double v => if conversion = 102 then some (.number v) else none
  | .string v => if conversion = 115 then some (.string (some v)) else none

def cString (name : Bytes) : CString where
  bytes := name.takeWhile (· ≠ 0)
  nul_free h := by simpa using List.mem_takeWhile_imp h

/-- The buffer with the name, where the next character of it goes, and the rest
of the format. -/
def printfLoop (name : Bytes) (np : Nat) :
    Bytes → List (VaArg Double) → Option (List (Option CString × CJSON Double))
  | [], _ => some []
  | c :: cp, args =>
      if c = 32 then printfLoop name np cp args
      else if c = 58 then printfLoop (name.set np 0) np cp args
      else if c = 37 then
        match cp, args with
        | conversion :: cp, arg :: args => do
            let j ← createItem ofInt64 conversion arg
            let o ← printfLoop name 0 cp args
            return (some (cString name), j) :: o
        | _, _ => none
      else printfLoop (name.set np c) (np + 1) cp args

def iperfJsonPrintf (format : String) (args : List (VaArg Double)) : Option (CJSON Double) :=
  (printfLoop ofInt64 (List.replicate 100 0) 0 (bytes format) args).map .object

def addItemToObject (name : CString) (item : Option (CJSON Double)) : List (Option CString × CJSON Double) :=
  (item.map fun item => (some name, item)).toList

end Printf

/-- The variables of `iperf_print_results` after the streams were summed up. The
bandwidths are in bits. -/
structure Results (Double : Type) where
  startTime : Double
  senderTime : Double
  receiverTime : Double
  totalSent : UInt64
  totalReceived : UInt64
  sentBandwidth : Double
  receivedBandwidth : Double
  totalRetransmits : Int32
  senderHasRetransmits : Int32
  streamMustBeSender : Int32
  cpuUtil : Double × Double × Double
  remoteCpuUtil : Double × Double × Double
  congestionUsed : Option CString
  remoteCongestionUsed : Option CString

section Results

variable {Double : Type} (ofInt64 : Int64 → Double) (r : Results Double)

def Results.sumSent : Option (CJSON Double) :=
  if r.senderHasRetransmits ≠ 0 then
    iperfJsonPrintf ofInt64
      "start: %f  end: %f  seconds: %f  bytes: %d  bits_per_second: %f  retransmits: %d sender: %b"
      [.double r.startTime, .double r.senderTime, .double r.senderTime, .int64 r.totalSent.toInt64,
        .double r.sentBandwidth, .int64 r.totalRetransmits.toInt64, .int r.streamMustBeSender]
  else
    iperfJsonPrintf ofInt64
      "start: %f  end: %f  seconds: %f  bytes: %d  bits_per_second: %f sender: %b"
      [.double r.startTime, .double r.senderTime, .double r.senderTime, .int64 r.totalSent.toInt64,
        .double r.sentBandwidth, .int r.streamMustBeSender]

def Results.sumReceived : Option (CJSON Double) :=
  iperfJsonPrintf ofInt64
    "start: %f  end: %f  seconds: %f  bytes: %d  bits_per_second: %f sender: %b"
    [.double r.startTime, .double r.receiverTime, .double r.receiverTime, .int64 r.totalReceived.toInt64,
      .double r.receivedBandwidth, .int r.streamMustBeSender]

def Results.cpuUtilization : Option (CJSON Double) :=
  iperfJsonPrintf ofInt64
    "host_total: %f  host_user: %f  host_system: %f  remote_total: %f  remote_user: %f  remote_system: %f"
    [.double r.cpuUtil.1, .double r.cpuUtil.2.1, .double r.cpuUtil.2.2,
      .double r.remoteCpuUtil.1, .double r.remoteCpuUtil.2.1, .double r.remoteCpuUtil.2.2]

/-- What a test over TCP adds to `json_end` after its streams. -/
def iperfPrintResults : List (Option CString × CJSON Double) :=
  let sndCongestion := if r.streamMustBeSender ≠ 0 then r.congestionUsed else r.remoteCongestionUsed
  let rcvCongestion := if r.streamMustBeSender ≠ 0 then r.remoteCongestionUsed else r.congestionUsed
  addItemToObject ⟨bytes "sum_sent", by decide⟩ (r.sumSent ofInt64) ++
    addItemToObject ⟨bytes "sum_received", by decide⟩ (r.sumReceived ofInt64) ++
    addItemToObject ⟨bytes "cpu_utilization_percent", by decide⟩ (r.cpuUtilization ofInt64) ++
    addItemToObject ⟨bytes "sender_tcp_congestion", by decide⟩ (sndCongestion.map fun s => .string (some s)) ++
    addItemToObject ⟨bytes "receiver_tcp_congestion", by decide⟩ (rcvCongestion.map fun s => .string (some s))

end Results

section Formats

variable {Double : Type} (ofInt64 : Int64 → Double)

structure Field where
  gap : Nat
  name : CString
  conversion : UInt8

def Field.text (f : Field) : Bytes := List.replicate f.gap 32 ++ (f.name.bytes ++ [58, 32, 37, f.conversion])

/-- The name fits into the buffer and has none of the characters that the loop
looks for. -/
def Field.fits (f : Field) : Bool :=
  f.name.bytes.length < 100 && f.name.bytes.all fun c => c ≠ 32 ∧ c ≠ 58 ∧ c ≠ 37

def Field.item (f : Field) (arg : VaArg Double) : Option (Option CString × CJSON Double) :=
  (createItem ofInt64 f.conversion arg).map fun j => (some f.name, j)

section Loop

variable (name : Bytes) (np : Nat) (cp : Bytes) (args : List (VaArg Double))

theorem printfLoop_space : printfLoop ofInt64 name np (32 :: cp) args = printfLoop ofInt64 name np cp args := by
  rw [printfLoop.eq_def]
  exact if_pos rfl

theorem printfLoop_colon :
    printfLoop ofInt64 name np (58 :: cp) args = printfLoop ofInt64 (name.set np 0) np cp args := by
  rw [printfLoop.eq_def]
  exact (if_neg (by decide)).trans (if_pos rfl)

theorem printfLoop_percent (conversion : UInt8) (arg : VaArg Double) :
    printfLoop ofInt64 name np (37 :: conversion :: cp) (arg :: args) =
      (createItem ofInt64 conversion arg).bind fun j =>
        (printfLoop ofInt64 name 0 cp args).bind fun o => some ((some (cString name), j) :: o) := by
  rw [printfLoop.eq_def]
  exact (if_neg (by decide)).trans ((if_neg (by decide)).trans (if_pos rfl))

theorem printfLoop_other {c : UInt8} (hc : c ≠ 32 ∧ c ≠ 58 ∧ c ≠ 37) :
    printfLoop ofInt64 name np (c :: cp) args = printfLoop ofInt64 (name.set np c) (np + 1) cp args := by
  rw [printfLoop.eq_def]
  exact (if_neg hc.1).trans ((if_neg hc.2.1).trans (if_neg hc.2.2))

theorem printfLoop_gap (gap : Nat) :
    printfLoop ofInt64 name np (List.replicate gap 32 ++ cp) args = printfLoop ofInt64 name np cp args := by
  induction gap with
  | zero => rfl
  | succ gap ih =>
      rw [List.replicate_succ, List.cons_append, printfLoop_space]
      exact ih

end Loop

theorem printfLoop_name {key : Bytes} (hkey : ∀ c ∈ key, c ≠ 32 ∧ c ≠ 58 ∧ c ≠ 37) (name : Bytes) (np : Nat)
    (hroom : np + key.length < name.length) (cp : Bytes) (args : List (VaArg Double)) :
    ∃ name', name'.length = name.length ∧ name'.take (np + key.length) = name.take np ++ key ∧
      printfLoop ofInt64 name np (key ++ cp) args = printfLoop ofInt64 name' (np + key.length) cp args := by
  induction key generalizing name np with
  | nil => exact ⟨name, rfl, by simp, rfl⟩
  | cons c key ih =>
      rw [List.length_cons] at hroom
      obtain ⟨name', hlength, htake, hloop⟩ := ih (fun d hd => hkey d (List.mem_cons_of_mem c hd))
        (name.set np c) (np + 1) (show np + 1 + key.length < (name.set np c).length by rw [List.length_set]; omega)
      have hnp : np + 1 + key.length = np + (c :: key).length := by
        rw [List.length_cons]
        omega
      rw [hnp] at htake hloop
      refine ⟨name', by rw [hlength, List.length_set], ?_, ?_⟩
      · rw [htake, List.take_add_one, List.getElem?_set_self (by omega), List.take_set_of_le (Nat.le_refl np)]
        simp
      · rw [List.cons_append, printfLoop_other ofInt64 _ _ _ _ (hkey c List.mem_cons_self)]
        exact hloop

theorem cString_set {key : CString} {name : Bytes} (htake : name.take key.bytes.length = key.bytes)
    (hroom : key.bytes.length < name.length) : cString (name.set key.bytes.length 0) = key := by
  have hkey : ∀ c ∈ key.bytes, decide (c ≠ 0) = true := by
    intro c hc
    exact decide_eq_true fun h0 => key.nul_free (h0 ▸ hc)
  have hbytes : (name.set key.bytes.length 0).takeWhile (fun c => decide (c ≠ 0)) = key.bytes := by
    rw [List.set_eq_take_append_cons_drop, if_pos hroom, htake, List.takeWhile_append_of_pos hkey]
    simp
  cases key
  simpa [cString] using hbytes

theorem printfLoop_field {f : Field} (hf : f.fits) {name : Bytes} (hname : name.length = 100)
    (arg : VaArg Double) (cp : Bytes) (args : List (VaArg Double)) :
    ∃ name', name'.length = 100 ∧ printfLoop ofInt64 name 0 (f.text ++ cp) (arg :: args) =
      (f.item ofInt64 arg).bind fun j => (printfLoop ofInt64 name' 0 cp args).bind fun o => some (j :: o) := by
  rw [Field.fits, Bool.and_eq_true, decide_eq_true_iff, List.all_eq_true] at hf
  obtain ⟨hroom, hkey⟩ := hf
  have hkey : ∀ c ∈ f.name.bytes, c ≠ 32 ∧ c ≠ 58 ∧ c ≠ 37 := fun c hc => of_decide_eq_true (hkey c hc)
  obtain ⟨name', hlength, htake, hloop⟩ := printfLoop_name ofInt64 hkey name 0
    (by omega) ([58, 32, 37, f.conversion] ++ cp) (arg :: args)
  rw [Nat.zero_add] at htake hloop
  refine ⟨name'.set f.name.bytes.length 0, by rw [List.length_set, hlength, hname], ?_⟩
  rw [Field.text, List.append_assoc, List.append_assoc, printfLoop_gap, hloop]
  simp only [List.cons_append, List.nil_append]
  rw [printfLoop_colon, printfLoop_space, printfLoop_percent, cString_set htake (by omega), Field.item]
  cases createItem ofInt64 f.conversion arg <;> rfl

theorem printfLoop_fields {fields : List Field} (hfields : fields.all Field.fits) {args : List (VaArg Double)}
    (hargs : args.length = fields.length) {name : Bytes} (hname : name.length = 100) :
    printfLoop ofInt64 name 0 (fields.flatMap Field.text) args =
      (fields.zip args).mapM fun p => p.1.item ofInt64 p.2 := by
  induction fields generalizing args name with
  | nil => rfl
  | cons f fields ih =>
      cases args with
      | nil => cases hargs
      | cons arg args =>
          rw [List.all_cons, Bool.and_eq_true] at hfields
          obtain ⟨name', hname', hloop⟩ := printfLoop_field ofInt64 hfields.1 hname arg
            (fields.flatMap Field.text) args
          have hrest := ih hfields.2 (Nat.succ.inj hargs) hname'
          rw [List.flatMap_cons, hloop, hrest, List.zip_cons_cons, List.mapM_cons]
          rfl

theorem iperfJsonPrintf_fields {format : String} (fields : List Field)
    (hformat : bytes format = fields.flatMap Field.text) (hfields : fields.all Field.fits)
    {args : List (VaArg Double)} (hargs : args.length = fields.length) :
    iperfJsonPrintf ofInt64 format args =
      ((fields.zip args).mapM fun (p : Field × VaArg Double) => p.1.item ofInt64 p.2).map .object := by
  rw [iperfJsonPrintf, hformat, printfLoop_fields ofInt64 hfields hargs List.length_replicate]

end Formats

section Members

variable {Double : Type} (ofInt64 : Int64 → Double) (r : Results Double)

def secondsName : CString := ⟨bytes "seconds", by decide⟩

def bytesName : CString := ⟨bytes "bytes", by decide⟩

def bitsPerSecondName : CString := ⟨bytes "bits_per_second", by decide⟩

def hostTotalName : CString := ⟨bytes "host_total", by decide⟩

def summary (startTime time : Double) (total : UInt64) (bandwidth : Double) :
    List (Option CString × CJSON Double) :=
  [(some ⟨bytes "start", by decide⟩, .number startTime), (some ⟨bytes "end", by decide⟩, .number time),
    (some secondsName, .number time), (some bytesName, .number (ofInt64 total.toInt64)),
    (some bitsPerSecondName, .number bandwidth)]

def senderMember : Option CString × CJSON Double :=
  (some ⟨bytes "sender", by decide⟩, if r.streamMustBeSender ≠ 0 then .true else .false)

def retransmitsMember : Option CString × CJSON Double :=
  (some ⟨bytes "retransmits", by decide⟩, .number (ofInt64 r.totalRetransmits.toInt64))

def summaryFields : List Field :=
  [⟨0, ⟨bytes "start", by decide⟩, 102⟩, ⟨2, ⟨bytes "end", by decide⟩, 102⟩,
    ⟨2, secondsName, 102⟩, ⟨2, bytesName, 100⟩, ⟨2, bitsPerSecondName, 102⟩]

def senderField : Field := ⟨1, ⟨bytes "sender", by decide⟩, 98⟩

def retransmitsField : Field := ⟨2, ⟨bytes "retransmits", by decide⟩, 100⟩

def cpuFields : List Field :=
  [⟨0, hostTotalName, 102⟩, ⟨2, ⟨bytes "host_user", by decide⟩, 102⟩,
    ⟨2, ⟨bytes "host_system", by decide⟩, 102⟩, ⟨2, ⟨bytes "remote_total", by decide⟩, 102⟩,
    ⟨2, ⟨bytes "remote_user", by decide⟩, 102⟩, ⟨2, ⟨bytes "remote_system", by decide⟩, 102⟩]

def sentMembers : List (Option CString × CJSON Double) :=
  summary ofInt64 r.startTime r.senderTime r.totalSent r.sentBandwidth ++
    ((if r.senderHasRetransmits ≠ 0 then [retransmitsMember ofInt64 r] else []) ++ [senderMember r])

def receivedMembers : List (Option CString × CJSON Double) :=
  summary ofInt64 r.startTime r.receiverTime r.totalReceived r.receivedBandwidth ++ [senderMember r]

def cpuMembers : List (Option CString × CJSON Double) :=
  [(some hostTotalName, .number r.cpuUtil.1),
    (some ⟨bytes "host_user", by decide⟩, .number r.cpuUtil.2.1),
    (some ⟨bytes "host_system", by decide⟩, .number r.cpuUtil.2.2),
    (some ⟨bytes "remote_total", by decide⟩, .number r.remoteCpuUtil.1),
    (some ⟨bytes "remote_user", by decide⟩, .number r.remoteCpuUtil.2.1),
    (some ⟨bytes "remote_system", by decide⟩, .number r.remoteCpuUtil.2.2)]

theorem sumSent_eq : r.sumSent ofInt64 = some (.object (sentMembers ofInt64 r)) := by
  rw [Results.sumSent, sentMembers]
  by_cases h : r.senderHasRetransmits ≠ 0
  · rw [if_pos h, if_pos h, iperfJsonPrintf_fields ofInt64
      (summaryFields ++ [retransmitsField, senderField]) (by decide +kernel) (by decide) rfl]
    rfl
  · rw [if_neg h, if_neg h, iperfJsonPrintf_fields ofInt64
      (summaryFields ++ [senderField]) (by decide +kernel) (by decide) rfl]
    rfl

theorem sumReceived_eq : r.sumReceived ofInt64 = some (.object (receivedMembers ofInt64 r)) := by
  rw [Results.sumReceived, iperfJsonPrintf_fields ofInt64
    (summaryFields ++ [senderField]) (by decide +kernel) (by decide) rfl]
  rfl

theorem cpuUtilization_eq : r.cpuUtilization ofInt64 = some (.object (cpuMembers r)) := by
  rw [Results.cpuUtilization, iperfJsonPrintf_fields ofInt64 cpuFields (by decide +kernel) (by decide) rfl]
  rfl

def congestionMembers : List (Option CString × CJSON Double) :=
  let sndCongestion := if r.streamMustBeSender ≠ 0 then r.congestionUsed else r.remoteCongestionUsed
  let rcvCongestion := if r.streamMustBeSender ≠ 0 then r.remoteCongestionUsed else r.congestionUsed
  addItemToObject ⟨bytes "sender_tcp_congestion", by decide⟩ (sndCongestion.map fun s => .string (some s)) ++
    addItemToObject ⟨bytes "receiver_tcp_congestion", by decide⟩ (rcvCongestion.map fun s => .string (some s))

def sumSentName : CString := ⟨bytes "sum_sent", by decide⟩

def sumReceivedName : CString := ⟨bytes "sum_received", by decide⟩

def cpuName : CString := ⟨bytes "cpu_utilization_percent", by decide⟩

theorem iperfPrintResults_eq : iperfPrintResults ofInt64 r =
    (some sumSentName, .object (sentMembers ofInt64 r)) ::
      (some sumReceivedName, .object (receivedMembers ofInt64 r)) ::
        (some cpuName, .object (cpuMembers r)) :: congestionMembers r := by
  rw [iperfPrintResults, sumSent_eq, sumReceived_eq, cpuUtilization_eq, List.append_assoc]
  rfl

end Members

section Found

variable {Double : Type} (ofInt64 : Int64 → Double) (r : Results Double) (lib : CLib Double)

def names (ms : List (Option CString × CJSON Double)) : List JString := ms.map fun m => units (stringBytes m.1)

theorem denoteMembers_names (ms : List (Option CString × CJSON Double)) :
    (denoteMembers lib ms).map Prod.fst = names ms := by
  induction ms with
  | nil => rfl
  | cons m ms ih =>
      rw [denoteMembers, List.map_cons, ih]
      rfl

/-- The last member with a name is the one that is found. -/
theorem child_member {ms : List (Option CString × CJSON Double)}
    (before after : List (Option CString × CJSON Double)) {name : CString} {item : CJSON Double}
    {key : JString} (hms : ms = before ++ (some name, item) :: after) (hname : units name.bytes = key)
    (hafter : key ∉ names after) : child key (denote lib (.object ms)) = some (denote lib item) := by
  rw [hms, denote, denoteMembers_append, denoteMembers]
  subst hname
  apply child_last
  rwa [denoteMembers_names]

theorem names_append (ms ms' : List (Option CString × CJSON Double)) :
    names (ms ++ ms') = names ms ++ names ms' := List.map_append

def endName : CString := ⟨bytes "end", by decide⟩

def errorMembers (errors : List CString) : List (Option CString × CJSON Double) :=
  errors.map fun s => (some ⟨bytes "error", by decide⟩, .string (some s))

/-- The report before it is finished. `before` and `streams` stand for what the
objects held earlier. -/
def topMembers (before streams : List (Option CString × CJSON Double)) (errors : List CString) :
    List (Option CString × CJSON Double) :=
  before ++ (some endName, .object (streams ++ iperfPrintResults ofInt64 r)) :: errorMembers errors

theorem names_errorMembers (errors : List CString) :
    str "end" ∉ names (errorMembers errors : List (Option CString × CJSON Double)) := by
  intro h
  obtain ⟨m, hm, hname⟩ := List.mem_map.1 h
  obtain ⟨s, -, rfl⟩ := List.mem_map.1 hm
  exact absurd (show units (bytes "error") = str "end" from hname) (by decide)

theorem names_toList {α : Type} {key : JString} {name : CString} (hne : units name.bytes ≠ key)
    (f : α → CJSON Double) (o : Option α) : key ∉ names (o.map fun a => (some name, f a)).toList := by
  cases o with
  | none => exact List.not_mem_nil
  | some a => exact fun h => hne (List.mem_singleton.1 h).symm

theorem names_added (test : Test Double) : str "end" ∉ names test.added := by
  rw [Test.added, names_append, names_append, names_append]
  simp only [List.mem_append, not_or]
  exact ⟨⟨⟨names_toList (by decide) _ _, names_toList (by decide) _ _⟩, names_toList (by decide) _ _⟩,
    names_toList (by decide) _ _⟩

variable (before streams : List (Option CString × CJSON Double)) (errors : List CString)

theorem find_end {test : Test Double} (htop : test.jsonTop = topMembers ofInt64 r before streams errors)
    (path : List JString) :
    find (str "end" :: path) (.object (denoteMembers lib test.jsonTop ++ denoteMembers lib test.added)) =
      find path (denote lib (.object (streams ++ iperfPrintResults ofInt64 r))) := by
  have hafter : str "end" ∉ names (errorMembers errors ++ test.added) := by
    rw [names_append, List.mem_append]
    exact not_or.2 ⟨names_errorMembers errors, names_added test⟩
  have hms : test.jsonTop ++ test.added = before ++
      (some endName, .object (streams ++ iperfPrintResults ofInt64 r)) :: (errorMembers errors ++ test.added) := by
    rw [htop, topMembers, List.append_assoc, List.cons_append]
  have hchild := child_member lib before _ hms (show units endName.bytes = str "end" by decide) hafter
  rw [denote, denoteMembers_append] at hchild
  rw [find, hchild]
  rfl

theorem names_congestionMembers {key : JString} (hsender : units (bytes "sender_tcp_congestion") ≠ key)
    (hreceiver : units (bytes "receiver_tcp_congestion") ≠ key) : key ∉ names (congestionMembers r) := by
  rw [congestionMembers, names_append, List.mem_append]
  exact not_or.2 ⟨names_toList hsender id _, names_toList hreceiver id _⟩

theorem names_cons {key : JString} {name : CString} {item : CJSON Double}
    {ms : List (Option CString × CJSON Double)} (hname : key ≠ units name.bytes) (hms : key ∉ names ms) :
    key ∉ names ((some name, item) :: ms) := List.not_mem_cons_of_ne_of_not_mem hname hms

theorem child_sumSent : child (str "sum_sent") (denote lib (.object (streams ++ iperfPrintResults ofInt64 r))) =
    some (denote lib (.object (sentMembers ofInt64 r))) := by
  refine child_member lib streams _ (by rw [iperfPrintResults_eq]) (by decide) ?_
  apply names_cons (by decide)
  apply names_cons (by decide)
  exact names_congestionMembers r (by decide) (by decide)

theorem child_sumReceived :
    child (str "sum_received") (denote lib (.object (streams ++ iperfPrintResults ofInt64 r))) =
      some (denote lib (.object (receivedMembers ofInt64 r))) := by
  refine child_member lib (streams ++ [(some sumSentName, .object (sentMembers ofInt64 r))]) _
    (by rw [iperfPrintResults_eq, List.append_assoc, List.singleton_append]) (by decide) ?_
  apply names_cons (by decide)
  exact names_congestionMembers r (by decide) (by decide)

theorem child_cpu :
    child (str "cpu_utilization_percent") (denote lib (.object (streams ++ iperfPrintResults ofInt64 r))) =
      some (denote lib (.object (cpuMembers r))) := by
  refine child_member lib (streams ++ [(some sumSentName, .object (sentMembers ofInt64 r)),
    (some sumReceivedName, .object (receivedMembers ofInt64 r))]) _
    (by rw [iperfPrintResults_eq, List.append_assoc, List.cons_append, List.singleton_append]) (by decide) ?_
  exact names_congestionMembers r (by decide) (by decide)

section Summary

variable (startTime time : Double) (total : UInt64) (bandwidth : Double)
  {rest : List (Option CString × CJSON Double)}

theorem child_seconds (hrest : str "seconds" ∉ names rest) :
    child (str "seconds") (denote lib (.object (summary ofInt64 startTime time total bandwidth ++ rest))) =
      some (denoteNumber lib time) := by
  refine child_member lib ((summary ofInt64 startTime time total bandwidth).take 2) _ rfl (by decide) ?_
  apply names_cons (by decide)
  exact names_cons (by decide) hrest

theorem child_bytes (hrest : str "bytes" ∉ names rest) :
    child (str "bytes") (denote lib (.object (summary ofInt64 startTime time total bandwidth ++ rest))) =
      some (denoteNumber lib (ofInt64 total.toInt64)) := by
  refine child_member lib ((summary ofInt64 startTime time total bandwidth).take 3) _ rfl (by decide) ?_
  exact names_cons (by decide) hrest

theorem child_bitsPerSecond (hrest : str "bits_per_second" ∉ names rest) :
    child (str "bits_per_second") (denote lib (.object (summary ofInt64 startTime time total bandwidth ++ rest))) =
      some (denoteNumber lib bandwidth) :=
  child_member lib ((summary ofInt64 startTime time total bandwidth).take 4) rest rfl (by decide) hrest

end Summary

theorem child_hostTotal :
    child (str "host_total") (denote lib (.object (cpuMembers r))) = some (denoteNumber lib r.cpuUtil.1) := by
  have hlater : str "host_total" ∉ [units (bytes "host_user"), units (bytes "host_system"),
      units (bytes "remote_total"), units (bytes "remote_user"), units (bytes "remote_system")] := by decide
  exact child_member lib [] ((cpuMembers r).drop 1) rfl (by decide) hlater

theorem names_sender {key : JString} (hkey : units (bytes "sender") ≠ key) : key ∉ names [senderMember r] :=
  fun h => hkey (List.mem_singleton.1 h).symm

theorem names_retransmits {key : JString} (hkey : units (bytes "sender") ≠ key)
    (hkey' : units (bytes "retransmits") ≠ key) :
    key ∉ names ((if r.senderHasRetransmits ≠ 0 then [retransmitsMember ofInt64 r] else []) ++
      [senderMember r]) := by
  rw [names_append, List.mem_append]
  refine not_or.2 ⟨?_, names_sender r hkey⟩
  split_ifs
  · exact fun h => hkey' (List.mem_singleton.1 h).symm
  · exact List.not_mem_nil

end Found

end SberWifi.IperfResults
