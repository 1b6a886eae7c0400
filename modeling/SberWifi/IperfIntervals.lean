import Mathlib.Data.List.Chain
import SberWifi.IperfSession
import SberWifi.Runs
import SberWifi.UdpPackets
import SberWifi.WholeDoubles

namespace SberWifi.IperfIntervals

open CJsonPrint hiding Test
open IperfParameters IperfTime Runs

/-- The interval results, but for durations, jitter and what only the output of TCP needs. -/
structure Interval where
  bytes_transferred : UInt64
  interval_start_time : Time
  interval_end_time : Time
  interval_packet_count : Int32
  interval_outoforder_packets : Int32
  interval_cnt_error : Int32
  packet_count : Int32
  outoforder_packets : Int32
  cnt_error : Int32
  omitted : Bool
  interval_retrans : Int32

structure Stream (Double : Type) extends IperfStreams.Stream Double where
  bytes_sent_this_interval : UInt64
  bytes_received_this_interval : UInt64
  outoforder_packets : Int32
  omitted_packet_count : Int32
  omitted_cnt_error : Int32
  omitted_outoforder_packets : Int32
  stream_prev_total_retrans : Int32
  interval_results : List Interval

structure Test (Double : Type) where
  protocol : Protocol
  udp_counters_64bit : Bool
  sender_has_retransmits : Int32
  running : Bool
  omitting : Bool
  bytes_sent : UInt64
  streams : List (Stream Double)

structure Reading where
  now : Time
  total_retrans : Int64

structure Write where
  before : Time
  r : Int
  buffer : Bytes

section Functions

variable {Double : Type}

def Stream.packets (sp : Stream Double) : UdpPackets.Stream where
  packet_count := sp.packet_count
  cnt_error := sp.cnt_error
  outoforder_packets := sp.outoforder_packets
  bytes_sent := sp.bytes_sent
  bytes_sent_this_interval := sp.bytes_sent_this_interval
  bytes_received := sp.bytes_received
  bytes_received_this_interval := sp.bytes_received_this_interval

def Stream.setPackets (sp : Stream Double) (packets : UdpPackets.Stream) : Stream Double :=
  { sp with
    packet_count := packets.packet_count
    cnt_error := packets.cnt_error
    outoforder_packets := packets.outoforder_packets
    bytes_sent := packets.bytes_sent
    bytes_sent_this_interval := packets.bytes_sent_this_interval
    bytes_received := packets.bytes_received
    bytes_received_this_interval := packets.bytes_received_this_interval }

def iperfTcpSend (r : Int) (sp : Stream Double) : Stream Double :=
  if r < 0 then sp
  else
    { sp with
      bytes_sent := sp.bytes_sent + .ofInt r
      bytes_sent_this_interval := sp.bytes_sent_this_interval + .ofInt r }

/-- A read that fails is one of nothing. -/
def iperfTcpRecv (running : Bool) (data : Bytes) (sp : Stream Double) : Stream Double :=
  if ¬ running then sp
  else
    { sp with
      bytes_received := sp.bytes_received + .ofNat data.length
      bytes_received_this_interval := sp.bytes_received_this_interval + .ofNat data.length }

def snd (test : Test Double) (write : Write) (sp : Stream Double) : Stream Double :=
  match test.protocol with
  | .Ptcp => iperfTcpSend write.r sp
  | .Pudp =>
      sp.setPackets
        (UdpPackets.iperfUdpSend test.udp_counters_64bit write.before write.r write.buffer sp.packets).2

def rcv (test : Test Double) (data : Bytes) (sp : Stream Double) : Stream Double :=
  match test.protocol with
  | .Ptcp => iperfTcpRecv test.running data sp
  | .Pudp => sp.setPackets (UdpPackets.iperfUdpRecv test.udp_counters_64bit test.running data sp.packets)

def sendStream (i : Nat) (write : Write) (test : Test Double) : Test Double :=
  match test.streams[i]? with
  | none => test
  | some sp =>
      if sp.sender then
        { test with
          streams := test.streams.set i (snd test write sp)
          bytes_sent := if write.r < 0 then test.bytes_sent else test.bytes_sent + .ofInt write.r }
      else test

def recvStream (i : Nat) (data : Bytes) (test : Test Double) : Test Double :=
  match test.streams[i]? with
  | none => test
  | some sp => if sp.sender then test else { test with streams := test.streams.set i (rcv test data sp) }

def thisInterval (sp : Stream Double) : UInt64 :=
  if sp.sender then sp.bytes_sent_this_interval else sp.bytes_received_this_interval

variable (has_tcpinfo : Bool)

def gathersRetrans (test : Test Double) : Bool :=
  test.protocol = .Ptcp ∧ has_tcpinfo ∧ test.sender_has_retransmits = 1

/-- What is added to the intervals of a stream. The fields that are not set keep what `temp` had. -/
def newInterval (test : Test Double) (reading : Reading) (temp : Interval) (sp : Stream Double) : Interval :=
  let irp := sp.interval_results.getLast?
  let temp := { temp with
    omitted := test.omitting
    bytes_transferred := thisInterval sp
    interval_start_time := if irp.isSome then sp.end_time else sp.start_time
    interval_end_time := reading.now
    interval_retrans :=
      if gathersRetrans has_tcpinfo test then
        (reading.total_retrans - sp.stream_prev_total_retrans.toInt64).toInt32
      else temp.interval_retrans }
  match test.protocol with
  | .Ptcp => temp
  | .Pudp =>
      { temp with
        interval_packet_count := sp.packet_count - (irp.map Interval.packet_count).getD 0
        interval_outoforder_packets := sp.outoforder_packets - (irp.map Interval.outoforder_packets).getD 0
        interval_cnt_error := sp.cnt_error - (irp.map Interval.cnt_error).getD 0
        packet_count := sp.packet_count
        outoforder_packets := sp.outoforder_packets
        cnt_error := sp.cnt_error }

def gather (test : Test Double) (reading : Reading) (temp : Interval) (sp : Stream Double) : Stream Double :=
  let irp := newInterval has_tcpinfo test reading temp sp
  { sp with
    end_time := reading.now
    stream_retrans :=
      if gathersRetrans has_tcpinfo test then sp.stream_retrans + irp.interval_retrans else sp.stream_retrans
    stream_prev_total_retrans :=
      if gathersRetrans has_tcpinfo test then reading.total_retrans.toInt32 else sp.stream_prev_total_retrans
    interval_results := sp.interval_results ++ [irp]
    bytes_sent_this_interval := 0
    bytes_received_this_interval := 0 }

/-- The loop of `iperf_stats_callback`, whose `temp` goes from one stream to the next. -/
def gatherFrom (test : Test Double) (readings : Nat → Reading) :
    Nat → Interval → List (Stream Double) → List (Stream Double)
  | _, _, [] => []
  | n, temp, sp :: streams =>
      gather has_tcpinfo test (readings n) temp sp ::
        gatherFrom test readings (n + 1) (newInterval has_tcpinfo test (readings n) temp sp) streams

def iperfStatsCallback (readings : Nat → Reading) (temp : Interval) (test : Test Double) : Test Double :=
  { test with streams := gatherFrom has_tcpinfo test readings 0 temp test.streams }

variable {lib : CLib Double} (secs : IperfStreams.Seconds lib)

def resetStream (test : Test Double) (now : Time) (total_retrans : Int64) (sp : Stream Double) : Stream Double :=
  { sp with
    omitted_packet_count := sp.packet_count
    omitted_cnt_error := sp.cnt_error
    omitted_outoforder_packets := sp.outoforder_packets
    jitter := secs.zero
    bytes_sent_omit := sp.bytes_sent
    bytes_received := 0
    bytes_sent_this_interval := 0
    bytes_received_this_interval := 0
    stream_prev_total_retrans :=
      if test.sender_has_retransmits = 1 then total_retrans.toInt32 else sp.stream_prev_total_retrans
    stream_retrans := 0
    start_time := now }

def iperfResetStats (now : Time) (total_retrans : Nat → Int64) (test : Test Double) : Test Double :=
  { test with
    bytes_sent := 0
    streams := test.streams.mapIdx fun n sp => resetStream secs test now (total_retrans n) sp }

def omitTimerProc (now : Time) (total_retrans : Nat → Int64) (test : Test Double) : Test Double :=
  iperfResetStats secs now total_retrans { test with omitting := false }

inductive Event
  | send (i : Nat) (write : Write)
  | recv (i : Nat) (data : Bytes)
  | state (running : Bool)
  | stats (readings : Nat → Reading) (temp : Interval)
  | omitDone (now : Time) (total_retrans : Nat → Int64)

def step (test : Test Double) : Event → Test Double
  | .send i write => sendStream i write test
  | .recv i data => recvStream i data test
  | .state running => { test with running }
  | .stats readings temp => iperfStatsCallback has_tcpinfo readings temp test
  | .omitDone now total_retrans => omitTimerProc secs now total_retrans test

def Valid (test : Test Double) : Event → Prop
  | .omitDone _ _ => test.omitting
  | _ => True

end Functions

section Totals

def total {α G : Type} [Add G] [OfNat G 0] (f : α → G) (l : List α) : G := l.foldl (fun s x => s + f x) 0

theorem total_concat {α G : Type} [Add G] [OfNat G 0] (f : α → G) (l : List α) (x : α) :
    total f (l ++ [x]) = total f l + f x := List.foldl_concat ..

theorem total_congr {α G : Type} [Add G] [OfNat G 0] {f : α → G} {l l' : List α} (h : l.map f = l'.map f) :
    total f l = total f l' := by
  have hmap (l : List α) : total f l = (l.map f).foldl (· + ·) 0 := by rw [List.foldl_map]; rfl
  rw [hmap, hmap, h]

variable {α : Type} {f : α → UInt64}

theorem total_zero {l : List α} (h : ∀ x ∈ l, f x = 0) : total f l = 0 := by
  induction l using List.reverseRecOn with
  | nil => rfl
  | append_singleton l x ih => rw [total_concat, ih fun y hy => h y (by simp [hy]), h x (by simp), UInt64.add_zero]

theorem foldl_from (l : List α) (s n : UInt64) :
    l.foldl (fun s x => s + f x) (s + n) = l.foldl (fun s x => s + f x) s + n := by
  induction l generalizing s with
  | nil => rfl
  | cons x l ih => rw [List.foldl_cons, List.foldl_cons, ← ih, UInt64.add_assoc, UInt64.add_comm n, ← UInt64.add_assoc]

theorem total_set {l : List α} {i : Nat} {x y : α} {n : UInt64} (hx : l[i]? = some x) (hy : f y = f x + n) :
    total f (l.set i y) = total f l + n := by
  suffices hfrom : ∀ s, (l.set i y).foldl (fun s x => s + f x) s = l.foldl (fun s x => s + f x) s + n from hfrom 0
  induction l generalizing i with
  | nil => simp at hx
  | cons z l ih =>
      intro s
      cases i with
      | zero =>
          have hz : z = x := by simpa using hx
          rw [List.set_cons_zero, List.foldl_cons, List.foldl_cons, hy, hz, ← UInt64.add_assoc, foldl_from]
      | succ i => exact ih (by simpa using hx) _

end Totals

section Accounts

variable {Double : Type}

inductive Count
  | packets
  | outoforder
  | errors

def Count.part : Count → Interval → Int32
  | .packets => Interval.interval_packet_count
  | .outoforder => Interval.interval_outoforder_packets
  | .errors => Interval.interval_cnt_error

def Count.upTo : Count → Interval → Int32
  | .packets => Interval.packet_count
  | .outoforder => Interval.outoforder_packets
  | .errors => Interval.cnt_error

/-- The intervals that count for the results. While a test omits, these are all. -/
def counted (omitting : Bool) (sp : Stream Double) : List Interval :=
  sp.interval_results.filter fun irp => irp.omitted = omitting

structure Accounted (protocol : Protocol) (gathers omitting : Bool) (sp : Stream Double) : Prop where
  bytes : IperfStreams.bytesTransferred sp.toStream =
    total Interval.bytes_transferred (counted omitting sp) + thisInterval sp
  retrans : gathers → sp.stream_retrans = total Interval.interval_retrans (counted omitting sp)
  counts : protocol = .Pudp → ∀ c : Count,
    total c.part sp.interval_results = (sp.interval_results.getLast?.map c.upTo).getD 0
  omitted : omitting → ∀ irp ∈ sp.interval_results, irp.omitted
  seamless : sp.interval_results.IsChain fun irp next => next.interval_start_time = irp.interval_end_time
  last : ∀ irp ∈ sp.interval_results.getLast?, irp.interval_end_time = sp.end_time
  first : ∀ irp ∈ sp.interval_results.head?, irp.omitted = omitting → irp.interval_start_time = sp.start_time

def sentBytes (sp : Stream Double) : UInt64 := if sp.sender then sp.bytes_sent - sp.bytes_sent_omit else 0

structure Transfers (sent received : UInt64) (sp sp' : Stream Double) : Prop where
  sender : sp'.sender = sp.sender
  bytes_sent : sp'.bytes_sent = sp.bytes_sent + sent
  bytes_sent_this_interval : sp'.bytes_sent_this_interval = sp.bytes_sent_this_interval + sent
  bytes_received : sp'.bytes_received = sp.bytes_received + received
  bytes_received_this_interval : sp'.bytes_received_this_interval = sp.bytes_received_this_interval + received
  bytes_sent_omit : sp'.bytes_sent_omit = sp.bytes_sent_omit
  stream_retrans : sp'.stream_retrans = sp.stream_retrans
  interval_results : sp'.interval_results = sp.interval_results
  start_time : sp'.start_time = sp.start_time
  end_time : sp'.end_time = sp.end_time

theorem transfers_refl (sp : Stream Double) : Transfers 0 0 sp sp := by
  constructor <;> simp

theorem snd_transfers (test : Test Double) (write : Write) (sp : Stream Double) :
    Transfers (if write.r < 0 then 0 else .ofInt write.r) 0 sp (snd test write sp) := by
  rw [snd]
  cases test.protocol with
  | Ptcp =>
      dsimp only
      rw [iperfTcpSend]
      split
      · exact transfers_refl sp
      · constructor <;> simp
  | Pudp =>
      dsimp only
      rw [UdpPackets.iperfUdpSend]
      dsimp only
      split <;> constructor <;> simp [Stream.setPackets, Stream.packets]

theorem rcv_transfers (test : Test Double) (data : Bytes) (sp : Stream Double) :
    ∃ received, Transfers 0 received sp (rcv test data sp) := by
  rw [rcv]
  cases test.protocol with
  | Ptcp =>
      dsimp only
      rw [iperfTcpRecv]
      split
      · exact ⟨0, transfers_refl sp⟩
      · refine ⟨.ofNat data.length, ?_⟩
        constructor <;> simp
  | Pudp =>
      dsimp only
      rw [UdpPackets.iperfUdpRecv]
      split
      · refine ⟨0, ?_⟩
        constructor <;> simp [Stream.setPackets, Stream.packets]
      · refine ⟨.ofNat data.length, ?_⟩
        dsimp only
        split <;> constructor <;> simp [Stream.setPackets, Stream.packets]

variable {protocol : Protocol} {gathers omitting : Bool} {sp sp' : Stream Double}

theorem Accounted.transfers {sent received : UInt64} (h : Accounted protocol gathers omitting sp)
    (ht : Transfers sent received sp sp') : Accounted protocol gathers omitting sp' := by
  have hcounted : counted omitting sp' = counted omitting sp := by rw [counted, counted, ht.interval_results]
  refine ⟨?_, ?_, ?_, ?_, ?_, ?_, ?_⟩
  · have hbytes := h.bytes
    rw [IperfStreams.bytesTransferred, thisInterval] at hbytes ⊢
    rw [hcounted, ht.sender, ht.bytes_sent, ht.bytes_sent_omit, ht.bytes_received, ht.bytes_sent_this_interval,
      ht.bytes_received_this_interval]
    split at hbytes <;> rename_i hsender
    · rw [if_pos hsender, if_pos hsender, ← UInt64.add_assoc, ← hbytes]
      grind
    · rw [if_neg hsender, if_neg hsender, ← UInt64.add_assoc, ← hbytes]
  · rw [hcounted, ht.stream_retrans]
    exact h.retrans
  · rw [ht.interval_results]
    exact h.counts
  · rw [ht.interval_results]
    exact h.omitted
  · rw [ht.interval_results]
    exact h.seamless
  · rw [ht.interval_results, ht.end_time]
    exact h.last
  · rw [ht.interval_results, ht.start_time]
    exact h.first

theorem Transfers.sentBytes {sent received : UInt64} (ht : Transfers sent received sp sp') (hsender : sp.sender) :
    sentBytes sp' = sentBytes sp + sent := by
  rw [IperfIntervals.sentBytes, IperfIntervals.sentBytes, ht.sender, if_pos hsender, if_pos hsender, ht.bytes_sent,
    ht.bytes_sent_omit]
  grind

section Gathering

variable {has_tcpinfo : Bool} {test : Test Double} {reading : Reading} {temp : Interval}

theorem newInterval_bytes : (newInterval has_tcpinfo test reading temp sp).bytes_transferred = thisInterval sp := by
  rw [newInterval]
  cases test.protocol <;> rfl

theorem newInterval_omitted : (newInterval has_tcpinfo test reading temp sp).omitted = test.omitting := by
  rw [newInterval]
  cases test.protocol <;> rfl

theorem newInterval_start : (newInterval has_tcpinfo test reading temp sp).interval_start_time =
    if sp.interval_results.getLast?.isSome then sp.end_time else sp.start_time := by
  rw [newInterval]
  cases test.protocol <;> rfl

theorem newInterval_end : (newInterval has_tcpinfo test reading temp sp).interval_end_time = reading.now := by
  rw [newInterval]
  cases test.protocol <;> rfl

theorem newInterval_part (hudp : test.protocol = .Pudp) (c : Count) :
    c.part (newInterval has_tcpinfo test reading temp sp) =
      c.upTo (newInterval has_tcpinfo test reading temp sp) - (sp.interval_results.getLast?.map c.upTo).getD 0 := by
  rw [newInterval, hudp]
  cases c <;> rfl

theorem counted_gather : counted test.omitting (gather has_tcpinfo test reading temp sp) =
    counted test.omitting sp ++ [newInterval has_tcpinfo test reading temp sp] := by
  rw [counted, counted, gather, List.filter_append, List.filter_cons_of_pos (by simp [newInterval_omitted]),
    List.filter_nil]

theorem thisInterval_gather : thisInterval (gather has_tcpinfo test reading temp sp) = 0 := ite_self 0

theorem sentBytes_gather : sentBytes (gather has_tcpinfo test reading temp sp) = sentBytes sp := rfl

theorem Accounted.gather (h : Accounted test.protocol (gathersRetrans has_tcpinfo test) test.omitting sp) :
    Accounted test.protocol (gathersRetrans has_tcpinfo test) test.omitting
      (gather has_tcpinfo test reading temp sp) := by
  refine ⟨?_, ?_, ?_, ?_, ?_, ?_, ?_⟩
  · rw [counted_gather, total_concat, thisInterval_gather, UInt64.add_zero, newInterval_bytes]
    exact h.bytes
  · intro hgathers
    rw [counted_gather, total_concat, ← h.retrans hgathers, IperfIntervals.gather]
    exact if_pos hgathers
  · intro hudp c
    rw [IperfIntervals.gather, total_concat, h.counts hudp, newInterval_part hudp, List.getLast?_concat,
      Int32.add_comm, Int32.sub_add_cancel]
    rfl
  · intro homitting irp hirp
    rcases List.mem_append.1 hirp with hirp | hirp
    · exact h.omitted homitting irp hirp
    · rw [List.mem_singleton.1 hirp, newInterval_omitted, homitting]
  · refine List.IsChain.append h.seamless (List.isChain_singleton _) fun irp hirp next hnext => ?_
    obtain rfl : newInterval has_tcpinfo test reading temp sp = next := by simpa using hnext
    rw [newInterval_start, Option.isSome_iff_exists.2 ⟨irp, hirp⟩, if_pos rfl]
    exact (h.last irp hirp).symm
  · intro irp hirp
    rw [IperfIntervals.gather, List.getLast?_concat] at hirp
    obtain rfl : newInterval has_tcpinfo test reading temp sp = irp := by simpa using hirp
    exact newInterval_end
  · intro irp hirp homitted
    cases hresults : sp.interval_results with
    | nil =>
        rw [IperfIntervals.gather, hresults] at hirp
        obtain rfl : newInterval has_tcpinfo test reading temp sp = irp := by simpa using hirp
        rw [newInterval_start, hresults]
        rfl
    | cons head rest =>
        rw [IperfIntervals.gather, hresults] at hirp
        exact h.first irp (by rw [hresults]; exact hirp) homitted

theorem mem_gatherFrom {readings : Nat → Reading} {n : Nat} {streams : List (Stream Double)} {sp : Stream Double}
    (h : sp ∈ gatherFrom has_tcpinfo test readings n temp streams) :
    ∃ reading temp, ∃ before ∈ streams, sp = IperfIntervals.gather has_tcpinfo test reading temp before := by
  induction streams generalizing n temp with
  | nil => simp [gatherFrom] at h
  | cons before streams ih =>
      rcases List.mem_cons.1 h with rfl | h
      · exact ⟨_, _, before, List.mem_cons_self, rfl⟩
      · obtain ⟨reading, temp, before', hmem, heq⟩ := ih h
        exact ⟨reading, temp, before', List.mem_cons_of_mem _ hmem, heq⟩

theorem sentBytes_gatherFrom {readings : Nat → Reading} {n : Nat} (streams : List (Stream Double)) :
    (gatherFrom has_tcpinfo test readings n temp streams).map sentBytes = streams.map sentBytes := by
  induction streams generalizing n temp with
  | nil => rfl
  | cons sp streams ih => rw [gatherFrom, List.map_cons, List.map_cons, ih, sentBytes_gather]

end Gathering

section Omitting

variable {has_tcpinfo : Bool} {lib : CLib Double} {secs : IperfStreams.Seconds lib} {test : Test Double}

theorem sentBytes_reset {now : Time} {total_retrans : Int64} :
    sentBytes (resetStream secs test now total_retrans sp) = 0 := by
  rw [sentBytes, resetStream]
  simp

/-- After the omitted period no interval counts yet. -/
theorem Accounted.reset (h : Accounted protocol gathers true sp) (now : Time) (total_retrans : Int64) :
    Accounted protocol gathers false (resetStream secs test now total_retrans sp) := by
  have hcounted : counted false (resetStream secs test now total_retrans sp) = [] := by
    rw [counted, List.filter_eq_nil_iff]
    intro irp hirp
    simp [h.omitted rfl irp hirp]
  refine ⟨?_, ?_, h.counts, ?_, h.seamless, h.last, ?_⟩
  · rw [hcounted, IperfStreams.bytesTransferred, thisInterval, resetStream]
    simp [total]
  · rw [hcounted]
    exact fun _ => rfl
  · exact fun h => by cases h
  · intro irp hirp homitted
    rw [h.omitted rfl irp (List.mem_of_mem_head? hirp)] at homitted
    cases homitted

end Omitting

end Accounts

section Running

variable {Double : Type} {lib : CLib Double} {has_tcpinfo : Bool} {secs : IperfStreams.Seconds lib}

structure Balanced (has_tcpinfo : Bool) (test : Test Double) : Prop where
  bytes_sent : test.bytes_sent = total sentBytes test.streams
  streams : ∀ sp ∈ test.streams, Accounted test.protocol (gathersRetrans has_tcpinfo test) test.omitting sp

theorem balanced_send {test : Test Double} (h : Balanced has_tcpinfo test) (i : Nat) (write : Write) :
    Balanced has_tcpinfo (sendStream i write test) := by
  rw [sendStream]
  split
  · exact h
  · rename_i sp hsp
    split
    · rename_i hsender
      have ht := snd_transfers test write sp
      refine ⟨?_, fun sp' hsp' => ?_⟩
      · dsimp only
        rw [total_set hsp (ht.sentBytes hsender), ← h.bytes_sent]
        split
        · rw [UInt64.add_zero]
        · rfl
      · rcases List.mem_or_eq_of_mem_set hsp' with hsp' | rfl
        · exact h.streams sp' hsp'
        · exact (h.streams sp (List.mem_of_getElem? hsp)).transfers ht
    · exact h

theorem balanced_recv {test : Test Double} (h : Balanced has_tcpinfo test) (i : Nat) (data : Bytes) :
    Balanced has_tcpinfo (recvStream i data test) := by
  rw [recvStream]
  split
  · exact h
  · rename_i sp hsp
    split
    · exact h
    · rename_i hsender
      obtain ⟨received, ht⟩ := rcv_transfers test data sp
      have hsent : sentBytes (rcv test data sp) = sentBytes sp + 0 := by
        rw [sentBytes, sentBytes, ht.sender, if_neg hsender, if_neg hsender, UInt64.add_zero]
      refine ⟨?_, fun sp' hsp' => ?_⟩
      · dsimp only
        rw [total_set hsp hsent, UInt64.add_zero]
        exact h.bytes_sent
      · rcases List.mem_or_eq_of_mem_set hsp' with hsp' | rfl
        · exact h.streams sp' hsp'
        · exact (h.streams sp (List.mem_of_getElem? hsp)).transfers ht

theorem balanced_stats {test : Test Double} (h : Balanced has_tcpinfo test) (readings : Nat → Reading)
    (temp : Interval) : Balanced has_tcpinfo (iperfStatsCallback has_tcpinfo readings temp test) := by
  refine ⟨?_, fun sp hsp => ?_⟩
  · rw [iperfStatsCallback, total_congr (sentBytes_gatherFrom test.streams)]
    exact h.bytes_sent
  · obtain ⟨reading, temp, before, hbefore, rfl⟩ := mem_gatherFrom hsp
    exact (h.streams before hbefore).gather

theorem balanced_omitDone {test : Test Double} (h : Balanced has_tcpinfo test) (homitting : test.omitting)
    (now : Time) (total_retrans : Nat → Int64) :
    Balanced has_tcpinfo (omitTimerProc secs now total_retrans test) := by
  have hreset : ∀ sp ∈ (omitTimerProc secs now total_retrans test).streams, ∃ n, ∃ before ∈ test.streams,
      sp = resetStream secs { test with omitting := false } now (total_retrans n) before := by
    intro sp hsp
    obtain ⟨n, hn, rfl⟩ := List.mem_mapIdx.1 hsp
    exact ⟨n, test.streams[n], List.getElem_mem hn, rfl⟩
  refine ⟨?_, fun sp hsp => ?_⟩
  · refine (total_zero fun sp hsp => ?_).symm
    obtain ⟨n, before, -, rfl⟩ := hreset sp hsp
    exact sentBytes_reset
  · obtain ⟨n, before, hbefore, rfl⟩ := hreset sp hsp
    have haccounted := h.streams before hbefore
    rw [homitting] at haccounted
    exact haccounted.reset now (total_retrans n)

theorem balanced_step (test : Test Double) (event : Event) (h : Balanced has_tcpinfo test)
    (hvalid : Valid test event) : Balanced has_tcpinfo (step has_tcpinfo secs test event) := by
  cases event with
  | send i write => exact balanced_send h i write
  | recv i data => exact balanced_recv h i data
  | state running => exact ⟨h.bytes_sent, h.streams⟩
  | stats readings temp => exact balanced_stats h readings temp
  | omitDone now total_retrans => exact balanced_omitDone h hvalid now total_retrans

structure Ready (test : Test Double) : Prop where
  bytes_sent : test.bytes_sent = 0
  streams : ∀ sp ∈ test.streams, sp.bytes_sent = 0 ∧ sp.bytes_sent_omit = 0 ∧ sp.bytes_received = 0 ∧
    thisInterval sp = 0 ∧ sp.stream_retrans = 0 ∧ sp.interval_results = []

theorem balanced_ready {test : Test Double} (h : Ready test) : Balanced has_tcpinfo test := by
  refine ⟨?_, fun sp hsp => ?_⟩
  · rw [h.bytes_sent, total_zero]
    intro sp hsp
    obtain ⟨hsent, homit, -⟩ := h.streams sp hsp
    rw [sentBytes, hsent, homit, UInt64.sub_self, ite_self]
  · obtain ⟨hsent, homit, hreceived, hthis, hretrans, hresults⟩ := h.streams sp hsp
    have hcounted : counted test.omitting sp = [] := by rw [counted, hresults, List.filter_nil]
    refine ⟨?_, ?_, ?_, ?_, ?_, ?_, ?_⟩
    · rw [hcounted, hthis, IperfStreams.bytesTransferred, hsent, homit, hreceived, UInt64.sub_self, ite_self]
      rfl
    · rw [hcounted, hretrans]
      exact fun _ => rfl
    all_goals simp [hresults, total]

/-- At any time of a test, whatever the order of what happens, the intervals account for
what a stream has transferred, and the one that has begun for the rest. When the
statistics are gathered there is no rest, and the results are the sums of the intervals. -/
theorem intervals_add_up {test : Test Double} (hready : Ready test) {events : List Event}
    (hvalid : Along (step has_tcpinfo secs) Valid test events) :
    Balanced has_tcpinfo (run (step has_tcpinfo secs) test events) ∧
      ∀ readings temp, ∀ sp ∈ (run (step has_tcpinfo secs) test (events ++ [.stats readings temp])).streams,
        IperfStreams.bytesTransferred sp.toStream = total Interval.bytes_transferred
          (counted (run (step has_tcpinfo secs) test events).omitting sp) ∧
        ∃ irp, sp.interval_results.getLast? = some irp ∧ irp.interval_end_time = sp.end_time := by
  have hbalanced := run_invariant (Balanced has_tcpinfo) balanced_step (balanced_ready hready) hvalid
  refine ⟨hbalanced, fun readings temp sp hsp => ?_⟩
  rw [run_append] at hsp
  have hgathered := balanced_stats hbalanced readings temp
  have haccounted := hgathered.streams sp hsp
  obtain ⟨reading, temp, before, -, rfl⟩ := mem_gatherFrom hsp
  refine ⟨?_, _, List.getLast?_concat, newInterval_end⟩
  have hbytes := haccounted.bytes
  rwa [thisInterval_gather, UInt64.add_zero] at hbytes

end Running

section Sessions

variable {Double : Type} {lib : CLib Double} {has_tcpinfo : Bool} {secs : IperfStreams.Seconds lib}

def identity (sp : Stream Double) : Int32 × Nat × Bool := (sp.id, sp.socket, sp.sender)

theorem identity_snd (test : Test Double) (write : Write) (sp : Stream Double) :
    identity (snd test write sp) = identity sp := by
  rw [snd]
  cases test.protocol with
  | Ptcp =>
      dsimp only
      rw [iperfTcpSend]
      split <;> rfl
  | Pudp => rfl

theorem identity_rcv (test : Test Double) (data : Bytes) (sp : Stream Double) :
    identity (rcv test data sp) = identity sp := by
  rw [rcv]
  cases test.protocol with
  | Ptcp =>
      dsimp only
      rw [iperfTcpRecv]
      split <;> rfl
  | Pudp => rfl

theorem identity_set {streams : List (Stream Double)} {i : Nat} {sp sp' : Stream Double} (hsp : streams[i]? = some sp)
    (h : identity sp' = identity sp) : (streams.set i sp').map identity = streams.map identity := by
  obtain ⟨hi, rfl⟩ := List.getElem?_eq_some_iff.1 hsp
  have hi' : i < (streams.map identity).length := by rwa [List.length_map]
  rw [List.map_set, h, ← List.getElem_map identity (h := hi'), List.set_getElem_self]

theorem identity_gatherFrom {test : Test Double} {readings : Nat → Reading} {n : Nat} {temp : Interval}
    (streams : List (Stream Double)) :
    (gatherFrom has_tcpinfo test readings n temp streams).map identity = streams.map identity := by
  induction streams generalizing n temp with
  | nil => rfl
  | cons sp streams ih =>
      rw [gatherFrom, List.map_cons, List.map_cons, ih]
      rfl

theorem identity_step (test : Test Double) (event : Event) :
    (step has_tcpinfo secs test event).streams.map identity = test.streams.map identity := by
  cases event with
  | send i write =>
      rw [step, sendStream]
      split
      · rfl
      · rename_i sp hsp
        split
        · exact identity_set hsp (identity_snd test write sp)
        · rfl
  | recv i data =>
      rw [step, recvStream]
      split
      · rfl
      · rename_i sp hsp
        split
        · rfl
        · exact identity_set hsp (identity_rcv test data sp)
  | state running => rfl
  | stats readings temp => exact identity_gatherFrom test.streams
  | omitDone now total_retrans =>
      rw [step, omitTimerProc, iperfResetStats]
      refine List.ext_getElem (by simp) fun n hn hn' => ?_
      rw [List.getElem_map, List.getElem_mapIdx, List.getElem_map]
      rfl

theorem identity_run (test : Test Double) (events : List Event) :
    (run (step has_tcpinfo secs) test events).streams.map identity = test.streams.map identity := by
  induction events generalizing test with
  | nil => rfl
  | cons event events ih => rw [run_cons, ih, identity_step]

theorem measured_run {session : IperfStreams.Test Double} {test : Test Double} {events : List Event}
    (hstreams : session.streams = test.streams.map Stream.toStream)
    (hfits : IperfStreams.Fits { session with
      streams := (run (step has_tcpinfo secs) test events).streams.map Stream.toStream }) :
    IperfSession.Measured session { session with
      streams := (run (step has_tcpinfo secs) test events).streams.map Stream.toStream } := by
  have hsame : (run (step has_tcpinfo secs) test events).streams.map identity = test.streams.map identity :=
    identity_run test events
  have hpart {γ : Type} (f : Int32 × Nat × Bool → γ) :
      (run (step has_tcpinfo secs) test events).streams.map (f ∘ identity) = test.streams.map (f ∘ identity) := by
    rw [← List.map_map, hsame, List.map_map]
  refine ⟨rfl, ?_, ?_, ?_, hfits⟩ <;> rw [hstreams, List.map_map, List.map_map]
  · exact hpart Prod.fst
  · exact hpart (Prod.fst ∘ Prod.snd)
  · exact hpart (Prod.snd ∘ Prod.snd)

end Sessions

section Sample

open WholeDoubles

def sampleTest : Test Int where
  protocol := .Ptcp
  udp_counters_64bit := false
  sender_has_retransmits := 1
  running := true
  omitting := true
  bytes_sent := 0
  streams := [{
    id := 1
    socket := 5
    sender := true
    start_time := ⟨100, 0⟩
    end_time := ⟨0, 0⟩
    bytes_received := 0
    bytes_sent := 0
    bytes_sent_omit := 0
    stream_retrans := 0
    sender_time := 0
    receiver_time := 0
    jitter := 0
    cnt_error := 0
    packet_count := 0
    peer_packet_count := 0
    bytes_sent_this_interval := 0
    bytes_received_this_interval := 0
    outoforder_packets := 0
    omitted_packet_count := 0
    omitted_cnt_error := 0
    omitted_outoforder_packets := 0
    stream_prev_total_retrans := 0
    interval_results := [] }]

def sampleTemp : Interval := ⟨0, ⟨0, 0⟩, ⟨0, 0⟩, 0, 0, 0, 0, 0, 0, false, 0⟩

/-- Five bytes are omitted, and three that come between the last omitted interval and
the end of the omitted period. -/
def sampleEvents : List Event :=
  [.send 0 ⟨⟨100, 1⟩, 5, []⟩, .stats (fun _ => ⟨⟨101, 0⟩, 2⟩) sampleTemp, .send 0 ⟨⟨101, 1⟩, 3, []⟩,
    .omitDone ⟨101, 2⟩ (fun _ => 3), .send 0 ⟨⟨101, 3⟩, 7, []⟩, .stats (fun _ => ⟨⟨102, 2⟩, 7⟩) sampleTemp,
    .send 0 ⟨⟨102, 3⟩, 4, []⟩]

theorem sampleTest_ready : Ready sampleTest :=
  ⟨rfl, fun _ hsp => by rw [List.mem_singleton.1 hsp]; exact ⟨rfl, rfl, rfl, rfl, rfl, rfl⟩⟩

theorem sampleEvents_valid : Along (step true IperfStreams.wholeSeconds) Valid sampleTest sampleEvents :=
  ⟨trivial, trivial, trivial, rfl, trivial, trivial, trivial, trivial⟩

theorem intervals_add_up_sample :
    let now := run (step true IperfStreams.wholeSeconds) sampleTest sampleEvents
    now.bytes_sent = 11 ∧ (now.streams.map fun sp => total Interval.bytes_transferred (counted false sp)) = [7] ∧
      Balanced true now :=
  ⟨by decide, by decide, (intervals_add_up sampleTest_ready sampleEvents_valid).1⟩

end Sample

end SberWifi.IperfIntervals
