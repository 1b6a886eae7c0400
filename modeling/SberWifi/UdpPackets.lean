import Mathlib.Algebra.Order.Ring.Nat
import SberWifi.BigEndian
import SberWifi.CJsonPrint
import SberWifi.IperfTime
import SberWifi.SequenceCounter

namespace SberWifi.UdpPackets

open BigEndian CJsonPrint IperfTime SequenceCounter

/-- The fields of a stream and its result that the packets change, but for the jitter. -/
structure Stream where
  packet_count : Int32
  cnt_error : Int32
  outoforder_packets : Int32
  bytes_sent : UInt64
  bytes_sent_this_interval : UInt64
  bytes_received : UInt64
  bytes_received_this_interval : UInt64

section Packets

variable (udp_counters_64bit : Bool)

def header (before : Time) (packet_count : Int32) : Bytes :=
  encode 4 before.secs.toNat ++ (encode 4 before.usecs.toNat ++
    if udp_counters_64bit then encode 8 packet_count.toInt64.toUInt64.toNat
    else encode 4 packet_count.toUInt32.toNat)

/-- The packet, and the stream after it. A packet has a number even if it cannot be written. -/
def iperfUdpSend (before : Time) (r : Int) (buffer : Bytes) (sp : Stream) : Bytes × Stream :=
  let sp := { sp with packet_count := sp.packet_count + 1 }
  let header := header udp_counters_64bit before sp.packet_count
  ((header ++ buffer.drop header.length).take buffer.length,
    if r < 0 then sp
    else
      { sp with
        bytes_sent := sp.bytes_sent + .ofInt r
        bytes_sent_this_interval := sp.bytes_sent_this_interval + .ofInt r })

def pcount (buffer : Bytes) : UInt64 :=
  .ofNat (decode ((buffer.drop 8).take (if udp_counters_64bit then 8 else 4)))

/-- `buffer` is what was read. Nothing is counted before and after the test. -/
def iperfUdpRecv (running : Bool) (buffer : Bytes) (sp : Stream) : Stream :=
  if buffer = [] ∨ ¬ running then sp
  else
    let pcount := pcount udp_counters_64bit buffer
    let expected := (sp.packet_count + 1).toInt64.toUInt64
    let received : Stream :=
      { sp with
        bytes_received := sp.bytes_received + .ofNat buffer.length
        bytes_received_this_interval := sp.bytes_received_this_interval + .ofNat buffer.length }
    if pcount ≥ expected then
      { received with
        cnt_error :=
          if pcount > expected then
            (sp.cnt_error.toInt64.toUInt64 + ((pcount - 1) - sp.packet_count.toInt64.toUInt64)).toInt64.toInt32
          else sp.cnt_error
        packet_count := pcount.toInt64.toInt32 }
    else
      { received with
        outoforder_packets := sp.outoforder_packets + 1
        cnt_error := if sp.cnt_error > 0 then sp.cnt_error - 1 else sp.cnt_error }

end Packets

section Numbers

variable {udp_counters_64bit : Bool}

theorem toInt64_ofNat {n : Nat} (h : n < 2 ^ 31) : (Int32.ofNat n).toInt64 = .ofNat n := by
  apply Int64.toInt_inj.1
  rw [Int32.toInt_toInt64, Int32.toInt_ofNat_of_lt h, Int64.toInt_ofNat_of_lt (by omega)]

theorem toUInt64_ofNat {n : Nat} (h : n < 2 ^ 31) : (Int32.ofNat n).toInt64.toUInt64 = .ofNat n := by
  rw [toInt64_ofNat h, Int64.toUInt64_ofNat']

theorem toInt32_ofNat (n : Nat) : (UInt64.ofNat n).toInt64.toInt32 = .ofNat n := by
  rw [UInt64.toInt64_ofNat', Int64.toInt32_ofNat']

theorem toNat_ofNat {n : Nat} (h : n < 2 ^ 31) : (UInt64.ofNat n).toNat = n :=
  UInt64.toNat_ofNat_of_lt' (h.trans (by decide))

theorem length_header (before : Time) (packet_count : Int32) :
    (header udp_counters_64bit before packet_count).length = if udp_counters_64bit then 16 else 12 := by
  cases udp_counters_64bit <;> simp [header]

/-- The receiver reads the number that the sender has written. -/
theorem pcount_header {n : Nat} (h : n < 2 ^ 31) (before : Time) (rest : Bytes) :
    pcount udp_counters_64bit (header udp_counters_64bit before (.ofNat n) ++ rest) = .ofNat n := by
  have htimes : (encode 4 before.secs.toNat ++ encode 4 before.usecs.toNat).length = 8 := by simp
  have hdrop (number : Bytes) :
      (encode 4 before.secs.toNat ++ (encode 4 before.usecs.toNat ++ number) ++ rest).drop 8 = number ++ rest := by
    rw [← List.append_assoc, List.append_assoc _ number rest, ← htimes, List.drop_left]
  rw [pcount, header]
  cases udp_counters_64bit with
  | true =>
      rw [if_pos rfl, if_pos rfl, hdrop, List.take_left' (length_encode 8 _), toUInt64_ofNat h, toNat_ofNat h,
        decode_encode (by omega)]
  | false =>
      have hsmall : (UInt32.ofNat n).toNat = n := UInt32.toNat_ofNat_of_lt' (h.trans (by decide))
      rw [if_neg (by decide), if_neg (by decide), hdrop, List.take_left' (length_encode 4 _), Int32.toUInt32_ofNat',
        hsmall, decode_encode (by omega)]

end Numbers

section Sending

variable (udp_counters_64bit : Bool)

def sendAll (buffer : Bytes) : List (Time × Int) → Stream → List Bytes × Stream
  | [], sp => ([], sp)
  | (before, r) :: sends, sp =>
      let (packet, sp) := iperfUdpSend udp_counters_64bit before r buffer sp
      let (packets, sp) := sendAll buffer sends sp
      (packet :: packets, sp)

variable {udp_counters_64bit}

theorem udpSend_length (before : Time) (r : Int) (buffer : Bytes) (sp : Stream) :
    (iperfUdpSend udp_counters_64bit before r buffer sp).1.length = buffer.length := by
  rw [iperfUdpSend, List.length_take, List.length_append, List.length_drop]
  omega

theorem udpSend_pcount (before : Time) (r : Int) {buffer : Bytes} {sp : Stream} {n : Nat}
    (hsize : 16 ≤ buffer.length) (hsp : sp.packet_count = .ofNat n) (hn : n + 1 < 2 ^ 31) :
    (pcount udp_counters_64bit (iperfUdpSend udp_counters_64bit before r buffer sp).1).toNat = n + 1 ∧
      (iperfUdpSend udp_counters_64bit before r buffer sp).2.packet_count = .ofNat (n + 1) := by
  have hnext : sp.packet_count + 1 = .ofNat (n + 1) := by
    rw [hsp, Int32.ofNat_add]
    rfl
  have hfits : (header udp_counters_64bit before (.ofNat (n + 1))).length ≤ buffer.length := by
    rw [length_header]
    split <;> omega
  rw [iperfUdpSend]
  refine ⟨?_, ?_⟩
  · dsimp only
    rw [hnext, List.take_append, List.take_of_length_le hfits, pcount_header hn, toNat_ofNat hn]
  · dsimp only
    split <;> exact hnext

theorem sendAll_numbers {buffer : Bytes} (hsize : 16 ≤ buffer.length) (sends : List (Time × Int)) {sp : Stream}
    {n : Nat} (hsp : sp.packet_count = .ofNat n) (hn : n + sends.length < 2 ^ 31) :
    (sendAll udp_counters_64bit buffer sends sp).1.map (fun packet => (pcount udp_counters_64bit packet).toNat) =
      List.range' (n + 1) sends.length := by
  induction sends generalizing sp n with
  | nil => rfl
  | cons send sends ih =>
      rw [List.length_cons] at hn
      obtain ⟨hpcount, hnext⟩ := udpSend_pcount send.1 send.2 hsize hsp (by omega)
      rw [sendAll, List.length_cons, List.range'_succ, List.map_cons, hpcount, ih hnext (by omega)]

theorem sendAll_count (buffer : Bytes) (sends : List (Time × Int)) (sp : Stream) :
    (sendAll udp_counters_64bit buffer sends sp).1.length = sends.length := by
  induction sends generalizing sp with
  | nil => rfl
  | cons send sends ih => rw [sendAll, List.length_cons, List.length_cons, ih]

theorem sendAll_length (buffer : Bytes) (sends : List (Time × Int)) (sp : Stream) :
    ∀ packet ∈ (sendAll udp_counters_64bit buffer sends sp).1, packet.length = buffer.length := by
  induction sends generalizing sp with
  | nil => exact List.forall_mem_nil _
  | cons send sends ih =>
      rw [sendAll]
      exact List.forall_mem_cons.2 ⟨udpSend_length .., ih _⟩

end Sending

section Receiving

variable (udp_counters_64bit : Bool)

def receiveAll (arrivals : List (Bytes × Bool)) (sp : Stream) : Stream :=
  arrivals.foldl (fun sp arrival => iperfUdpRecv udp_counters_64bit arrival.2 arrival.1 sp) sp

def numbers (arrivals : List (Bytes × Bool)) : List Nat :=
  (arrivals.filter Prod.snd).map fun arrival => (pcount udp_counters_64bit arrival.1).toNat

variable {udp_counters_64bit}

structure Counts (sp : Stream) (c : Counter) : Prop where
  highest : sp.packet_count = .ofNat c.highest
  lost : sp.cnt_error = .ofNat c.lost
  late : sp.outoforder_packets = .ofNat c.late

theorem counts_recv {sp : Stream} {c : Counter} (h : Counts sp c) (hhighest : c.highest + 1 < 2 ^ 31)
    (hlost : c.lost ≤ c.highest) {buffer : Bytes} (hbuffer : buffer ≠ []) {n : Nat} (hn : n < 2 ^ 31)
    (hpcount : pcount udp_counters_64bit buffer = .ofNat n) :
    Counts (iperfUdpRecv udp_counters_64bit true buffer sp) (c.take n) := by
  have hcount : sp.packet_count.toInt64.toUInt64 = .ofNat c.highest := by rw [h.highest, toUInt64_ofNat (by omega)]
  have hexpected : (sp.packet_count + 1).toInt64.toUInt64 = .ofNat (c.highest + 1) := by
    rw [h.highest, show (1 : Int32) = .ofNat 1 from rfl, ← Int32.ofNat_add, toUInt64_ofNat (by omega)]
  rw [iperfUdpRecv, if_neg (by simp [hbuffer]), Counter.take]
  dsimp only
  rw [hpcount, hexpected, hcount]
  have hge : UInt64.ofNat n ≥ UInt64.ofNat (c.highest + 1) ↔ c.highest < n := by
    rw [ge_iff_le, UInt64.le_iff_toNat_le, toNat_ofNat hn, toNat_ofNat hhighest, Nat.succ_le_iff]
  have hgt : UInt64.ofNat n > UInt64.ofNat (c.highest + 1) ↔ c.highest + 1 < n := by
    rw [gt_iff_lt, UInt64.lt_iff_toNat_lt, toNat_ofNat hn, toNat_ofNat hhighest]
  by_cases hforward : c.highest < n
  · rw [if_pos (hge.2 hforward), if_pos hforward]
    refine ⟨toInt32_ofNat n, ?_, h.late⟩
    dsimp only
    split
    · rename_i hgap
      have hgap := hgt.1 hgap
      rw [h.lost, toUInt64_ofNat (by omega), show (1 : UInt64) = .ofNat 1 from rfl, ← UInt64.ofNat_sub (by omega),
        ← UInt64.ofNat_sub (by omega), ← UInt64.ofNat_add, toInt32_ofNat]
    · rename_i hgap
      have hnext : n - 1 - c.highest = 0 := by
        rw [hgt] at hgap
        omega
      rw [h.lost, hnext, Nat.add_zero]
  · rw [if_neg (fun h => hforward (hge.1 h)), if_neg hforward]
    have hpositive : sp.cnt_error > 0 ↔ 0 < c.lost := by
      rw [h.lost, gt_iff_lt, Int32.lt_iff_toInt_lt, Int32.toInt_ofNat_of_lt (by omega)]
      exact Int.natCast_pos
    refine ⟨h.highest, ?_, ?_⟩
    · dsimp only
      split
      · rename_i hlost'
        rw [h.lost, show (1 : Int32) = .ofNat 1 from rfl, ← Int32.ofNat_sub _ _ (hpositive.1 hlost')]
      · rename_i hlost'
        have hnone : c.lost - 1 = c.lost := by
          rw [hpositive] at hlost'
          omega
        rw [h.lost, hnone]
    · dsimp only
      rw [h.late, Int32.ofNat_add]
      rfl

theorem numbers_concat (arrivals : List (Bytes × Bool)) (arrival : Bytes × Bool) :
    numbers udp_counters_64bit (arrivals ++ [arrival]) = numbers udp_counters_64bit arrivals ++
      if arrival.2 then [(pcount udp_counters_64bit arrival.1).toNat] else [] := by
  obtain ⟨buffer, running⟩ := arrival
  rw [numbers, numbers, List.filter_append, List.map_append]
  cases running <;> rfl

theorem receiveAll_concat (arrivals : List (Bytes × Bool)) (arrival : Bytes × Bool) (sp : Stream) :
    receiveAll udp_counters_64bit (arrivals ++ [arrival]) sp =
      iperfUdpRecv udp_counters_64bit arrival.2 arrival.1 (receiveAll udp_counters_64bit arrivals sp) := by
  rw [receiveAll, List.foldl_append]
  rfl

theorem recv_idle (buffer : Bytes) (sp : Stream) : iperfUdpRecv udp_counters_64bit false buffer sp = sp :=
  if_pos (.inr (by decide))

theorem recv_bytes (buffer : Bytes) (sp : Stream) :
    (iperfUdpRecv udp_counters_64bit true buffer sp).bytes_received =
      sp.bytes_received + .ofNat buffer.length := by
  rw [iperfUdpRecv]
  split
  · rename_i hempty
    have hempty : buffer = [] := by simpa using hempty
    simp [hempty]
  · dsimp only
    split <;> rfl

/-- The stream counts the packets that arrive while the test is running. -/
theorem counts_receiveAll {arrivals : List (Bytes × Bool)} {sp : Stream} (hsp : Counts sp ⟨0, 0, 0⟩)
    (harrivals : ∀ arrival ∈ arrivals, arrival.1 ≠ [] ∧ 0 < (pcount udp_counters_64bit arrival.1).toNat ∧
      (pcount udp_counters_64bit arrival.1).toNat + 1 < 2 ^ 31) :
    Counts (receiveAll udp_counters_64bit arrivals sp) (count (numbers udp_counters_64bit arrivals)) := by
  induction arrivals using List.reverseRecOn with
  | nil => exact hsp
  | append_singleton arrivals arrival ih =>
      obtain ⟨hbuffer, -, hn⟩ := harrivals arrival (by simp)
      have hbefore : ∀ arrival ∈ arrivals, arrival.1 ≠ [] ∧ 0 < (pcount udp_counters_64bit arrival.1).toNat ∧
          (pcount udp_counters_64bit arrival.1).toNat + 1 < 2 ^ 31 := fun a ha => harrivals a (by simp [ha])
      have hnumbers : ∀ n ∈ numbers udp_counters_64bit arrivals, 0 < n ∧ n ≤ 2 ^ 31 - 2 := by
        intro n hmem
        obtain ⟨a, ha, rfl⟩ := List.mem_map.1 hmem
        obtain ⟨-, hpos, hlt⟩ := hbefore a (List.mem_of_mem_filter ha)
        omega
      have ih := ih hbefore
      have hhighest := highest_le fun n hmem => (hnumbers n hmem).2
      have hlost := lost_le_highest fun n hmem => (hnumbers n hmem).1
      rw [receiveAll_concat, numbers_concat]
      cases arrival.2 with
      | false =>
          rw [recv_idle, if_neg (by decide), List.append_nil]
          exact ih
      | true =>
          rw [if_pos rfl, count_concat]
          exact counts_recv ih (by omega) hlost hbuffer (by omega) UInt64.ofNat_toNat.symm

theorem receiveAll_bytes {arrivals : List (Bytes × Bool)} (sp : Stream) {size : Nat}
    (hsize : ∀ arrival ∈ arrivals, arrival.1.length = size) :
    (receiveAll udp_counters_64bit arrivals sp).bytes_received =
      sp.bytes_received + .ofNat ((numbers udp_counters_64bit arrivals).length * size) := by
  induction arrivals using List.reverseRecOn with
  | nil => exact (by simp [receiveAll, numbers])
  | append_singleton arrivals arrival ih =>
      have ih := ih fun a ha => hsize a (by simp [ha])
      have hlength := hsize arrival (by simp)
      rw [receiveAll_concat, numbers_concat]
      cases arrival.2 with
      | false => rw [recv_idle, if_neg (by decide), List.append_nil, ih]
      | true =>
          rw [if_pos rfl, List.length_append, List.length_singleton, Nat.succ_mul, UInt64.ofNat_add, ← UInt64.add_assoc,
            ← ih, ← hlength, recv_bytes]

end Receiving

section Losses

variable {udp_counters_64bit : Bool}

def unseen (sent : List Bytes) (arrivals : List (Bytes × Bool)) (highest : Nat) : List Bytes :=
  (sent.take highest).filter fun packet => (packet, true) ∉ arrivals

theorem mem_numbers {arrivals : List (Bytes × Bool)} {n : Nat} : n ∈ numbers udp_counters_64bit arrivals ↔
    ∃ packet, (packet, true) ∈ arrivals ∧ (pcount udp_counters_64bit packet).toNat = n := by
  simp [numbers]

variable {sent : List Bytes} {arrivals : List (Bytes × Bool)}

section Numbered

variable (hsent : sent.map (fun packet => (pcount udp_counters_64bit packet).toNat) = List.range' 1 sent.length)
include hsent

theorem number_inj {a b : Bytes} (ha : a ∈ sent) (hb : b ∈ sent)
    (h : (pcount udp_counters_64bit a).toNat = (pcount udp_counters_64bit b).toNat) : a = b :=
  List.inj_on_of_nodup_map (f := fun packet => (pcount udp_counters_64bit packet).toNat)
    (hsent ▸ List.nodup_range') ha hb h

/-- Only numbers that were sent arrive. -/
theorem number_bounds {packet : Bytes} (hpacket : packet ∈ sent) :
    0 < (pcount udp_counters_64bit packet).toNat ∧ (pcount udp_counters_64bit packet).toNat ≤ sent.length := by
  have hmem : (pcount udp_counters_64bit packet).toNat ∈ List.range' 1 sent.length :=
    hsent ▸ List.mem_map_of_mem hpacket
  rw [List.mem_range'_1] at hmem
  omega

theorem numbers_bounds (harrivals : ∀ arrival ∈ arrivals, arrival.1 ∈ sent) :
    ∀ n ∈ numbers udp_counters_64bit arrivals, 0 < n ∧ n ≤ sent.length := by
  intro n hn
  obtain ⟨packet, harrival, rfl⟩ := mem_numbers.1 hn
  exact number_bounds hsent (harrivals _ harrival)

theorem unseen_length (harrivals : ∀ arrival ∈ arrivals, arrival.1 ∈ sent) :
    (missing (numbers udp_counters_64bit arrivals)).card =
      (unseen sent arrivals (count (numbers udp_counters_64bit arrivals)).highest).length := by
  set ns := numbers udp_counters_64bit arrivals with hns
  have hhighest : (count ns).highest ≤ sent.length :=
    highest_le fun n hn => (numbers_bounds hsent harrivals n hn).2
  have htake : List.range' 1 (count ns).highest =
      (sent.take (count ns).highest).map fun packet => (pcount udp_counters_64bit packet).toNat := by
    rw [List.map_take, hsent, List.take_range'_of_length_ge hhighest]
  rw [missing_eq, htake, List.filter_map, List.length_map, unseen]
  congr 1
  refine List.filter_congr fun packet hpacket => ?_
  have hiff : (pcount udp_counters_64bit packet).toNat ∈ ns ↔ (packet, true) ∈ arrivals := by
    rw [hns, mem_numbers]
    refine ⟨fun ⟨other, harrival, heq⟩ => ?_, fun harrival => ⟨packet, harrival, rfl⟩⟩
    rwa [← number_inj hsent (harrivals _ harrival) (List.mem_of_mem_take hpacket) heq]
  simp [hiff]

theorem numbers_nodup (harrivals : ∀ arrival ∈ arrivals, arrival.1 ∈ sent)
    (honce : (arrivals.filter Prod.snd).Nodup) : (numbers udp_counters_64bit arrivals).Nodup := by
  refine List.Nodup.map_on (fun a ha b hb h => ?_) honce
  obtain ⟨ha, hrunning⟩ := List.mem_filter.1 ha
  obtain ⟨hb, hrunning'⟩ := List.mem_filter.1 hb
  exact Prod.ext (number_inj hsent (harrivals _ ha) (harrivals _ hb) h) (hrunning.trans hrunning'.symm)

end Numbered

theorem toInt_ofNat_of_le {n m : Nat} (hle : n ≤ m) (hm : m < 2 ^ 31) : (Int32.ofNat n).toInt = n :=
  Int32.toInt_ofNat_of_lt (hle.trans_lt hm)

/-- The highest number and the losses are those of the packets that have arrived in any
order and any number of times. Duplicates can only hide losses. -/
theorem losses_counted {buffer : Bytes} {sends : List (Time × Int)} {sender receiver : Stream}
    (hsize : 16 ≤ buffer.length) (hsender : sender.packet_count = 0) (hreceiver : Counts receiver ⟨0, 0, 0⟩)
    (hsends : sends.length + 1 < 2 ^ 31) (hfew : arrivals.length < 2 ^ 31)
    (harrivals : ∀ arrival ∈ arrivals, arrival.1 ∈ (sendAll udp_counters_64bit buffer sends sender).1) :
    let sent := (sendAll udp_counters_64bit buffer sends sender).1
    let after := receiveAll udp_counters_64bit arrivals receiver
    let ns := numbers udp_counters_64bit arrivals
    let lost := (unseen sent arrivals (ns.foldl max 0)).length
    after.packet_count.toInt = ns.foldl max 0 ∧
      after.cnt_error.toInt ≤ lost ∧
      ((arrivals.filter Prod.snd).Nodup → after.cnt_error.toInt = lost) ∧
      (after.outoforder_packets = 0 ↔ ns.Pairwise (· < ·)) ∧
      after.bytes_received = receiver.bytes_received + .ofNat (ns.length * buffer.length) := by
  intro sent after ns lost
  have hlength : sent.length = sends.length := sendAll_count buffer sends sender
  have hsent : sent.map (fun packet => (pcount udp_counters_64bit packet).toNat) = List.range' 1 sent.length := by
    rw [hlength]
    exact sendAll_numbers hsize sends hsender (by omega)
  have hlengths : ∀ arrival ∈ arrivals, arrival.1.length = buffer.length :=
    fun arrival harrival => sendAll_length buffer sends sender _ (harrivals arrival harrival)
  have hnumbers := numbers_bounds hsent harrivals
  have hpos : ∀ n ∈ ns, 0 < n := fun n hn => (hnumbers n hn).1
  have hns : ns.length ≤ arrivals.length := by
    rw [show ns.length = _ from List.length_map ..]
    exact List.length_filter_le ..
  have hcounts : Counts after (count ns) := by
    refine counts_receiveAll hreceiver fun arrival harrival => ?_
    have hbuffer := hlengths arrival harrival
    obtain ⟨hlow, hhigh⟩ := number_bounds hsent (harrivals arrival harrival)
    refine ⟨fun hempty => ?_, hlow, by omega⟩
    rw [hempty, List.length_nil] at hbuffer
    omega
  have hhighest : (count ns).highest ≤ sent.length := highest_le fun n hn => (hnumbers n hn).2
  have hlost : after.cnt_error.toInt = (count ns).lost := by
    rw [hcounts.lost, toInt_ofNat_of_le (lost_le_highest hpos) (by omega)]
  have hmissing : (missing ns).card = lost := by
    rw [unseen_length hsent harrivals, highest_eq]
  refine ⟨?_, ?_, fun honce => ?_, ?_, ?_⟩
  · rw [hcounts.highest, toInt_ofNat_of_le hhighest (by omega), highest_eq]
  · rw [hlost, ← hmissing]
    exact Int.ofNat_le.2 (lost_le hpos)
  · rw [hlost, lost_eq hpos (numbers_nodup hsent harrivals honce), hmissing]
  · have hlate := late_le ns
    rw [← late_eq_zero_iff hpos, hcounts.late, ← Int32.toInt_inj, toInt_ofNat_of_le hlate (by omega)]
    exact Int.natCast_eq_zero
  · exact receiveAll_bytes receiver hlengths

def sampleSends : List (Time × Int) := [(⟨7, 0⟩, 16), (⟨7, 5⟩, -1), (⟨8, 0⟩, 16)]

def sampleArrivals : List (Bytes × Bool) :=
  [(encode 4 8 ++ encode 4 0 ++ encode 4 3 ++ encode 4 0, true),
    (encode 4 7 ++ encode 4 0 ++ encode 4 1 ++ encode 4 0, true)]

theorem losses_counted_sample :
    (receiveAll false sampleArrivals ⟨0, 0, 0, 0, 0, 0, 0⟩).packet_count.toInt = 3 ∧
      (receiveAll false sampleArrivals ⟨0, 0, 0, 0, 0, 0, 0⟩).cnt_error.toInt = 1 := by
  obtain ⟨hhighest, -, hlost, -⟩ := @losses_counted false sampleArrivals (List.replicate 16 0) sampleSends
    ⟨0, 0, 0, 0, 0, 0, 0⟩ ⟨0, 0, 0, 0, 0, 0, 0⟩ (by decide) rfl ⟨rfl, rfl, rfl⟩ (by decide) (by decide) (by decide)
  exact ⟨hhighest, (hlost (by decide)).trans (by decide)⟩

end Losses

end SberWifi.UdpPackets
