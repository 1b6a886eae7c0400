import SberWifi.BigEndian
import SberWifi.CJsonRoundTrip

namespace SberWifi.ControlSocket

open CJsonPrint CJsonParse CJsonRoundTrip

/-- What a system call on a socket does: it moves some bytes, at least one, or
fails with one of the kinds of errors that are told apart. -/
inductive Call
  | moves (n : Nat)
  | interrupted
  | noBuffers
  | fails

structure Transfer where
  moved : Bytes
  result : Int32
  calls : List Call

def netSoftError : Int32 := -1

def netHardError : Int32 := -2

def nwriteFrom (count : Nat) : List Call → Bytes → Transfer
  | calls, [] => ⟨[], Int32.ofNat count, calls⟩
  | [], buf => ⟨buf, Int32.ofNat count, []⟩
  | .moves n :: calls, buf =>
      let rest := nwriteFrom count calls (buf.drop (n + 1))
      { rest with moved := buf.take (n + 1) ++ rest.moved }
  | .interrupted :: calls, buf => ⟨[], Int32.ofNat (count - buf.length), calls⟩
  | .noBuffers :: calls, _ => ⟨[], netSoftError, calls⟩
  | .fails :: calls, _ => ⟨[], netHardError, calls⟩

def nwrite (calls : List Call) (buf : Bytes) : Transfer := nwriteFrom buf.length calls buf

/-- The loop of `Nread` on what the other side will have written before it closes. -/
def nreadFrom (count : Nat) : List Call → Bytes → Nat → Transfer
  | calls, _, 0 => ⟨[], Int32.ofNat count, calls⟩
  | calls, [], nleft => ⟨[], Int32.ofNat (count - nleft), calls⟩
  | [], stream, nleft => ⟨stream.take nleft, Int32.ofNat (count - (nleft - stream.length)), []⟩
  | .moves n :: calls, stream, nleft =>
      let got := stream.take (min (n + 1) nleft)
      let rest := nreadFrom count calls (stream.drop got.length) (nleft - got.length)
      { rest with moved := got ++ rest.moved }
  | .interrupted :: calls, _, nleft => ⟨[], Int32.ofNat (count - nleft), calls⟩
  | .noBuffers :: calls, _, _ | .fails :: calls, _, _ => ⟨[], netHardError, calls⟩

def nread (calls : List Call) (stream : Bytes) (count : Nat) : Transfer := nreadFrom count calls stream count

variable {Double : Type} {lib : CLib Double}

def cJSON_PrintUnformatted (lib : CLib Double) (item : CJSON Double) : Option Bytes := printValue lib false 0 item

/-- The length before the text is an unsigned number of 32 bits. -/
def jsonWrite (lib : CLib Double) (calls : List Call) (json : CJSON Double) : Transfer :=
  match cJSON_PrintUnformatted lib json with
  | none => ⟨[], -1, calls⟩
  | some str =>
      let hsize := str.length % 2 ^ 32
      let nsize := nwrite calls (BigEndian.encode 4 hsize)
      if nsize.result < 0 then { nsize with result := -1 }
      else
        let text := nwrite nsize.calls (str.take hsize)
        ⟨nsize.moved ++ text.moved, if text.result < 0 then -1 else 0, text.calls⟩

structure Reading (Double : Type) where
  json : Option (CJSON Double)
  stream : Bytes
  calls : List Call

/-- A length that is not read whole keeps the bytes that its variable had. -/
def jsonRead (clib : Strtod lib) (nsize : Bytes) (calls : List Call) (stream : Bytes) : Reading Double :=
  let size := nread calls stream 4
  if size.result < 0 then ⟨none, stream.drop size.moved.length, size.calls⟩
  else
    let hsize := BigEndian.decode (size.moved ++ nsize.drop size.moved.length)
    let rest := stream.drop size.moved.length
    let text := nread size.calls rest hsize
    ⟨if 0 ≤ text.result ∧ text.result.toInt.toNat = hsize then cJSON_Parse clib text.moved else none,
      rest.drop text.moved.length, text.calls⟩

section Calls

def Steady (calls : List Call) : Prop := ∀ call ∈ calls, ∃ n, call = .moves n

theorem Steady.moves {call : Call} {calls : List Call} (h : Steady (call :: calls)) :
    (∃ n, call = .moves n) ∧ Steady calls :=
  ⟨h call (by simp), fun c hc => h c (by simp [hc])⟩

theorem steady_nil : Steady [] := by
  intro call hcall
  cases hcall

theorem nwriteFrom_steady (count : Nat) {calls : List Call} (h : Steady calls) (buf : Bytes) :
    ∃ calls', Steady calls' ∧ nwriteFrom count calls buf = ⟨buf, Int32.ofNat count, calls'⟩ := by
  induction calls generalizing buf with
  | nil =>
      refine ⟨[], steady_nil, ?_⟩
      cases buf <;> rfl
  | cons call calls ih =>
      obtain ⟨⟨n, rfl⟩, hcalls⟩ := h.moves
      cases buf with
      | nil => exact ⟨_, h, rfl⟩
      | cons b buf =>
          obtain ⟨calls', hcalls', hrest⟩ := ih hcalls ((b :: buf).drop (n + 1))
          refine ⟨calls', hcalls', ?_⟩
          rw [nwriteFrom, hrest]
          · simp only [List.take_append_drop]
          · exact List.cons_ne_nil b buf

theorem nreadFrom_steady (count : Nat) {calls : List Call} (h : Steady calls) (stream : Bytes) (nleft : Nat) :
    ∃ calls', Steady calls' ∧ nreadFrom count calls stream nleft =
      ⟨stream.take nleft, Int32.ofNat (count - (nleft - stream.length)), calls'⟩ := by
  induction calls generalizing stream nleft with
  | nil =>
      refine ⟨[], steady_nil, ?_⟩
      cases nleft with
      | zero => simp [nreadFrom]
      | succ nleft => cases stream <;> simp [nreadFrom]
  | cons call calls ih =>
      obtain ⟨⟨n, rfl⟩, hcalls⟩ := h.moves
      cases nleft with
      | zero => exact ⟨_, h, by simp [nreadFrom]⟩
      | succ nleft =>
          cases stream with
          | nil => exact ⟨_, h, by simp [nreadFrom]⟩
          | cons b stream =>
              generalize hgot : (b :: stream).take (min (n + 1) (nleft + 1)) = got
              have hle : got.length ≤ nleft + 1 := by
                rw [← hgot, List.length_take]
                omega
              have htake : got = (b :: stream).take got.length := by
                rw [← hgot, List.length_take, List.take_eq_take_iff]
                omega
              obtain ⟨calls', hcalls', hrest⟩ := ih hcalls ((b :: stream).drop got.length) (nleft + 1 - got.length)
              refine ⟨calls', hcalls', ?_⟩
              have hwhole : got ++ ((b :: stream).drop got.length).take (nleft + 1 - got.length) =
                  (b :: stream).take (nleft + 1) := by
                calc got ++ ((b :: stream).drop got.length).take (nleft + 1 - got.length)
                    = (b :: stream).take got.length ++ ((b :: stream).drop got.length).take (nleft + 1 - got.length) :=
                      congrArg (· ++ _) htake
                  _ = (b :: stream).take (nleft + 1) := by rw [← List.take_add, Nat.add_sub_cancel' hle]
              have hcount : nleft + 1 - got.length - ((b :: stream).drop got.length).length =
                  nleft + 1 - (b :: stream).length := by
                have hlen : got.length ≤ (b :: stream).length := by
                  rw [htake, List.length_take]
                  omega
                rw [List.length_drop]
                omega
              rw [nreadFrom, hgot]
              · simp only [hrest, hwhole, hcount]
              · simp
              · simp

end Calls

def frame (str : Bytes) : Bytes := BigEndian.encode 4 str.length ++ str

variable (clib : Strtod lib)

theorem ofNat_nonneg {n : Nat} (hn : n < 2 ^ 31) : 0 ≤ Int32.ofNat n ∧ (Int32.ofNat n).toInt.toNat = n := by
  have hint := Int32.toInt_ofNat_of_lt hn
  refine ⟨?_, by rw [hint, Int.toNat_natCast]⟩
  rw [Int32.le_iff_toInt_le, hint]
  exact Int.natCast_nonneg n

theorem jsonWrite_steady {calls : List Call} (h : Steady calls) {json : CJSON Double} {str : Bytes}
    (hprint : cJSON_PrintUnformatted lib json = some str) (hlength : str.length < 2 ^ 31) :
    ∃ calls', Steady calls' ∧ jsonWrite lib calls json = ⟨frame str, 0, calls'⟩ := by
  have hsize : str.length % 2 ^ 32 = str.length := Nat.mod_eq_of_lt (by omega)
  obtain ⟨calls1, h1, hwrite1⟩ := nwriteFrom_steady 4 h (BigEndian.encode 4 str.length)
  obtain ⟨calls2, h2, hwrite2⟩ := nwriteFrom_steady str.length h1 str
  refine ⟨calls2, h2, ?_⟩
  rw [jsonWrite, hprint]
  simp only [nwrite, hsize, BigEndian.length_encode, hwrite1, List.take_length, hwrite2]
  rw [if_neg (Int32.not_lt.2 (ofNat_nonneg (by decide)).1), if_neg (Int32.not_lt.2 (ofNat_nonneg hlength).1)]
  rfl

/-- What is read of a stream that ends at some point. -/
theorem jsonRead_eq (nsize : Bytes) {calls : List Call} (h : Steady calls) (stream : Bytes) {hsize : Nat}
    (hhsize : BigEndian.decode (stream.take 4 ++ nsize.drop (stream.take 4).length) = hsize) :
    ∃ calls', Steady calls' ∧ jsonRead clib nsize calls stream =
      ⟨if 0 ≤ Int32.ofNat (min hsize (stream.drop 4).length) ∧
          (Int32.ofNat (min hsize (stream.drop 4).length)).toInt.toNat = hsize
        then cJSON_Parse clib ((stream.drop 4).take hsize) else none, (stream.drop 4).drop hsize, calls'⟩ := by
  obtain ⟨calls1, h1, hread1⟩ := nreadFrom_steady 4 h stream 4
  obtain ⟨calls2, h2, hread2⟩ := nreadFrom_steady hsize h1 (stream.drop 4) hsize
  have hdrop (s : Bytes) (n : Nat) : s.drop (s.take n).length = s.drop n := by
    rw [List.length_take, List.drop_eq_drop_iff]
    omega
  have hpositive : ¬ Int32.ofNat (4 - (4 - stream.length)) < 0 := Int32.not_lt.2 (ofNat_nonneg (by omega)).1
  have hcount : hsize - (hsize - (stream.drop 4).length) = min hsize (stream.drop 4).length := by omega
  refine ⟨calls2, h2, ?_⟩
  rw [jsonRead]
  simp only [nread, hread1, hdrop, hhsize, hread2, hcount]
  rw [if_neg hpositive]

theorem frame_head (str : Bytes) : (frame str).take 4 = BigEndian.encode 4 str.length ∧ (frame str).drop 4 = str :=
  ⟨List.take_left' (BigEndian.length_encode 4 _), List.drop_left' (BigEndian.length_encode 4 _)⟩

theorem frame_length (str : Bytes) : (frame str).length = 4 + str.length := by
  rw [frame, List.length_append, BigEndian.length_encode]

theorem decode_frame {stream str nsize : Bytes} (hnsize : nsize.length = 4)
    (hhead : stream.take 4 = BigEndian.encode 4 str.length) (hlength : str.length < 2 ^ 31) :
    BigEndian.decode (stream.take 4 ++ nsize.drop (stream.take 4).length) = str.length := by
  rw [hhead, BigEndian.length_encode, List.drop_of_length_le hnsize.le, List.append_nil, BigEndian.decode_encode]
  omega

theorem cJSON_Parse_empty : cJSON_Parse clib [] = none := by
  have hvalue : parseValue clib nestingLimit [0] = none := by
    rw [parseValue_other clib (by decide) (by decide) (by decide), if_neg (by decide), if_neg (by decide)]
    rfl
  change (parseValue clib nestingLimit [0]).map Prod.fst = none
  rw [hvalue]
  rfl

variable {nsize : Bytes} (hnsize : nsize.length = 4)
include hnsize

theorem jsonRead_steady {calls : List Call} (h : Steady calls) {str : Bytes} (hlength : str.length < 2 ^ 31)
    (rest : Bytes) : ∃ calls', Steady calls' ∧
      jsonRead clib nsize calls (frame str ++ rest) = ⟨cJSON_Parse clib str, rest, calls'⟩ := by
  have hle : 4 ≤ (frame str).length := by
    rw [frame_length]
    omega
  have htake : (frame str ++ rest).take 4 = BigEndian.encode 4 str.length := by
    rw [List.take_append_of_le_length hle, (frame_head str).1]
  have hdrop : (frame str ++ rest).drop 4 = str ++ rest := by
    rw [List.drop_append_of_le_length hle, (frame_head str).2]
  obtain ⟨calls', hcalls', hread⟩ := jsonRead_eq clib nsize h (frame str ++ rest) (decode_frame hnsize htake hlength)
  refine ⟨calls', hcalls', ?_⟩
  have hmin : min str.length (str ++ rest).length = str.length := by
    rw [List.length_append]
    omega
  rw [hread, hdrop, hmin, List.take_left, List.drop_left, if_pos (ofNat_nonneg hlength)]

/-- A frame that is not complete is not read as a tree. -/
theorem jsonRead_truncated {calls : List Call} (h : Steady calls) {str stream : Bytes}
    (hlength : str.length < 2 ^ 31) (hstart : stream <+: frame str) (hne : stream ≠ frame str) :
    ∃ calls', Steady calls' ∧ jsonRead clib nsize calls stream = ⟨none, [], calls'⟩ := by
  have hshort : stream.length < 4 + str.length := by
    have hle := hstart.length_le
    have hlen : stream.length ≠ (frame str).length := fun heq => hne (hstart.eq_of_length heq)
    rw [frame_length] at hle hlen
    omega
  by_cases hsize : stream.length < 4
  · obtain ⟨calls', hcalls', hread⟩ := jsonRead_eq clib nsize h stream rfl
    have hrest : stream.drop 4 = [] := List.drop_of_length_le hsize.le
    refine ⟨calls', hcalls', ?_⟩
    rw [hread, hrest, List.take_nil, cJSON_Parse_empty, ite_self, List.drop_nil]
  · have htake : stream.take 4 = BigEndian.encode 4 str.length := by
      obtain ⟨t, ht⟩ := hstart
      rw [← (frame_head str).1, ← ht, List.take_append_of_le_length (Nat.not_lt.1 hsize)]
    obtain ⟨calls', hcalls', hread⟩ := jsonRead_eq clib nsize h stream (decode_frame hnsize htake hlength)
    have hless : (stream.drop 4).length < str.length := by
      rw [List.length_drop]
      omega
    refine ⟨calls', hcalls', ?_⟩
    rw [hread, Nat.min_eq_right hless.le, List.drop_of_length_le hless.le, if_neg]
    rintro ⟨-, hcount⟩
    rw [(ofNat_nonneg (hless.trans hlength)).2] at hcount
    exact hless.ne hcount

omit hnsize

def writeAll (lib : CLib Double) : List Call → List (CJSON Double) → List Int32 × Bytes
  | _, [] => ([], [])
  | calls, json :: jsons =>
      let written := jsonWrite lib calls json
      let rest := writeAll lib written.calls jsons
      (written.result :: rest.1, written.moved ++ rest.2)

def readAll (nsize : Bytes) : Nat → List Call → Bytes → List (Option (CJSON Double))
  | 0, _, _ => []
  | n + 1, calls, stream =>
      let reading := jsonRead clib nsize calls stream
      reading.json :: readAll nsize n reading.calls reading.stream

def Sendable (lib : CLib Double) (json : CJSON Double) : Prop :=
  hasRaw json = false ∧ ∃ str, cJSON_PrintUnformatted lib json = some str ∧ str.length < 2 ^ 31

/-- A tree arrives, unless it is nested deeper than the parser goes. -/
def Arrives (lib : CLib Double) (json : CJSON Double) (received : Option (CJSON Double)) : Prop :=
  (nesting json ≤ nestingLimit → ∃ json', received = some json' ∧ Agrees lib json json') ∧
    (nestingLimit < nesting json → received = none)

def frames (lib : CLib Double) (jsons : List (CJSON Double)) : Bytes :=
  jsons.flatMap fun json => frame ((cJSON_PrintUnformatted lib json).getD [])

theorem writeAll_steady {jsons : List (CJSON Double)} (hjsons : ∀ json ∈ jsons, Sendable lib json)
    {calls : List Call} (h : Steady calls) :
    writeAll lib calls jsons = (jsons.map fun _ => 0, frames lib jsons) := by
  induction jsons generalizing calls with
  | nil => rfl
  | cons json jsons ih =>
      obtain ⟨-, str, hprint, hlength⟩ := hjsons json (by simp)
      obtain ⟨calls', hcalls', hwrite⟩ := jsonWrite_steady h hprint hlength
      rw [writeAll, hwrite]
      dsimp only
      rw [ih (fun json hjson => hjsons json (by simp [hjson])) hcalls', frames, frames, List.map_cons,
        List.flatMap_cons, hprint]
      rfl

include hnsize

theorem readAll_nil {calls : List Call} (h : Steady calls) (n : Nat) :
    readAll clib nsize n calls [] = List.replicate n none := by
  induction n generalizing calls with
  | zero => rfl
  | succ n ih =>
      have hne : [] ≠ frame [] := by decide
      obtain ⟨calls', hcalls', hread⟩ := jsonRead_truncated clib hnsize h (by decide) (List.nil_prefix) hne
      rw [readAll, hread]
      dsimp only
      rw [ih hcalls', List.replicate_succ]

/-- Of a stream that is cut off, the trees whose frames are complete are read. -/
theorem readAll_cut {jsons : List (CJSON Double)} (hjsons : ∀ json ∈ jsons, Sendable lib json) {calls : List Call}
    (h : Steady calls) {stream : Bytes} (hstart : stream <+: frames lib jsons) :
    ∃ n received, n ≤ jsons.length ∧ List.Forall₂ (Arrives lib) (jsons.take n) received ∧
      readAll clib nsize jsons.length calls stream = received ++ List.replicate (jsons.length - n) none ∧
      frames lib (jsons.take n) <+: stream ∧
      (n < jsons.length → stream.length < (frames lib (jsons.take (n + 1))).length) := by
  induction jsons generalizing calls stream with
  | nil =>
      obtain rfl : stream = [] := List.prefix_nil.1 hstart
      exact ⟨0, [], le_rfl, .nil, rfl, List.nil_prefix, fun hn => (Nat.lt_irrefl 0 hn).elim⟩
  | cons json jsons ih =>
      obtain ⟨hraw, str, hprint, hlength⟩ := hjsons json (by simp)
      have hsplit (l : List (CJSON Double)) : frames lib (json :: l) = frame str ++ frames lib l := by
        rw [frames, List.flatMap_cons, hprint]
        rfl
      rw [hsplit] at hstart
      by_cases hwhole : (frame str).length ≤ stream.length
      · obtain ⟨rest, rfl⟩ := List.prefix_of_prefix_length_le (List.prefix_append _ _) hstart hwhole
        rw [List.prefix_append_right_inj] at hstart
        obtain ⟨calls', hcalls', hread⟩ := jsonRead_steady clib hnsize h hlength rest
        obtain ⟨n, received, hn, hreceived, hrest, hwhole, hcut⟩ :=
          ih (fun json hjson => hjsons json (by simp [hjson])) hcalls' hstart
        refine ⟨n + 1, cJSON_Parse clib str :: received, Nat.succ_le_succ hn, ?_, ?_, ?_, ?_⟩
        · exact .cons (cJSON_Parse_agrees clib hraw hprint) hreceived
        · rw [List.length_cons, readAll, hread]
          dsimp only
          rw [hrest, Nat.add_sub_add_right]
          rfl
        · rw [List.take_succ_cons, hsplit, List.prefix_append_right_inj]
          exact hwhole
        · intro hlt
          rw [List.take_succ_cons, hsplit, List.length_append, List.length_append]
          exact Nat.add_lt_add_left (hcut (Nat.lt_of_succ_lt_succ hlt)) _
      · have hshort : stream <+: frame str :=
          List.prefix_of_prefix_length_le hstart (List.prefix_append _ _) (Nat.not_le.1 hwhole).le
        have hne : stream ≠ frame str := fun heq => hwhole (heq ▸ le_rfl)
        obtain ⟨calls', hcalls', hread⟩ := jsonRead_truncated clib hnsize h hlength hshort hne
        refine ⟨0, [], Nat.zero_le _, .nil, ?_, List.nil_prefix, fun _ => ?_⟩
        · rw [List.length_cons, readAll, hread]
          dsimp only
          rw [readAll_nil clib hnsize hcalls']
          rfl
        · rw [List.take_succ_cons, List.take_zero, hsplit, List.length_append]
          omega

/-- Trees that are written arrive in their order, however the socket cuts the
bytes up. When the connection ends early, exactly those are read that were sent
whole. -/
theorem trees_arrive {jsons : List (CJSON Double)} (hjsons : ∀ json ∈ jsons, Sendable lib json)
    {writes reads : List Call} (hwrites : Steady writes) (hreads : Steady reads) {stream : Bytes}
    (hstream : stream <+: (writeAll lib writes jsons).2) :
    (∀ result ∈ (writeAll lib writes jsons).1, result = 0) ∧
    ∃ n received, n ≤ jsons.length ∧ List.Forall₂ (Arrives lib) (jsons.take n) received ∧
      readAll clib nsize jsons.length reads stream = received ++ List.replicate (jsons.length - n) none ∧
      (writeAll lib writes (jsons.take n)).2 <+: stream ∧
      (n < jsons.length → stream.length < (writeAll lib writes (jsons.take (n + 1))).2.length) := by
  have hsent := writeAll_steady hjsons hwrites
  rw [hsent] at hstream ⊢
  refine ⟨by simp, ?_⟩
  obtain ⟨n, received, hn, hreceived, hread, hwhole, hcut⟩ := readAll_cut clib hnsize hjsons hreads hstream
  have hframes (m : Nat) : (writeAll lib writes (jsons.take m)).2 = frames lib (jsons.take m) := by
    rw [writeAll_steady (fun json hjson => hjsons json (List.mem_of_mem_take hjson)) hwrites]
  refine ⟨n, received, hn, hreceived, hread, ?_, fun hlt => ?_⟩
  · rwa [hframes]
  · rw [hframes]
    exact hcut hlt

omit hnsize

theorem sampleReport_sendable : Sendable oneDigit sampleReport := ⟨rfl, sampleText, sampleText_eq, by decide⟩

theorem steady_moves (n : Nat) : Steady [.moves n] := by
  intro call hcall
  exact ⟨n, List.mem_singleton.1 hcall⟩

/-- The second tree is cut off. -/
theorem trees_arrive_sample : ∃ received, Arrives oneDigit sampleReport received ∧
    readAll oneDigitStrtod [0, 0, 0, 0] 2 [.moves 1] (frame sampleText ++ [0, 0]) = [received, none] := by
  have hstart : frame sampleText ++ [0, 0] <+: (writeAll oneDigit [.moves 2] [sampleReport, sampleReport]).2 := by
    decide
  obtain ⟨-, n, received, hn, hreceived, hread, hwhole, hcut⟩ :=
    trees_arrive oneDigitStrtod (show ([0, 0, 0, 0] : Bytes).length = 4 from rfl) (fun json hjson => by
      simp only [List.mem_cons, List.not_mem_nil, or_false, or_self] at hjson
      exact hjson ▸ sampleReport_sendable) (steady_moves 2) (steady_moves 1) hstart
  have hone : n = 1 := by
    have hle := hwhole.length_le
    rcases n with - | - | - | n
    · exact absurd (hcut (by decide)) (by decide)
    · rfl
    · exact absurd hle (by decide)
    · exact absurd hn (by simp)
  subst hone
  cases hreceived with
  | @cons _ a _ _ harrives hnil =>
      cases hnil
      exact ⟨a, harrives, hread⟩

end SberWifi.ControlSocket
