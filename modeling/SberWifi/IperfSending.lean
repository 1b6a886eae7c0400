import Mathlib.Algebra.Order.Ring.Nat
import SberWifi.Runs

namespace SberWifi.IperfSending

open Runs

/-- A stream, and whether its socket is in the set that is given to `iperf_send`. -/
structure Stream where
  sender : Bool
  green_light : Bool
  ready : Bool
  deriving DecidableEq

structure Test where
  multisend : Int32
  burst : Int32
  rate : UInt64
  bytes : UInt64
  blocks : UInt64
  duration : Int32
  bytes_sent : UInt64
  blocks_sent : UInt64
  omitting : Bool
  done : Bool
  streams : List Stream

/-- What is not decided here: what the calls of `snd` return, and which lights
`iperf_check_throttle` gives after a call and after a burst. -/
structure Calls where
  snd : Nat → Int
  green : Nat → Bool
  greenAfter : Nat → Bool

def netSoftError : Int := -1

section Sending

variable (calls : Calls)

structure Pass where
  streams : List Stream
  bytes_sent : UInt64
  blocks_sent : UInt64
  streams_active : Bool
  call : Nat
  error : Option Int

def reached (test : Test) (bytes_sent blocks_sent : UInt64) : Bool :=
  (test.bytes ≠ 0 ∧ bytes_sent ≥ test.bytes) ∨ (test.blocks ≠ 0 ∧ blocks_sent ≥ test.blocks)

def throttles (test : Test) : Bool := test.rate ≠ 0 ∧ test.burst = 0

/-- The loop over the streams. In the last pass it goes on when a limit is reached. -/
def sendPass (test : Test) (multisend : Nat) : List Stream → UInt64 → UInt64 → Bool → Nat → Pass
  | [], bytes_sent, blocks_sent, streams_active, call => ⟨[], bytes_sent, blocks_sent, streams_active, call, none⟩
  | sp :: streams, bytes_sent, blocks_sent, streams_active, call =>
      if sp.green_light ∧ sp.sender ∧ sp.ready then
        let r := calls.snd call
        if r < 0 then
          ⟨sp :: streams, bytes_sent, blocks_sent, streams_active, call + 1, if r = netSoftError then none else some r⟩
        else
          let bytes_sent := bytes_sent + .ofInt r
          let blocks_sent := blocks_sent + 1
          let sp := if throttles test ∧ ¬ test.done then { sp with green_light := calls.green call } else sp
          if multisend > 1 ∧ reached test bytes_sent blocks_sent then
            ⟨sp :: streams, bytes_sent, blocks_sent, true, call + 1, none⟩
          else
            let pass := sendPass test multisend streams bytes_sent blocks_sent true (call + 1)
            { pass with streams := sp :: pass.streams }
      else
        let pass := sendPass test multisend streams bytes_sent blocks_sent streams_active call
        { pass with streams := sp :: pass.streams }

def sendFrom : Nat → Nat → Test → Test × Option Int
  | 0, _, test => (test, none)
  | multisend + 1, call, test =>
      let pass := sendPass calls test (multisend + 1) test.streams test.bytes_sent test.blocks_sent false call
      let test := { test with
        streams := pass.streams, bytes_sent := pass.bytes_sent, blocks_sent := pass.blocks_sent }
      if pass.error.isSome then (test, pass.error)
      else if ¬ pass.streams_active then (test, none)
      else sendFrom multisend pass.call test

def passes (test : Test) : Nat :=
  (if test.burst ≠ 0 then test.burst else if test.rate = 0 then test.multisend else 1).toInt.toNat

def iperfSend (test : Test) : Test × Option Int :=
  match sendFrom calls (passes test) 0 test with
  | (test, some r) => (test, some r)
  | (test, none) =>
      let lights := if test.burst ≠ 0 ∧ ¬ test.done then
          test.streams.mapIdx fun i sp => { sp with green_light := calls.greenAfter i }
        else test.streams
      ({ test with streams := lights.map fun sp => { sp with ready := false } }, none)

end Sending

section Client

inductive Status
  | running
  | ended
  | failed (error : Int)

structure State where
  test : Test
  status : Status

/-- One round of the loop of a client that sends: the sockets that `select` gives, the
calls, and which of the timers go off. The send timer of a stream gives it a light. -/
structure Round where
  ready : Nat → Bool
  calls : Calls
  lights : Nat → Option Bool
  omitDone : Bool
  testDone : Bool

def select (ready : Nat → Bool) (test : Test) : Test :=
  { test with streams := test.streams.mapIdx fun i sp => { sp with ready := ready i } }

def omitTimerProc (test : Test) : Test :=
  { test with omitting := false, bytes_sent := 0, blocks_sent := 0 }

/-- `send_timer_proc` for the streams whose timers go off. Only a test with a rate has them. -/
def sendTimerProc (lights : Nat → Option Bool) (test : Test) : Test :=
  if test.rate ≠ 0 ∧ ¬ test.done then
    { test with
      streams := test.streams.mapIdx fun i sp => { sp with green_light := (lights i).getD sp.green_light } }
  else test

def tmrRun (round : Round) (test : Test) : Test :=
  let test := sendTimerProc round.lights test
  let test := if round.omitDone ∧ test.omitting then omitTimerProc test else test
  if round.testDone then { test with done := true } else test

def finished (test : Test) : Bool :=
  ¬ test.omitting ∧ ((test.duration ≠ 0 ∧ test.done) ∨ reached test test.bytes_sent test.blocks_sent)

def step (s : State) (round : Round) : State :=
  match s.status with
  | .running =>
      match iperfSend round.calls (select round.ready s.test) with
      | (test, some r) => ⟨test, .failed r⟩
      | (test, none) =>
          let test := tmrRun round test
          if finished test then ⟨{ test with done := true }, .ended⟩ else ⟨test, .running⟩
  | _ => s

end Client

section Limits

/-- A limit on what is counted, to which no call adds more than `most`. -/
structure Limit where
  limit : Nat
  count : UInt64 → UInt64 → Nat
  most : Nat

def Limit.Fits (l : Limit) (calls : Calls) : Prop :=
  ∀ call bytes_sent blocks_sent, 0 ≤ calls.snd call →
    l.count (bytes_sent + .ofInt (calls.snd call)) (blocks_sent + 1) ≤ l.count bytes_sent blocks_sent + l.most

def Limit.Seen (l : Limit) (test : Test) : Prop :=
  ∀ bytes_sent blocks_sent, l.limit ≤ l.count bytes_sent blocks_sent → reached test bytes_sent blocks_sent

def Limit.above (l : Limit) (bytes_sent blocks_sent : UInt64) : Nat := max (l.count bytes_sent blocks_sent + 1) l.limit

variable {l : Limit} {calls : Calls} {test : Test}

theorem sendPass_length (multisend : Nat) (streams : List Stream) (bytes_sent blocks_sent : UInt64) (active : Bool)
    (call : Nat) :
    (sendPass calls test multisend streams bytes_sent blocks_sent active call).streams.length = streams.length := by
  induction streams generalizing bytes_sent blocks_sent active call with
  | nil => rfl
  | cons sp streams ih =>
      rw [sendPass]
      split
      · dsimp only
        split
        · rfl
        · split
          · rfl
          · exact congrArg (· + 1) (ih ..)
      · exact congrArg (· + 1) (ih ..)

/-- Every stream sends once in a pass, at most. -/
theorem sendPass_le (hfits : l.Fits calls) (multisend : Nat) (streams : List Stream) (bytes_sent blocks_sent : UInt64)
    (active : Bool) (call : Nat) {pass : Pass}
    (hpass : sendPass calls test multisend streams bytes_sent blocks_sent active call = pass) :
    l.count pass.bytes_sent pass.blocks_sent ≤ l.count bytes_sent blocks_sent + streams.length * l.most := by
  subst hpass
  induction streams generalizing bytes_sent blocks_sent active call with
  | nil => exact Nat.le_add_right _ _
  | cons sp streams ih =>
      rw [sendPass, List.length_cons, Nat.succ_mul]
      split
      · dsimp only
        split
        · exact Nat.le_add_right _ _
        · rename_i hr
          have hsent := hfits call bytes_sent blocks_sent (Int.not_lt.1 hr)
          split
          · dsimp only
            omega
          · have hrest := ih (bytes_sent + .ofInt (calls.snd call)) (blocks_sent + 1) true (call + 1)
            dsimp only
            omega
      · have hrest := ih bytes_sent blocks_sent active call
        dsimp only
        omega

/-- A pass that is not the last one ends when the limit is reached. -/
theorem sendPass_lt (hfits : l.Fits calls) (hseen : l.Seen test) {multisend : Nat} (hpasses : 1 < multisend)
    (streams : List Stream) (bytes_sent blocks_sent : UInt64) (active : Bool) (call : Nat) {pass : Pass}
    (hpass : sendPass calls test multisend streams bytes_sent blocks_sent active call = pass) :
    l.count pass.bytes_sent pass.blocks_sent < l.above bytes_sent blocks_sent + l.most := by
  subst hpass
  induction streams generalizing bytes_sent blocks_sent active call with
  | nil =>
      rw [sendPass, Limit.above]
      dsimp only
      omega
  | cons sp streams ih =>
      rw [sendPass]
      split
      · dsimp only
        split
        · rw [Limit.above]
          dsimp only
          omega
        · rename_i hr
          have hsent := hfits call bytes_sent blocks_sent (Int.not_lt.1 hr)
          split
          · rw [Limit.above]
            dsimp only
            omega
          · rename_i hgoes
            have hbelow : l.count (bytes_sent + .ofInt (calls.snd call)) (blocks_sent + 1) < l.limit := by
              by_contra hlimit
              exact hgoes ⟨hpasses, hseen _ _ (Nat.not_lt.1 hlimit)⟩
            have hrest := ih (bytes_sent + .ofInt (calls.snd call)) (blocks_sent + 1) true (call + 1)
            rw [Limit.above] at hrest ⊢
            dsimp only
            omega
      · exact ih ..

/-- The passes after the one that reaches the limit send once each, and the last one
once for each stream. -/
theorem sendFrom_lt (hfits : l.Fits calls) (multisend call : Nat) (test : Test) (hseen : l.Seen test) :
    l.count (sendFrom calls multisend call test).1.bytes_sent (sendFrom calls multisend call test).1.blocks_sent <
      l.above test.bytes_sent test.blocks_sent + (multisend - 1 + test.streams.length) * l.most := by
  induction multisend generalizing call test with
  | zero =>
      rw [sendFrom, Limit.above]
      dsimp only
      omega
  | succ multisend ih =>
      rw [sendFrom]
      generalize hpass : sendPass calls test (multisend + 1) test.streams test.bytes_sent test.blocks_sent false call =
        pass
      have hlength : pass.streams.length = test.streams.length := by rw [← hpass, sendPass_length]
      have hle := sendPass_le hfits _ _ _ _ _ _ hpass
      cases multisend with
      | zero =>
          have hlast : l.count pass.bytes_sent pass.blocks_sent <
              l.above test.bytes_sent test.blocks_sent + (0 + 1 - 1 + test.streams.length) * l.most := by
            rw [Limit.above, show 0 + 1 - 1 + test.streams.length = test.streams.length by omega]
            omega
          split
          · exact hlast
          · split <;> exact hlast
      | succ multisend =>
          have hlt := sendPass_lt hfits hseen (Nat.succ_lt_succ (Nat.succ_pos multisend)) _ _ _ _ _ hpass
          have hmore : (multisend + 1 + 1 - 1 + test.streams.length) * l.most =
              l.most + (multisend + test.streams.length) * l.most := by
            rw [show multisend + 1 + 1 - 1 + test.streams.length = multisend + test.streams.length + 1 by omega,
              Nat.succ_mul, Nat.add_comm]
          rw [hmore]
          split
          · dsimp only
            omega
          · split
            · dsimp only
              omega
            · have hrest := ih pass.call { test with
                streams := pass.streams, bytes_sent := pass.bytes_sent, blocks_sent := pass.blocks_sent } hseen
              dsimp only at hrest
              rw [hlength, Nat.add_sub_cancel] at hrest
              rw [Limit.above] at hrest hlt ⊢
              omega

def Sent (test test' : Test) : Prop :=
  ∃ streams bytes_sent blocks_sent, streams.length = test.streams.length ∧
    test' = { test with streams, bytes_sent, blocks_sent }

theorem Sent.trans {test test' test'' : Test} (h : Sent test test') (h' : Sent test' test'') : Sent test test'' := by
  obtain ⟨streams, bytes_sent, blocks_sent, hlength, rfl⟩ := h
  obtain ⟨streams', bytes_sent', blocks_sent', hlength', rfl⟩ := h'
  exact ⟨streams', bytes_sent', blocks_sent', hlength'.trans hlength, rfl⟩

theorem sendFrom_sent (multisend call : Nat) (test : Test) : Sent test (sendFrom calls multisend call test).1 := by
  induction multisend generalizing call test with
  | zero => exact ⟨_, _, _, rfl, rfl⟩
  | succ multisend ih =>
      rw [sendFrom]
      generalize hpass : sendPass calls test (multisend + 1) test.streams test.bytes_sent test.blocks_sent false call =
        pass
      have hlength : pass.streams.length = test.streams.length := by rw [← hpass, sendPass_length]
      have hsent : Sent test { test with
          streams := pass.streams, bytes_sent := pass.bytes_sent, blocks_sent := pass.blocks_sent } :=
        ⟨_, _, _, hlength, rfl⟩
      split
      · exact hsent
      · split
        · exact hsent
        · exact hsent.trans (ih ..)

theorem iperfSend_sent (calls : Calls) (test : Test) : Sent test (iperfSend calls test).1 := by
  have hsent : Sent test (sendFrom calls (passes test) 0 test).1 := sendFrom_sent ..
  rw [iperfSend]
  generalize sendFrom calls (passes test) 0 test = r at hsent
  obtain ⟨test', error⟩ := r
  cases error with
  | some r => exact hsent
  | none =>
      refine hsent.trans ⟨_, _, _, ?_, rfl⟩
      dsimp only
      split <;> simp

theorem iperfSend_lt (hfits : l.Fits calls) (hseen : l.Seen test) :
    l.count (iperfSend calls test).1.bytes_sent (iperfSend calls test).1.blocks_sent <
      l.above test.bytes_sent test.blocks_sent + (passes test - 1 + test.streams.length) * l.most := by
  have hlt := sendFrom_lt hfits (passes test) 0 test hseen
  rw [iperfSend]
  generalize sendFrom calls (passes test) 0 test = r at hlt ⊢
  obtain ⟨test', error⟩ := r
  cases error <;> exact hlt

theorem sendTimerProc_lights (lights : Nat → Option Bool) (test : Test) :
    ∃ streams, streams.length = test.streams.length ∧ sendTimerProc lights test = { test with streams } := by
  rw [sendTimerProc]
  split
  · exact ⟨_, List.length_mapIdx, rfl⟩
  · exact ⟨test.streams, rfl, rfl⟩

/-- The timers end the omitted period, or change nothing that is counted. -/
theorem tmrRun_cases (round : Round) (test : Test) :
    ∃ streams done, streams.length = test.streams.length ∧ (tmrRun round test = { test with streams, done } ∨
      tmrRun round test = { omitTimerProc test with streams, done }) := by
  obtain ⟨streams, hlength, heq⟩ := sendTimerProc_lights round.lights test
  rw [tmrRun, heq]
  dsimp only
  by_cases homit : round.omitDone ∧ test.omitting
  · rw [if_pos homit]
    split
    · exact ⟨streams, true, hlength, .inr rfl⟩
    · exact ⟨streams, test.done, hlength, .inr rfl⟩
  · rw [if_neg homit]
    split
    · exact ⟨streams, true, hlength, .inl rfl⟩
    · exact ⟨streams, test.done, hlength, .inl rfl⟩

structure Kept (l : Limit) (start : Test) (s : State) : Prop where
  settings : ∃ omitting done, Sent { start with omitting, done } s.test
  running : s.status = .running → finished s.test = false
  ended : s.status = .ended → finished s.test
  bound : s.test.omitting = false → l.count s.test.bytes_sent s.test.blocks_sent <
    l.limit + (passes start - 1 + start.streams.length) * l.most

theorem below_of_running {test : Test} (hseen : l.Seen test) (hrunning : finished test = false)
    (hcounts : test.omitting = false) : l.count test.bytes_sent test.blocks_sent < l.limit := by
  by_contra hlimit
  have hreached := hseen _ _ (Nat.not_lt.1 hlimit)
  rw [finished, hreached, hcounts] at hrunning
  simp at hrunning

theorem finished_done {test : Test} (h : finished test) : finished { test with done := true } := by
  simp only [finished, reached, decide_eq_true_eq] at h ⊢
  exact ⟨h.1, h.2.imp_left fun hdone => ⟨hdone.1, trivial⟩⟩

theorem kept_after {start test : Test} (omitting done : Bool) (hsent : Sent { start with omitting, done } test)
    (hbound : test.omitting = false → l.count test.bytes_sent test.blocks_sent <
      l.limit + (passes start - 1 + start.streams.length) * l.most) :
    Kept l start (if finished test then ⟨{ test with done := true }, .ended⟩ else ⟨test, .running⟩) := by
  cases hfinished : finished test with
  | true =>
      obtain ⟨streams, bytes_sent, blocks_sent, hlength, rfl⟩ := hsent
      exact ⟨⟨omitting, true, _, _, _, hlength, rfl⟩, fun h => (by cases h), fun _ => finished_done hfinished, hbound⟩
  | false => exact ⟨⟨omitting, done, hsent⟩, fun _ => hfinished, fun h => (by cases h), hbound⟩

theorem kept_step {start : Test} (hseen : l.Seen start) (hzero : l.count 0 0 < l.limit) (s : State) (round : Round)
    (h : Kept l start s) (hfits : l.Fits round.calls) : Kept l start (step s round) := by
  rw [step]
  split
  · rename_i hrunning
    obtain ⟨omitting, done, hsettings⟩ := h.settings
    have hselect : Sent s.test (select round.ready s.test) := ⟨_, _, _, by rw [List.length_mapIdx], rfl⟩
    have hbefore := hsettings.trans hselect
    have hsent := iperfSend_sent round.calls (select round.ready s.test)
    have hlt : s.test.omitting = false →
        l.count (iperfSend round.calls (select round.ready s.test)).1.bytes_sent
          (iperfSend round.calls (select round.ready s.test)).1.blocks_sent <
        l.limit + (passes start - 1 + start.streams.length) * l.most := by
      intro hcounts
      obtain ⟨streams, bytes_sent, blocks_sent, hlength, heq⟩ := hbefore
      have hseen' : l.Seen (select round.ready s.test) := by
        rw [heq]
        exact hseen
      have hbelow : l.count s.test.bytes_sent s.test.blocks_sent < l.limit :=
        below_of_running hseen' (h.running hrunning) hcounts
      have hcount := iperfSend_lt hfits hseen'
      have habove : l.above (select round.ready s.test).bytes_sent (select round.ready s.test).blocks_sent = l.limit :=
        Nat.max_eq_right hbelow
      rw [habove, heq] at hcount
      rw [heq, ← hlength]
      exact hcount
    have hafter := hbefore.trans hsent
    have homitting : (iperfSend round.calls (select round.ready s.test)).1.omitting = s.test.omitting := by
      obtain ⟨_, _, _, -, heq⟩ := hsent
      rw [heq]
      rfl
    rw [← homitting] at hlt
    generalize iperfSend round.calls (select round.ready s.test) = r at hlt hafter
    obtain ⟨test, error⟩ := r
    cases error with
    | some r => exact ⟨⟨omitting, done, hafter⟩, fun h => (by cases h), fun h => (by cases h), hlt⟩
    | none =>
        obtain ⟨streams, bytes_sent, blocks_sent, hlength, rfl⟩ := hafter
        obtain ⟨streams', done', hlights, heq | heq⟩ := tmrRun_cases round
          { start with omitting, done, streams, bytes_sent, blocks_sent }
        · dsimp only
          rw [heq]
          exact kept_after omitting done' ⟨_, _, _, hlights.trans hlength, rfl⟩ hlt
        · dsimp only
          rw [heq]
          exact kept_after false done' ⟨_, _, _, hlights.trans hlength, rfl⟩ fun _ =>
            hzero.trans_le (Nat.le_add_right _ _)
  · exact h

theorem kept_run {start : Test} (hseen : l.Seen start) (hzero : l.count 0 0 < l.limit)
    (hcount : l.count start.bytes_sent start.blocks_sent < l.limit) (hfinished : finished start = false)
    {rounds : List Round} (hfits : ∀ round ∈ rounds, l.Fits round.calls) :
    Kept l start (run step ⟨start, .running⟩ rounds) := by
  refine run_invariant (Kept l start) (kept_step hseen hzero) ?_ (along_of_forall hfits _)
  exact ⟨⟨_, _, _, _, _, rfl, rfl⟩, fun _ => hfinished, fun h => (by cases h), fun _ =>
    hcount.trans_le (Nat.le_add_right _ _)⟩

end Limits

section Totals

theorem toNat_ofInt_le {r : Int} (hr : 0 ≤ r) : (UInt64.ofInt r).toNat ≤ r.toNat := by
  obtain ⟨n, rfl⟩ := Int.eq_ofNat_of_zero_le hr
  rw [UInt64.ofInt, UInt64.toNat_ofNat', Int.toNat_natCast]
  refine (Nat.mod_le _ _).trans ?_
  omega

theorem toNat_add_le (a b : UInt64) : (a + b).toNat ≤ a.toNat + b.toNat := by
  rw [UInt64.toNat_add]
  exact Nat.mod_le _ _

def bytesLimit (bytes : UInt64) (blksize : Nat) : Limit := ⟨bytes.toNat, fun bytes_sent _ => bytes_sent.toNat, blksize⟩

def blocksLimit (blocks : UInt64) : Limit := ⟨blocks.toNat, fun _ blocks_sent => blocks_sent.toNat, 1⟩

theorem bytesLimit_fits {bytes : UInt64} {blksize : Nat} {calls : Calls} (h : ∀ call, calls.snd call ≤ blksize) :
    (bytesLimit bytes blksize).Fits calls := by
  intro call bytes_sent blocks_sent hr
  have hadd := toNat_add_le bytes_sent (.ofInt (calls.snd call))
  have hle := toNat_ofInt_le hr
  have hsize := h call
  simp only [bytesLimit]
  omega

theorem blocksLimit_fits {blocks : UInt64} (calls : Calls) : (blocksLimit blocks).Fits calls :=
  fun _ _ blocks_sent _ => toNat_add_le blocks_sent 1

theorem bytesLimit_seen {test : Test} (h : test.bytes ≠ 0) (blksize : Nat) :
    (bytesLimit test.bytes blksize).Seen test := by
  intro bytes_sent blocks_sent hreached
  simp only [reached, decide_eq_true_eq]
  exact .inl ⟨h, UInt64.le_iff_toNat_le.2 hreached⟩

theorem blocksLimit_seen {test : Test} (h : test.blocks ≠ 0) : (blocksLimit test.blocks).Seen test := by
  intro bytes_sent blocks_sent hreached
  simp only [reached, decide_eq_true_eq]
  exact .inr ⟨h, UInt64.le_iff_toNat_le.2 hreached⟩

theorem toNat_pos {n : UInt64} (h : n ≠ 0) : 0 < n.toNat :=
  Nat.pos_of_ne_zero fun hzero => h (UInt64.toNat_inj.1 hzero)

def noLimit : Limit := ⟨1, fun _ _ => 0, 0⟩

structure Ready (test : Test) : Prop where
  bytes_sent : test.bytes_sent = 0
  blocks_sent : test.blocks_sent = 0
  done : test.done = false

theorem finished_ready {test : Test} (h : Ready test) : finished test = false := by
  simp [finished, reached, h.bytes_sent, h.blocks_sent, h.done]

/-- Unless a write fails, a client goes on exactly as long as its test is not finished.
When it finishes, it has sent less than a block for each pass and stream above its limits. -/
theorem sending_limited {start : Test} (hready : Ready start) {blksize : Nat} {rounds : List Round}
    (hcalls : ∀ round ∈ rounds, ∀ call, round.calls.snd call ≤ blksize) :
    let now := run step ⟨start, .running⟩ rounds
    (now.status = .running → finished now.test = false) ∧ (now.status = .ended → finished now.test) ∧
      (now.test.omitting = false →
        (start.bytes ≠ 0 → now.test.bytes_sent.toNat <
          start.bytes.toNat + (passes start - 1 + start.streams.length) * blksize) ∧
        (start.blocks ≠ 0 → now.test.blocks_sent.toNat <
          start.blocks.toNat + (passes start - 1 + start.streams.length))) := by
  intro now
  have hfinished := finished_ready hready
  have hnone : Kept noLimit start now :=
    kept_run (fun _ _ h => absurd h (Nat.not_succ_le_zero 0)) Nat.one_pos Nat.one_pos hfinished fun _ _ _ _ _ _ => Nat.le_refl 0
  refine ⟨hnone.running, hnone.ended, fun hcounts => ⟨fun hbytes => ?_, fun hblocks => ?_⟩⟩
  · have hpos := toNat_pos hbytes
    have hstart : (bytesLimit start.bytes blksize).count start.bytes_sent start.blocks_sent < start.bytes.toNat := by
      rw [hready.bytes_sent]
      exact hpos
    exact (kept_run (bytesLimit_seen hbytes blksize) hpos hstart hfinished fun round hround =>
      bytesLimit_fits (hcalls round hround)).bound hcounts
  · have hpos := toNat_pos hblocks
    have hstart : (blocksLimit start.blocks).count start.bytes_sent start.blocks_sent < start.blocks.toNat := by
      rw [hready.blocks_sent]
      exact hpos
    have hbound := (kept_run (blocksLimit_seen hblocks) hpos hstart hfinished fun round _ =>
      blocksLimit_fits round.calls).bound hcounts
    rwa [show (blocksLimit start.blocks).most = 1 from rfl, Nat.mul_one] at hbound

def sampleTest : Test where
  multisend := 10
  burst := 0
  rate := 0
  bytes := 1000
  blocks := 0
  duration := 10
  bytes_sent := 0
  blocks_sent := 0
  omitting := false
  done := false
  streams := [⟨true, true, false⟩, ⟨true, true, false⟩]

def sampleRounds : List Round := List.replicate 2
  ⟨fun _ => true, ⟨fun _ => 400, fun _ => true, fun _ => true⟩, fun _ => none, false, false⟩

theorem sampleRounds_calls : ∀ round ∈ sampleRounds, ∀ call, round.calls.snd call ≤ (400 : Nat) := by
  intro round hround call
  rw [List.eq_of_mem_replicate hround]
  exact Int.le_refl 400

/-- The limit is reached by the third of twelve blocks. -/
theorem sending_limited_sample :
    let now := run step ⟨sampleTest, .running⟩ sampleRounds
    now.test.bytes_sent = 4800 ∧ finished now.test ∧ now.test.bytes_sent.toNat < 1000 + (10 - 1 + 2) * 400 := by
  obtain ⟨-, hended, hlimits⟩ := @sending_limited sampleTest ⟨rfl, rfl, rfl⟩ 400 sampleRounds sampleRounds_calls
  exact ⟨by decide, hended rfl, (hlimits rfl).1 (by decide)⟩

end Totals

end SberWifi.IperfSending
