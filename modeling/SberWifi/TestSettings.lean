import SberWifi.LastWrite
import SberWifi.Runs

namespace SberWifi.TestSettings

open LastWrite Runs

structure Test where
  «omit» : Int32
  duration : Int32
  num_streams : Int32
  reporter_interval : Rat

def MAX_TIME : Int32 := 86400

def MAX_STREAMS : Int32 := 128

/-- The double that the literal 0.1 stands for. -/
def MIN_INTERVAL : Rat := 3602879701896397 / 36028797018963968

def MAX_INTERVAL : Rat := 60

def iperf_set_test_omit (test : Test) («omit» : Int32) : Test := { test with «omit» }

def iperf_set_test_duration (test : Test) (duration : Int32) : Test := { test with duration }

def iperf_set_test_num_streams (test : Test) (num_streams : Int32) : Test := { test with num_streams }

def iperf_set_test_reporter_interval (test : Test) (reporter_interval : Rat) : Test :=
  { test with reporter_interval }

/-- A setter of IperfTest throws before it touches the test. -/
def checked (rejected : Prop) [Decidable rejected] (message : String) (test : Test) : Except String Test :=
  if rejected then .error message else .ok test

def set_omit (test : Test) («omit» : Int32) : Except String Test :=
  checked («omit» < 0 ∨ «omit» > 60) "Omit параметр должен быть в диапазоне от 0 до 60 не включая"
    (iperf_set_test_omit test 3)

def set_duration (test : Test) (duration : Int32) : Except String Test :=
  checked (duration > MAX_TIME) "Duration параметр должен быть не более 86400"
    (iperf_set_test_duration test duration)

def set_num_streams (test : Test) (streams : Int32) : Except String Test :=
  checked (streams > MAX_STREAMS) "Streams параметр должен быть не более 128"
    (iperf_set_test_num_streams test streams)

def set_reporter_interval (test : Test) (interval : Int32) : Except String Test :=
  checked (((interval.toInt : Rat) < MIN_INTERVAL ∨ (interval.toInt : Rat) > MAX_INTERVAL) ∧ interval ≠ 0)
    "Interval параметр должен быть не менее 0.100000 и не быть более 60.000000"
    (iperf_set_test_reporter_interval test interval.toInt)

inductive Setter
  | set_omit
  | set_duration
  | set_num_streams
  | set_reporter_interval
deriving DecidableEq

structure Call where
  setter : Setter
  argument : Int32

def Call.apply (test : Test) (call : Call) : Except String Test :=
  match call.setter with
  | .set_omit => TestSettings.set_omit test call.argument
  | .set_duration => TestSettings.set_duration test call.argument
  | .set_num_streams => TestSettings.set_num_streams test call.argument
  | .set_reporter_interval => TestSettings.set_reporter_interval test call.argument

def after (test : Test) (call : Call) : Test :=
  match call.apply test with
  | .ok test => test
  | .error _ => test

def Call.Accepted (call : Call) : Prop :=
  match call.setter with
  | .set_omit => 0 ≤ call.argument ∧ call.argument ≤ 60
  | .set_duration => call.argument ≤ MAX_TIME
  | .set_num_streams => call.argument ≤ MAX_STREAMS
  | .set_reporter_interval =>
      call.argument = 0 ∨ MIN_INTERVAL ≤ call.argument.toInt ∧ (call.argument.toInt : Rat) ≤ MAX_INTERVAL

instance (call : Call) : Decidable call.Accepted := by
  unfold Call.Accepted
  cases call.setter <;> infer_instance

def Call.writes (setter : Setter) (call : Call) : Bool := call.setter = setter ∧ call.Accepted

def lastAccepted (setter : Setter) (initial : Option Int32) (calls : List Call) : Option Int32 :=
  lastWrite (Call.writes setter) Call.argument initial calls

def Atomic (test : Test) (call : Call) : Prop :=
  if call.Accepted then ∃ test', call.apply test = .ok test'
  else (∃ message, call.apply test = .error message) ∧ after test call = test

structure Settled (test : Test) (calls : List Call) : Prop where
  «omit» : some (run after test calls).omit = lastAccepted .set_omit (some test.omit) calls
  duration : some (run after test calls).duration = lastAccepted .set_duration (some test.duration) calls
  num_streams : some (run after test calls).num_streams =
    lastAccepted .set_num_streams (some test.num_streams) calls
  reporter_interval : some (run after test calls).reporter_interval =
    lastWrite (Call.writes .set_reporter_interval) (fun call => (call.argument.toInt : Rat))
      (some test.reporter_interval) calls
  atomic : Along after Atomic test calls

def Call.effect (test : Test) (call : Call) : Test :=
  match call.setter with
  | .set_omit => iperf_set_test_omit test 3
  | .set_duration => iperf_set_test_duration test call.argument
  | .set_num_streams => iperf_set_test_num_streams test call.argument
  | .set_reporter_interval => iperf_set_test_reporter_interval test call.argument.toInt

theorem checked_iff {rejected accepted : Prop} [Decidable rejected] [Decidable accepted]
    (h : rejected ↔ ¬ accepted) (message : String) (test : Test) :
    checked rejected message test = if accepted then .ok test else .error message := by
  rw [checked]
  by_cases ha : accepted
  · rw [if_neg (fun hr => h.1 hr ha), if_pos ha]
  · rw [if_pos (h.2 ha), if_neg ha]

/-- The checks of the setters are the ranges they are meant to accept. -/
theorem apply_eq (call : Call) :
    ∃ message, ∀ test, call.apply test = if call.Accepted then .ok (call.effect test) else .error message := by
  obtain ⟨setter, argument⟩ := call
  cases setter with
  | set_omit =>
      refine ⟨_, fun test => checked_iff ?_ _ _⟩
      simp only [Call.Accepted, not_and_or, Int32.not_le, gt_iff_lt]
  | set_duration =>
      refine ⟨_, fun test => checked_iff ?_ _ _⟩
      simp only [Call.Accepted, Int32.not_le, gt_iff_lt]
  | set_num_streams =>
      refine ⟨_, fun test => checked_iff ?_ _ _⟩
      simp only [Call.Accepted, Int32.not_le, gt_iff_lt]
  | set_reporter_interval =>
      refine ⟨_, fun test => checked_iff ?_ _ _⟩
      rw [Call.Accepted, not_or, not_and_or, Rat.not_le, Rat.not_le]
      exact and_comm

theorem after_eq (test : Test) (call : Call) :
    after test call = if call.Accepted then call.effect test else test := by
  obtain ⟨message, happly⟩ := apply_eq call
  rw [after, happly]
  by_cases h : call.Accepted
  · rw [if_pos h, if_pos h]
  · rw [if_neg h, if_neg h]

theorem atomic_call (test : Test) (call : Call) : Atomic test call := by
  obtain ⟨message, happly⟩ := apply_eq call
  rw [Atomic]
  by_cases h : call.Accepted
  · rw [if_pos h]
    exact ⟨_, (happly test).trans (if_pos h)⟩
  · rw [if_neg h, after_eq, if_neg h]
    exact ⟨⟨message, (happly test).trans (if_neg h)⟩, rfl⟩

/-- A field that only one setter touches holds what its last accepted call put there. -/
theorem field_run {β : Type} {setter : Setter} (field : Test → β) {put : Call → β}
    (hown : ∀ test argument, field (Call.effect test ⟨setter, argument⟩) = put ⟨setter, argument⟩)
    (hother : ∀ test call, Call.setter call ≠ setter → field (Call.effect test call) = field test)
    (test : Test) (calls : List Call) :
    some (field (run after test calls)) = lastWrite (Call.writes setter) put (some (field test)) calls := by
  apply lastWrite_field
  intro test call
  rw [after_eq]
  by_cases h : call.Accepted
  · by_cases hset : call.setter = setter
    · obtain ⟨s, argument⟩ := call
      cases hset
      rw [if_pos h, if_pos (by simp [Call.writes, h])]
      exact hown test argument
    · rw [if_pos h, if_neg (by simp [Call.writes, hset])]
      exact hother test call hset
  · rw [if_neg h, if_neg (by simp [Call.writes, h])]

theorem omit_run (test : Test) (calls : List Call) :
    some (run after test calls).omit =
      lastWrite (Call.writes .set_omit) (fun _ => 3) (some test.omit) calls := by
  refine field_run Test.omit (fun _ _ => rfl) ?_ test calls
  rintro test ⟨setter, argument⟩ hset
  cases setter with
  | set_omit => exact absurd rfl hset
  | set_duration | set_num_streams | set_reporter_interval => rfl

theorem duration_run (test : Test) (calls : List Call) :
    some (run after test calls).duration = lastAccepted .set_duration (some test.duration) calls := by
  refine field_run Test.duration (fun _ _ => rfl) ?_ test calls
  rintro test ⟨setter, argument⟩ hset
  cases setter with
  | set_duration => exact absurd rfl hset
  | set_omit | set_num_streams | set_reporter_interval => rfl

theorem num_streams_run (test : Test) (calls : List Call) :
    some (run after test calls).num_streams =
      lastAccepted .set_num_streams (some test.num_streams) calls := by
  refine field_run Test.num_streams (fun _ _ => rfl) ?_ test calls
  rintro test ⟨setter, argument⟩ hset
  cases setter with
  | set_num_streams => exact absurd rfl hset
  | set_omit | set_duration | set_reporter_interval => rfl

theorem reporter_interval_run (test : Test) (calls : List Call) :
    some (run after test calls).reporter_interval =
      lastWrite (Call.writes .set_reporter_interval) (fun call => (call.argument.toInt : Rat))
        (some test.reporter_interval) calls := by
  refine field_run Test.reporter_interval (fun _ _ => rfl) ?_ test calls
  rintro test ⟨setter, argument⟩ hset
  cases setter with
  | set_reporter_interval => exact absurd rfl hset
  | set_omit | set_duration | set_num_streams => rfl

/-- The last accepted omit asked for the three seconds that are always set. -/
theorem omit_held_iff (test : Test) (calls : List Call) :
    some (run after test calls).omit = lastAccepted .set_omit (some test.omit) calls ↔
      ∀ argument ∈ lastAccepted .set_omit none calls, argument = 3 := by
  rw [omit_run, lastAccepted, lastAccepted]
  rcases lastWrite_cases (Call.writes .set_omit) Call.argument none calls with
    ⟨hsilent, hnone⟩ | ⟨before, call, rest, rfl, hcall, hsilent, hlast⟩
  · rw [hnone, lastWrite_of_silent _ _ _ hsilent, lastWrite_of_silent _ _ _ hsilent]
    exact iff_of_true rfl fun _ h => absurd h (Option.not_mem_none _)
  · rw [hlast, lastWrite_of_last _ _ _ hcall hsilent, lastWrite_of_last _ _ _ hcall hsilent]
    simp [eq_comm]

/-- After `set_omit(5)` three seconds are left out. -/
theorem not_settled_omit_five : ¬ ∀ (test : Test) (calls : List Call), Settled test calls := by
  intro h
  have homit := (h ⟨0, 10, 1, 1⟩ [⟨.set_omit, 5⟩]).omit
  rw [omit_held_iff] at homit
  exact absurd (homit 5 (by decide)) (by decide)

theorem settled_iff (test : Test) (calls : List Call) :
    Settled test calls ↔ ∀ argument ∈ lastAccepted .set_omit none calls, argument = 3 := by
  constructor
  · exact fun h => (omit_held_iff test calls).1 h.omit
  · intro h
    refine ⟨(omit_held_iff test calls).2 h, duration_run test calls, num_streams_run test calls,
      reporter_interval_run test calls, ?_⟩
    exact along_of_invariant (fun _ => True) (fun _ _ _ _ => trivial)
      (fun test call _ _ => atomic_call test call) trivial (along_of_forall (fun _ _ => trivial) test)

end SberWifi.TestSettings
