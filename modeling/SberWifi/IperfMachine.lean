import SberWifi.IperfEnvelope
import SberWifi.Runs
import Mathlib.Data.Rat.Floor

namespace SberWifi.IperfMachine

open JavaString IperfEnvelope

/-- A `java.lang.Number` as JsonPath gives it. `D` stands for double. -/
inductive Number (D : Type)
  | integer (v : Int32)
  | long (v : Int64)
  | bigInteger (v : Int)
  | double (v : D)

/-- The libraries under the fragment. `read` is `JsonPath.read`, for a text and a
path: it may throw, and what it finds may be no number. -/
structure Libraries (D : Type) where
  read : JString → JString → Option (Option (Number D))
  ofInt : Int → D
  toInt : D → Int32
  doubleToString : D → JString
  randomUUID : Nat → JString

structure Response where
  code : Int32
  body : Option JString

abbrev Posted := Option Response

/-- The response of the server is not handed on. -/
def IperfRepository.doWork (_posted : Posted) : Response := ⟨200, some []⟩

structure PostOfIperfUseCase.Result where
  status : Int32
  body : Option JString

def PostOfIperfUseCase.doWork (posted : Posted) : PostOfIperfUseCase.Result :=
  let result := IperfRepository.doWork posted
  ⟨result.code, result.body⟩

/-- Where a coroutine of onSwipe_Forward stands. A test that has reported
returns, and one that throws is caught. -/
inductive Phase
  | launched
  | testing (reverse : Bool)
  | returned (reverse : Bool)
  | failed
  | finished
deriving DecidableEq, Repr

/-- Where a coroutine of reportCallback stands: it sends a text, and ends with
the status of the answer. -/
inductive Upload
  | launched (report : JString)
  | sending (text : JString)
  | finished (status : Int32)
deriving DecidableEq, Repr

def Upload.isFinished : Upload → Bool
  | .finished _ => true
  | .launched _ | .sending _ => false

structure IperfFragment where
  inputHost : Option JString := none
  inputPort : Option JString := none
  count : Int32 := 0
  reports : List JString := []
  uuid : Nat := 0
  resultTest : JString := []
  resultTestVisible : Bool := false
  animationTestVisible : Bool := false
  tests : List Phase := []
  uploads : List Upload := []

/-- What happens to a fragment. A test of a coroutine ends with a report or with
an exception, and a port that is no number is such an exception. -/
inductive Event
  | inputHost (s : JString)
  | inputPort (s : JString)
  | onSwipeForward
  | onSwipeReverse
  | resume (test : Nat)
  | report (test : Nat) (report : Option JString)
  | exception (test : Nat)
  | send (upload : Nat) (bssid ssid : JString)
  | answer (upload : Nat) (posted : Posted)

def IperfFragment.iperfStartView (f : IperfFragment) : IperfFragment :=
  { f with resultTestVisible := false, animationTestVisible := true }

def IperfFragment.iperfStopView (f : IperfFragment) (resultTestVisibility : Bool) : IperfFragment :=
  { f with resultTestVisible := resultTestVisibility, animationTestVisible := false }

def IperfFragment.setTest (f : IperfFragment) (test : Nat) (phase : Phase) : IperfFragment :=
  { f with tests := f.tests.set test phase }

def IperfFragment.setUpload (f : IperfFragment) (upload : Nat) (phase : Upload) : IperfFragment :=
  { f with uploads := f.uploads.set upload phase }

section Libraries

variable {D : Type} (lib : Libraries D)

def doubleValue : Number D → D
  | .integer v => lib.ofInt v.toInt
  | .long v => lib.ofInt v.toInt
  | .bigInteger v => lib.ofInt v
  | .double v => v

/-- `Number.intValue`: the low 32 bits of a longer integer. -/
def intValue : Number D → Int32
  | .integer v => v
  | .long v => v.toInt32
  | .bigInteger v => Int32.ofInt v
  | .double v => lib.toInt v

def readDouble (report : JString) (path : String) : Option D := do
  let value ← lib.read report (str path)
  let number ← value
  some (doubleValue lib number)

def readInt (report : JString) (path : String) : Option Int32 := do
  let value ← lib.read report (str path)
  let number ← value
  some (intValue lib number)

def megabytes (bytesTest : Int32) : JString := str (toString (bytesTest / 1000000).toInt)

def formatSent (report : JString) : Option JString := do
  let secondsTest ← readDouble lib report "$.end.sum_sent.seconds"
  let bytesTest ← readInt lib report "$.end.sum_sent.bytes"
  let _speedTest ← readDouble lib report "$.end.sum_sent.bits_per_second"
  let cpuUtilTest ← readDouble lib report "$.end.cpu_utilization_percent.host_total"
  some (str "Время тестирования " ++ lib.doubleToString secondsTest ++ str " сек, \n" ++
    str "Отправлено МБ: " ++ megabytes bytesTest ++ str " \n" ++
    str "Нагрузка на процессор: " ++ lib.doubleToString cpuUtilTest ++ str "% \n")

def formatReceived (report : JString) : Option JString := do
  let bytesTest ← readInt lib report "$.end.sum_received.bytes"
  let _speedTest ← readDouble lib report "$.end.sum_received.bits_per_second"
  let cpuUtilTest ← readDouble lib report "$.end.cpu_utilization_percent.host_total"
  some (str "Принято МБ: " ++ megabytes bytesTest ++ str " \n" ++
    str "Нагрузка на процессор: " ++ lib.doubleToString cpuUtilTest ++ str "% \n")

def format (count : Int32) (report : JString) : Option JString :=
  if count = 0 then formatSent lib report else formatReceived lib report

/-- A null report makes the first read throw, and an exception leaves the
fragment as it was. -/
def reportCallback (f : IperfFragment) (report : Option JString) : IperfFragment :=
  match report with
  | none => f
  | some report =>
      match format lib f.count report with
      | none => f
      | some result =>
          { f with
            reports := f.reports ++ [result], count := f.count + 1,
            uploads := f.uploads ++ [.launched report] }

def reportText (f : IperfFragment) (bssid ssid report : JString) : JString :=
  IperfReport.toString ⟨⟨lib.randomUUID f.uuid, bssid, ssid⟩, report⟩

/-- What the coroutine of reportCallback does after its upload. The counter is
two only after two reports were added. -/
def afterUpload (f : IperfFragment) : IperfFragment :=
  if f.count = 2 then
    { f.iperfStopView true with
      resultTest := f.reports.getD 0 [] ++ f.reports.getD 1 [], uuid := f.uuid + 1, count := 0 }
  else f

def resume (f : IperfFragment) (test : Nat) : IperfFragment :=
  match f.tests[test]? with
  | some .launched => f.iperfStartView.setTest test (.testing false)
  | some (.returned false) => f.setTest test (.testing true)
  | some (.returned true) => f.setTest test .finished
  | some .failed => (f.iperfStopView false).setTest test .finished
  | _ => f

def step (f : IperfFragment) : Event → IperfFragment
  | .inputHost s => if s.isEmpty then f else { f with inputHost := some s }
  | .inputPort s => if s.isEmpty then f else { f with inputPort := some s }
  | .onSwipeForward =>
      if f.inputHost = none ∨ f.inputPort = none then f else { f with tests := f.tests ++ [.launched] }
  | .onSwipeReverse => f.iperfStopView false
  | .resume test => resume f test
  | .report test report =>
      match f.tests[test]? with
      | some (.testing reverse) => (reportCallback lib f report).setTest test (.returned reverse)
      | _ => f
  | .exception test =>
      match f.tests[test]? with
      | some (.testing _) => f.setTest test .failed
      | _ => f
  | .send upload bssid ssid =>
      match f.uploads[upload]? with
      | some (.launched report) => f.setUpload upload (.sending (reportText lib f bssid ssid report))
      | _ => f
  | .answer upload posted =>
      match f.uploads[upload]? with
      | some (.sending _) =>
          afterUpload (f.setUpload upload (.finished (PostOfIperfUseCase.doWork posted).status))
      | _ => f

@[simp] theorem setTest_count (f : IperfFragment) (test : Nat) (phase : Phase) :
    (f.setTest test phase).count = f.count := rfl

@[simp] theorem setUpload_count (f : IperfFragment) (upload : Nat) (phase : Upload) :
    (f.setUpload upload phase).count = f.count := rfl

@[simp] theorem setUpload_tests (f : IperfFragment) (upload : Nat) (phase : Upload) :
    (f.setUpload upload phase).tests = f.tests := rfl

@[simp] theorem setUpload_reports (f : IperfFragment) (upload : Nat) (phase : Upload) :
    (f.setUpload upload phase).reports = f.reports := rfl

theorem setTest_self {f : IperfFragment} {test : Nat} {p : Phase} (h : f.tests[test]? = some p) (q : Phase) :
    (f.setTest test q).tests[test]? = some q := by
  rw [IperfFragment.setTest, List.getElem?_set_self (List.getElem?_eq_some_iff.1 h).1]

@[simp] theorem length_setTest (f : IperfFragment) (test : Nat) (q : Phase) :
    (f.setTest test q).tests.length = f.tests.length :=
  List.length_set

@[simp] theorem afterUpload_tests (f : IperfFragment) : (afterUpload f).tests = f.tests := by
  rw [afterUpload]
  split <;> rfl

@[simp] theorem afterUpload_reports (f : IperfFragment) : (afterUpload f).reports = f.reports := by
  rw [afterUpload]
  split <;> rfl

@[simp] theorem afterUpload_uploads (f : IperfFragment) : (afterUpload f).uploads = f.uploads := by
  rw [afterUpload]
  split <;> rfl

inductive Resumed : Phase → Phase → Prop
  | start : Resumed .launched (.testing false)
  | delayed : Resumed (.returned false) (.testing true)
  | done : Resumed (.returned true) .finished
  | caught : Resumed .failed .finished

theorem resume_cases (f : IperfFragment) (test : Nat) :
    resume f test = f ∨ ∃ p q result animation, Resumed p q ∧ f.tests[test]? = some p ∧
      (p = .returned true → result = f.resultTestVisible) ∧
      resume f test =
        { f.setTest test q with resultTestVisible := result, animationTestVisible := animation } := by
  rw [resume.eq_def]
  split
  · next h => exact .inr ⟨_, _, false, true, .start, h, by simp, rfl⟩
  · next h => exact .inr ⟨_, _, _, _, .delayed, h, by simp, rfl⟩
  · next h => exact .inr ⟨_, _, f.resultTestVisible, _, .done, h, fun _ => rfl, rfl⟩
  · next h => exact .inr ⟨_, _, false, false, .caught, h, by simp, rfl⟩
  · exact .inl rfl

def OthersFinished (test : Nat) (f : IperfFragment) : Prop :=
  ∀ i p, f.tests[i]? = some p → i ≠ test → p = .finished

theorem OthersFinished.eq {test i : Nat} {f : IperfFragment} (h : OthersFinished test f) {p : Phase}
    (hp : f.tests[i]? = some p) (hne : p ≠ .finished) : i = test := by
  by_contra hi
  exact hne (h i p hp hi)

theorem OthersFinished.setTest {test : Nat} {f : IperfFragment} (h : OthersFinished test f) (q : Phase) :
    OthersFinished test (f.setTest test q) := by
  intro i p hp hi
  rw [IperfFragment.setTest, List.getElem?_set_ne (Ne.symm hi)] at hp
  exact h i p hp hi

theorem Resumed.ne_finished {p q : Phase} (h : Resumed p q) : p ≠ .finished := by
  cases h <;> simp

theorem OthersFinished.resume {test : Nat} {f : IperfFragment} (h : OthersFinished test f) (i : Nat) :
    OthersFinished test (resume f i) := by
  rcases resume_cases f i with he | ⟨p, q, _, _, hpq, hp, _, he⟩
  · rwa [he]
  · rw [he]
    cases h.eq hp hpq.ne_finished
    exact h.setTest q

end Libraries

def sampleReport (bytes : JString) : JString :=
  str "\x7b\"end\":\x7b\"sum_sent\":\x7b\"seconds\":5.0,\"bytes\":" ++ bytes ++
    str ",\"bits_per_second\":1500000.0\x7d,\"sum_received\":\x7b\"bytes\":" ++ bytes ++
    str ",\"bits_per_second\":1500000.0\x7d,\"cpu_utilization_percent\":\x7b\"host_total\":1.5\x7d\x7d\x7d"

def smallReport : JString := sampleReport (str "1000000")

def largeReport : JString := sampleReport (str "7000000")

def sampleValue (bytes : Int32) (path : JString) : Option (Option (Number Rat)) :=
  if path = str "$.end.sum_sent.seconds" then some (some (.double 5))
  else if path = str "$.end.sum_sent.bytes" ∨ path = str "$.end.sum_received.bytes" then
    some (some (.integer bytes))
  else if path = str "$.end.sum_sent.bits_per_second" ∨ path = str "$.end.sum_received.bits_per_second" then
    some (some (.double 1500000))
  else if path = str "$.end.cpu_utilization_percent.host_total" then some (some (.double (3 / 2)))
  else none

def samplePhone : Libraries Rat where
  read report path :=
    if report.tail = [] then none else sampleValue (if report = smallReport then 1000000 else 7000000) path
  ofInt v := v
  toInt v := Int32.ofInt v.floor
  doubleToString v := str (toString v.floor) ++ str "." ++ str (toString ((v * 10).floor % 10))
  randomUUID n := str "123e4567-e89b-42d3-a456-42661417400" ++ str (toString n)

end SberWifi.IperfMachine
