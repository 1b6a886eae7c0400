import SberWifi.IperfMachine

namespace SberWifi.IperfUpload

open JavaString IperfMachine

inductive Exception
  | transport
deriving DecidableEq

/-- Waiting for the answer of a post throws what the transport throws. -/
def await : Posted → Except Exception Response
  | none => .error .transport
  | some response => .ok response

def Response.success (body : JString) : Response := ⟨200, some body⟩

def IperfRepository.doWork (posted : Posted) : Except Exception Response := do
  let _result ← tryCatch (some <$> await posted) fun _ => pure none
  return Response.success []

def PostOfIperfUseCase.doWork (posted : Posted) : Except Exception PostOfIperfUseCase.Result := do
  let result ← IperfRepository.doWork posted
  return ⟨result.code, result.body⟩

/-- A status other than 200 is only logged. -/
def sendReport (posted : Posted) : Except Exception PostOfIperfUseCase.Result :=
  PostOfIperfUseCase.doWork posted

def toast (status : Int32) : JString :=
  if status = 200 then str "Отчет отправлен успешно"
  else str "Отчет не отправлен; Статус " ++ str (toString status.toInt)

/-- What a coroutine of reportCallback has seen and shown, and the fragment it
leaves. -/
structure Launched where
  status : Int32
  text : JString
  fragment : IperfFragment

/-- The coroutine ends where an exception reaches it, before the counter is
looked at. -/
def launch (f : IperfFragment) (posted : Posted) : Except Exception Launched := do
  let result ← sendReport posted
  return ⟨result.status, toast result.status, afterUpload f⟩

def ReportRepository.doWork (posted : Posted) : Except Exception Response := await posted

structure PostOfReportUseCase.Result where
  status : Int32
  body : Option JString

def PostOfReportUseCase.doWork (posted : Posted) : Except Exception PostOfReportUseCase.Result := do
  let result ← ReportRepository.doWork posted
  return ⟨result.code, result.body⟩

def ReportFragment.sendReport (posted : Posted) : Except Exception PostOfReportUseCase.Result :=
  tryCatch (PostOfReportUseCase.doWork posted) fun _ => pure ⟨0, some []⟩

def Accepted (posted : Posted) : Prop := ∃ response ∈ posted, response.code = 200

instance (posted : Posted) : Decidable (Accepted posted) :=
  inferInstanceAs (Decidable (∃ response ∈ posted, response.code = 200))

/-- What the check does to the fragment: after the second report the view shows
both and the counter starts again. -/
structure Checked (f f' : IperfFragment) : Prop where
  second : f.count = 2 → f'.count = 0 ∧ f'.uuid = f.uuid + 1 ∧ f'.resultTestVisible = true ∧
    f'.animationTestVisible = false ∧ f'.resultTest = f.reports.getD 0 [] ++ f.reports.getD 1 []
  other : f.count ≠ 2 → f' = f

theorem checked_afterUpload (f : IperfFragment) : Checked f (afterUpload f) where
  second h := by
    rw [afterUpload, if_pos h]
    exact ⟨rfl, rfl, rfl, rfl, rfl⟩
  other h := by
    rw [afterUpload, if_neg h]

/-- Whatever became of the post, the repository answers with an empty success. -/
theorem doWork_eq (posted : Posted) : IperfRepository.doWork posted = .ok ⟨200, some []⟩ := by
  cases posted <;> rfl

theorem launch_eq (f : IperfFragment) (posted : Posted) :
    launch f posted = .ok ⟨200, toast 200, afterUpload f⟩ := by
  rw [launch, sendReport, PostOfIperfUseCase.doWork, doWork_eq]
  rfl

/-- The other report path tells a status of 200 apart. -/
theorem reportFragment_status (posted : Posted) :
    ∃ result, ReportFragment.sendReport posted = .ok result ∧ (result.status = 200 ↔ Accepted posted) := by
  cases posted with
  | none => exact ⟨⟨0, some []⟩, rfl, by decide⟩
  | some response =>
      refine ⟨⟨response.code, response.body⟩, rfl, ?_⟩
      constructor
      · exact fun h => ⟨response, rfl, h⟩
      · rintro ⟨_, hmem, hcode⟩
        rwa [← Option.mem_some_iff.1 hmem] at hcode

/-- A step of the fragment that gets an answer is this coroutine. -/
theorem step_answer {D : Type} (lib : Libraries D) {f : IperfFragment} {upload : Nat} {text : JString}
    (h : f.uploads[upload]? = some (.sending text)) (posted : Posted) :
    ∃ launched, launch f posted = .ok launched ∧
      step lib f (.answer upload posted) = launched.fragment.setUpload upload (.finished launched.status) := by
  refine ⟨_, launch_eq f posted, ?_⟩
  have hstatus : (IperfMachine.PostOfIperfUseCase.doWork posted).status = 200 := rfl
  rw [step, h]
  dsimp only
  rw [hstatus]
  by_cases hcount : f.count = 2
  · rw [afterUpload, afterUpload, if_pos hcount, setUpload_count, if_pos hcount]
    rfl
  · rw [afterUpload, afterUpload, if_neg hcount, setUpload_count, if_neg hcount]

def UploadTold (f : IperfFragment) (posted : Posted) : Prop :=
  ∃ launched, launch f posted = .ok launched ∧ (launched.status = 200 ↔ Accepted posted) ∧
    Checked f launched.fragment

theorem not_uploadTold_unreachable : ¬ ∀ (f : IperfFragment) (posted : Posted), UploadTold f posted := by
  intro h
  obtain ⟨launched, hlaunch, hstatus, -⟩ := h {} none
  rw [launch_eq] at hlaunch
  cases hlaunch
  exact absurd (hstatus.1 rfl) (by decide)

theorem uploadTold_iff (f : IperfFragment) (posted : Posted) : UploadTold f posted ↔ Accepted posted := by
  constructor
  · rintro ⟨launched, hlaunch, hstatus, -⟩
    rw [launch_eq] at hlaunch
    cases hlaunch
    exact hstatus.1 rfl
  · intro h
    exact ⟨_, launch_eq f posted, iff_of_true rfl h, checked_afterUpload f⟩

end SberWifi.IperfUpload
