import SberWifi.Runs
import SberWifi.Transformer

namespace SberWifi.DeviceRecord

open JavaString Detail ScanData Transformer Runs

variable (platform : Platform)

def step (process : Process) (call : Call) : Process := (transformToWiFiData platform process call).1

def connectedAddress (call : Call) : Option JString :=
  let wiFiConnection := transformWifiInfo platform call.macAddress call.wifiInfo
  if wiFiConnection.equals .empty then none else some wiFiConnection.ipAddress

def DeviceFollows (process : Process) (call : Call) : Prop :=
  let data := (transformToWiFiData platform process call).2
  data.device.ip = data.wiFiConnection.ipAddress

def RecordFollows : Prop :=
  ∀ (platform : Platform) (process : Process) (calls : List Call),
    (∀ call ∈ calls, connectedAddress platform call ≠ some []) →
      Along (step platform) (DeviceFollows platform) process calls

def phone : Platform where
  MODEL := str "phone"
  RELEASE := str "10"
  SDK_INT := 29
  littleEndian := true

def joined : Call where
  scanResult := []
  wifiInfo := some {
    networkId := 1, ssid := str "\"home\"", bssid := str "00:11:22:33:44:55", ipAddress := 0x0200A8C0,
    linkSpeed := 72, macAddress := defaultMacAddress }
  macAddress := str "AA:BB:CC:DD:EE:FF"

def left : Call := ⟨[], none, str "AA:BB:CC:DD:EE:FF"⟩

/-- After the phone has left the network the record still shows its address. -/
theorem not_recordFollows : ¬ RecordFollows := by
  intro h
  have hrun := h phone (.started none) [joined, left] (by decide)
  have hleft : (transformToWiFiData phone (step phone (.started none) joined) left).2.device.ip = [] :=
    hrun.2.1
  have hkept : (transformToWiFiData phone (step phone (.started none) joined) left).2.device.ip =
      str "192.168.0.2" := by
    decide
  rw [hkept] at hleft
  cases hleft

def firstNonEmpty (l : List JString) : JString := (l.find? fun s => !s.isEmpty).getD []

theorem firstNonEmpty_append (l m : List JString) :
    firstNonEmpty (l ++ m) = firstNonEmpty (firstNonEmpty l :: m) := by
  induction l with
  | nil => rfl
  | cons a l ih =>
      by_cases ha : a.isEmpty
      · simpa [firstNonEmpty, ha] using ih
      · simp [firstNonEmpty, ha]

def firstAddress (INSTANCE : Option DeviceInfo) (calls : List Call) : JString :=
  firstNonEmpty (INSTANCE.toList.map DeviceInfo.ip ++ calls.filterMap (connectedAddress platform))

theorem firstNonEmpty_singleton (a : JString) : firstNonEmpty [a] = a := by
  cases a <;> rfl

theorem firstNonEmpty_pair (a b : JString) : firstNonEmpty [a, b] = if a.isEmpty then b else a := by
  cases a with
  | nil => exact firstNonEmpty_singleton b
  | cons c a => rfl

theorem transformToWiFiData_ip (process : Process) (call : Call) :
    (transformToWiFiData platform process call).2.device.ip =
      firstAddress platform process.INSTANCE [call] := by
  by_cases hconn : (transformWifiInfo platform call.macAddress call.wifiInfo).equals .empty
  · have haddr : connectedAddress platform call = none := if_pos hconn
    cases hinst : process.INSTANCE with
    | none => simp [transformToWiFiData, getInstanceWithOutIP, firstAddress, hconn,
        haddr, hinst, firstNonEmpty]
    | some ins =>
        simp [transformToWiFiData, getInstanceWithOutIP, firstAddress, hconn, haddr, hinst,
          firstNonEmpty_singleton]
  · have haddr : connectedAddress platform call = some _ := if_neg hconn
    cases hinst : process.INSTANCE with
    | none =>
        simp [transformToWiFiData, getInstance, firstAddress, hconn, haddr, hinst, firstNonEmpty_singleton]
    | some ins =>
        simp only [transformToWiFiData, getInstance, firstAddress, hconn, hinst, firstNonEmpty_pair,
          Option.toList_some, List.map_cons, List.map_nil, List.filterMap_cons_some haddr, List.filterMap_nil,
          List.cons_append, List.nil_append, Bool.not_false, if_true, apply_ite DeviceInfo.ip]

theorem firstAddress_step (process : Process) (call : Call) (calls : List Call) :
    firstAddress platform (step platform process call).INSTANCE calls =
      firstAddress platform process.INSTANCE (call :: calls) := by
  have hip : (step platform process call).INSTANCE.toList.map DeviceInfo.ip =
      [firstAddress platform process.INSTANCE [call]] :=
    congrArg (fun ip => [ip]) (transformToWiFiData_ip platform process call)
  have hsplit : (call :: calls).filterMap (connectedAddress platform) =
      [call].filterMap (connectedAddress platform) ++ calls.filterMap (connectedAddress platform) :=
    @List.filterMap_append _ _ [call] calls _
  have hcons : firstAddress platform process.INSTANCE (call :: calls) =
      firstNonEmpty (firstAddress platform process.INSTANCE [call] ::
        calls.filterMap (connectedAddress platform)) := by
    rw [firstAddress, hsplit, ← List.append_assoc, firstNonEmpty_append]
    rfl
  rw [hcons, firstAddress, hip]
  rfl

/-- Once the record has an address it keeps it: what a call reports is the
first address seen up to then, whatever the phone is connected to now. -/
theorem device_ip (process : Process) (calls : List Call) (call : Call) :
    (transformToWiFiData platform (run (step platform) process calls) call).2.device.ip =
      firstAddress platform process.INSTANCE (calls ++ [call]) := by
  induction calls generalizing process with
  | nil => exact transformToWiFiData_ip platform process call
  | cons c calls ih =>
      rw [run_cons, ih, List.cons_append]
      exact firstAddress_step platform process c (calls ++ [call])

end SberWifi.DeviceRecord
