import SberWifi.ScanData

namespace SberWifi.Transformer

open JavaString Band Detail ScanData

/-- What `android.os.Build` and the processor say about the phone. -/
structure Platform where
  MODEL : JString
  RELEASE : JString
  SDK_INT : Int32
  littleEndian : Bool

/-- The fields of `android.net.wifi.ScanResult` that are read. The two that are
read by reflection may be missing. -/
structure ScanResult where
  SSID : JString
  BSSID : JString
  capabilities : JString
  frequency : Int32
  level : Int32
  centerFreq0 : Option Int32
  channelWidth : Option Int32
  is80211mcResponder : Bool

structure WifiInfo where
  networkId : Int32
  ssid : JString
  bssid : JString
  ipAddress : Int32
  linkSpeed : Int32
  macAddress : JString

def removeStart (s remove : JString) : JString := if remove <+: s then s.drop remove.length else s

def removeEnd (s remove : JString) : JString := if remove <:+ s then s.take (s.length - remove.length) else s

def convertSSID (ssid : JString) : JString := removeEnd (removeStart ssid (str "\"")) (str "\"")

def bytes (value : Int32) : List UInt8 :=
  let v := value.toUInt32
  [(v >>> 24).toUInt8, (v >>> 16).toUInt8, (v >>> 8).toUInt8, v.toUInt8]

def reverseBytes (value : Int32) : Int32 :=
  let v := value.toUInt32
  ((v <<< 24) ||| ((v <<< 8) &&& (0xFF0000 : UInt32)) |||
    ((v >>> 8) &&& (0xFF00 : UInt32)) ||| (v >>> 24)).toInt32

/-- Leading bytes that only repeat the sign are left out. -/
def dropSign : List UInt8 → List UInt8
  | a :: b :: rest =>
      if (a = 0 ∧ b < 128) ∨ (a = 255 ∧ 128 ≤ b) then dropSign (b :: rest) else a :: b :: rest
  | l => l

def toByteArray (value : Int32) : List UInt8 := dropSign (bytes value)

/-- `InetAddress.getByAddress(bytes).hostAddress` for at most four bytes; fewer
are an UnknownHostException. -/
def hostAddress (ipBytes : List UInt8) : Option JString :=
  if ipBytes.length = 4 then some ((str ".").intercalate (ipBytes.map fun b => str (toString b.toNat)))
  else none

def convertIpAddress (platform : Platform) (ipAddress : Int32) : JString :=
  let ipBytes := toByteArray (if platform.littleEndian then reverseBytes ipAddress else ipAddress)
  (hostAddress ipBytes).getD []

def transformLinkSpeedUnits (value : Int32) : JString :=
  if value = -1 then str "LINK_SPEED_UNKNOWN" else str (toString value.toInt) ++ str " Mbps"

def transformWifiInfo (platform : Platform) (macAddress : JString) (wifiInfo : Option WifiInfo) :
    WiFiConnection :=
  match wifiInfo with
  | none => .empty
  | some wifiInfo =>
      if wifiInfo.networkId = -1 then .empty
      else .create macAddress (convertSSID wifiInfo.ssid) wifiInfo.bssid
        (convertIpAddress platform wifiInfo.ipAddress) (transformLinkSpeedUnits wifiInfo.linkSpeed)
        wifiInfo.macAddress

def getWiFiWidth (scanResult : ScanResult) : WiFiWidth :=
  match scanResult.channelWidth with
  | none => .MHZ_20
  | some channelWidth => enumFindOrdinal WiFiWidth.values channelWidth .MHZ_20

def isExtensionFrequency (scanResult : ScanResult) (wiFiWidth : WiFiWidth) (centerFrequency : Int32) : Bool :=
  WiFiWidth.MHZ_40 = wiFiWidth ∧
    (scanResult.frequency - centerFrequency).abs ≥ WiFiWidth.MHZ_40.frequencyWidthHalf

def getCenterFrequency (scanResult : ScanResult) (wiFiWidth : WiFiWidth) : Int32 :=
  match scanResult.centerFreq0 with
  | none => scanResult.frequency
  | some centerFrequency =>
      if centerFrequency = 0 then scanResult.frequency
      else if isExtensionFrequency scanResult wiFiWidth centerFrequency then
        (centerFrequency + scanResult.frequency) / 2
      else centerFrequency

def is80211mc (platform : Platform) (scanResult : ScanResult) : Bool :=
  platform.SDK_INT ≥ 23 && scanResult.is80211mcResponder

abbrev Ref := Nat

def EMPTY : Ref := 0

/-- A WiFiDetail object: its additional part is a reference, and the default
argument makes it a reference to the one shared object. -/
structure ScannedDetail where
  ssid : JString
  bssid : JString
  capabilities : JString
  wiFiSignal : WiFiSignal
  wiFiAdditional : Ref := EMPTY

structure ScannedData where
  wiFiDetails : List ScannedDetail
  wiFiConnection : WiFiConnection
  device : DeviceInfo

structure Process where
  INSTANCE : Option DeviceInfo
  memory : Ref → WiFiAdditional

def Process.started (INSTANCE : Option DeviceInfo) : Process := ⟨INSTANCE, fun _ => .empty⟩

def ScannedDetail.read (process : Process) (d : ScannedDetail) : WiFiDetail :=
  ⟨d.ssid, d.bssid, d.capabilities, d.wiFiSignal, process.memory d.wiFiAdditional⟩

def ScannedData.read (process : Process) (data : ScannedData) : WiFiData :=
  ⟨data.wiFiDetails.map (·.read process), data.wiFiConnection, data.device⟩

/-- One call of transformToWiFiData: its arguments, and the address that
`UtilsNet.getMACAddress` finds for wlan0 at that time. -/
structure Call where
  scanResult : List ScanResult
  wifiInfo : Option WifiInfo
  macAddress : JString

section Platform

variable (platform : Platform)

def toWiFiDetail (input : ScanResult) : ScannedDetail :=
  let wiFiWidth := getWiFiWidth input
  let centerFrequency := getCenterFrequency input wiFiWidth
  let wiFiSignal := ⟨input.frequency, centerFrequency, wiFiWidth, input.level, is80211mc platform input⟩
  { ssid := input.SSID, bssid := input.BSSID, capabilities := input.capabilities, wiFiSignal }

def transformScanResult (scanResult : List ScanResult) : List ScannedDetail :=
  scanResult.map (toWiFiDetail platform)

/-- The instance after `DeviceInfo.getInstance`: an address is filled in only
where there is none. -/
def getInstance (macAddress : JString) (INSTANCE : Option DeviceInfo) (wiFiConnection : WiFiConnection) :
    DeviceInfo :=
  match INSTANCE with
  | some result => if result.ip.isEmpty then { result with ip := wiFiConnection.ipAddress } else result
  | none => ⟨platform.MODEL, platform.RELEASE, macAddress, wiFiConnection.ipAddress⟩

def getInstanceWithOutIP (macAddress : JString) (INSTANCE : Option DeviceInfo) : DeviceInfo :=
  match INSTANCE with
  | some ins => ins
  | none => ⟨platform.MODEL, platform.RELEASE, macAddress, []⟩

/-- The device of the result is the record as the call leaves it. -/
def transformToWiFiData (process : Process) (call : Call) : Process × ScannedData :=
  let wiFiDetails := transformScanResult platform call.scanResult
  let wiFiConnection := transformWifiInfo platform call.macAddress call.wifiInfo
  let device :=
    if !wiFiConnection.equals .empty then
      getInstance platform call.macAddress process.INSTANCE wiFiConnection
    else getInstanceWithOutIP platform call.macAddress process.INSTANCE
  ({ process with INSTANCE := some device }, ⟨wiFiDetails, wiFiConnection, device⟩)

end Platform

@[simp] theorem transformToWiFiData_wiFiDetails (platform : Platform) (process : Process) (call : Call) :
    (transformToWiFiData platform process call).2.wiFiDetails =
      transformScanResult platform call.scanResult := rfl

end SberWifi.Transformer
