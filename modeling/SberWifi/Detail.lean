import SberWifi.Band
import SberWifi.JavaString
import SberWifi.SignalStrength

namespace SberWifi.Detail

open JavaString Band SignalStrength

structure WiFiConnection where
  ssid : JString
  bssid : JString
  ipAddress : JString
  linkSpeed : JString
  macAddressDevice : JString
deriving DecidableEq, Repr

def linkSpeedInvalid : JString := str "LINK_SPEED_UNKNOWN"

def defaultMacAddress : JString := str "02:00:00:00:00:00"

/-- The constructor of WiFiConnection. `macAddress` is what
`UtilsNet.getMACAddress` answers for the wlan0 interface. -/
def WiFiConnection.create (macAddress ssid bssid ipAddress linkSpeed macAddressDevice : JString) :
    WiFiConnection where
  ssid := ssid
  bssid := bssid
  ipAddress := ipAddress
  linkSpeed := linkSpeed
  macAddressDevice :=
    if macAddressDevice = defaultMacAddress ∧ ssid ≠ [] ∧ macAddress ≠ [] then macAddress
    else macAddressDevice

def WiFiConnection.empty : WiFiConnection := ⟨[], [], [], linkSpeedInvalid, defaultMacAddress⟩

/-- `WiFiConnection.equals`: addresses and link speed are not compared. -/
def WiFiConnection.equals (lhs rhs : WiFiConnection) : Bool :=
  lhs.ssid == rhs.ssid && lhs.bssid == rhs.bssid && lhs.macAddressDevice == rhs.macAddressDevice

def WiFiConnection.isConnected (connection : WiFiConnection) : Bool :=
  !WiFiConnection.empty.equals connection

structure WiFiAdditional where
  vendorName : JString
  wiFiConnection : WiFiConnection := .empty
deriving DecidableEq, Repr

def WiFiAdditional.empty : WiFiAdditional := { vendorName := [] }

structure WiFiSignal where
  primaryFrequency : Int32
  centerFrequency : Int32
  wiFiWidth : WiFiWidth
  level : Int32
  is80211mc : Bool
deriving DecidableEq, Repr

def WiFiSignal.empty : WiFiSignal := ⟨0, 0, .MHZ_20, 0, false⟩

def WiFiSignal.wiFiBand (signal : WiFiSignal) : WiFiBand := bandOf WiFiBand.values signal.primaryFrequency

def WiFiSignal.primaryWiFiChannel (signal : WiFiSignal) : WiFiChannel :=
  signal.wiFiBand.wiFiChannels.getWiFiChannelByFrequency signal.primaryFrequency

def WiFiSignal.frequencyStart (signal : WiFiSignal) : Int32 :=
  signal.centerFrequency - signal.wiFiWidth.frequencyWidthHalf

def WiFiSignal.frequencyEnd (signal : WiFiSignal) : Int32 :=
  signal.centerFrequency + signal.wiFiWidth.frequencyWidthHalf

def WiFiSignal.isInRange (signal : WiFiSignal) (frequency : Int32) : Bool :=
  signal.frequencyStart ≤ frequency && frequency ≤ signal.frequencyEnd

def WiFiSignal.strength (signal : WiFiSignal) : Strength := .calculate signal.level

structure WiFiDetail where
  ssid : JString := []
  bssid : JString
  capabilities : JString
  wiFiSignal : WiFiSignal
  wiFiAdditional : WiFiAdditional := .empty
deriving DecidableEq, Repr

def ssidEmpty : JString := str "***"

def WiFiDetail.isHidden (detail : WiFiDetail) : Bool := isBlank detail.ssid

def WiFiDetail.SSID (detail : WiFiDetail) : JString := if detail.isHidden then ssidEmpty else detail.ssid

def WiFiDetail.empty : WiFiDetail := ⟨[], [], [], .empty, .empty⟩

def WiFiDetail.copy (detail : WiFiDetail) (wiFiAdditional : WiFiAdditional) : WiFiDetail :=
  { detail with wiFiAdditional }

def WiFiDetail.equals (lhs rhs : WiFiDetail) : Bool := lhs.SSID == rhs.SSID && lhs.bssid == rhs.bssid

@[simp] theorem copy_bssid (detail : WiFiDetail) (a : WiFiAdditional) :
    (detail.copy a).bssid = detail.bssid := rfl

@[simp] theorem copy_SSID (detail : WiFiDetail) (a : WiFiAdditional) :
    (detail.copy a).SSID = detail.SSID := rfl

@[simp] theorem copy_wiFiSignal (detail : WiFiDetail) (a : WiFiAdditional) :
    (detail.copy a).wiFiSignal = detail.wiFiSignal := rfl

theorem WiFiDetail.equals_iff (lhs rhs : WiFiDetail) :
    lhs.equals rhs ↔ lhs.SSID = rhs.SSID ∧ lhs.bssid = rhs.bssid := by
  simp [WiFiDetail.equals]

theorem SSID_ne_nil (d : WiFiDetail) : d.SSID ≠ [] := by
  rw [WiFiDetail.SSID]
  by_cases h : d.isHidden
  · rw [if_pos h]
    decide
  · rw [if_neg h]
    intro hnil
    rw [WiFiDetail.isHidden, hnil] at h
    exact h rfl

end SberWifi.Detail
