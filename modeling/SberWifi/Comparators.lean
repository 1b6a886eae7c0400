import SberWifi.Detail
import SberWifi.StableSort

namespace SberWifi.Comparators

open JavaString Band Detail

-- Each comparator is one `CompareToBuilder` chain. `compareOn f` is `append(f lhs, f rhs)`,
-- and `flip (compareOn f)` is `append(f rhs, f lhs)`.

section Comparators

variable (locale : JLocale)

def upperSSID (d : WiFiDetail) : JString := locale.toUpperCase d.SSID

def upperBSSID (d : WiFiDetail) : JString := locale.toUpperCase d.bssid

def level (d : WiFiDetail) : Int32 := d.wiFiSignal.level

def primaryFrequency (d : WiFiDetail) : Int32 := d.wiFiSignal.primaryFrequency

def primaryChannel (d : WiFiDetail) : Int32 := d.wiFiSignal.primaryWiFiChannel.channel

def strengthComparator : WiFiDetail → WiFiDetail → Ordering :=
  compareLex (flip (compareOn level))
    (compareLex (compareOn (upperSSID locale)) (compareOn (upperBSSID locale)))

def ssidComparator : WiFiDetail → WiFiDetail → Ordering :=
  compareLex (compareOn (upperSSID locale))
    (compareLex (flip (compareOn level)) (compareOn (upperBSSID locale)))

def channelComparator : WiFiDetail → WiFiDetail → Ordering :=
  compareLex (compareOn primaryChannel)
    (compareLex (flip (compareOn level))
      (compareLex (compareOn (upperSSID locale)) (compareOn (upperBSSID locale))))

def ssidSortOrder : WiFiDetail → WiFiDetail → Ordering :=
  compareLex (compareOn (upperSSID locale))
    (compareLex (flip (compareOn level)) (compareOn (upperBSSID locale)))

def channelSortOrder : WiFiDetail → WiFiDetail → Ordering :=
  compareLex (compareOn primaryChannel)
    (compareLex (flip (compareOn level))
      (compareLex (compareOn (upperSSID locale)) (compareOn (upperBSSID locale))))

def ssidGroupBy : WiFiDetail → WiFiDetail → Ordering := compareOn (upperSSID locale)

def channelGroupBy : WiFiDetail → WiFiDetail → Ordering := compareOn primaryChannel

/-- The comparator of `GroupBy.NONE`, which is no order: it never answers less. -/
def noneComparator (lhs rhs : WiFiDetail) : Ordering := if lhs.equals rhs then .eq else .gt

end Comparators

inductive SortBy
  | STRENGTH
  | SSID
  | CHANNEL
deriving DecidableEq, Repr

def SortBy.comparator (locale : JLocale) : SortBy → WiFiDetail → WiFiDetail → Ordering
  | .STRENGTH => strengthComparator locale
  | .SSID => ssidComparator locale
  | .CHANNEL => channelComparator locale

inductive GroupBy
  | NONE
  | SSID
  | CHANNEL
deriving DecidableEq, Repr

def GroupBy.sortOrderComparator (locale : JLocale) : GroupBy → WiFiDetail → WiFiDetail → Ordering
  | .NONE => noneComparator
  | .SSID => ssidSortOrder locale
  | .CHANNEL => channelSortOrder locale

def GroupBy.groupByComparator (locale : JLocale) : GroupBy → WiFiDetail → WiFiDetail → Ordering
  | .NONE => noneComparator
  | .SSID => ssidGroupBy locale
  | .CHANNEL => channelGroupBy

instance (locale : JLocale) : Std.TransCmp (strengthComparator locale) := by
  rw [strengthComparator]
  infer_instance

instance (locale : JLocale) : Std.TransCmp (ssidSortOrder locale) := by
  rw [ssidSortOrder]
  infer_instance

instance (locale : JLocale) : Std.TransCmp (channelSortOrder locale) := by
  rw [channelSortOrder]
  infer_instance

instance (locale : JLocale) (sortBy : SortBy) : Std.TransCmp (sortBy.comparator locale) := by
  cases sortBy with
  | STRENGTH => exact inferInstanceAs (Std.TransCmp (strengthComparator locale))
  | SSID => exact inferInstanceAs (Std.TransCmp (ssidSortOrder locale))
  | CHANNEL => exact inferInstanceAs (Std.TransCmp (channelSortOrder locale))

end SberWifi.Comparators
