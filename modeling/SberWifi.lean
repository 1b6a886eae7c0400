import SberWifi.StableSort
import SberWifi.AdjacentRuns
import SberWifi.Rating
import SberWifi.TextFields
import SberWifi.Vendors
import SberWifi.VendorLookup
import SberWifi.KeyGroups
import SberWifi.ScanData
import SberWifi.DeviceRecord
import SberWifi.ReportFragment
import SberWifi.IperfEnvelope
import SberWifi.IperfCounter
import SberWifi.IperfScreen
import SberWifi.Interference
import SberWifi.OtherBand
import SberWifi.Screens
import SberWifi.ChannelTables
import SberWifi.Detector
import SberWifi.Receivers
import SberWifi.IperfLedger
import SberWifi.IperfStop
import SberWifi.IperfPairing
import SberWifi.CJsonPrint
import SberWifi.QuietChannels
import SberWifi.OwnChannel
import SberWifi.Selection
import SberWifi.OwnAccessPoint
import SberWifi.VendorLoading
import SberWifi.VendorRetry
import SberWifi.VendorSearch
import SberWifi.FragmentState
import SberWifi.SharedScan
import SberWifi.BracketTokens
import SberWifi.IpAddress
import SberWifi.Capabilities
import SberWifi.BestChannelLine
import SberWifi.TappedRow
import SberWifi.IperfUpload
import SberWifi.TestSettings
import SberWifi.ReplaceInvalid
import SberWifi.ReportString
import SberWifi.DecimalNumbers
import SberWifi.IperfResults
import SberWifi.ByteCounts
import SberWifi.TimerRun
import SberWifi.IperfFaults
import SberWifi.SequenceCounter
import SberWifi.UdpPackets
import SberWifi.IperfIntervals
import SberWifi.Utf8Text
import SberWifi.IperfSending
import SberWifi.IperfStart
