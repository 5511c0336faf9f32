import BroadcomWl.Systems.Machine
import BroadcomWl.Systems.Channel
import BroadcomWl.Systems.Threads
import BroadcomWl.Systems.LockProgram
import BroadcomWl.Systems.DoubleBuffer
import BroadcomWl.Memory.LinkedList
import BroadcomWl.Memory.Layout
import BroadcomWl.Memory.Ledger
import BroadcomWl.Memory.BoundedMap
import BroadcomWl.Memory.Bytes
import BroadcomWl.Memory.Access
import BroadcomWl.Memory.Stores
import BroadcomWl.Memory.Combine
import BroadcomWl.Memory.Words
import BroadcomWl.Memory.Buffers
import BroadcomWl.Formats.Tlv
import BroadcomWl.Formats.Groups
import BroadcomWl.Formats.Radiotap
import BroadcomWl.Bcmutils.XorBlock
import BroadcomWl.Linux.TxQueue
import BroadcomWl.Linux.Multicast
import BroadcomWl.Linux.Watchdog
import BroadcomWl.Linux.Timer
import BroadcomWl.Linux.TimerTasks
import BroadcomWl.Linux.TimerFree
import BroadcomWl.Linux.DeferredWork
import BroadcomWl.Linux.Dpc
import BroadcomWl.Linux.MonitorRequests
import BroadcomWl.Linux.OpenClose
import BroadcomWl.Linux.LockBalance
import BroadcomWl.Linux.MonitorFrame
import BroadcomWl.Linux.MonitorLeak
import BroadcomWl.Linux.MonitorPayload
import BroadcomWl.Linux.MonitorRadiotap
import BroadcomWl.Linux.Attach
import BroadcomWl.Linux.Devices
import BroadcomWl.Cfg80211.Priv
import BroadcomWl.Cfg80211.Events
import BroadcomWl.Cfg80211.EventQueue
import BroadcomWl.Cfg80211.EventThread
import BroadcomWl.Cfg80211.Connect
import BroadcomWl.Cfg80211.StaleEvents
import BroadcomWl.Cfg80211.EventDispatch
import BroadcomWl.Cfg80211.Scan
import BroadcomWl.Cfg80211.ScanResults
import BroadcomWl.Cfg80211.ScanStatus
import BroadcomWl.Cfg80211.IeBuffer
import BroadcomWl.Cfg80211.BssReports
import BroadcomWl.Cfg80211.Calls
import BroadcomWl.Cfg80211.JoinParams
import BroadcomWl.Cfg80211.ConnectSecurity
import BroadcomWl.Cfg80211.Coherence
import BroadcomWl.Cfg80211.Pipeline
import BroadcomWl.Cfg80211.Station
import BroadcomWl.Cfg80211.AssocIes
import BroadcomWl.Cfg80211.Roaming
import BroadcomWl.Cfg80211.Pmksa
import BroadcomWl.Cfg80211.PmksaMap
import BroadcomWl.Cfg80211.PmksaAtomic
import BroadcomWl.Cfg80211.WiphyParams
import BroadcomWl.Cfg80211.ParamsOverride
import BroadcomWl.Cfg80211.IfaceType
import BroadcomWl.Cfg80211.ModeCopies
import BroadcomWl.Cfg80211.Keys
import BroadcomWl.Cfg80211.KeyTable
import BroadcomWl.Cfg80211.Wowl
import BroadcomWl.Cfg80211.WowlResume
import BroadcomWl.Cfg80211.TxPower
import BroadcomWl.Wext.EncodeExt
import BroadcomWl.Wext.IwFreq
import BroadcomWl.Wext.IwAuth
import BroadcomWl.Wext.WpsEnrollee
import BroadcomWl.Wext.CipherSettings
import BroadcomWl.Wext.IwHandlers
import BroadcomWl.Wext.IwIoctl
import BroadcomWl.Wext.IwBounds
import BroadcomWl.Wext.IwRequests
import BroadcomWl.Wext.ScanIes
import BroadcomWl.Cfg80211.BssInfoUpdate
import BroadcomWl.Wext.ScanEvents
import BroadcomWl.Wext.AddressLists
import BroadcomWl.Wext.IwParams
import BroadcomWl.Wext.IwRate
import BroadcomWl.Wext.IwMode
import BroadcomWl.Linux.Radio
import BroadcomWl.Linux.Rfkill
import BroadcomWl.Linux.ProcMonitor
import BroadcomWl.Wext.Pmksa
import BroadcomWl.Wext.IwEvent
import BroadcomWl.Wext.PmkidCand
