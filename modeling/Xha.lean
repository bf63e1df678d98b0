import Xha.Sm.Unheard
import Xha.Sm.Agreement
import Xha.Sm.Boot
import Xha.Sm.InitPool
import Xha.Sm.Removal
import Xha.Sm.JoinAgreement
import Xha.Sm.Weights
import Xha.Sm.Degradation
import Xha.Lock.Exclusion
import Xha.StateFile.Requests
import Xha.StateFile.GlobalSection
import Xha.Hb.Snapshots
import Xha.Sm.Recovery
import Xha.Weight.Map
import Xha.Config.Numbering
import Xha.Sm.FrozenView
import Xha.Sm.MergeView
import Xha.Sm.Winner
import Xha.Sm.LegalWeights
import Xha.Sm.FencingWait
import Xha.Sm.SfdomainUpdate
import Xha.StateFile.Sequence
import Xha.Hb.Validation
import Xha.Hb.SequenceFilter
import Xha.Hb.Addresses
import Xha.Config.LocalIndex
import Xha.Config.Written
import Xha.Lib.Layout
import Xha.Lib.While
import Xha.StateFile.Format
import Xha.StateFile.Codec
import Xha.StateFile.ReadBack
import Xha.Weight.Failure
import Xha.Script.QueryLiveset
import Xha.Sm.Score
import Xha.Lock.Priority
import Xha.Xapi.Monitor
import Xha.Com.Manager
import Xha.Com.Moves
import Xha.Com.RefCount
import Xha.Com.Locking
import Xha.Com.Callbacks
import Xha.StateFile.Command
import Xha.Com.Progress
import Xha.Com.Sections
import Xha.Lib.Pipe
import Xha.Script.Delivery
import Xha.Watchdog.Hypervisor
import Xha.Watchdog.Instance
import Xha.Watchdog.Table
import Xha.Watchdog.Cleanup
import Xha.Watchdog.Fencing
import Xha.Watchdog.Owners
import Xha.Watchdog.Disarm
