import AtorProtocol.AddressMap.Rewrite
import AtorProtocol.AddressMap.Runs
import AtorProtocol.Buffers.Search
import AtorProtocol.Circpad.Agreement
import AtorProtocol.Circpad.PaddingLimit
import AtorProtocol.Circuitlist.Runs
import AtorProtocol.Circuitmux.Counters
import AtorProtocol.Conflux.Allocation
import AtorProtocol.Conflux.DeliveryLoop
import AtorProtocol.Conflux.ExitSet
import AtorProtocol.Conflux.LegRemoval
import AtorProtocol.Conflux.LinkedNonce
import AtorProtocol.Conflux.OrderedDelivery
import AtorProtocol.ConsDiff.ApplyLoops
import AtorProtocol.ConsDiff.ShortestDiff
import AtorProtocol.ConsDiff.TextDiff
import AtorProtocol.Container.Pqueue
import AtorProtocol.Container.Smartlist
import AtorProtocol.Control.EscapedData
import AtorProtocol.Dirauth.BandwidthTotals
import AtorProtocol.Dirauth.BandwidthWeights
import AtorProtocol.Dirauth.Collation
import AtorProtocol.Dirauth.Methods
import AtorProtocol.Dirauth.Params
import AtorProtocol.Dirauth.SignatureSets
import AtorProtocol.Dirauth.VersionOrder
import AtorProtocol.Dirauth.VotingSchedule
import AtorProtocol.Dirparse.Documents
import AtorProtocol.Dos.ConnCount
import AtorProtocol.Encoding.ConfigDump
import AtorProtocol.Encoding.Kvline
import AtorProtocol.Encoding.LineEndings
import AtorProtocol.Entrynodes.UpgradeWaiting
import AtorProtocol.FlowControl.QueueUse
import AtorProtocol.FlowControl.SendmeSync
import AtorProtocol.FlowControl.StreamXoff
import AtorProtocol.FlowControl.WindowRuns
import AtorProtocol.Hibernate.AccountingPeriod
import AtorProtocol.Hibernate.Wakeup
import AtorProtocol.HiddenService.CacheAccounting
import AtorProtocol.HiddenService.PowReplay
import AtorProtocol.HiddenService.PowTrim
import AtorProtocol.HiddenService.ReplayCache
import AtorProtocol.HiddenService.ResponsibleHsdirs
import AtorProtocol.Keypin.Replay
import AtorProtocol.Net.AddrCompare
import AtorProtocol.Net.PtrName
import AtorProtocol.Nodelist.NodeSelect
import AtorProtocol.Nodelist.NodefamilyRuns
import AtorProtocol.Nodelist.RouterlistRuns
import AtorProtocol.Onion.OnionQueue
import AtorProtocol.Onion.Sync
import AtorProtocol.Policies.GeneralExit
import AtorProtocol.Policies.PartialKnowledge
import AtorProtocol.Policies.Redundancies
import AtorProtocol.Protover.Grammar
import AtorProtocol.Protover.Supported
import AtorProtocol.Relay.PayloadParsers
import AtorProtocol.Scheduler.Channels
import AtorProtocol.SharedRandom.Invariant
import AtorProtocol.Socks.Segmentation
