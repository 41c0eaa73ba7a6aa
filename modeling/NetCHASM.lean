import NetCHASM.RetryLaw
import NetCHASM.ConfigHash
import NetCHASM.StorageReads
import NetCHASM.StorageShutdown
import NetCHASM.StorageRestart
import NetCHASM.ReloadMerge
import NetCHASM.ReloadDNS
import NetCHASM.DNSRuns
import NetCHASM.RemoteRuns
import NetCHASM.HealthRuns
import NetCHASM.RestartHistory
import NetCHASM.DNSWaiters
import NetCHASM.ResultRoundTrip
import NetCHASM.AuxRoundTrip
import NetCHASM.TransactionHashes
import NetCHASM.CommitReload
import NetCHASM.ConfigChange
import NetCHASM.YamlRoundTrip
import NetCHASM.DataPacking
import NetCHASM.RemoteLookup
import NetCHASM.ControlReplies
import NetCHASM.HashMessage
import NetCHASM.CheckListIndex
import NetCHASM.MasterConfig
import NetCHASM.ResultUniqueness
import NetCHASM.KeyComparators
import NetCHASM.EventRearm
import NetCHASM.ForcedChecks
import NetCHASM.RestoredResults
import NetCHASM.CommitPolicy
import NetCHASM.AddressSync
import NetCHASM.ResponseTimes
import NetCHASM.FlapLaw
import NetCHASM.RemoteNoData
import NetCHASM.ConfiguredTimes
import NetCHASM.ResultPurge
import NetCHASM.AddressCarryOver
import NetCHASM.RemoteHostResults
import NetCHASM.ControlSockets
import NetCHASM.ThreadPool
import NetCHASM.WorkQueue
import NetCHASM.ConnectionPool
import NetCHASM.RemoteFetch
import NetCHASM.LoadFeedback
import NetCHASM.ChildGroups
import NetCHASM.IndirectHosts
import NetCHASM.ReloadDiff
import NetCHASM.YamlKeyOrder
import NetCHASM.AuxKeyBytes
import NetCHASM.CheckInfo
import NetCHASM.DNSInit
import NetCHASM.StorageHost
import NetCHASM.StorageHostConfigs
