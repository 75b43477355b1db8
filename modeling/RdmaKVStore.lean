import RdmaKVStore.UninterruptedWorkers
import RdmaKVStore.TransitionRuns
import RdmaKVStore.PublishedValues
import RdmaKVStore.RemovedItems
import RdmaKVStore.ReceiveQueue
import RdmaKVStore.WorkCompletion
import RdmaKVStore.ServerSession
import RdmaKVStore.FailedReceive
import RdmaKVStore.ReceiveRing
import RdmaKVStore.EarlyRequests
import RdmaKVStore.ServedTurns
import RdmaKVStore.ResponseCount
import RdmaKVStore.ReceiveOverrun
import RdmaKVStore.ClientRetries
import RdmaKVStore.SendQueue
import RdmaKVStore.DatagramSteps
import RdmaKVStore.ServerLock
import RdmaKVStore.DatagramDispatch
import RdmaKVStore.ResponseRoutes
import RdmaKVStore.ResponseBuffers
import RdmaKVStore.ServedDatagrams
import RdmaKVStore.PhaseCount
import RdmaKVStore.CompletionEvents
import RdmaKVStore.AccessBounds
import RdmaKVStore.ResetSteps
import RdmaKVStore.ResetIsolation
import RdmaKVStore.RcSession
import RdmaKVStore.RecordStreams
import RdmaKVStore.WireFormat
import RdmaKVStore.TcpFraming
import RdmaKVStore.TransportEquivalence
import RdmaKVStore.UninterruptedResets
import RdmaKVStore.TableContents
import RdmaKVStore.RefusedUpdates
import RdmaKVStore.KeyIdentity
import RdmaKVStore.SessionEnd
import RdmaKVStore.AnsweredRuns
import RdmaKVStore.ReceiveBalance
import RdmaKVStore.TableAllocation
import RdmaKVStore.BlockReachability
import RdmaKVStore.TimeSpan
import RdmaKVStore.BenchmarkRuns
import RdmaKVStore.CompletionCollection
import RdmaKVStore.EventAcknowledgement
import RdmaKVStore.InstanceRequests
import RdmaKVStore.ResultNames
import RdmaKVStore.FirstMatch
import RdmaKVStore.Noninterference
import RdmaKVStore.StoreContents
import RdmaKVStore.KeySources
import RdmaKVStore.SectionLocks
import RdmaKVStore.ConflictFreeWorkers
import RdmaKVStore.LinearizedWorkers
import RdmaKVStore.InstanceWorkers
import RdmaKVStore.TerminatingRuns
import RdmaKVStore.WorkerProgress
import RdmaKVStore.RcProgress
import RdmaKVStore.DatagramProgress
import RdmaKVStore.QueuePairs
import RdmaKVStore.UcConnections
import RdmaKVStore.UcPairing
import RdmaKVStore.RcStore
import RdmaKVStore.RcAnswers
import RdmaKVStore.RcClients
import RdmaKVStore.RcConnections
import RdmaKVStore.ConnectRequests
import RdmaKVStore.ConnectionsInTurn
import RdmaKVStore.RepeatedInputs
import RdmaKVStore.RetriedOperations
import RdmaKVStore.RetriedRequests
import RdmaKVStore.RcStoreProgress
