import AsterRpc.Audit.Delivery
import AsterRpc.Client.Convergence
import AsterRpc.Delegation.History
import AsterRpc.Enrollment.Evidence
import AsterRpc.Enrollment.Policy
import AsterRpc.Enrollment.RootService
import AsterRpc.Exec.AuthorityKeys
import AsterRpc.Exec.Grants
import AsterRpc.Registry.RoundRobin
import AsterRpc.Rpc.CircuitBreaker
import AsterRpc.Rpc.Deadlines
import AsterRpc.Rpc.Ownership
import AsterRpc.Runtime.Corridor
import AsterRpc.Schema.Decoding
import AsterRpc.Storage.AuditRows
import AsterRpc.Storage.Authority
import AsterRpc.Storage.Finality
import AsterRpc.Storage.Import
import AsterRpc.Storage.LogRefinement
import AsterRpc.Storage.NativeMembership
import AsterRpc.Store.Metadata
import AsterRpc.Streams.Pool
import AsterRpc.Topology.TrafficLedger
import AsterRpc.Wire.Framing
import AsterRpc.Wire.Ticket
