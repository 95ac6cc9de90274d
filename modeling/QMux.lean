import QMux.Support.Transition
import QMux.Support.Cells
import QMux.Auth.TokenBinding
import QMux.Protocol.UDPFragmentRoundTrip
import QMux.Drain.Fence
import QMux.Drain.ControlLoop
import QMux.Mesh.RegistryCapacity
import QMux.Mesh.PeerAgreement
import QMux.Mesh.GroupRules
import QMux.Pool.LeaseAccounting
import QMux.Traffic.UDPIsolation
import QMux.Traffic.UDPSenderRuns
import QMux.Protocol.Codec
import QMux.Protocol.UDPAssemblerHistory
import QMux.Traffic.TCPShutdown
import QMux.TLSReload.WatchLoop
import QMux.Mesh.AdmissionSetups
import QMux.Mesh.GroupAvailabilityRuns
import QMux.Pool.LeastConnections
import QMux.Mesh.LinkDelivery
import QMux.Config.HTTPPath
