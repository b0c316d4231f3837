import ClusterAccess.Access.Command
import ClusterAccess.Identity.Authenticator
import ClusterAccess.Store.Memory
import ClusterAccess.Store.Script
import ClusterAccess.Store.Wire
import ClusterAccess.Proofs.Access.Absorption
import ClusterAccess.Proofs.Service.Deletion
import ClusterAccess.Proofs.Service.Newcomers
import ClusterAccess.Proofs.Service.Numbering
import ClusterAccess.Proofs.Identity.Expiry
import ClusterAccess.Proofs.Service.Grounds
import ClusterAccess.Proofs.Service.Locality
import ClusterAccess.Proofs.Service.Backing
import ClusterAccess.Proofs.Service.Stability
import ClusterAccess.Proofs.Service.Erasure
import ClusterAccess.Proofs.Service.Names
import ClusterAccess.Proofs.Identity.RoundTrip
import ClusterAccess.Proofs.Service.Profiles
import ClusterAccess.Proofs.Administration.Faults
import ClusterAccess.Proofs.Service.Disbanding
import ClusterAccess.Proofs.Service.Lifetime
import ClusterAccess.Proofs.Service.Memberships
import ClusterAccess.Proofs.Service.Reading
import ClusterAccess.Proofs.Service.Lookup
import ClusterAccess.Proofs.Identity.Credentials
import ClusterAccess.Proofs.Identity.Leeway
import ClusterAccess.Proofs.Identity.Integers
import ClusterAccess.Proofs.Service.Founding
