import ProxyPlane.Http.Stream
import ProxyPlane.Main
import ProxyPlane.Proofs.Addresses
import ProxyPlane.Proofs.Anonymity
import ProxyPlane.Proofs.Batch
import ProxyPlane.Proofs.Bodies
import ProxyPlane.Proofs.Contents
import ProxyPlane.Proofs.Enclosure
import ProxyPlane.Proofs.Episodes
import ProxyPlane.Proofs.Heritage
import ProxyPlane.Proofs.Merging
import ProxyPlane.Proofs.Naming
import ProxyPlane.Proofs.Patch
import ProxyPlane.Proofs.Recompile
import ProxyPlane.Proofs.Refresh
import ProxyPlane.Proofs.Reload
import ProxyPlane.Proofs.RoundTrip
import ProxyPlane.Proofs.Staleness
import ProxyPlane.Proofs.Survival
import ProxyPlane.Proofs.Unresolved
import ProxyPlane.Proofs.Verbatim
import ProxyPlane.Proofs.Versions
import ProxyPlane.Proofs.Viable
import ProxyPlane.Proofs.Wrapping
import ProxyPlane.Wire.Statement
