import StealthNet.Lib.Exec
import StealthNet.Ideal
import StealthNet.Daemon.Grants
import StealthNet.Daemon.Deciding
import StealthNet.Network.Provenance
import StealthNet.Network.Authentication
import StealthNet.Network.Simulator
import StealthNet.Network.Storm
import StealthNet.Network.Replay
import StealthNet.Network.Travel
import StealthNet.Network.Correlation
import StealthNet.Network.Reachability
import StealthNet.Network.Registration
import StealthNet.Lookup
import StealthNet.Daemon.Consistency
import StealthNet.Daemon.Transparency
import StealthNet.Network.Atomicity
import StealthNet.Network.Pending
import StealthNet.Daemon.Understanding
import StealthNet.Network.Registry
import StealthNet.Network.Convergence
import StealthNet.Daemon.Context
import StealthNet.Destination
import StealthNet.Daemon.Assignment
import StealthNet.Network.Agreement
import StealthNet.Network.Malleability
import StealthNet.Network.Threads
import StealthNet.Network.Nonces
import StealthNet.Network.Completion
import StealthNet.Network.Startup
import StealthNet.Network.Linearization
import StealthNet.Network.Console
import StealthNet.Identity
import StealthNet.Display
