import Orchestrator.Lifecycle
import Orchestrator.Copies
import Orchestrator.Dedup
import Orchestrator.Survival
import Orchestrator.Recovery
import Orchestrator.Locks
import Orchestrator.Stolen
import Orchestrator.Exclusion
import Orchestrator.Blocking
import Orchestrator.Membership
import Orchestrator.Retries
import Orchestrator.Digests
import Orchestrator.Verdicts
import Orchestrator.Replicas
import Orchestrator.Collisions
import Orchestrator.Leftover
import Orchestrator.Classes
import Orchestrator.Relay
import Orchestrator.Forwarding
import Orchestrator.Deafness
import Orchestrator.Partings
import Orchestrator.Isolation
import Orchestrator.Subscription
import Orchestrator.Lookup
import Orchestrator.Agreement
import Orchestrator.Strays
import Orchestrator.Refinement
import Orchestrator.Decision
import Orchestrator.Timing
import Orchestrator.Completion
import Orchestrator.Engines
import Orchestrator.Shutdown
import Orchestrator.Tenancy
import Orchestrator.Pulse
import Orchestrator.Upgrade
import Orchestrator.Provenance
import Orchestrator.Admission
import Orchestrator.ConfigTypes
import Orchestrator.EngineFactory
