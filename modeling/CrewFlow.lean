import CrewFlow.Flow.JsonForm
import CrewFlow.Rehearsal.Reading
import CrewFlow.Remote.Completion
import CrewFlow.Remote.ToolServer
import CrewFlow.Service.Routes
import CrewFlow.Service.Settings
import CrewFlow.Proofs.Crew.Timing
import CrewFlow.Proofs.Execution.Reports
import CrewFlow.Proofs.Execution.Kept
import CrewFlow.Proofs.Flow.Completion
import CrewFlow.Proofs.Crew.Rounds
import CrewFlow.Proofs.Build.Wiring
import CrewFlow.Proofs.Run.Flows
import CrewFlow.Proofs.Service.Lifecycle
import CrewFlow.Proofs.Build.Noted
import CrewFlow.Proofs.Flow.Unchosen
import CrewFlow.Proofs.Flow.History
import CrewFlow.Proofs.Run.Snapshots
import CrewFlow.Proofs.Run.Kickoffs
import CrewFlow.Proofs.Crew.Waiting
import CrewFlow.Proofs.Crew.Dependencies
import CrewFlow.Proofs.Crew.Aftermath
import CrewFlow.Proofs.Spec.Pointing
import CrewFlow.Proofs.Remote.Freshness
import CrewFlow.Proofs.Spec.Complete
import CrewFlow.Proofs.Spec.RoundTrip
import CrewFlow.Proofs.Json.Text
import CrewFlow.Proofs.Spec.Lone
import CrewFlow.Proofs.Service.Naming
import CrewFlow.Proofs.Run.Dataflow
import CrewFlow.Proofs.Run.FanIn
import CrewFlow.Proofs.Rate.Tallies
import CrewFlow.Proofs.Rate.Traffic
import CrewFlow.Proofs.Text.Search
import CrewFlow.Proofs.Json.Quotes
import CrewFlow.Proofs.Agent.Formats
import CrewFlow.Proofs.Agent.Alone
import CrewFlow.Proofs.Agent.Cutoff
import CrewFlow.Proofs.Agent.Session
import CrewFlow.Proofs.Agent.Loop
import CrewFlow.Proofs.Spec.Cycles
import CrewFlow.Proofs.Flow.Chain
import CrewFlow.Proofs.Spec.Unknown
import CrewFlow.Proofs.Crew.Once
import CrewFlow.Proofs.Crew.Gathering
import CrewFlow.Proofs.Crew.Context
import CrewFlow.Proofs.Crew.Arrangement
import CrewFlow.Proofs.Build.Pools
import CrewFlow.Proofs.Text.Template
import CrewFlow.Proofs.Remote.Attempts
import CrewFlow.Proofs.Remote.Excerpt
import CrewFlow.Proofs.Remote.Retries
import CrewFlow.Proofs.Crew.Fingerprint
import CrewFlow.Proofs.Execution.Reopened
import CrewFlow.Proofs.Spec.Canonical
import CrewFlow.Proofs.Service.Addresses
