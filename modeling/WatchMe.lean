import WatchMe.Effects.Program
import WatchMe.Effects.Pool
import WatchMe.Effects.Trace
import WatchMe.Effects.Outcome
import WatchMe.Model.Event
import WatchMe.Model.Action
import WatchMe.Model.Identity
import WatchMe.Model.State
import WatchMe.Effects.Path
import WatchMe.Daemon.RegistryCalls
import WatchMe.Policy
import WatchMe.Recovery.ActionStore
import WatchMe.Recovery.LedgerInvariant
import WatchMe.Recovery.Transaction
import WatchMe.Recovery.Stage
import WatchMe.Recovery.Conformance
import WatchMe.Recovery.Prelude
import WatchMe.Recovery.RunTraces
import WatchMe.Recovery.Termination
import WatchMe.Recovery.InputGate
import WatchMe.Recovery.Course
import WatchMe.Recovery.Verification
import WatchMe.Recovery.System
import WatchMe.Recovery.Schedules
import WatchMe.Recovery.AtMostOnce
import WatchMe.Recovery.Holding
import WatchMe.Recovery.Exclusion
import WatchMe.Recovery.Restart
import WatchMe.Recovery.SideEffects
import WatchMe.Recovery.Stale
import WatchMe.Recovery.Success
import WatchMe.Recovery.StateMachine
import WatchMe.Recovery.MachineRuns
import WatchMe.Daemon.Reload
import WatchMe.Daemon.RegistryRuns
import WatchMe.Daemon.Commit
import WatchMe.Daemon.Authorization
import WatchMe.Daemon.Registration
import WatchMe.Agents.Codex
import WatchMe.Agents.CodexState
import WatchMe.Agents.Attachment
import WatchMe.Agents.Claude
import WatchMe.Daemon.Observer
import WatchMe.Daemon.Owner
import WatchMe.Daemon.Persistence
import WatchMe.Daemon.Observation
import WatchMe.Daemon.Executor
import WatchMe.Daemon.WaitDeadlines
import WatchMe.Daemon.Dispatch
import WatchMe.Agents.Recipes
import WatchMe.Daemon.Requests
import WatchMe.Daemon.Service
import WatchMe.Daemon.ServiceCalls
import WatchMe.Daemon.Handoff
import WatchMe.Daemon.ServiceTraces
import WatchMe.Daemon.JobTraces
import WatchMe.Daemon.Loop
import WatchMe.Daemon.Window
import WatchMe.Daemon.Jobs
import WatchMe.Daemon.WaitBudget
import WatchMe.Daemon.Lifecycle
import WatchMe.Mux.Actuator
import WatchMe.Mux.Execution
import WatchMe.Daemon.Revalidation
import WatchMe.Process.Linux
import WatchMe.Process.StatLine
import WatchMe.Mux.Tmux
import WatchMe.Mux.TmuxTarget
import WatchMe.Mux.TmuxComposer
import WatchMe.Mux.TmuxOutput
import WatchMe.Mux.Herdr
import WatchMe.Mux.HerdrTyping
import WatchMe.Recovery.LedgerSize
import WatchMe.Daemon.Registry
import WatchMe.Effects.Interpret
import WatchMe.Mux.Composer
import WatchMe.Process.Inspector
import WatchMe.Text.Json
import WatchMe.Text.Reading
import WatchMe.Text.Calendar
import WatchMe.Recovery.ResetTime
import WatchMe.Recovery.ResetSanity
import WatchMe.Hooks.Claude
import WatchMe.Agents.ClaudeHook
import WatchMe.Agents.ClaudeMenu
import WatchMe.Daemon.ClaudeLimits
import WatchMe.Daemon.Attachment
import WatchMe.Daemon.Promotion
import WatchMe.Daemon.Scheduler
import WatchMe.Effects.Ensures
import WatchMe.Store.Json
import WatchMe.Store.Write
import WatchMe.Store.Load
import WatchMe.Store.RoundTrip
import WatchMe.Recovery.Cooldown
import WatchMe.Effects.Interference
import WatchMe.Effects.Mortal
import WatchMe.Daemon.Lock
import WatchMe.Daemon.LockAvailability
import WatchMe.Daemon.Supervisor
import WatchMe.Daemon.Shutdown
import WatchMe.Daemon.Exit
import WatchMe.Daemon.ResumeDeadline
import WatchMe.Daemon.WaitAtomicity
import WatchMe.Text.Lines
import WatchMe.Text.Utf8
import WatchMe.Logs.Bounded
import WatchMe.Hooks.Markers
import WatchMe.Hooks.Command
import WatchMe.Audit.Log
import WatchMe.Audit.Stages
import WatchMe.Audit.Retention
import WatchMe.Audit.Follow
import WatchMe.Planner.Router
import WatchMe.Planner.Schema
import WatchMe.Planner.Broker
import WatchMe.Redact
import WatchMe.Planner.Snapshot
import WatchMe.Ipc.Protocol
import WatchMe.Effects.Remarks
import WatchMe.Audit.Decisions
import WatchMe.Audit.PolicyAllow
import WatchMe.Process.Absence
import WatchMe.Observe.Screen
import WatchMe.Observe.Sanitizer
import WatchMe.Observe.Jsonl
import WatchMe.Process.Resolution
