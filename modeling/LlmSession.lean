import LlmSession.Main
import LlmSession.Engine.Transcript
import LlmSession.Proofs.Session.Fragments
import LlmSession.Proofs.Session.Markers
import LlmSession.Proofs.Turn.Tracking
import LlmSession.Proofs.Text.Release
import LlmSession.Gguf
import LlmSession.Proofs.Session.Draws
import LlmSession.Proofs.Session.Cache
import LlmSession.Proofs.Session.Phases
import LlmSession.Proofs.Worker.Streams
import LlmSession.Proofs.Session.Length
import LlmSession.Proofs.Worker.Replies
import LlmSession.Proofs.Cli.Ledger
import LlmSession.Proofs.Cli.History
import LlmSession.Proofs.Engine.Room
import LlmSession.Proofs.Session.Finality
import LlmSession.Proofs.Session.Admission
import LlmSession.Proofs.Session.Course
import LlmSession.Proofs.Session.Forecast
import LlmSession.Proofs.Session.Chunking
import LlmSession.Proofs.Session.HandOver
import LlmSession.Proofs.Text.Damage
import LlmSession.Proofs.Conversation.Boundaries
import LlmSession.Proofs.Engine.Measuring
import LlmSession.Proofs.Session.Benchmark
import LlmSession.Proofs.Json.Numerals
import LlmSession.Proofs.Json.Values
import LlmSession.Proofs.Decimal.Shortest
import LlmSession.Proofs.Json.Records
import LlmSession.Proofs.Settings.Persistence
import LlmSession.Proofs.Batch.Staging
import LlmSession.Proofs.Engine.Outcomes
import LlmSession.Proofs.Session.Failures
import LlmSession.Proofs.Session.StopTokens
import LlmSession.Proofs.Session.Reloads
import LlmSession.Proofs.Text.Grammar
import LlmSession.Proofs.Gguf.Header
import LlmSession.Proofs.Settings.Repair
import LlmSession.Proofs.Cli.Overrides
import LlmSession.Proofs.Cli.Benchmark
import LlmSession.Proofs.Engine.Prompt
