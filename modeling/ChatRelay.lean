import ChatRelay.Text.Blank
import ChatRelay.Text.Utf8
import ChatRelay.Text.Search
import ChatRelay.Text.Base64
import ChatRelay.Text.Quoted
import ChatRelay.Digest.Sha256
import ChatRelay.Decimal.Shortest
import ChatRelay.Json.Reader
import ChatRelay.Json.Writer
import ChatRelay.Json.Decode
import ChatRelay.Message
import ChatRelay.Frame
import ChatRelay.Transcript.Scan
import ChatRelay.Provider.Delta
import ChatRelay.Reply
import ChatRelay.Assistant.Registry
import ChatRelay.History.Store
import ChatRelay.Toml.Reader
import ChatRelay.Settings.EnvironmentFile
import ChatRelay.Files.Store
import ChatRelay.Backend.Completions
import ChatRelay.Turn.Run
import ChatRelay.History.Memory
import ChatRelay.Proofs.Transcript.Offsets
import ChatRelay.Proofs.Transcript.Pieces
import ChatRelay.Proofs.Transcript.Grammar
import ChatRelay.Proofs.Reply.Sections
import ChatRelay.Proofs.Turn.FailedReplies
import ChatRelay.Proofs.Turn.Course
import ChatRelay.Proofs.Turn.Calls
import ChatRelay.Proofs.Turn.Delegation
import ChatRelay.Proofs.Turn.Keeping
import ChatRelay.Proofs.Reply.Unread
import ChatRelay.Proofs.Reply.Joining
import ChatRelay.Proofs.Turn.UnreadReplies
import ChatRelay.Proofs.Turn.HangUp
import ChatRelay.Proofs.Turn.Cancellation
import ChatRelay.Proofs.Http.Lines
import ChatRelay.Proofs.History.Window
import ChatRelay.Proofs.Transcript.Numbering
import ChatRelay.Proofs.Turn.Requests
import ChatRelay.Proofs.Transcript.Conservation
import ChatRelay.Proofs.Message.Faults
import ChatRelay.Proofs.Turn.Questions
import ChatRelay.Proofs.Turn.FaultyHandOffs
import ChatRelay.Proofs.Provider.ErrorTexts
import ChatRelay.Proofs.Turn.ProviderErrors
import ChatRelay.Proofs.Reply.ToolCalls
import ChatRelay.Proofs.Turn.ToolChannels
import ChatRelay.Proofs.Turn.Worlds
import ChatRelay.Proofs.Turn.Switching
import ChatRelay.Proofs.Turn.KeptReplies
import ChatRelay.Proofs.Turn.Stopping
import ChatRelay.Proofs.Message.Nulls
import ChatRelay.Proofs.Provider.Nulls
import ChatRelay.Proofs.Json.Rereading
import ChatRelay.Proofs.Message.RoundTrip
import ChatRelay.Proofs.Files.Confinement
import ChatRelay.Proofs.History.Listing
import ChatRelay.Proofs.History.Lifetimes
import ChatRelay.Proofs.Transcript.Retention
import ChatRelay.Proofs.Transcript.Settled
