import Keyline.Address
import Keyline.Console
import Keyline.Json.Problem
import Keyline.Link
import Keyline.Main
import Keyline.Proofs.Text.Encoding
import Keyline.Proofs.Query.Keys
import Keyline.Proofs.Query.Grammar
import Keyline.Proofs.Query.Tokens
import Keyline.Proofs.Wire.Lines
import Keyline.Proofs.Files.Places
import Keyline.Proofs.Files.Growth
import Keyline.Proofs.Files.Contents
import Keyline.Proofs.Files.Frames
import Keyline.Proofs.Files.Additions
import Keyline.Proofs.Snapshots.RoundTrip
import Keyline.Proofs.Snapshots.Names
import Keyline.Proofs.Snapshots.Listing
import Keyline.Proofs.Snapshots.Writing
import Keyline.Proofs.Snapshots.Documents
import Keyline.Proofs.Snapshots.Succession
import Keyline.Proofs.Snapshots.Keeping
import Keyline.Proofs.Snapshots.Reach
import Keyline.Proofs.Snapshots.Lasting
import Keyline.Proofs.Snapshots.Publication
import Keyline.Proofs.Logs.Recording
import Keyline.Proofs.Logs.Volumes
import Keyline.Proofs.Logs.Sessions
import Keyline.Proofs.Runs.Deeds
import Keyline.Proofs.Runs.Responses
import Keyline.Proofs.Runs.KeyHistories
import Keyline.Proofs.Runs.Acknowledged
import Keyline.Proofs.Runs.Failures
import Keyline.Proofs.Runs.AuditTrail
import Keyline.Proofs.Runs.Erasure
import Keyline.Proofs.Runs.Ticks
import Keyline.Proofs.Runs.Silence
import Keyline.Proofs.Runs.Recovery
import Keyline.Proofs.Runs.Stores
import Keyline.Proofs.Runs.Unsaved
import Keyline.Proofs.Runs.Service
import Keyline.Proofs.Runs.Independence
import Keyline.Proofs.Connections.Answers
import Keyline.Proofs.Runs.OneLine
import Keyline.Proofs.Connections.Framing
import Keyline.Proofs.Connections.Mirrors
import Keyline.Proofs.Connections.Requests
import Keyline.Proofs.Connections.Reception
import Keyline.Proofs.Runs.Visibility
import Keyline.Proofs.Runs.Opening
import Keyline.Proofs.Runs.Selection
import Keyline.Proofs.Runs.Sizes
import Keyline.Proofs.Connections.Tries
import Keyline.Proofs.Config.Precedence
