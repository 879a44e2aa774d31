import SshTunnels.Bytes
import SshTunnels.CommandLine.Arguments
import SshTunnels.CommandLine.Error
import SshTunnels.CommandLine.KeyCommand
import SshTunnels.CommandLine.Listing
import SshTunnels.CommandLine.Program
import SshTunnels.CommandLine.Usage
import SshTunnels.Curve.Edwards
import SshTunnels.Curve.Field
import SshTunnels.Curve.Weierstrass
import SshTunnels.Discovery
import SshTunnels.Files.FileSystem
import SshTunnels.Files.Path
import SshTunnels.Hash.Sha2
import SshTunnels.IoError
import SshTunnels.Json.Basic
import SshTunnels.Json.Reader
import SshTunnels.Json.Record
import SshTunnels.Json.Writer
import SshTunnels.Keepalive
import SshTunnels.Key.Armour
import SshTunnels.Key.Der
import SshTunnels.Key.Generate
import SshTunnels.Key.Load
import SshTunnels.Key.PrivateKey
import SshTunnels.Key.PublicKey
import SshTunnels.Key.Source
import SshTunnels.Key.Wire
import SshTunnels.Lifecycle
import SshTunnels.Main
import SshTunnels.Manager
import SshTunnels.Network
import SshTunnels.Options
import SshTunnels.Probe
import SshTunnels.Proofs.CommandLine.AllOrNothing
import SshTunnels.Proofs.CommandLine.EnteredKeys
import SshTunnels.Proofs.CommandLine.Interleaving
import SshTunnels.Proofs.CommandLine.Intervals
import SshTunnels.Proofs.CommandLine.KeyStatements
import SshTunnels.Proofs.CommandLine.Runs
import SshTunnels.Proofs.CommandLine.UsableKeys
import SshTunnels.Proofs.Files.Growth
import SshTunnels.Proofs.Files.Nodes
import SshTunnels.Proofs.Files.Places
import SshTunnels.Proofs.Files.Tables
import SshTunnels.Proofs.Histories
import SshTunnels.Proofs.Json.Records
import SshTunnels.Proofs.Json.Tokens
import SshTunnels.Proofs.Json.Written
import SshTunnels.Proofs.Keepalive
import SshTunnels.Proofs.Key.Keystores
import SshTunnels.Proofs.Key.LegacyKeys
import SshTunnels.Proofs.Key.LegacyLayout
import SshTunnels.Proofs.Key.Loading
import SshTunnels.Proofs.Key.NewKeys
import SshTunnels.Proofs.Key.Wire
import SshTunnels.Proofs.Lifecycle
import SshTunnels.Proofs.Lookup
import SshTunnels.Proofs.Manager.Convergence
import SshTunnels.Proofs.Manager.Entries
import SshTunnels.Proofs.Manager.Health
import SshTunnels.Proofs.Manager.History
import SshTunnels.Proofs.Manager.Notes
import SshTunnels.Proofs.Manager.Restarting
import SshTunnels.Proofs.Manager.Starting
import SshTunnels.Proofs.Manager.Stopping
import SshTunnels.Proofs.Manager.Supervisors
import SshTunnels.Proofs.Probe
import SshTunnels.Proofs.Relay.Accounting
import SshTunnels.Proofs.Relay.Completion
import SshTunnels.Proofs.Reverse.Closing
import SshTunnels.Proofs.Reverse.Delivery
import SshTunnels.Proofs.Reverse.Exchange
import SshTunnels.Proofs.Reverse.HostKeyMoments
import SshTunnels.Proofs.Reverse.HostKeySecrecy
import SshTunnels.Proofs.Reverse.HostKeyStability
import SshTunnels.Proofs.Reverse.Isolation
import SshTunnels.Proofs.Reverse.Newest
import SshTunnels.Proofs.Reverse.Registrations
import SshTunnels.Proofs.Reverse.Requests
import SshTunnels.Proofs.Reverse.Revocation
import SshTunnels.Proofs.Reverse.SigningIn
import SshTunnels.Proofs.Sessions.Accounting
import SshTunnels.Proofs.Sessions.Active
import SshTunnels.Proofs.Sessions.Ledger
import SshTunnels.Proofs.Store.Addresses
import SshTunnels.Proofs.Store.Authorizations
import SshTunnels.Proofs.Store.Catalogue
import SshTunnels.Proofs.Store.Changes
import SshTunnels.Proofs.Store.Chronology
import SshTunnels.Proofs.Store.KeyTable
import SshTunnels.Proofs.Store.Privacy
import SshTunnels.Proofs.Store.SameFile
import SshTunnels.Proofs.Store.TunnelTable
import SshTunnels.Proofs.Supervision.Attendance
import SshTunnels.Proofs.Supervision.Calls
import SshTunnels.Proofs.Supervision.Registered
import SshTunnels.Proofs.Supervision.Rounds
import SshTunnels.Proofs.Supervision.Running
import SshTunnels.Proofs.Supervision.Steps
import SshTunnels.Proofs.Tags
import SshTunnels.Proofs.Text.Base64
import SshTunnels.Proofs.Text.ByteOrder
import SshTunnels.Proofs.Text.Identifiers
import SshTunnels.Proofs.Text.Numerals
import SshTunnels.Proofs.Text.Occurrences
import SshTunnels.Proofs.Text.Padded
import SshTunnels.Proofs.Text.Percent
import SshTunnels.Proofs.Text.Pieces
import SshTunnels.Proofs.Text.Trimmed
import SshTunnels.Proofs.Time.Calendar
import SshTunnels.Proofs.Time.StoredOrder
import SshTunnels.Proofs.Time.StoredReading
import SshTunnels.Proofs.Traversal
import SshTunnels.Proofs.Tunnel.Connections
import SshTunnels.Proofs.Tunnel.Decoding
import SshTunnels.Proofs.Tunnel.Hosting
import SshTunnels.Proofs.Tunnel.Release
import SshTunnels.Proofs.Tunnel.RowReading
import SshTunnels.Proofs.Tunnel.Rows
import SshTunnels.Proofs.Tunnel.SameLive
import SshTunnels.Proofs.Tunnel.Traces
import SshTunnels.Proofs.Verbosity
import SshTunnels.Rehearsal.Agents
import SshTunnels.Rehearsal.Cast
import SshTunnels.Rehearsal.Checking
import SshTunnels.Rehearsal.FarServer
import SshTunnels.Rehearsal.Fleet
import SshTunnels.Rehearsal.Managing
import SshTunnels.Rehearsal.Shell
import SshTunnels.Rehearsal.Streams
import SshTunnels.Rehearsal.Supervision
import SshTunnels.Relay
import SshTunnels.Report.Answer
import SshTunnels.Report.Columns
import SshTunnels.Report.Command
import SshTunnels.Report.Error
import SshTunnels.Report.Fields
import SshTunnels.Report.Options
import SshTunnels.Report.Stats
import SshTunnels.Reverse.Admission
import SshTunnels.Reverse.Forward
import SshTunnels.Reverse.Greeting
import SshTunnels.Reverse.HostKey
import SshTunnels.Reverse.Registry
import SshTunnels.Reverse.Server
import SshTunnels.Reverse.Serving
import SshTunnels.Sessions
import SshTunnels.SshError
import SshTunnels.Stats
import SshTunnels.Store.Database
import SshTunnels.Store.Error
import SshTunnels.Store.Handle
import SshTunnels.Store.Keys
import SshTunnels.Store.Location
import SshTunnels.Store.Opening
import SshTunnels.Store.Snapshot
import SshTunnels.Store.Tunnels
import SshTunnels.Supervisor
import SshTunnels.Text.Base64
import SshTunnels.Text.Blank
import SshTunnels.Text.Digits
import SshTunnels.Text.Percent
import SshTunnels.Text.Quoted
import SshTunnels.Text.Shortest
import SshTunnels.Time.Instant
import SshTunnels.Time.Rfc3339
import SshTunnels.Time.Span
import SshTunnels.Time.Stored
import SshTunnels.Time.Timestamp
import SshTunnels.Tunnel.Config
import SshTunnels.Tunnel.Details
import SshTunnels.Tunnel.Error
import SshTunnels.Tunnel.Json
import SshTunnels.Tunnel.Row
import SshTunnels.Tunnel.Run
import SshTunnels.Uuid
import SshTunnels.Verbosity
