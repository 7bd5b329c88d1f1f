import ProgramGraph.Build.Run
import ProgramGraph.Command.Arguments
import ProgramGraph.Command.Build
import ProgramGraph.Command.Discover
import ProgramGraph.Command.Run
import ProgramGraph.Cypher.Client
import ProgramGraph.Cypher.Identifier
import ProgramGraph.Cypher.Statement
import ProgramGraph.Digest.Fingerprint
import ProgramGraph.Digest.Sha256
import ProgramGraph.Discovery.Enrichment
import ProgramGraph.Discovery.Explorer
import ProgramGraph.Event
import ProgramGraph.Files.Disk
import ProgramGraph.Files.Glob
import ProgramGraph.Files.IgnoreRules
import ProgramGraph.Files.Path
import ProgramGraph.Files.Repository
import ProgramGraph.Files.Scan
import ProgramGraph.Files.Tree
import ProgramGraph.Graph.Arena
import ProgramGraph.Graph.Basic
import ProgramGraph.Graph.Entity
import ProgramGraph.Graph.Property
import ProgramGraph.Graph.Records
import ProgramGraph.Graph.Registry
import ProgramGraph.Json.Decoder
import ProgramGraph.Json.Document
import ProgramGraph.Json.Fault
import ProgramGraph.Json.Numeral
import ProgramGraph.Json.Outline
import ProgramGraph.Json.Token
import ProgramGraph.Main
import ProgramGraph.Number.Binary64
import ProgramGraph.Number.Shortest
import ProgramGraph.Program.Declaration
import ProgramGraph.Program.Lookup
import ProgramGraph.Program.Records
import ProgramGraph.Program.Snapshot
import ProgramGraph.Program.Tables
import ProgramGraph.Program.Unit
import ProgramGraph.Program.Units
import ProgramGraph.Store.Basic
import ProgramGraph.Store.Error
import ProgramGraph.Store.Export
import ProgramGraph.Store.Memory
import ProgramGraph.Store.Rows
import ProgramGraph.Text.Blank
import ProgramGraph.Text.Quoted
import ProgramGraph.Time.Instant
import ProgramGraph.Time.Rfc3339
import ProgramGraph.Proofs.Discovery.Account
import ProgramGraph.Proofs.Discovery.Composition
import ProgramGraph.Proofs.Discovery.Confluence
import ProgramGraph.Proofs.Discovery.Degradation
import ProgramGraph.Proofs.Discovery.Enrichment
import ProgramGraph.Proofs.Discovery.Exactness
import ProgramGraph.Proofs.Discovery.Locality
import ProgramGraph.Proofs.Discovery.Noninterference
import ProgramGraph.Proofs.Discovery.Reachability
import ProgramGraph.Proofs.Discovery.Run
import ProgramGraph.Proofs.Discovery.Seeding
import ProgramGraph.Proofs.Discovery.Settled
import ProgramGraph.Proofs.Discovery.Size
import ProgramGraph.Proofs.Discovery.Waves
import ProgramGraph.Proofs.Graph.Basic
import ProgramGraph.Proofs.Graph.Identifier
import ProgramGraph.Proofs.Graph.Registry
import ProgramGraph.Proofs.Graph.Gathering
import ProgramGraph.Proofs.Graph.History
import ProgramGraph.Proofs.Graph.Arena
import ProgramGraph.Proofs.Graph.Order
import ProgramGraph.Proofs.Program.Tables
import ProgramGraph.Proofs.Program.Units
import ProgramGraph.Proofs.Store.Exactness
import ProgramGraph.Proofs.Store.Export
import ProgramGraph.Proofs.Store.Memory
import ProgramGraph.Proofs.Program.Tree
import ProgramGraph.Proofs.Discovery.Trees
import ProgramGraph.Proofs.Discovery.Isolation
import ProgramGraph.Proofs.Store.Repetition
import ProgramGraph.Proofs.Store.Scopes
import ProgramGraph.Proofs.Store.Calls
import ProgramGraph.Proofs.Store.Attempts
import ProgramGraph.Proofs.Store.Integrity
import ProgramGraph.Proofs.Discovery.Names
import ProgramGraph.Proofs.Cypher.Lexer
import ProgramGraph.Proofs.Cypher.Syntax
import ProgramGraph.Proofs.Cypher.Meaning
import ProgramGraph.Proofs.Cypher.Execution
import ProgramGraph.Proofs.Cypher.Database
import ProgramGraph.Proofs.Cypher.Refinement
import ProgramGraph.Proofs.Cypher.Rehearsal
import ProgramGraph.Proofs.Command.Builds
import ProgramGraph.Proofs.Cypher.Labels
import ProgramGraph.Proofs.Json.Token
import ProgramGraph.Proofs.Json.Outline
import ProgramGraph.Proofs.Json.Document
import ProgramGraph.Proofs.Json.Fields
import ProgramGraph.Proofs.Number.Binary64
import ProgramGraph.Proofs.Json.Reading
import ProgramGraph.Proofs.Program.Records
import ProgramGraph.Proofs.Graph.Records
import ProgramGraph.Proofs.Store.Records
import ProgramGraph.Proofs.Json.Rearrangement
import ProgramGraph.Proofs.Json.Stability
import ProgramGraph.Proofs.Store.Rearrangement
import ProgramGraph.Proofs.Program.Validity
import ProgramGraph.Proofs.Discovery.Bags
import ProgramGraph.Proofs.Discovery.Breadth
import ProgramGraph.Proofs.Discovery.Agreement
import ProgramGraph.Proofs.Discovery.Diagnostics
import ProgramGraph.Proofs.Discovery.SelfLoops
import ProgramGraph.Proofs.Discovery.Grounded
import ProgramGraph.Proofs.Program.Recording
import ProgramGraph.Proofs.Digest.Preimage
import ProgramGraph.Proofs.Discovery.Hashes
