import ServiceModules.Charset.Basic
import ServiceModules.Charset.Fault
import ServiceModules.Charset.SingleByte
import ServiceModules.Charset.Utf16
import ServiceModules.Charset.Utf8
import ServiceModules.Configuration
import ServiceModules.Crawl.Basic
import ServiceModules.Crawl.Expansion
import ServiceModules.Crawl.Result
import ServiceModules.Crawl.World
import ServiceModules.Diagnostic.Basic
import ServiceModules.Diagnostic.Render
import ServiceModules.Diagnostic.Style
import ServiceModules.Draft.Basic
import ServiceModules.Draft.Step
import ServiceModules.Fault
import ServiceModules.Files.Fault
import ServiceModules.Files.Path
import ServiceModules.Files.Tree
import ServiceModules.ImportPath
import ServiceModules.Lookup.Basic
import ServiceModules.Lookup.Files
import ServiceModules.Lookup.Memory
import ServiceModules.Module.Basic
import ServiceModules.Module.Cache
import ServiceModules.Program.Basic
import ServiceModules.Proofs.Program.Documentation
import ServiceModules.Program.Node
import ServiceModules.Program.Parse
import ServiceModules.Program.Rejection
import ServiceModules.Program.Symbols
import ServiceModules.References
import ServiceModules.Session
import ServiceModules.Source.Location
import ServiceModules.Source.Position
import ServiceModules.Suggestion.Basic
import ServiceModules.Suggestion.Distance
import ServiceModules.Suggestion.Nearby
import ServiceModules.Symbol.Basic
import ServiceModules.Symbol.Calls
import ServiceModules.Symbol.Table
import ServiceModules.Text.Printable
import ServiceModules.Text.Quoted
import ServiceModules.Text.Sorted
import ServiceModules.Text.Split
import ServiceModules.Token.Lexeme
import ServiceModules.Token.Scan
import ServiceModules.Token.Terminal
import ServiceModules.Uri.Address
import ServiceModules.Uri.Authority
import ServiceModules.Uri.Basic
import ServiceModules.Uri.File
import ServiceModules.Uri.Memory
import ServiceModules.Uri.Percent
import ServiceModules.Variables
import ServiceModules.Workspace
import ServiceModules.Proofs.Crawl.Expansion
import ServiceModules.Proofs.Crawl.Records
import ServiceModules.Proofs.Crawl.Visit
import ServiceModules.Proofs.Crawl.Surroundings
import ServiceModules.Proofs.Crawl.Tour
import ServiceModules.Proofs.Crawl.Transparency
import ServiceModules.Proofs.Crawl.Integrity
import ServiceModules.Proofs.Crawl.Reachability
import ServiceModules.Proofs.Crawl.Sequence
import ServiceModules.Proofs.Program.Table
import ServiceModules.Proofs.Draft.Read
import ServiceModules.Proofs.Draft.Marks
import ServiceModules.Proofs.Program.Sites
import ServiceModules.Proofs.Distinct
import ServiceModules.Proofs.Program.Requests
import ServiceModules.Proofs.Program.Shuffle
import ServiceModules.Proofs.Module.Sites
import ServiceModules.Proofs.References.Insertion
import ServiceModules.Proofs.References.Resolution
import ServiceModules.Proofs.Crawl.Portrait
import ServiceModules.Proofs.References.Shuffle
import ServiceModules.Proofs.Crawl.Shuffle
import ServiceModules.Proofs.Crawl.Loading
import ServiceModules.Proofs.Crawl.Retrace
import ServiceModules.Proofs.Crawl.Order
import ServiceModules.Proofs.Draft.Retouch
import ServiceModules.Proofs.Draft.Reading
import ServiceModules.Proofs.Draft.Likeness
import ServiceModules.Proofs.Program.Print
import ServiceModules.Proofs.Text.Split
import ServiceModules.Proofs.Token.Clear
import ServiceModules.Proofs.Draft.Runs
import ServiceModules.Proofs.Program.RoundTrip
import ServiceModules.Proofs.Draft.Members
import ServiceModules.Proofs.Draft.Starts
import ServiceModules.Proofs.Draft.Replay
import ServiceModules.Proofs.Draft.Completion
import ServiceModules.Proofs.Source.Excerpt
import ServiceModules.Proofs.Diagnostic.Snippet
import ServiceModules.Proofs.Draft.Excerpts
import ServiceModules.Proofs.Module.Excerpts
import ServiceModules.Proofs.Diagnostic.Pointing
import ServiceModules.Proofs.Crawl.Pointing
import ServiceModules.Proofs.Draft.Rejection
import ServiceModules.Proofs.Program.Rejection
import ServiceModules.Proofs.Program.Documenting
import ServiceModules.Proofs.Crawl.Advice
import ServiceModules.Proofs.Program.Undocumented
import ServiceModules.Proofs.Crawl.Undocumented
import ServiceModules.Proofs.Workspace.Documentation
import ServiceModules.Proofs.Source.Row
import ServiceModules.Proofs.Program.Places
import ServiceModules.Proofs.Draft.Places
import ServiceModules.Proofs.Program.Spans
import ServiceModules.Proofs.Token.Trivia
import ServiceModules.Proofs.Source.Moved
import ServiceModules.Proofs.Draft.Relay
import ServiceModules.Proofs.Draft.Insertion
import ServiceModules.Proofs.Program.Layout
import ServiceModules.Proofs.Program.Bindings
import ServiceModules.Proofs.Program.Usages
import ServiceModules.Proofs.Program.Attribution
import ServiceModules.Proofs.Program.Imports
import ServiceModules.Proofs.References.Missing
import ServiceModules.Proofs.Crawl.Enlargement
import ServiceModules.Proofs.Workspace.Enlargement
import ServiceModules.Proofs.Files.Canonical
import ServiceModules.Proofs.Files.Look
import ServiceModules.Proofs.Charset.Utf8
import ServiceModules.Proofs.Uri.Percent
import ServiceModules.Proofs.Uri.Plain
import ServiceModules.Proofs.Lookup.Name
import ServiceModules.Proofs.Lookup.Naming
import ServiceModules.Proofs.Draft.Paths
import ServiceModules.Proofs.Lookup.Agreement
import ServiceModules.Proofs.Module.Renaming
import ServiceModules.Proofs.References.Renaming
import ServiceModules.Proofs.Crawl.Renaming
import ServiceModules.Proofs.Lookup.Counterpart
import ServiceModules.Proofs.Files.Write
import ServiceModules.Proofs.Files.Walk
import ServiceModules.Proofs.Lookup.Search
import ServiceModules.Proofs.Lookup.Written
import ServiceModules.Proofs.Workspace.Agreement
import ServiceModules.Proofs.Files.Resolve
import ServiceModules.Proofs.Workspace.Identity
import ServiceModules.Proofs.Charset.Length
import ServiceModules.Proofs.Program.Length
import ServiceModules.Proofs.Crawl.Budget
import ServiceModules.Proofs.Workspace.Ending
import ServiceModules.Proofs.Symbol.Calls
import ServiceModules.Proofs.Draft.Sequel
import ServiceModules.Proofs.Program.Concatenation
import ServiceModules.Proofs.Program.Wordless
import ServiceModules.Proofs.Draft.Wordless
import ServiceModules.Proofs.Draft.Undocumented
import ServiceModules.Proofs.Token.LineEnds
import ServiceModules.Proofs.Program.LineEnds
import ServiceModules.Proofs.ImportPath
import ServiceModules.Proofs.Program.Grouping
import ServiceModules.Proofs.Suggestion.Distance
import ServiceModules.Proofs.Suggestion.Names
import ServiceModules.Proofs.Suggestion.Nearby
import ServiceModules.Proofs.Diagnostic.Color
import ServiceModules.Proofs.Diagnostic.Layout
