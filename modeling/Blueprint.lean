import Blueprint.Arena.Basic
import Blueprint.Arena.Edit
import Blueprint.Attribute.Basic
import Blueprint.Attribute.Check
import Blueprint.Attribute.Printer
import Blueprint.Attribute.Reader
import Blueprint.CommandLine.Disk
import Blueprint.CommandLine.Options
import Blueprint.CommandLine.Run
import Blueprint.Distinct
import Blueprint.Document.Basic
import Blueprint.Document.Column
import Blueprint.Document.Edit
import Blueprint.Document.Printer
import Blueprint.Document.Reader
import Blueprint.Document.Resolve
import Blueprint.Document.Segment
import Blueprint.Document.Walk
import Blueprint.Fault
import Blueprint.Handle
import Blueprint.HandleMap
import Blueprint.Kind
import Blueprint.Line
import Blueprint.Lookup
import Blueprint.Lookup.Output
import Blueprint.Main
import Blueprint.Moment
import Blueprint.Name
import Blueprint.Output.Backend
import Blueprint.Output.FileId
import Blueprint.Output.Go
import Blueprint.Output.Grid
import Blueprint.Output.Hurl
import Blueprint.Output.Naming
import Blueprint.Output.Postgres
import Blueprint.Proofs.Alignment
import Blueprint.Proofs.ArenaNodes
import Blueprint.Proofs.ArenaReferences
import Blueprint.Proofs.Atomicity
import Blueprint.Proofs.AttributeLine
import Blueprint.Proofs.BitStrings
import Blueprint.Proofs.Chains
import Blueprint.Proofs.ColumnNames
import Blueprint.Proofs.Columns
import Blueprint.Proofs.Constraints
import Blueprint.Proofs.Containment
import Blueprint.Proofs.Cuts
import Blueprint.Proofs.Declared
import Blueprint.Proofs.Defaults
import Blueprint.Proofs.Described
import Blueprint.Proofs.Directories
import Blueprint.Proofs.Failures
import Blueprint.Proofs.Files
import Blueprint.Proofs.ForeignKeys
import Blueprint.Proofs.Generation
import Blueprint.Proofs.Given
import Blueprint.Proofs.HandleMaps
import Blueprint.Proofs.HandleOrder
import Blueprint.Proofs.Handles
import Blueprint.Proofs.Identifiers
import Blueprint.Proofs.Layout
import Blueprint.Proofs.Levels
import Blueprint.Proofs.Lineage
import Blueprint.Proofs.Lines
import Blueprint.Proofs.Literals
import Blueprint.Proofs.Liveness
import Blueprint.Proofs.Lookup
import Blueprint.Proofs.LookupOutput
import Blueprint.Proofs.Meaning
import Blueprint.Proofs.Moments
import Blueprint.Proofs.Nameless
import Blueprint.Proofs.Nesting
import Blueprint.Proofs.Normalization
import Blueprint.Proofs.Numbering
import Blueprint.Proofs.Numerals
import Blueprint.Proofs.OptionOrder
import Blueprint.Proofs.Options
import Blueprint.Proofs.Ownership
import Blueprint.Proofs.Printing
import Blueprint.Proofs.Reading
import Blueprint.Proofs.Recall
import Blueprint.Proofs.References
import Blueprint.Proofs.RelationKeys
import Blueprint.Proofs.Relations
import Blueprint.Proofs.Removal
import Blueprint.Proofs.Renaming
import Blueprint.Proofs.Renumbering
import Blueprint.Proofs.Replay
import Blueprint.Proofs.Reports
import Blueprint.Proofs.Reprinting
import Blueprint.Proofs.Requests
import Blueprint.Proofs.Rereading
import Blueprint.Proofs.Run
import Blueprint.Proofs.Scanner
import Blueprint.Proofs.Scripts
import Blueprint.Proofs.Segments
import Blueprint.Proofs.Sessions
import Blueprint.Proofs.Settled
import Blueprint.Proofs.Siblings
import Blueprint.Proofs.Simulation
import Blueprint.Proofs.Sizes
import Blueprint.Proofs.Slots
import Blueprint.Proofs.Sound
import Blueprint.Proofs.Spelling
import Blueprint.Proofs.Stability
import Blueprint.Proofs.Step
import Blueprint.Proofs.Structs
import Blueprint.Proofs.Styles
import Blueprint.Proofs.Succession
import Blueprint.Proofs.TableOrder
import Blueprint.Proofs.Tables
import Blueprint.Proofs.Text
import Blueprint.Proofs.Tree
import Blueprint.Proofs.Values
import Blueprint.Proofs.Words
import Blueprint.Recall
import Blueprint.Relation
import Blueprint.Sample
import Blueprint.Session
import Blueprint.Sort
import Blueprint.Text.Blank
import Blueprint.Text.Cluster
import Blueprint.Text.Cluster.Classes
import Blueprint.Text.CodeSet
import Blueprint.Text.Decimal
import Blueprint.Text.LetterCase
import Blueprint.Text.LetterCase.Tables
import Blueprint.Text.Numeral
import Blueprint.Text.Split
import Blueprint.Text.Width
import Blueprint.Text.Word
