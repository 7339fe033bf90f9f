import FactoryScript.Text.Basic
import FactoryScript.Text.Printable
import FactoryScript.Text.Lossy
import FactoryScript.Named
import FactoryScript.Count
import FactoryScript.Side
import FactoryScript.Resource
import FactoryScript.Endpoint
import FactoryScript.Firing
import FactoryScript.Budget
import FactoryScript.Note
import FactoryScript.Json.Basic
import FactoryScript.Json.Print
import FactoryScript.Json.Numeral
import FactoryScript.Json.Quoted
import FactoryScript.Json.Scan
import FactoryScript.Json.Read
import FactoryScript.Json.Record
import FactoryScript.Condition
import FactoryScript.Statement.Basic
import FactoryScript.Statement.Script
import FactoryScript.Statement.Document
import FactoryScript.Program.Basic
import FactoryScript.Program.Script
import FactoryScript.Program.Template
import FactoryScript.Program.Document
import FactoryScript.Graph.Basic
import FactoryScript.Graph.Script
import FactoryScript.Graph.Document
import FactoryScript.Wizard
import FactoryScript.Host.Basic
import FactoryScript.Host.FileTree
import FactoryScript.Host.World
import FactoryScript.Values.Basic
import FactoryScript.Values.Store
import FactoryScript.Session.Edit
import FactoryScript.Session.Form
import FactoryScript.Session.Program
import FactoryScript.Session.Graph
import FactoryScript.Session.Wizard
import FactoryScript.Command.Arguments
import FactoryScript.Command.Run
import FactoryScript.Main
import FactoryScript.Proofs.Run
import FactoryScript.Proofs.Text.Trim
import FactoryScript.Proofs.List
import FactoryScript.Proofs.Graph.Invariant
import FactoryScript.Proofs.Graph.Run
import FactoryScript.Proofs.Graph.Load
import FactoryScript.Proofs.Graph.Groups
import FactoryScript.Proofs.Graph.Composition
import FactoryScript.Proofs.Json.Record
import FactoryScript.Proofs.Json.Numeral
import FactoryScript.Proofs.Json.Plain
import FactoryScript.Proofs.Json.Compact
import FactoryScript.Proofs.Json.Nesting
import FactoryScript.Proofs.Json.Written
import FactoryScript.Proofs.Statement.Document
import FactoryScript.Proofs.Program.Document
import FactoryScript.Proofs.Session.Editor
import FactoryScript.Proofs.Session.Graph
import FactoryScript.Proofs.Session.Program
import FactoryScript.Proofs.Script.Lines
import FactoryScript.Proofs.Script.Normal
import FactoryScript.Proofs.Script.Tokens
import FactoryScript.Proofs.Script.Movement
import FactoryScript.Proofs.Script.Header
import FactoryScript.Proofs.Script.Blocks
import FactoryScript.Proofs.Script.Newline
import FactoryScript.Proofs.Script.Pieces
import FactoryScript.Proofs.Script.Unique
import FactoryScript.Proofs.Script.Indentation
import FactoryScript.Proofs.Wizard.Unique
import FactoryScript.Proofs.Wizard.Lines
import FactoryScript.Proofs.Session.Wizard
import FactoryScript.Proofs.Session.Refusal
import FactoryScript.Proofs.Graph.Document
import FactoryScript.Proofs.Graph.Renaming
import FactoryScript.Proofs.Graph.Dialect
import FactoryScript.Proofs.Json.Pretty
import FactoryScript.Proofs.Values.Store
import FactoryScript.Proofs.Host.FileTree
import FactoryScript.Proofs.Host.Simulation
import FactoryScript.Proofs.Command.Values
import FactoryScript.Proofs.Command.Generate
import FactoryScript.Proofs.Statement.Nesting
import FactoryScript.Proofs.Program.Resaved
import FactoryScript.Proofs.Graph.Storage
import FactoryScript.Proofs.Graph.Mutation
import FactoryScript.Proofs.Budget
import FactoryScript.Proofs.Session.Report
import FactoryScript.Proofs.Session.Crossing
import FactoryScript.Proofs.Graph.Numbering
import FactoryScript.Proofs.Graph.Labels
import FactoryScript.Proofs.Session.Revision
import FactoryScript.Proofs.Session.Order
import FactoryScript.Proofs.Session.Selection
import FactoryScript.Proofs.Script.Counting
import FactoryScript.Proofs.Script.Depth
import FactoryScript.Proofs.Session.Form
import FactoryScript.Proofs.Condition
import FactoryScript.Proofs.Values.Lists
import FactoryScript.Proofs.Json.Lookup
import FactoryScript.Proofs.Json.Proper
import FactoryScript.Proofs.Schema.Basic
import FactoryScript.Proofs.Schema.Read
import FactoryScript.Proofs.Schema.Statement
import FactoryScript.Proofs.Schema.Program
import FactoryScript.Proofs.Schema.Document
