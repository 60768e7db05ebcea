import ImportClosure.Calendar
import ImportClosure.CommandLine.Arguments
import ImportClosure.CommandLine.Execution
import ImportClosure.CommandLine.Run
import ImportClosure.Configuration.Basic
import ImportClosure.Configuration.File
import ImportClosure.Configuration.Loader
import ImportClosure.Configuration.Merge
import ImportClosure.Decimal.Binary64
import ImportClosure.Decimal.Fixed
import ImportClosure.Extractor.Basic
import ImportClosure.Extractor.Registry
import ImportClosure.Json.Basic
import ImportClosure.Json.Parser
import ImportClosure.Json.Printer
import ImportClosure.Log.Line
import ImportClosure.Log.Record
import ImportClosure.Log.Sink
import ImportClosure.Log.Template
import ImportClosure.Main
import ImportClosure.Options.Basic
import ImportClosure.Options.Help
import ImportClosure.Options.Parser
import ImportClosure.OrderedMap
import ImportClosure.Path
import ImportClosure.Proofs.BreadthFirst
import ImportClosure.Proofs.FirstOccurrences
import ImportClosure.Proofs.OrderedMap
import ImportClosure.Proofs.Text
import ImportClosure.Resolution.Candidate
import ImportClosure.Resolution.Collector
import ImportClosure.Resolution.Configured
import ImportClosure.Resolution.Error
import ImportClosure.Resolution.Report
import ImportClosure.Resolution.Walk
import ImportClosure.Specifier
import ImportClosure.Storage.Disk
import ImportClosure.Storage.Memory
import ImportClosure.Storage.Reader
import ImportClosure.Syntax.Fault
import ImportClosure.Syntax.Grammar.Basic
import ImportClosure.Syntax.Grammar.Declaration
import ImportClosure.Syntax.Grammar.Element
import ImportClosure.Syntax.Grammar.Expression
import ImportClosure.Syntax.Grammar.Function
import ImportClosure.Syntax.Grammar.Module
import ImportClosure.Syntax.Grammar.Pattern
import ImportClosure.Syntax.Grammar.Signature
import ImportClosure.Syntax.Grammar.Statement
import ImportClosure.Syntax.Grammar.Token
import ImportClosure.Syntax.Grammar.Type
import ImportClosure.Syntax.Literal
import ImportClosure.Syntax.Node
import ImportClosure.Syntax.Parser
import ImportClosure.Syntax.Source
import ImportClosure.Syntax.Specifiers
import ImportClosure.Text.Basic
import ImportClosure.Text.Blank
import ImportClosure.Text.Printable
import ImportClosure.Text.Quoted
import ImportClosure.Text.Set
import ImportClosure.Text.Utf8
import ImportClosure.ToolServer.Arguments
import ImportClosure.ToolServer.Basic
import ImportClosure.Value.Basic
import ImportClosure.Value.Printer
import ImportClosure.Variant
import ImportClosure.Yaml.Lexeme
import ImportClosure.Yaml.Lexer
import ImportClosure.Yaml.Load
import ImportClosure.Yaml.Node
import ImportClosure.Yaml.Number
import ImportClosure.Yaml.Scalar
import ImportClosure.Yaml.Token
import ImportClosure.Proofs.Path
import ImportClosure.Proofs.Candidate
import ImportClosure.Proofs.Examination
import ImportClosure.Proofs.Findings
import ImportClosure.Proofs.Walk
import ImportClosure.Proofs.Outcome
import ImportClosure.Proofs.Closure
import ImportClosure.Proofs.ExactReport
import ImportClosure.Proofs.SelfContained
import ImportClosure.Proofs.FileLimit
import ImportClosure.Proofs.Distance
import ImportClosure.Proofs.CanonicalOrder
import ImportClosure.Proofs.Rounds
import ImportClosure.Proofs.Termination
import ImportClosure.Proofs.Composition
import ImportClosure.Proofs.InnerPath
import ImportClosure.Proofs.Renaming
import ImportClosure.Proofs.RelocatedRun
import ImportClosure.Proofs.Footprint
import ImportClosure.Proofs.CanonicalPaths
import ImportClosure.Proofs.Provision
import ImportClosure.Proofs.Confinement
import ImportClosure.Proofs.SpecifierOrder
import ImportClosure.Proofs.PlainScripts
import ImportClosure.Proofs.Encoding
import ImportClosure.Proofs.Decoding
import ImportClosure.Proofs.Extraction
import ImportClosure.Proofs.DiskLookup
import ImportClosure.Proofs.DiskAndMemory
import ImportClosure.Proofs.JsonTokens
import ImportClosure.Proofs.JsonRoundTrip
import ImportClosure.Proofs.DiskRun
import ImportClosure.Proofs.QuietRun
import ImportClosure.Proofs.CommandWords
import ImportClosure.Proofs.ReportJson
import ImportClosure.Proofs.SharedNames
import ImportClosure.Proofs.ToolSession
import ImportClosure.Proofs.FrontEnds
import ImportClosure.Proofs.StepwisePaths
import ImportClosure.Proofs.Spelling
import ImportClosure.Proofs.TreeWalk
import ImportClosure.Proofs.StaticImports
import ImportClosure.Proofs.PrintedText
import ImportClosure.Proofs.OutputDiscipline
import ImportClosure.Proofs.SuffixGuessing
import ImportClosure.Proofs.MentionTables
import ImportClosure.Proofs.OperationLog
import ImportClosure.Proofs.SourceBytes
import ImportClosure.Proofs.ReportRoundTrip
import ImportClosure.Proofs.FirstFault
import ImportClosure.Proofs.Comments
import ImportClosure.Proofs.AstralSpellings
import ImportClosure.Proofs.ConfigMerge
import ImportClosure.Proofs.AddedPackages
import ImportClosure.Proofs.Loaders
import ImportClosure.Proofs.ConfigLoading
import ImportClosure.Proofs.ConfigValidity
import ImportClosure.Proofs.ReportLines
import ImportClosure.Proofs.PathGrammar
import ImportClosure.Proofs.TextLines
import ImportClosure.Proofs.FaultWording
import ImportClosure.Proofs.MemorySessions
import ImportClosure.Proofs.LogLine
import ImportClosure.Proofs.LogFile
