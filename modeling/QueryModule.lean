import QueryModule.Command.Arguments
import QueryModule.Command.Line
import QueryModule.Command.Program
import QueryModule.Command.Run
import QueryModule.Command.Verbosity
import QueryModule.Command.Word
import QueryModule.Config.Error
import QueryModule.Config.Options
import QueryModule.Config.Settings
import QueryModule.Decimal.Binary64
import QueryModule.Decimal.Shortest
import QueryModule.Elixir.Module
import QueryModule.FileTree.Path
import QueryModule.FileTree.Tree
import QueryModule.FileTree.Walk
import QueryModule.Fragment.Pool
import QueryModule.Fragment.Registry
import QueryModule.Fragment.Search
import QueryModule.Fragment.Sourced
import QueryModule.Generate.Constant
import QueryModule.Generate.Generator
import QueryModule.Generate.NameClash
import QueryModule.Graphql.Document
import QueryModule.Graphql.Grammar
import QueryModule.Graphql.Lexer
import QueryModule.Graphql.Number
import QueryModule.Graphql.Parser
import QueryModule.Graphql.Printer
import QueryModule.Graphql.StringLiteral
import QueryModule.Graphql.SyntaxError
import QueryModule.Graphql.Token
import QueryModule.Json.Error
import QueryModule.Json.Reader
import QueryModule.Json.Scalar
import QueryModule.Log
import QueryModule.Main
import QueryModule.Naming.Casing
import QueryModule.Naming.Convention
import QueryModule.Naming.Renamer
import QueryModule.Naming.Words
import QueryModule.Proofs.Fragment.SpreadRelation
import QueryModule.Schema.Declaration
import QueryModule.Source.Discovery
import QueryModule.Source.Document
import QueryModule.Source.Location
import QueryModule.Source.Reading
import QueryModule.Text.Characters
import QueryModule.Text.Lines
import QueryModule.Text.Quoted
import QueryModule.Text.Utf8
import QueryModule.Unicode.Alphanumeric
import QueryModule.Unicode.CaseMapping
import QueryModule.Unicode.CodeRange
import QueryModule.Unicode.Hidden
import QueryModule.Unicode.LetterCase
import QueryModule.Proofs.Fragment.SearchInvariant
import QueryModule.Proofs.Fragment.FinishOrder
import QueryModule.Proofs.Fragment.Loops
import QueryModule.Proofs.Fragment.Needed
import QueryModule.Proofs.Fragment.Collecting
import QueryModule.Proofs.Fragment.Merging
import QueryModule.Proofs.Fragment.History
import QueryModule.Proofs.Fragment.Registering
import QueryModule.Proofs.Config.Selectors
import QueryModule.Proofs.Generate.NameClash
import QueryModule.Proofs.Generate.Stages
import QueryModule.Proofs.Generate.Acceptance
import QueryModule.Proofs.Generate.Standalone
import QueryModule.Proofs.Elixir.Escaping
import QueryModule.Proofs.Elixir.Reading
import QueryModule.Proofs.Naming.Characters
import QueryModule.Proofs.Graphql.Names
import QueryModule.Proofs.Generate.ReadBack
import QueryModule.Proofs.Graphql.Placement
import QueryModule.Proofs.Fragment.Agreement
import QueryModule.Proofs.Generate.Dependence
import QueryModule.Proofs.Generate.Rearranging
import QueryModule.Proofs.Generate.Extension
import QueryModule.Proofs.Generate.Unused
import QueryModule.Proofs.Generate.Renaming
import QueryModule.Proofs.Graphql.BlockStrings
import QueryModule.Proofs.Graphql.Lexing
import QueryModule.Proofs.Generate.Reprinting
import QueryModule.Proofs.Fragment.Precedence
import QueryModule.Proofs.Fragment.RegistrationOrder
import QueryModule.Proofs.Fragment.EntryOrder
import QueryModule.Proofs.Fragment.Walking
import QueryModule.Proofs.Fragment.RepeatedLoops
import QueryModule.Proofs.FileTree.Changes
import QueryModule.Proofs.FileTree.Resolving
import QueryModule.Proofs.Source.Finding
import QueryModule.Proofs.Command.Loading
import QueryModule.Proofs.Command.Running
import QueryModule.Proofs.Fragment.Unwinding
import QueryModule.Proofs.Unicode.Ascii
import QueryModule.Proofs.Naming.Words
import QueryModule.Proofs.Naming.FunctionNames
import QueryModule.Proofs.Naming.Separators
import QueryModule.Proofs.Naming.Underscores
import QueryModule.Proofs.Source.Taking
import QueryModule.Proofs.Command.Regenerating
import QueryModule.Proofs.Fragment.CallStack
import QueryModule.Proofs.Naming.JoinedWords
import QueryModule.Proofs.Config.SelectorGrammar
import QueryModule.Proofs.Config.OptionTexts
