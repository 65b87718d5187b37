import Spire.Token
import Spire.Spelling
import Spire.TokenStream
import Spire.Segment
import Spire.OperatorRun
import Spire.Text.Utf16
import Spire.Lexer
import Spire.Lexer.Session
import Spire.Cursor
import Spire.Tree
import Spire.Parser.Error
import Spire.Parser
import Spire.Json
import Spire.Json.Quoted
import Spire.Json.Writer
import Spire.Json.Lexeme
import Spire.Json.Reader
import Spire.Tree.Drawing
import Spire.Tree.Serialized
import Spire.Forest
import Spire.Text.Utf8
import Spire.Path
import Spire.FileSystem
import Spire.FileSystem.Listing
import Spire.Settings
import Spire.CommandLine.Options
import Spire.CommandLine
import Spire.Main
import Spire.Proofs.Program
import Spire.Proofs.Reading
import Spire.Proofs.Parser.Stepwise
import Spire.Proofs.Parser.Language
import Spire.Proofs.Parser.FirstError
import Spire.Proofs.Lexer.Cover
import Spire.Proofs.Lexer.Fidelity
import Spire.Proofs.Lexer.Segmentation
import Spire.Proofs.Lexer.Words
import Spire.Proofs.Lexer.Content
import Spire.Proofs.Parser.Places
import Spire.Proofs.Layout
import Spire.Proofs.Lexer.Names
import Spire.Proofs.Printing
import Spire.Proofs.Lexer.Beginning
import Spire.Proofs.Completion
import Spire.Proofs.Lexer.Fault
import Spire.Proofs.Parser.Interrupted
import Spire.Proofs.Lexer.Lexical
import Spire.Proofs.Lexemes
import Spire.Proofs.Lexer.Extraction
import Spire.Proofs.Lexer.Stages
import Spire.Proofs.Lexer.Resumption
import Spire.Proofs.Lexer.Schedule
import Spire.Proofs.Parser.Isolation
import Spire.Proofs.Forest.Links
import Spire.Proofs.Forest.Planting
import Spire.Proofs.Forest.Subtrees
import Spire.Proofs.Parser.Growth
import Spire.Proofs.Drawing
import Spire.Proofs.Settings.Search
import Spire.Proofs.CommandLine.Arguments
import Spire.Proofs.CommandLine.Settings
import Spire.Proofs.CommandLine.Course
import Spire.Proofs.CommandLine.TreeMode
import Spire.Proofs.Json.Rereading
import Spire.Proofs.CommandLine.TokenMode
import Spire.Proofs.CommandLine.SettingsPath
import Spire.Proofs.Forest.Rendering
import Spire.Proofs.Forest.Appending
import Spire.Proofs.Parser.Log
import Spire.Proofs.Tree.Likeness
import Spire.Proofs.Forest.Serialization
import Spire.Proofs.Tree.Legibility
import Spire.Proofs.CommandLine.SpareArguments
import Spire.Proofs.PutBack
import Spire.Proofs.Json.Grammar
import Spire.Proofs.Json.Members
import Spire.Proofs.Settings.Validation
