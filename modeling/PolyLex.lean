import PolyLex.Main
import PolyLex.Config.Store
import PolyLex.Toml.Printer
import PolyLex.Toml.Reader
import PolyLex.Url.Address
import PolyLex.Analysis.Session
import PolyLex.Files.Export
import PolyLex.Files.Source
import PolyLex.Language.Overview
import PolyLex.Listing.Check
import PolyLex.Listing.Document
import PolyLex.Listing.Table
import PolyLex.Remote.Accepted
import PolyLex.Remote.Payload
import PolyLex.Remote.Response
import PolyLex.Scan.Cursor
import PolyLex.Scan.Bytes
import PolyLex.Proofs.Language.WellFormed
import PolyLex.Proofs.Text.Classes
import PolyLex.Proofs.Text.Marks
import PolyLex.Proofs.Text.Lines
import PolyLex.Proofs.Text.LineEnds
import PolyLex.Proofs.Scan.Close
import PolyLex.Proofs.Scan.Number
import PolyLex.Proofs.Scan.Claims
import PolyLex.Proofs.Scan.Advance
import PolyLex.Proofs.Scan.Encoding
import PolyLex.Proofs.Scan.Bytes
import PolyLex.Proofs.Scan.Coverage
import PolyLex.Proofs.Scan.Rule
import PolyLex.Proofs.Scan.Munch
import PolyLex.Proofs.Scan.Construct
import PolyLex.Proofs.Scan.Carry
import PolyLex.Proofs.Scan.Positions
import PolyLex.Proofs.Scan.Lexemes
import PolyLex.Proofs.Scan.LineEnds
import PolyLex.Proofs.Scan.Carried
import PolyLex.Proofs.Scan.Append
import PolyLex.Proofs.Analysis.Steps
import PolyLex.Proofs.Analysis.SingleFlight
import PolyLex.Proofs.Analysis.Reports
import PolyLex.Proofs.Analysis.Fallback
import PolyLex.Proofs.Analysis.Looks
import PolyLex.Proofs.Analysis.Race
import PolyLex.Proofs.Text.Ends
import PolyLex.Proofs.Url.Path
import PolyLex.Proofs.Url.Address
import PolyLex.Proofs.Json.Reading
import PolyLex.Proofs.Json.Nested
import PolyLex.Proofs.Token.Summary
import PolyLex.Proofs.Json.Fit
import PolyLex.Proofs.Json.Printing
import PolyLex.Proofs.Remote.Payload
import PolyLex.Proofs.Remote.Acceptance
import PolyLex.Proofs.Remote.Endpoint
import PolyLex.Proofs.Listing.Document
import PolyLex.Proofs.Listing.Reload
import PolyLex.Proofs.Numeric.Layout
import PolyLex.Proofs.Text.Parts
import PolyLex.Proofs.Toml.Text
import PolyLex.Proofs.Toml.Word
import PolyLex.Proofs.Toml.Values
import PolyLex.Proofs.Toml.Document
import PolyLex.Proofs.Json.Numeral
import PolyLex.Proofs.Config.Overlay
import PolyLex.Proofs.Config.Settings
import PolyLex.Proofs.Config.Store
import PolyLex.Proofs.Config.Precedence
import PolyLex.Proofs.Config.Misfit
import PolyLex.Proofs.Config.Signed
import PolyLex.Proofs.Config.Shown
import PolyLex.Proofs.Remote.Counts
import PolyLex.Proofs.Config.Template
import PolyLex.Proofs.Files.Tree
import PolyLex.Proofs.Files.Outline
import PolyLex.Proofs.Config.Init
import PolyLex.Proofs.Scan.Openings
import PolyLex.Proofs.Scan.Order
import PolyLex.Proofs.Scan.Alone
import PolyLex.Proofs.Scan.Neighbours
import PolyLex.Proofs.Json.Ends
import PolyLex.Proofs.Remote.Fenced
import PolyLex.Proofs.Remote.Demands
import PolyLex.Proofs.Token.Spelling
import PolyLex.Proofs.Remote.Consistency
import PolyLex.Proofs.Config.Variable
import PolyLex.Proofs.Config.Environment
import PolyLex.Proofs.Remote.Prompt
import PolyLex.Proofs.Scan.Offsets
import PolyLex.Proofs.Language.Operators
import PolyLex.Proofs.Text.Controls
import PolyLex.Proofs.Listing.Table
import PolyLex.Proofs.Listing.Kinds
