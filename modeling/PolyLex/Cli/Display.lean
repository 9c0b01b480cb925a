import PolyLex.Analysis.Report
import PolyLex.Listing.Table

/-!
# Results for people

Reports and errors as they are shown in a terminal. Marks at the start of a line tell information,
warnings and success apart.
-/

namespace PolyLex.Cli

/-- Lines, each with its line feed. -/
def lines (ls : List String) : String := String.join (ls.map (· ++ "\n"))

def info (text : String) : String := "ℹ " ++ text

def warning (text : String) : String := "⚠ " ++ text

def success (text : String) : String := "✓ " ++ text

/-- The line under the title of a section. -/
def rule : String := String.ofList (List.replicate 40 '─')

/-- The lines of a section. -/
def titled (title : String) (body : List String) : List String := ["", title, rule] ++ body

/-- The line that tells who drew up a listing. -/
def originLine : Analysis.Origin → String
  | .remote name => info ("Source: " ++ (Analysis.Origin.remote name).text)
  | .scanner => info "Source: local scanner"
  | .degraded => warning "Source: degraded result"

/-- A report: where it comes from, the tokens, the summary. -/
def reportText (r : Analysis.Report) : String :=
  lines (["", "Lexical Analysis", originLine r.origin] ++
    (r.fallbackReason.map fun reason =>
      warning ("Remote analysis unavailable: " ++ reason)).toList ++
    (if r.consistent then [] else [warning "Reported summary disagrees with the token list"]) ++
    titled "Tokens" (tableHeader :: r.listing.tokens.map Token.row) ++
    titled "Summary" r.listing.summaryLines)

/-- An error, its first word in red. -/
def errorText (e : Error) : String := "\x1b[31mError:\x1b[0m " ++ e.message ++ "\n"

end PolyLex.Cli
