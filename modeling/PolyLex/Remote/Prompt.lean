import PolyLex.Language.Basic
import PolyLex.Token.Kind

/-!
# Prompts

The remote service is addressed in prose with lists and fenced code. A prompt is a list of
sections; its text ends without white space. `analysisPrompt` is the one question that is asked:
which tokens does this source consist of?
-/

namespace PolyLex.Remote

/-- A part of a prompt. -/
inductive Section where
  | text (content : String)
  | numbered (items : List String)
  | bullets (items : List String)
  /-- Fenced code with a tag; the code stands as it is. -/
  | code (tag content : String)
  deriving Repr, DecidableEq

/-- The items of a numbered list from a number on, one per line. -/
def numberedLines (n : Nat) : List String → String
  | [] => ""
  | item :: rest => toString n ++ ". " ++ item ++ "\n" ++ numberedLines (n + 1) rest

/-- The items of a list with dashes, one per line. -/
def bulletLines : List String → String
  | [] => ""
  | item :: rest => "- " ++ item ++ "\n" ++ bulletLines rest

/-- The text with a line feed at its end. -/
def closeLine (content : String) : String :=
  if content.toList.getLast? = some '\n' then content else content ++ "\n"

/-- The text of a section, with the empty line that ends it. -/
def Section.render : Section → String
  | text content => content ++ "\n\n"
  | numbered items => numberedLines 1 items ++ "\n"
  | bullets items => bulletLines items ++ "\n"
  | code tag content => "```" ++ tag ++ "\n" ++ closeLine content ++ "```\n\n"

def prompt (sections : List Section) : String :=
  Text.trimEnd (String.join (sections.map Section.render))

/-! ### The question -/

def systemPrompt : String :=
  "You are a lexical analyzer for programming languages. You analyze code and return only valid " ++
    "JSON without markdown formatting or code blocks."

/-- The last word of the question. -/
def rawJsonReminder : String :=
  "IMPORTANT: Return ONLY the raw JSON without any markdown formatting, code blocks, or backticks."

/-- What a kind is about. -/
def kindHint : Kind → String
  | .keyword => "language keywords"
  | .identifier => "variable names, function names, etc."
  | .operator => "arithmetic, logical, etc."
  | .literal => "character literals and other non-numeric literals"
  | .number => "integer, float, etc."
  | .string => "string literals"
  | .comment => "single line, multi-line"
  | .punctuation => "semicolons, commas, etc."
  | .delimiter => "parentheses, brackets, braces"
  | _ => "spaces, tabs, newlines"

/-- The kinds that the service may use, each with what it is about. -/
def kindHints : List String :=
  (Kind.known.filter (· ≠ .error)).map fun kind => kind.name ++ " (" ++ kindHint kind ++ ")"

/-- The sections of the question about a source. -/
def analysisSections (language : Language) (source : String) : List Section :=
  [.text ("You are a lexical analyzer for programming languages. Analyze the following " ++
     language.id ++ " code and identify all lexical tokens.\n" ++
     "Return ONLY a JSON object with two properties:"),
   .numbered
     ["\"tokens\": an array of token objects, each with \"type\", \"value\", \"line\", and " ++
        "\"position\" properties",
      "\"summary\": an object with token types as keys and their counts as values"],
   .text "For token types, use these categories:",
   .bullets kindHints,
   .text "Here's the code to analyze:",
   .code language.id source,
   .text "Respond ONLY with the JSON object, no explanations or other text.",
   .text rawJsonReminder]

def analysisPrompt (language : Language) (source : String) : String :=
  prompt (analysisSections language source)

end PolyLex.Remote
