import PolyLex.Text.Trim

/-!
# Command lines

A command line is a list of words. Each level of commands knows its options, the commands below it
and how many plain words it takes. An option has a long name behind two dashes and may have a letter
behind one; letters may be run together. A value follows its option as the next word, behind an
equals sign or, for a letter, at once. Behind a word of two dashes every word is plain.

`readLevel` reads one level, up to the name of a command below it.
-/

namespace PolyLex.Cli

/-- An option of a command. -/
structure Choice where
  name : String
  letter : Option Char := none
  takesValue : Bool := false
  /-- May its value be empty? -/
  allowsEmpty : Bool := true
  deriving Repr, DecidableEq

/-- A level of commands. -/
structure Level where
  options : List Choice
  /-- The names of the commands below. -/
  commands : List String := []
  /-- How many plain words it takes. -/
  words : Nat := 0
  /-- Does it tell the version? -/
  hasVersion : Bool := false

/-- Why a command line is not carried out. -/
inductive Refusal where
  | help
  | version
  | unknownOption (word : String)
  | unexpectedWord (word : String)
  | repeatedOption (name : String)
  | missingValue (name : String)
  | unneededValue (name : String)
  | missing (what : String)
  deriving Repr, DecidableEq

def Refusal.message : Refusal → String
  | help | version => ""
  | unknownOption word => "unexpected argument '" ++ word ++ "' found"
  | unexpectedWord word => "unexpected argument '" ++ word ++ "' found"
  | repeatedOption name => "the argument '--" ++ name ++ "' cannot be used multiple times"
  | missingValue name => "a value is required for '--" ++ name ++ "' but none was supplied"
  | unneededValue name => "unexpected value for '--" ++ name ++ "' found"
  | missing what => "the following required arguments were not provided: " ++ what

/-- What a level was given: options with their values, in which a flag has the empty one, and plain
words. -/
structure Given where
  values : List (String × String) := []
  words : List String := []

namespace Given

def value? (g : Given) (name : String) : Option String := g.values.lookup name

def has (g : Given) (name : String) : Bool := (g.value? name).isSome

/-- Give an option, with its value. -/
def add (c : Choice) (value : String) (g : Given) : Except Refusal Given :=
  if g.has c.name then .error (.repeatedOption c.name)
  else if value.isEmpty && !c.allowsEmpty then .error (.missingValue c.name)
  else .ok { g with values := (c.name, value) :: g.values }

end Given

/-- Does the word start an option? A single dash is a plain word. -/
def isOption (word : String) : Bool :=
  match word.toList with
  | '-' :: _ :: _ => true
  | _ => false

/-- The letters of a word behind its dash. Returns, besides what was given, the option that still
waits for its value. -/
def readLetters (level : Level) (g : Given) : List Char → Except Refusal (Given × Option Choice)
  | [] => .ok (g, none)
  | letter :: rest =>
    match level.options.find? fun c => c.letter == some letter with
    | none =>
      if letter = 'h' then .error .help
      else if letter = 'V' && level.hasVersion then .error .version
      else .error (.unknownOption ("-" ++ String.singleton letter))
    | some c =>
      if c.takesValue then
        match rest with
        | [] => .ok (g, some c)
        -- The value stands behind the letter at once, or behind an equals sign.
        | '=' :: value => (g.add c (String.ofList value)).map (·, none)
        | value => (g.add c (String.ofList value)).map (·, none)
      else match g.add c "" with
        | .ok g => readLetters level g rest
        | .error refusal => .error refusal

/-- A long option behind its dashes. Returns, besides what was given, the option that still waits
for its value. -/
def readName (level : Level) (g : Given) (cs : List Char) :
    Except Refusal (Given × Option Choice) :=
  let name := String.ofList (cs.takeWhile (· ≠ '='))
  let value := match cs.dropWhile (· ≠ '=') with
    | [] => none
    | _ :: value => some (String.ofList value)
  match level.options.find? (·.name == name), value with
  | none, _ =>
    if name = "help" then .error .help
    else if name = "version" && level.hasVersion then .error .version
    else .error (.unknownOption ("--" ++ name))
  | some c, none => if c.takesValue then .ok (g, some c) else (g.add c "").map (·, none)
  | some c, some value =>
    if c.takesValue then (g.add c value).map (·, none) else .error (.unneededValue name)

/-- An option with one dash or two. -/
def readOption (level : Level) (g : Given) (word : String) :
    Except Refusal (Given × Option Choice) :=
  match word.toList with
  | '-' :: '-' :: cs => readName level g cs
  | cs => readLetters level g (cs.drop 1)

/-- Read the words of a level. Returns what was given and the command below it with its words. With
`plain` every word is a plain one. -/
def readLevel (level : Level) (g : Given) (plain : Bool) :
    List String → Except Refusal (Given × Option (String × List String))
  | [] => .ok (g, none)
  | word :: rest =>
    if !plain && level.commands.contains word then .ok (g, some (word, rest))
    else if !plain && word = "help" && !level.commands.isEmpty then .error .help
    else if !plain && word = "--" then readLevel level g true rest
    else if !plain && isOption word then
      match readOption level g word with
      | .error refusal => .error refusal
      | .ok (g, none) => readLevel level g plain rest
      | .ok (g, some c) =>
        match rest with
        | [] => .error (.missingValue c.name)
        | value :: rest =>
          -- What looks like an option is never taken for a value.
          if isOption value then .error (.missingValue c.name)
          else match g.add c value with
            | .ok g => readLevel level g plain rest
            | .error refusal => .error refusal
    else if g.words.length < level.words then
      readLevel level { g with words := g.words ++ [word] } plain rest
    else .error (.unexpectedWord word)

end PolyLex.Cli
