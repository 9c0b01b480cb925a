import PolyLex.Language.Tables

/-!
# The languages

Five languages are known, each by an identifier that is matched exactly. `Language.profile` is the
registry of their profiles.
-/

namespace PolyLex

/-- A language whose sources can be analysed. -/
inductive Language where
  | python
  | java
  | c
  | cpp
  | javascript
  deriving Repr, DecidableEq, Inhabited

namespace Language

/-- All languages, in the order in which they are shown. -/
def all : List Language := [python, java, c, cpp, javascript]

def id : Language → String
  | python => "python"
  | java => "java"
  | c => "c"
  | cpp => "cpp"
  | javascript => "javascript"

/-- The name of a language as people write it. -/
def displayName : Language → String
  | python => "Python"
  | java => "Java"
  | c => "C"
  | cpp => "C++"
  | javascript => "JavaScript"

/-- The language with an identifier; case matters. -/
def ofId? (name : String) : Option Language := all.find? fun l => l.id == name

/-- The rules of a language. -/
def rules : Language → Rules
  | python => Rules.python
  | java => Rules.java
  | c => Rules.c
  | cpp => Rules.cpp
  | javascript => Rules.javascript

/-- The profile by which sources of a language are cut. -/
def profile (l : Language) : Profile := Profile.ofRules l.rules

/-- A language is found under its own identifier. -/
theorem ofId?_id (l : Language) : ofId? l.id = some l := by cases l <;> decide

/-- A language is found under its own identifier only. -/
theorem id_of_ofId? {name : String} {l : Language} (h : ofId? name = some l) : l.id = name := by
  simpa using List.find?_some h

end Language

end PolyLex
