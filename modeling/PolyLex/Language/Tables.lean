import PolyLex.Language.Profile

/-!
# The rules of the five languages

One table per language. C, C++, Java and JavaScript share a stock of operators and punctuation;
each adds its own spellings. In Python a word that is reserved only in some places stays an
identifier, and in JavaScript a template is a string that ends with its line.
-/

namespace PolyLex

namespace Rules

/-- Operators that C, C++, Java and JavaScript share. -/
def curlyOperators : List String :=
  ["=", "==", "!=", "<", ">", "<=", ">=", "+", "-", "*", "/", "%", "++", "--", "&&", "||",
   "!", "~", "&", "|", "^", "<<", ">>", "+=", "-=", "*=", "/=", "%=", "&=", "|=", "^=",
   "<<=", ">>=", "?"]

/-- Punctuation that C, C++, Java and JavaScript share. -/
def curlyPunctuation : List Char := [';', ',', '.', ':', '\\']

/-- Member access and the operators of the preprocessor. -/
def memberOperators : List String := ["->", "#", "##", "..."]

def python : Rules where
  keywords :=
    ["False", "None", "True", "and", "as", "assert", "async", "await", "break", "class",
     "continue", "def", "del", "elif", "else", "except", "finally", "for", "from", "global",
     "if", "import", "in", "is", "lambda", "nonlocal", "not", "or", "pass", "raise", "return",
     "try", "while", "with", "yield"]
  lineComments := ["#"]
  blockStrings := ["\"\"\"", "'''"]
  stringQuotes := ['"', '\'']
  operators :=
    ["+", "-", "*", "/", "//", "%", "**", "@", "=", "==", "!=", "<", ">", "<=", ">=", "<<",
     ">>", "&", "|", "^", "~", "+=", "-=", "*=", "/=", "//=", "%=", "**=", "@=", "&=", "|=",
     "^=", "<<=", ">>=", ":=", "->"]
  punctuation := [',', ';', '.', ':', '\\']

def java : Rules where
  keywords :=
    ["abstract", "assert", "boolean", "break", "byte", "case", "catch", "char", "class", "const",
     "continue", "default", "do", "double", "else", "enum", "extends", "final", "finally",
     "float", "for", "goto", "if", "implements", "import", "instanceof", "int", "interface",
     "long", "native", "new", "package", "private", "protected", "public", "return", "short",
     "static", "strictfp", "super", "switch", "synchronized", "this", "throw", "throws",
     "transient", "try", "void", "volatile", "while", "var", "record", "yield", "sealed",
     "permits", "true", "false", "null"]
  lineComments := ["//"]
  blockComment := some ("/*", "*/")
  stringQuotes := ['"']
  charQuotes := ['\'']
  operators := curlyOperators ++ [">>>", ">>>=", "->", "::", "@", "..."]
  punctuation := curlyPunctuation
  identifierExtras := ['$']

def c : Rules where
  keywords :=
    ["auto", "break", "case", "char", "const", "continue", "default", "do", "double", "else",
     "enum", "extern", "float", "for", "goto", "if", "inline", "int", "long", "register",
     "restrict", "return", "short", "signed", "sizeof", "static", "struct", "switch", "typedef",
     "union", "unsigned", "void", "volatile", "while", "_Alignas", "_Alignof", "_Atomic",
     "_Bool", "_Complex", "_Generic", "_Imaginary", "_Noreturn", "_Static_assert",
     "_Thread_local"]
  lineComments := ["//"]
  blockComment := some ("/*", "*/")
  stringQuotes := ['"']
  charQuotes := ['\'']
  operators := curlyOperators ++ memberOperators
  punctuation := curlyPunctuation

def cpp : Rules where
  keywords :=
    ["alignas", "alignof", "and", "and_eq", "asm", "auto", "bitand", "bitor", "bool", "break",
     "case", "catch", "char", "char8_t", "char16_t", "char32_t", "class", "compl", "concept",
     "const", "consteval", "constexpr", "constinit", "const_cast", "continue", "co_await",
     "co_return", "co_yield", "decltype", "default", "delete", "do", "double", "dynamic_cast",
     "else", "enum", "explicit", "export", "extern", "false", "float", "for", "friend", "goto",
     "if", "inline", "int", "long", "mutable", "namespace", "new", "noexcept", "not", "not_eq",
     "nullptr", "operator", "or", "or_eq", "private", "protected", "public", "register",
     "reinterpret_cast", "requires", "return", "short", "signed", "sizeof", "static",
     "static_assert", "static_cast", "struct", "switch", "template", "this", "thread_local",
     "throw", "true", "try", "typedef", "typeid", "typename", "union", "unsigned", "using",
     "virtual", "void", "volatile", "wchar_t", "while", "xor", "xor_eq"]
  lineComments := ["//"]
  blockComment := some ("/*", "*/")
  stringQuotes := ['"']
  charQuotes := ['\'']
  operators := curlyOperators ++ memberOperators ++ ["::", "->*", ".*", "<=>"]
  punctuation := curlyPunctuation

def javascript : Rules where
  keywords :=
    ["async", "await", "break", "case", "catch", "class", "const", "continue", "debugger",
     "default", "delete", "do", "else", "enum", "export", "extends", "false", "finally", "for",
     "function", "if", "import", "in", "instanceof", "let", "new", "null", "return", "static",
     "super", "switch", "this", "throw", "true", "try", "typeof", "var", "void", "while",
     "with", "yield"]
  lineComments := ["//"]
  blockComment := some ("/*", "*/")
  stringQuotes := ['"', '\'', '\x60']
  operators := curlyOperators ++
    ["===", "!==", "**", "**=", ">>>", ">>>=", "&&=", "||=", "??", "??=", "?.", "=>", "..."]
  punctuation := curlyPunctuation
  identifierExtras := ['$']

end Rules

end PolyLex
