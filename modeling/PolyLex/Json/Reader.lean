import PolyLex.Json.Fault
import PolyLex.Json.Number

/-!
# Reading JSON documents

Readers are functions on lists of characters. A reader returns what it read and the rest of the
text, and the type of the rest says that it is shorter, so loops over a text end because the text
does. Nesting is bounded instead by a number that the caller grants: `readValue` is recursive on
it, and an opening bracket beyond it is a fault.

A reading may be `strict` or not. Strictly, everything in a document has to stand for a value;
otherwise a number beyond the doubles and half of a pair of escapes need only be well formed.

A reader that fails says where it stopped (`Stop`): at which rest of the text, and how many bytes
of that rest belong to the offence. `readDocument` turns that into a line and a column.
-/

namespace PolyLex.Json

open Text

/-- Where a reader gave up: the problem, the text from there on, and the number of its bytes that
belong to the offence. -/
structure Stop where
  problem : Problem
  rest : List Char
  offending : Nat := 1
  deriving Repr

/-- What a reader returns on a text: what it read and a shorter rest, or where it stopped. -/
abbrev Reading (α : Type) (cs : List Char) :=
  Except Stop (α × { r : List Char // r.length < cs.length })

/-- At the end of the text. -/
def atEnd (problem : Problem) : Stop := { problem, rest := [], offending := 0 }

/-- White space between the parts of a document. -/
def isGap (c : Char) : Bool := c == ' ' || c == '\n' || c == '\t' || c == '\r'

/-- The text without leading white space. -/
def skipGap (cs : List Char) : List Char := cs.dropWhile isGap

theorem length_skipGap_le (cs : List Char) : (skipGap cs).length ≤ cs.length :=
  (List.dropWhile_suffix isGap).length_le

/-- Hand a reading of a shorter text on as a reading of the longer one. -/
def Reading.widen {α : Type} {small big : List Char} (h : small.length ≤ big.length) :
    Reading α small → Reading α big
  | .ok (a, r) => .ok (a, ⟨r.val, Nat.lt_of_lt_of_le r.property h⟩)
  | .error stop => .error stop

/-! ### Strings -/

def byteLength (cs : List Char) : Nat := (String.ofList cs).utf8ByteSize

/-- Four hexadecimal digits. Four bytes are looked at, whatever characters they belong to. -/
def readHex (cs : List Char) : Reading Nat cs :=
  match cs with
  | a :: b :: c :: d :: rest =>
    match hexValue? a, hexValue? b, hexValue? c, hexValue? d with
    | some w, some x, some y, some z =>
      .ok (((w * 16 + x) * 16 + y) * 16 + z, ⟨rest, by simp only [List.length_cons]; omega⟩)
    | _, _, _, _ => .error ⟨.invalidEscape, a :: b :: c :: d :: rest, 4⟩
  | short =>
    if byteLength short < 4 then .error (atEnd .eofString)
    else .error ⟨.invalidEscape, short, 4⟩

/-- The second half of a pair of escapes that stand for one character. -/
def readTrail (high : Nat) (cs : List Char) : Reading Char cs :=
  match cs with
  | [] => .error (atEnd .eofString)
  | '\\' :: [] => .error (atEnd .eofString)
  | '\\' :: 'u' :: rest => do
    let (low, r) ← readHex rest
    if 0xDC00 ≤ low ∧ low ≤ 0xDFFF then
      return (Char.ofNat (0x10000 + (high - 0xD800) * 0x400 + (low - 0xDC00)),
        ⟨r.val, by have := r.property; simp only [List.length_cons]; omega⟩)
    else .error ⟨.unpairedSurrogate, r.val, 0⟩
  | '\\' :: other => .error ⟨.unexpectedEndOfHex, other, 1⟩
  | other => .error ⟨.unexpectedEndOfHex, other, 1⟩

/-- The character of an escape by number, behind its `u`. Half of a pair is a fault in a `strict`
reading; otherwise it is passed over and there is no character. -/
def readUnicode (strict : Bool) (cs : List Char) : Reading (Option Char) cs := do
  let (n, r) ← readHex cs
  if 0xDC00 ≤ n ∧ n ≤ 0xDFFF then
    if strict then .error ⟨.unpairedSurrogate, r.val, 0⟩ else return (none, r)
  else if 0xD800 ≤ n ∧ n ≤ 0xDBFF then
    match Reading.widen (Nat.le_of_lt r.property) (readTrail n r.val) with
    | .ok (c, r') => return (some c, r')
    | .error stop => if strict then .error stop else return (none, r)
  else return (some (Char.ofNat n), r)

/-- The character that a one-letter escape stands for. -/
def escaped? : Char → Option Char
  | '"' => some '"'
  | '\\' => some '\\'
  | '/' => some '/'
  | 'b' => some '\x08'
  | 'f' => some '\x0c'
  | 'n' => some '\n'
  | 'r' => some '\r'
  | 't' => some '\t'
  | _ => none

/-- The character of an escape, behind its backslash. -/
def readEscape (strict : Bool) (cs : List Char) : Reading (Option Char) cs :=
  match cs with
  | [] => .error (atEnd .eofString)
  | c :: rest =>
    if c = 'u' then Reading.widen (by simp) (readUnicode strict rest)
    else match escaped? c with
      | some d => .ok (some d, ⟨rest, by simp⟩)
      | none => .error ⟨.invalidEscape, c :: rest, 1⟩

/-- The characters of a string, behind its opening quote, if its escapes make up characters. -/
def readChars (strict : Bool) (cs : List Char) : Reading (Option (List Char)) cs :=
  match cs with
  | [] => .error (atEnd .eofString)
  | c :: rest =>
    if c = '"' then .ok (some [], ⟨rest, by simp⟩)
    else if c = '\\' then do
      let (d, r) ← readEscape strict rest
      let (more, r') ← readChars strict r.val
      return (d.bind fun d => more.map (d :: ·), ⟨r'.val, by
        have := r.property; have := r'.property; simp only [List.length_cons]; omega⟩)
    else if c.toNat < 0x20 then .error ⟨.controlCharacter, c :: rest, 1⟩
    else do
      let (more, r) ← readChars strict rest
      return (more.map (c :: ·), ⟨r.val, by
        have := r.property; simp only [List.length_cons]; omega⟩)
termination_by cs.length
decreasing_by
  all_goals simp only [List.length_cons]
  · have := r.property; omega
  · omega

/-! ### Numbers and words -/

/-- The digits that a text starts with, as numbers, and what follows. -/
def takeDigits (cs : List Char) : List Nat × List Char :=
  ((cs.takeWhile isDigit).map fun c => c.toNat - '0'.toNat, cs.dropWhile isDigit)

theorem length_takeDigits_le (cs : List Char) : (takeDigits cs).2.length ≤ cs.length :=
  (List.dropWhile_suffix isDigit).length_le

/-- The fault of a text that should go on with a digit and does not. -/
def digitMissing : List Char → Stop
  | [] => atEnd .eofValue
  | rest => ⟨.invalidNumber, rest, 1⟩

/-- The digits of a fraction, if the text goes on with one, and what follows. -/
def readFraction (cs : List Char) :
    Except Stop (Option (List Nat) × { r : List Char // r.length ≤ cs.length }) :=
  match cs with
  | '.' :: rest =>
    let digits := takeDigits rest
    if digits.1.isEmpty then .error (digitMissing rest)
    else .ok (some digits.1, ⟨digits.2, Nat.le_succ_of_le (length_takeDigits_le rest)⟩)
  | cs => .ok (none, ⟨cs, Nat.le_refl _⟩)

/-- The sign of an exponent: is it negative? And what follows. -/
def exponentSign : (cs : List Char) → Bool × { r : List Char // r.length ≤ cs.length }
  | '-' :: rest => (true, ⟨rest, by simp⟩)
  | '+' :: rest => (false, ⟨rest, by simp⟩)
  | cs => (false, ⟨cs, Nat.le_refl _⟩)

/-- The sign and digits of an exponent, if the text goes on with one, and what follows. -/
def readExponent (cs : List Char) :
    Except Stop (Option (Bool × List Nat) × { r : List Char // r.length ≤ cs.length }) :=
  match cs with
  | e :: rest =>
    if e = 'e' ∨ e = 'E' then
      let (minus, r) := exponentSign rest
      let digits := takeDigits r.val
      if digits.1.isEmpty then .error (digitMissing r.val)
      else .ok (some (minus, digits.1), ⟨digits.2,
        Nat.le_succ_of_le (Nat.le_trans (length_takeDigits_le r.val) r.property)⟩)
    else .ok (none, ⟨e :: rest, Nat.le_refl _⟩)
  | [] => .ok (none, ⟨[], Nat.le_refl _⟩)

/-- Where there is a digit, reading digits gets on. -/
theorem length_takeDigits_lt {cs : List Char} (h : (takeDigits cs).1.isEmpty = false) :
    (takeDigits cs).2.length < cs.length := by
  have hlen := congrArg List.length (List.takeWhile_append_dropWhile (p := isDigit) (l := cs))
  simp only [takeDigits, List.isEmpty_eq_false_iff, ne_eq, List.map_eq_nil_iff] at h
  have hpos := List.length_pos_iff.mpr h
  rw [List.length_append] at hlen
  simp only [takeDigits]
  omega

/-- Where a number beyond the doubles is refused: at its end, or at the digit that makes its
exponent too large to be looked at. The number starts the text `cs` and `rest` follows it. -/
def outOfRange (t : NumberText) (cs rest : List Char) : Stop :=
  let unread := match t.exponent with
    | some (_, digits) =>
      digits.length - ((NumberText.absorb NumberText.exponentMax 0 digits).2 + 1)
    | none => 0
  ⟨.numberOutOfRange, cs.drop (cs.length - rest.length - unread), 0⟩

/-- A number behind its sign. One beyond the doubles is a fault where the reading is `strict`. -/
def readNumber (strict negative : Bool) (cs : List Char) : Reading Value cs :=
  let digits := takeDigits cs
  if h : digits.1.isEmpty then .error (digitMissing cs)
  -- No number but zero itself starts with a zero.
  else if digits.1.head? = some 0 ∧ 1 < digits.1.length then
    .error ⟨.invalidNumber, cs.drop 1, 1⟩
  else do
    let (fraction, r₁) ← readFraction digits.2
    let (exponent, r₂) ← readExponent r₁.val
    let t : NumberText := { negative, whole := digits.1, fraction, exponent }
    -- A number that no field asks for may be beyond the doubles.
    if strict && t.value?.isNone then .error (outOfRange t cs r₂.val)
    else return (t.value?.getD .unfit, ⟨r₂.val, by
        have h₀ := length_takeDigits_lt (by simpa using h)
        have h₁ := r₁.property
        have h₂ := r₂.property
        simp only [digits] at h₁
        omega⟩)

/-- The rest of a word whose first letter has been seen. -/
def readWord (value : Value) : (word cs : List Char) →
    Except Stop (Value × { r : List Char // r.length ≤ cs.length })
  | [], cs => .ok (value, ⟨cs, Nat.le_refl _⟩)
  | _ :: _, [] => .error (atEnd .eofValue)
  | w :: word, c :: rest =>
    if c = w then do
      let (v, r) ← readWord value word rest
      return (v, ⟨r.val, Nat.le_succ_of_le r.property⟩)
    else .error ⟨.expectedIdent, c :: rest, 1⟩

/-! ### Arrays and objects -/

/-- The items of an array behind one of them. -/
def readMoreItems (item : (cs : List Char) → Reading Value cs) (cs : List Char) :
    Reading (List Value) cs :=
  match h : skipGap cs with
  | [] => .error (atEnd .eofList)
  | ']' :: rest => .ok ([], ⟨rest, by
      have := length_skipGap_le cs; rw [h, List.length_cons] at this; omega⟩)
  | ',' :: rest =>
    match skipGap rest with
    | [] => .error (atEnd .eofValue)
    -- Behind a comma there has to be one more value.
    | ']' :: rest' => .error ⟨.trailingComma, ']' :: rest', 1⟩
    | _ => do
      let (v, r) ← item rest
      let (vs, r') ← readMoreItems item r.val
      return (v :: vs, ⟨r'.val, by
        have := length_skipGap_le cs; rw [h, List.length_cons] at this
        have := r.property; have := r'.property; omega⟩)
  | other => .error ⟨.expectedListComma, other, 1⟩
termination_by cs.length
decreasing_by
  have := length_skipGap_le cs; rw [h, List.length_cons] at this
  have := r.property; omega

/-- The items of an array, behind its opening bracket. -/
def readItems (item : (cs : List Char) → Reading Value cs) (cs : List Char) :
    Reading (List Value) cs :=
  match h : skipGap cs with
  | [] => .error (atEnd .eofList)
  | ']' :: rest => .ok ([], ⟨rest, by
      have := length_skipGap_le cs; rw [h, List.length_cons] at this; omega⟩)
  | _ => do
    let (v, r) ← item cs
    let (vs, r') ← readMoreItems item r.val
    return (v :: vs, ⟨r'.val, by have := r.property; have := r'.property; omega⟩)

/-- A member as it is read: its name, if that is a text, and its value. -/
abbrev Member := Option String × Value

/-- The object of some members; there is none unless all names are texts. -/
def ofMembers (members : List Member) : Value :=
  match members.mapM fun m => m.1.map fun name => (name, m.2) with
  | some named => .obj named
  | none => .unfit

/-- One member of an object, behind the quote that opens its name. -/
def readMember (strict : Bool) (item : (cs : List Char) → Reading Value cs) (cs : List Char) :
    Reading Member cs := do
  let (name, r) ← readChars strict cs
  match h : skipGap r.val with
  | [] => .error (atEnd .eofObject)
  | ':' :: rest => do
    let (v, r') ← item rest
    return ((name.map String.ofList, v), ⟨r'.val, by
      have := length_skipGap_le r.val; rw [h, List.length_cons] at this
      have := r.property; have := r'.property; omega⟩)
  | other => .error ⟨.expectedColon, other, 1⟩

/-- The members of an object behind one of them. -/
def readMoreMembers (strict : Bool) (item : (cs : List Char) → Reading Value cs)
    (cs : List Char) : Reading (List Member) cs :=
  match h : skipGap cs with
  | [] => .error (atEnd .eofObject)
  | '\x7d' :: rest => .ok ([], ⟨rest, by
      have := length_skipGap_le cs; rw [h, List.length_cons] at this; omega⟩)
  | ',' :: rest =>
    match h' : skipGap rest with
    | [] => .error (atEnd .eofValue)
    | '\x7d' :: rest' => .error ⟨.trailingComma, '\x7d' :: rest', 1⟩
    | '"' :: rest' => do
      let (m, r) ← readMember strict item rest'
      let (ms, r') ← readMoreMembers strict item r.val
      return (m :: ms, ⟨r'.val, by
        have := length_skipGap_le cs; rw [h, List.length_cons] at this
        have := length_skipGap_le rest; rw [h', List.length_cons] at this
        have := r.property; have := r'.property; omega⟩)
    | other => .error ⟨.keyNotString, other, 1⟩
  | other => .error ⟨.expectedObjectComma, other, 1⟩
termination_by cs.length
decreasing_by
  have := length_skipGap_le cs; rw [h, List.length_cons] at this
  have := length_skipGap_le rest; rw [h', List.length_cons] at this
  have := r.property; omega

/-- The members of an object, behind its opening brace. -/
def readMembers (strict : Bool) (item : (cs : List Char) → Reading Value cs) (cs : List Char) :
    Reading (List Member) cs :=
  match h : skipGap cs with
  | [] => .error (atEnd .eofObject)
  | '\x7d' :: rest => .ok ([], ⟨rest, by
      have := length_skipGap_le cs; rw [h, List.length_cons] at this; omega⟩)
  | '"' :: rest => do
    let (m, r) ← readMember strict item rest
    let (ms, r') ← readMoreMembers strict item r.val
    return (m :: ms, ⟨r'.val, by
      have := length_skipGap_le cs; rw [h, List.length_cons] at this
      have := r.property; have := r'.property; omega⟩)
  | other => .error ⟨.keyNotString, other, 1⟩

/-! ### Values and documents -/

/-- A value whose first character is `c`, with `rest` behind it. `inner` reads the values inside
an array or object; without it brackets are nested too deeply. -/
def readFrom (strict : Bool) (inner : Option ((cs : List Char) → Reading Value cs)) (c : Char)
    (rest : List Char) : Reading Value (c :: rest) :=
  if c = '"' then do
    let (s, r) ← readChars strict rest
    return (s.elim .unfit (.str ∘ String.ofList), ⟨r.val, Nat.lt_succ_of_lt r.property⟩)
  else if c = '[' then
    match inner with
    -- Without a reader for what is inside, the depth is used up.
    | none => .error ⟨.tooDeep, c :: rest, 1⟩
    | some item => do
      let (vs, r) ← readItems item rest
      return (.arr vs, ⟨r.val, Nat.lt_succ_of_lt r.property⟩)
  else if c = '\x7b' then
    match inner with
    | none => .error ⟨.tooDeep, c :: rest, 1⟩
    | some item => do
      let (ms, r) ← readMembers strict item rest
      return (ofMembers ms, ⟨r.val, Nat.lt_succ_of_lt r.property⟩)
  else if c = '-' then Reading.widen (by simp) (readNumber strict true rest)
  else if isDigit c then readNumber strict false (c :: rest)
  else
    let word : Option (List Char × Value) :=
      if c = 'n' then some (['u', 'l', 'l'], .null)
      else if c = 't' then some (['r', 'u', 'e'], .bool true)
      else if c = 'f' then some (['a', 'l', 's', 'e'], .bool false)
      else none
    match word with
    | some (word, value) => do
      let (v, r) ← readWord value word rest
      return (v, ⟨r.val, Nat.lt_succ_of_le r.property⟩)
    | none => .error ⟨.expectedValue, c :: rest, 1⟩

/-- A value after white space, with brackets nested at most `depth` deep. -/
def readValue (strict : Bool) : (depth : Nat) → (cs : List Char) → Reading Value cs
  | depth, cs =>
    match h : skipGap cs with
    | [] => .error (atEnd .eofValue)
    | c :: rest =>
      let inner := match depth with
        | 0 => none
        | depth + 1 => some (readValue strict depth)
      Reading.widen (h ▸ length_skipGap_le cs) (readFrom strict inner c rest)

def bytes (cs : List Char) : List UInt8 := cs.flatMap String.utf8EncodeChar

/-- The line and the column that the first bytes of a text reach. -/
def locate : (line column : Nat) → List UInt8 → Nat × Nat
  | line, column, [] => (line, column)
  | line, column, b :: rest =>
    if b = 10 then locate (line + 1) 0 rest else locate line (column + 1) rest

/-- The fault of a reader that stopped in a text. -/
def Stop.fault (stop : Stop) (cs : List Char) : Fault :=
  let seen := byteLength cs - byteLength stop.rest + stop.offending
  let (line, column) := locate 1 0 ((bytes cs).take seen)
  { problem := stop.problem, line, column }

/-- A document is one value with white space around it. Its objects are as they are written. -/
def readDocument (strict : Bool) (depth : Nat) (text : String) : Except Fault Value :=
  let cs := text.toList
  match readValue strict depth cs with
  | .error stop => .error (stop.fault cs)
  | .ok (v, r) =>
    match skipGap r.val with
    | [] => .ok v
    | rest => .error (Stop.fault ⟨.trailingCharacters, rest, 1⟩ cs)

/-- The value of a document from which a record is to be taken. Members that no field asks for only
have to be well formed, and may be nested as deeply as the text allows. -/
def readRecord (text : String) : Except Fault Value := readDocument false text.length text

/-- How deeply brackets may be nested where a document is read as a value. -/
def nestingLimit : Nat := 127

/-- The value that a document stands for, its objects being finite maps. -/
def parse (text : String) : Except Fault Value :=
  (readDocument true nestingLimit text).map Value.settled

end PolyLex.Json
