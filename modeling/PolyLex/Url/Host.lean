import PolyLex.Text.CharClass
import PolyLex.Url.Fault
import PolyLex.Url.Ipv4
import PolyLex.Url.Ipv6
import PolyLex.Url.Percent

/-!
# Hosts

A host is a numeric address, in brackets if it is one of eight pieces, or a name. Names under the
schemes of the web are domain names; under other schemes a name is any text without the marks of a
URL.

How a domain name in any script is brought to basic letters is laid down elsewhere, in tables that
grow from year to year. `DomainNames` stands for one edition of them, and whatever reads an address
is about any edition.
-/

namespace PolyLex.Url

/-- Is it a small basic letter, a digit or a dot, so that every edition of the rules leaves it as it
is? -/
def isPlain (c : Char) : Bool := ('a' ≤ c && c ≤ 'z') || Text.isDigit c || c == '.'

/-- The rules for domain names: how a name is brought to basic letters, if it may be a name at all.
The text is what is left of a host when percent signs have been resolved. -/
class DomainNames where
  toBasic? : List Char → Option (List Char)
  /-- Plain characters stand for themselves, whatever the labels they make up. -/
  toBasic?_plain : ∀ name, (∀ c ∈ name, isPlain c = true) → toBasic? name = some name

/-- Where a server is. -/
inductive Host where
  /-- A name as it is written; it may be empty. -/
  | name (text : String)
  | ipv4 (address : Nat)
  | ipv6 (pieces : List Nat)
  deriving Repr, DecidableEq, Inhabited

namespace Host

def text : Host → String
  | name s => s
  | ipv4 n => Ipv4.text n
  | ipv6 pieces => "[" ++ Ipv6.text pieces ++ "]"

/-- The address between brackets. -/
def ofBrackets (cs : List Char) : Except Fault Host :=
  match cs.getLast? with
  | some ']' =>
    match Ipv6.ofText? cs.dropLast with
    | some pieces => .ok (ipv6 pieces)
    | none => .error .invalidIpv6
  | _ => .error .invalidIpv6

/-- The host that a text names under a scheme of the web. -/
def ofText [DomainNames] : List Char → Except Fault Host
  | '[' :: rest => ofBrackets rest
  | cs =>
    match (Percent.decode? cs).bind DomainNames.toBasic? with
    | none => .error .invalidDomainName
    | some [] => .error .emptyHost
    | some domain =>
      if Ipv4.endsInNumber domain then
        match Ipv4.ofName? domain with
        | some n => .ok (ipv4 n)
        | none => .error .invalidIpv4
      else .ok (name (String.ofList domain))

/-- Is the character a mark of a URL, so that no name of a host may hold it? -/
def isMark (c : Char) : Bool :=
  ['\x00', '\t', '\n', '\r', ' ', '#', '/', ':', '<', '>', '?', '@', '[', '\\', ']', '^',
    '|'].contains c

/-- The host that a text names under any other scheme. -/
def ofPlainText : List Char → Except Fault Host
  | '[' :: rest => ofBrackets rest
  | cs =>
    if cs.any isMark then .error .invalidDomainCharacter
    else .ok (name (String.ofList (Percent.encode [] cs)))

end Host

end PolyLex.Url
