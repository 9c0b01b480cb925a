import PolyLex.Keyed
import PolyLex.Numeric.Binary

/-!
# JSON values

A value as a document writes it: members of an object stand in the order of the text and a name may
occur more than once. `Value.settled` is what such a value means where objects are finite maps:
members are in the order of their names and the last of several with one name counts.

Whole numbers of 64 bits, signed or not, are kept exactly; every other number is a floating number
of some precision. Documents that are read hold doubles; a value that is written may hold singles.

Some parts of a document are well formed and stand for nothing: a number beyond the doubles, or a
text with half of a character. They are `Value.unfit`, which is no text, no number, no object.
-/

namespace PolyLex.Json

open Numeric

inductive Value where
  | null
  | bool (b : Bool)
  | int (n : Int)
  | real (p : Precision) (x : Binary)
  | str (s : String)
  | arr (items : List Value)
  | obj (members : List (String × Value))
  /-- A part of a document that is well formed and yet no value. -/
  | unfit
  deriving Repr, Inhabited

namespace Value

/-- A whole number that is not negative. -/
def nat (n : Nat) : Value := int n

/-- A text, or `null` for none. -/
def strOrNull : Option String → Value
  | some s => str s
  | none => null

def members? : Value → Option (List (String × Value))
  | obj members => some members
  | _ => none

/-- The value as a whole number that is not negative. -/
def nat? : Value → Option Nat
  | int (.ofNat n) => some n
  | _ => none

/-- A natural number is a whole number without a sign. -/
theorem nat?_eq_some_iff {v : Value} {n : Nat} : v.nat? = some n ↔ v = int n := by
  constructor
  · intro h
    cases v with
    | int m =>
      cases m with
      | ofNat m =>
        cases h
        rfl
      | negSucc m => cases h
    | _ => cases h
  · rintro rfl
    rfl

/-! ### Objects as finite maps -/

mutual
/-- The value with every object in the order of its names, each name once. -/
def settled : Value → Value
  | arr items => arr (settledItems items)
  | obj members => obj (Keyed.ofList (settledMembers members))
  | null => null
  | bool b => bool b
  | int n => int n
  | real p x => real p x
  | str s => str s
  | unfit => unfit
def settledItems : List Value → List Value
  | [] => []
  | v :: rest => settled v :: settledItems rest
/-- Settle the values of members, which stay where they are. -/
def settledMembers : List (String × Value) → List (String × Value)
  | [] => []
  | (name, v) :: rest => (name, settled v) :: settledMembers rest
end

theorem settledItems_eq (items : List Value) : settledItems items = items.map settled := by
  induction items with
  | nil => rfl
  | cons v items ih => rw [settledItems, ih, List.map_cons]

theorem settledMembers_eq (members : List (String × Value)) :
    settledMembers members = members.map fun m => (m.1, m.2.settled) := by
  induction members with
  | nil => rfl
  | cons m members ih =>
    obtain ⟨name, v⟩ := m
    rw [settledMembers, ih, List.map_cons]

end Value

end PolyLex.Json
