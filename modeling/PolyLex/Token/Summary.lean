import PolyLex.Keyed
import PolyLex.Token.Basic

/-!
# Counts per kind

A summary maps the names of kinds to counts. Kinds that do not occur are absent, never zero, when
a summary is drawn up from tokens; a reported summary may say anything.

Entries are kept in the order of their names, which the type demands, so two summaries are equal
as soon as they answer every look-up alike (`Summary.ext_get?`).
-/

namespace PolyLex

/-- Counts by the name of the kind, in the order of the names. -/
structure Summary where
  entries : List (String × Nat)
  ordered : Keyed.Ordered entries

namespace Summary

@[ext] theorem ext : ∀ {s t : Summary}, s.entries = t.entries → s = t
  | ⟨_, _⟩, ⟨_, _⟩, rfl => rfl

instance : DecidableEq Summary := fun s t =>
  if h : s.entries = t.entries then isTrue (ext h) else isFalse fun e => h (e ▸ rfl)

def empty : Summary := ⟨[], Keyed.ordered_nil⟩

instance : Inhabited Summary := ⟨empty⟩
instance : EmptyCollection Summary := ⟨empty⟩

/-- The count under a name, if there is one. -/
def get? (s : Summary) (name : String) : Option Nat := Keyed.find? name s.entries

/-- The count under a name, zero if there is none. -/
def count (s : Summary) (name : String) : Nat := (s.get? name).getD 0

/-- Put `f` of the present count under a name. -/
def update (s : Summary) (name : String) (f : Option Nat → Nat) : Summary :=
  ⟨Keyed.update name f s.entries, Keyed.ordered_update name f s.ordered⟩

/-- Put a count under a name, replacing the one that is there. -/
def insert (s : Summary) (name : String) (n : Nat) : Summary := s.update name fun _ => n

/-- Count one more under a name. -/
def bump (s : Summary) (name : String) : Summary := s.update name fun n => n.getD 0 + 1

/-- The entries of a list of pairs; of several under one name the last stays. -/
def ofPairs (pairs : List (String × Nat)) : Summary :=
  ⟨Keyed.ofList pairs, Keyed.ordered_ofList pairs⟩

/-- How often each kind occurs among the tokens. -/
def ofTokens (tokens : List Token) : Summary :=
  tokens.foldl (fun s t => s.bump t.kind.name) empty

/-! ### Look-up -/

theorem get?_update_self (s : Summary) (name : String) (f : Option Nat → Nat) :
    (s.update name f).get? name = some (f (s.get? name)) :=
  Keyed.find?_update_self name f s.ordered

/-- Under any other name, an update changes nothing. -/
theorem get?_update_of_ne (s : Summary) {name other : String} (f : Option Nat → Nat)
    (h : name ≠ other) : (s.update name f).get? other = s.get? other :=
  Keyed.find?_update_of_ne f h s.entries

/-- An insertion sets the count of its name and no other. -/
theorem count_insert (s : Summary) (name other : String) (n : Nat) :
    (s.insert name n).count other = if name = other then n else s.count other := by
  unfold count insert
  split
  · next h =>
    subst h
    rw [get?_update_self, Option.getD_some]
  · next h => rw [get?_update_of_ne _ _ h]

/-- Summaries that answer every look-up alike are equal. -/
theorem ext_get? {s t : Summary} (h : ∀ name, s.get? name = t.get? name) : s = t :=
  ext (Keyed.eq_of_find?_eq s.ordered t.ordered h)

end Summary

end PolyLex
