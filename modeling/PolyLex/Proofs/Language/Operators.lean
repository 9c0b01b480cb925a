import Mathlib.Data.List.Destutter
import Mathlib.Data.List.Sort
import PolyLex.Proofs.Scan.Bytes
import PolyLex.Proofs.Scan.Rule

/-!
# Operators, however they are listed

A language lists its operators in any order and perhaps more than once. What the scanner makes of
the list depends on its members alone (`Profile.arrange_eq_of_mem_iff`): they stand longest first,
those of one length in the order of their bytes, each once. One comes there as well by sorting the
list and dropping every operator that repeats its neighbour, since sorting brings equal operators
side by side (`Profile.arrange_eq_destutter`).

So the first operator that starts a text is the longest listed one that does
(`Scan.operatorClaim?_ofRules`).
-/

namespace PolyLex

open Text

/-- The text as a whole is one of the operators that the rules list. -/
def Rules.IsListed (rules : Rules) (w : List Char) : Prop := ∃ op ∈ rules.operators, w = op.toList

namespace Profile

/-! ### The order by bytes -/

/-- The longer operator stands first, and of two of one length the one with the smaller bytes. -/
def PrecedesInBytes (a b : String) : Prop :=
  b.utf8ByteSize < a.utf8ByteSize ∨
    a.utf8ByteSize = b.utf8ByteSize ∧ Scan.Bytes.encode a.toList < Scan.Bytes.encode b.toList

/-- The order of operators is that of lengths and bytes. -/
theorem precedesInBytes_of_standsBefore {a b : String} (h : standsBefore a b = true) :
    PrecedesInBytes a b := by
  rcases standsBefore_iff.mp h with hlt | ⟨heq, hlt⟩
  · exact .inl hlt
  · exact .inr ⟨heq, Scan.Bytes.encode_lt_encode (String.lt_iff.mp hlt)⟩

theorem not_standsBefore_self (a : String) : ¬ standsBefore a a = true := by
  rw [standsBefore_iff]
  rintro (hlt | ⟨-, hlt⟩)
  · exact Nat.lt_irrefl _ hlt
  · exact String.lt_irrefl a hlt

/-- Of two operators at most one stands before the other. -/
theorem not_standsBefore_of_standsBefore {a b : String} (h : standsBefore a b = true) :
    ¬ standsBefore b a = true :=
  fun hba => not_standsBefore_self a (standsBefore_trans h hba)

/-! ### Operators in their order -/

variable {ops ops' : List String}

/-- An arranged list has no repetitions, since its order is strict. -/
theorem Arranged.nodup (h : Arranged ops) : ops.Nodup := by
  refine List.Pairwise.imp ?_ h
  rintro a b hab rfl
  exact not_standsBefore_self a hab

/-- Only one list of the same operators is in order. -/
theorem Arranged.eq_of_mem_iff (h : Arranged ops) (h' : Arranged ops')
    (hmem : ∀ op, op ∈ ops ↔ op ∈ ops') : ops = ops' := by
  have hirrefl : Std.Irrefl fun a b => standsBefore a b = true := ⟨not_standsBefore_self⟩
  have hantisymm : Std.Antisymm fun a b => standsBefore a b = true :=
    ⟨fun _ _ hab hba => absurd hba (not_standsBefore_of_standsBefore hab)⟩
  exact List.Pairwise.eq_of_mem_iff h h' hmem

/-- To arrange operators keeps all of them and adds none. -/
theorem mem_arrange {op : String} : ∀ {ops : List String}, op ∈ arrange ops ↔ op ∈ ops
  | [] => Iff.rfl
  | o :: ops => by
    rw [arrange, List.foldr_cons, mem_insertOperator, List.mem_cons]
    exact or_congr_right mem_arrange

/-- Lists of the same operators are arranged the same, in whatever order and however often they list
them. -/
theorem arrange_eq_of_mem_iff (h : ∀ op, op ∈ ops ↔ op ∈ ops') : arrange ops = arrange ops' := by
  refine (arranged_arrange ops).eq_of_mem_iff (arranged_arrange ops') fun op => ?_
  rw [mem_arrange, mem_arrange, h]

/-! ### Sorting and dropping repetitions -/

/-- May one operator stand before the other in a sorted list? It may stand before itself. -/
def mayPrecede (a b : String) : Bool := !standsBefore b a

/-- An operator may precede another unless that one has to stand before it. -/
theorem mayPrecede_iff {a b : String} : mayPrecede a b = true ↔ ¬ standsBefore b a = true := by
  rw [mayPrecede, Bool.not_eq_true', Bool.not_eq_true]

/-- The order by which operators are sorted is transitive. -/
theorem mayPrecede_trans (a b c : String) (hab : mayPrecede a b = true)
    (hbc : mayPrecede b c = true) : mayPrecede a c = true := by
  rw [mayPrecede_iff] at *
  intro hca
  by_cases heq : b = c
  · exact hab (heq ▸ hca)
  · have hbefore : standsBefore b c = true := standsBefore_of_not (Ne.symm heq) hbc
    exact hab (standsBefore_trans hbefore hca)

/-- Of two operators one may precede the other. -/
theorem mayPrecede_total (a b : String) : (mayPrecede a b || mayPrecede b a) = true := by
  rw [Bool.or_eq_true, mayPrecede_iff, mayPrecede_iff]
  by_cases hba : standsBefore b a = true
  · exact .inr (not_standsBefore_of_standsBefore hba)
  · exact .inl hba

/-- The operators sorted, repetitions and all. -/
def sorted (ops : List String) : List String := ops.mergeSort mayPrecede

/-- In a sorted list no operator stands before an earlier one. -/
theorem pairwise_sorted (ops : List String) :
    (sorted ops).Pairwise fun a b => ¬ standsBefore b a = true :=
  (List.pairwise_mergeSort mayPrecede_trans mayPrecede_total ops).imp mayPrecede_iff.mp

/-- In a sorted list it is enough to drop what repeats its neighbour: the operators that are left
stand in order, and none is lost. -/
theorem arranged_destutter' {a : String} {ops : List String}
    (h : (a :: ops).Pairwise fun a b => ¬ standsBefore b a = true) :
    Arranged (ops.destutter' (· ≠ ·) a) ∧ ∀ x, x ∈ ops.destutter' (· ≠ ·) a ↔ x ∈ a :: ops := by
  induction ops generalizing a with
  | nil => simp [Arranged]
  | cons b ops ih =>
    obtain ⟨hafter, hops⟩ := List.pairwise_cons.mp h
    obtain ⟨harranged, hmem⟩ := ih hops
    by_cases hab : a = b
    · subst hab
      rw [List.destutter'_cons_neg _ (by simp)]
      exact ⟨harranged, fun x => by rw [hmem]; simp⟩
    · rw [List.destutter'_cons_pos _ hab]
      have hbefore : standsBefore a b = true :=
        standsBefore_of_not (Ne.symm hab) (hafter b List.mem_cons_self)
      refine ⟨List.pairwise_cons.mpr ⟨fun x hx => ?_, harranged⟩, fun x => ?_⟩
      · -- What is kept behind `b` stands behind `a`, since it is `b` or comes after it.
        rcases List.mem_cons.mp ((hmem x).mp hx) with rfl | hx
        · exact hbefore
        · by_cases hbx : b = x
          · exact hbx ▸ hbefore
          · have hnot := (List.pairwise_cons.mp hops).1 x hx
            exact standsBefore_trans hbefore (standsBefore_of_not (Ne.symm hbx) hnot)
      · rw [List.mem_cons, hmem, List.mem_cons (a := x) (b := a)]

/-- To arrange operators is to sort them and to drop repeated neighbours. -/
theorem arrange_eq_destutter (ops : List String) :
    arrange ops = (sorted ops).destutter (· ≠ ·) := by
  have hmem : ∀ op, op ∈ sorted ops ↔ op ∈ ops := fun op => (List.mergeSort_perm ops _).mem_iff
  have hsorted := pairwise_sorted ops
  cases hcases : sorted ops with
  | nil =>
    have hnil : ops = [] := List.eq_nil_iff_forall_not_mem.mpr fun op hop => by
      simpa [hcases] using (hmem op).mpr hop
    rw [hnil]
    rfl
  | cons a rest =>
    rw [hcases] at hsorted hmem
    obtain ⟨harranged, hkept⟩ := arranged_destutter' hsorted
    rw [List.destutter_cons']
    refine (arranged_arrange ops).eq_of_mem_iff harranged fun op => ?_
    rw [mem_arrange, hkept, hmem]

end Profile

namespace Scan

variable {rules : Rules} {rest : List Char}

/-- The operator that is claimed is the longest listed one that starts the text. -/
theorem exists_longest_of_operatorClaim? {c : Claim}
    (h : Category.operatorClaim? (Profile.ofRules rules) rest = some c) :
    ∃ op ∈ rules.operators, Longest rules.IsListed rest op.toList ∧
      c = { kind := .operator, length := op.length } := by
  obtain ⟨op, hfind, hc⟩ := Category.operatorClaim?_eq_some_iff.mp h
  obtain ⟨hstarts, -, hlongest⟩ := Category.longest_operator hfind
  have hmem : op ∈ rules.operators := Profile.mem_arrange.mp (List.mem_of_find?_eq_some hfind)
  refine ⟨op, hmem, ⟨hstarts, ⟨op, hmem, rfl⟩, ?_⟩, hc⟩
  rintro v hv ⟨other, hother, rfl⟩
  exact hlongest _ hv ⟨other, Profile.mem_arrange.mpr hother, rfl⟩

/-- Nothing is claimed exactly if no listed operator starts the text. -/
theorem operatorClaim?_eq_none_iff :
    Category.operatorClaim? (Profile.ofRules rules) rest = none ↔
      ∀ op ∈ rules.operators, ¬ op.toList <+: rest := by
  simp only [Category.operatorClaim?, Option.bind_eq_bind, Option.pure_def,
    Option.bind_eq_none_iff, reduceCtorEq, imp_false, ← Option.eq_none_iff_forall_ne_some,
    List.find?_eq_none, startsWith_iff]
  exact forall_congr' fun op => imp_congr_left Profile.mem_arrange

/-- Only the members of the list of operators tell what a profile is. -/
theorem ofRules_eq_of_mem_iff {operators : List String}
    (h : ∀ op, op ∈ operators ↔ op ∈ rules.operators) :
    Profile.ofRules { rules with operators } = Profile.ofRules rules := by
  unfold Profile.ofRules
  simp only [Profile.arrange_eq_of_mem_iff h]

/-- Whatever way the operators of a language are listed, its profile claims the longest listed one
that starts a text, and nothing if none does: in characters, and in bytes as well. The list may be
shuffled and may name an operator twice, which changes no claim, since the profile holds every
operator once, the longer ones first and those of one length by their bytes. -/
theorem operatorClaim?_ofRules (rules : Rules) :
    (∀ rest,
      (∃ op ∈ rules.operators, Longest rules.IsListed rest op.toList ∧
        Category.operatorClaim? (Profile.ofRules rules) rest =
          some { kind := .operator, length := op.length } ∧
        Bytes.operatorClaim? (Profile.ofRules rules) rest =
          some { kind := .operator, length := op.utf8ByteSize }) ∨
      ((∀ op ∈ rules.operators, ¬ op.toList <+: rest) ∧
        Category.operatorClaim? (Profile.ofRules rules) rest = none ∧
        Bytes.operatorClaim? (Profile.ofRules rules) rest = none)) ∧
    (∀ operators : List String, (∀ op, op ∈ operators ↔ op ∈ rules.operators) →
      ∀ rest,
        Category.operatorClaim? (Profile.ofRules { rules with operators }) rest =
          Category.operatorClaim? (Profile.ofRules rules) rest ∧
        Bytes.operatorClaim? (Profile.ofRules { rules with operators }) rest =
          Bytes.operatorClaim? (Profile.ofRules rules) rest) ∧
    (Profile.ofRules rules).operators = (Profile.sorted rules.operators).destutter (· ≠ ·) ∧
    (Profile.ofRules rules).operators.Nodup ∧
    (∀ op, op ∈ (Profile.ofRules rules).operators ↔ op ∈ rules.operators) ∧
    (Profile.ofRules rules).operators.Pairwise Profile.PrecedesInBytes := by
  have harranged := Profile.arranged_arrange rules.operators
  refine ⟨fun rest => ?_, fun operators hmem rest => ?_, Profile.arrange_eq_destutter _,
    harranged.nodup, fun _ => Profile.mem_arrange,
    harranged.imp Profile.precedesInBytes_of_standsBefore⟩
  · cases hclaim : Category.operatorClaim? (Profile.ofRules rules) rest with
    | none =>
      have hbytes : Bytes.operatorClaim? (Profile.ofRules rules) rest = none := by
        rw [Bytes.operatorClaim?_eq, hclaim, Option.map_none]
      exact .inr ⟨operatorClaim?_eq_none_iff.mp hclaim, rfl, hbytes⟩
    | some c =>
      obtain ⟨op, hop, hlongest, rfl⟩ := exists_longest_of_operatorClaim? hclaim
      -- The claim counts characters, the bytes are those of the operator itself.
      have htake : rest.take op.length = op.toList := by
        rw [← String.length_toList, ← List.prefix_iff_eq_take.mp hlongest.1]
      have hbytes : Bytes.operatorClaim? (Profile.ofRules rules) rest =
          some { kind := .operator, length := op.utf8ByteSize } := by
        rw [Bytes.operatorClaim?_eq, hclaim, Option.map_some, Bytes.inBytes, htake,
          Bytes.size_toList]
      exact .inl ⟨op, hop, hlongest, rfl, hbytes⟩
  -- Lists with the same members are arranged in the same way, so the profiles are equal.
  · rw [ofRules_eq_of_mem_iff hmem]
    exact ⟨rfl, rfl⟩

/-- Operators that open one another, one of them of more bytes than characters and one named
twice. -/
def nestedOperators : Rules := { operators := ["<", "<=", "é=", "<<=", "<="] }

theorem operatorClaim?_ofRules_relisted :
    (∀ op, op ∈ ["<<=", "é=", "<", "<", "<="] ↔ op ∈ nestedOperators.operators) ∧
    Category.operatorClaim?
        (Profile.ofRules { nestedOperators with operators := ["<<=", "é=", "<", "<", "<="] })
        "<<=x".toList = some { kind := .operator, length := 3 } ∧
    (Profile.ofRules nestedOperators).operators = ["<<=", "é=", "<=", "<"] := by
  have hmem : ∀ op, op ∈ ["<<=", "é=", "<", "<", "<="] ↔ op ∈ nestedOperators.operators := by
    intro op
    simp only [nestedOperators, List.mem_cons, List.not_mem_nil, or_false]
    tauto
  obtain ⟨-, hrelisted, -⟩ := operatorClaim?_ofRules nestedOperators
  refine ⟨hmem, ?_, by decide +kernel⟩
  rw [(hrelisted _ hmem "<<=x".toList).1]
  decide +kernel

end Scan
end PolyLex
