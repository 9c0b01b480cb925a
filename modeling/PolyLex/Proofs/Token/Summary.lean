import Mathlib.Algebra.GroupWithZero.Nat
import Mathlib.Data.List.Induction
import PolyLex.Token.Summary

/-!
# What a summary counts

A summary that is drawn up from tokens holds a kind that occurs under its name, with the number of
its tokens, and no other name (`get?_ofTokens`). Counts of tokens that stand one after the other add
up (`get?_append`). No count is zero (`pos_of_mem_ofTokens`), and all of them together make up the
number of tokens (`total_ofTokens`).
-/

namespace PolyLex

/-- An update changes the sum of the values by the new value less the one that it replaces. -/
theorem Keyed.sum_update (key : String) (f : Option Nat → Nat) :
    ∀ {entries : List (String × Nat)}, Ordered entries →
      ((update key f entries).map Prod.snd).sum + (find? key entries).getD 0 =
        (entries.map Prod.snd).sum + f (find? key entries)
  | [], _ => by simp [update, find?]
  | (k, v) :: rest, h => by
    unfold update
    split
    · next hlt =>
      rw [h.find?_eq_none hlt]
      simp only [List.map_cons, List.sum_cons, Option.getD_none]
      omega
    · split
      · next heq =>
        simp only [find?, if_pos heq, List.map_cons, List.sum_cons, Option.getD_some]
        omega
      · next hne =>
        -- The entry at the head counts on both sides.
        have ih := sum_update key f h.tail
        simp only [find?, if_neg hne, List.map_cons, List.sum_cons]
        omega

namespace Summary

/-- The sum of all counts. -/
def total (s : Summary) : Nat := (s.entries.map Prod.snd).sum

theorem total_bump (s : Summary) (name : String) : (s.bump name).total = s.total + 1 := by
  have h := Keyed.sum_update name (fun n => n.getD 0 + 1) s.ordered
  show ((Keyed.update name (fun n => n.getD 0 + 1) s.entries).map Prod.snd).sum =
    (s.entries.map Prod.snd).sum + 1
  omega

/-- One more token is counted under its kind, all other counts stay. -/
theorem ofTokens_concat (tokens : List Token) (t : Token) :
    ofTokens (tokens ++ [t]) = (ofTokens tokens).bump t.kind.name := by
  rw [ofTokens, List.foldl_append]
  rfl

/-- A kind is counted as often as it occurs, and left out if it does not occur. -/
theorem get?_ofTokens (tokens : List Token) (name : String) :
    (ofTokens tokens).get? name =
      if tokens.countP (·.kind.name = name) = 0 then none
      else some (tokens.countP (·.kind.name = name)) := by
  induction tokens using List.reverseRecOn with
  | nil => rfl
  | append_singleton tokens t ih =>
    rw [ofTokens_concat, bump, List.countP_append, List.countP_singleton]
    by_cases ht : t.kind.name = name
    · -- the count goes up by one, from nothing if the name is new
      subst ht
      rw [get?_update_self, ih]
      split <;> simp_all
    · rw [get?_update_of_ne _ _ ht, ih]
      simp [ht]

/-- A name is counted exactly if it is that of some token, with the number of its tokens. -/
theorem get?_ofTokens_eq_some_iff {tokens : List Token} {name : String} {n : Nat} :
    (ofTokens tokens).get? name = some n ↔
      (∃ t ∈ tokens, t.kind.name = name) ∧ n = tokens.countP (·.kind.name = name) := by
  have hoccurs : (∃ t ∈ tokens, t.kind.name = name) ↔ 0 < tokens.countP (·.kind.name = name) := by
    simp [List.countP_pos_iff]
  rw [get?_ofTokens, hoccurs]
  split
  · next hzero => simp [hzero]
  · next hpos =>
    rw [Option.some.injEq, and_iff_right (Nat.pos_of_ne_zero hpos)]
    exact eq_comm

theorem get?_of_mem {s : Summary} {e : String × Nat} (h : e ∈ s.entries) :
    s.get? e.1 = some e.2 :=
  Keyed.find?_of_mem s.ordered.nodup_keys h

/-- A kind that is not counted is not in the summary, and its count is zero all the same. -/
theorem count_ofTokens (tokens : List Token) (name : String) :
    (ofTokens tokens).count name = tokens.countP (·.kind.name = name) := by
  rw [count, get?_ofTokens]
  split
  · next hzero => rw [hzero, Option.getD_none]
  · rw [Option.getD_some]

/-- A name in the summary has been counted at least once. -/
theorem pos_of_mem_ofTokens {tokens : List Token} {e : String × Nat}
    (h : e ∈ (ofTokens tokens).entries) : 0 < e.2 := by
  obtain ⟨⟨t, ht, hname⟩, hcount⟩ := get?_ofTokens_eq_some_iff.mp (get?_of_mem h)
  rw [hcount]
  exact List.countP_pos_iff.mpr ⟨t, ht, decide_eq_true hname⟩

/-- Each token is counted once, whatever its kind. -/
theorem total_ofTokens (tokens : List Token) : (ofTokens tokens).total = tokens.length := by
  induction tokens using List.reverseRecOn with
  | nil => rfl
  | append_singleton tokens t ih =>
    rw [ofTokens_concat, total_bump, ih, List.length_append, List.length_singleton]

/-- The order of the tokens does not matter. -/
theorem ofTokens_perm {tokens tokens' : List Token} (h : tokens.Perm tokens') :
    ofTokens tokens = ofTokens tokens' :=
  ext_get? fun name => by rw [get?_ofTokens, get?_ofTokens, h.countP_eq]

/-- Counts of tokens that stand one after the other add up, name by name. -/
theorem get?_append (before after : List Token) (name : String) :
    (ofTokens (before ++ after)).get? name =
      ((ofTokens before).get? name).merge (· + ·) ((ofTokens after).get? name) := by
  rw [get?_ofTokens, get?_ofTokens, get?_ofTokens, List.countP_append]
  generalize before.countP (·.kind.name = name) = m
  generalize after.countP (·.kind.name = name) = n
  cases m <;> cases n <;> simp [Option.merge]

end Summary

end PolyLex
