import PolyLex.Proofs.Scan.Lexemes
import PolyLex.Proofs.Token.Spelling
import PolyLex.Proofs.Token.Summary

/-!
# Kinds and their counts

A summary knows kinds by their names alone, so that it counts `other "keyword"` with the keywords.
No such kind arises: a name that spells a known kind is read as that kind, and the scanner gives
known kinds only (`Kind.Arises`). Kinds that arise are told apart by their names
(`Kind.Arises.name_inj`), and so the count of each is the number of its tokens
(`Listing.count_ofTokens`).
-/

namespace PolyLex

open Scan

namespace Kind

/-- A kind that tokens come with: a name is read as it, or the scanner gives it to a token,
whatever it is fed and wherever it stands. -/
inductive Arises : Kind → Prop
  | read (name : String) : Arises (ofName name)
  | scanned {p : Profile} {cur : Cursor} {fed : List (List Char)} {t : Token} :
      t ∈ (cur.feedLines p fed).1 → Arises t.kind

variable {kind kind' : Kind}

/-- A kind that arises is read from its own name. -/
theorem Arises.ofName_name (h : kind.Arises) : ofName kind.name = kind := by
  cases h with
  | read name => exact ofName_name_ofName name
  | scanned ht => exact ofName_name_of_isKnown (Cursor.isKnown_feedLines _ _ _ _ ht)

/-- Kinds that arise from names are told apart by their names. -/
theorem Arises.name_inj (h : kind.Arises) (h' : kind'.Arises) :
    kind.name = kind'.name ↔ kind = kind' := by
  constructor
  · intro hname
    rw [← h.ofName_name, hname, h'.ofName_name]
  · rintro rfl
    rfl

end Kind

/-- Tokens that share the name of a kind are all of that kind. -/
theorem Listing.count_ofTokens {tokens : List Token} (h : ∀ t ∈ tokens, t.kind.Arises)
    {kind : Kind} (hkind : kind.Arises) :
    (Listing.ofTokens tokens).count kind = tokens.countP (·.kind = kind) := by
  rw [count, ofTokens, Summary.count_ofTokens]
  refine List.countP_congr fun t ht => ?_
  rw [decide_eq_true_iff, decide_eq_true_iff]
  exact (h t ht).name_inj hkind

/-- A name is read as the known kind that it spells and else as itself. Reading settles the
spelling, and kinds that are read are equal exactly if their names are. So a summary that is drawn
up from tokens counts each kind apart, and no token is left out. -/
theorem Listing.kinds_counted :
    (∀ name, Kind.ofName (Kind.ofName name).name = Kind.ofName name) ∧
    (∀ name name', (Kind.ofName name).name = (Kind.ofName name').name ↔
      Kind.ofName name = Kind.ofName name') ∧
    (∀ name kind, Kind.ofName name = kind ↔ Kind.IsNamed name kind) ∧
    ∀ tokens : List Token, (∀ t ∈ tokens, t.kind.Arises) →
      (∀ kind : Kind, kind.Arises →
        (Listing.ofTokens tokens).count kind = tokens.countP (·.kind = kind)) ∧
      (∀ e ∈ (Listing.ofTokens tokens).summary.entries, 0 < e.2) ∧
      (Listing.ofTokens tokens).summary.total = tokens.length := by
  refine ⟨Kind.ofName_name_ofName, ?_, fun _ _ => Kind.ofName_eq_iff, ?_⟩
  · intro name name'
    exact (Kind.Arises.read name).name_inj (.read name')
  · intro tokens htokens
    refine ⟨fun kind hkind => count_ofTokens htokens hkind, ?_, Summary.total_ofTokens tokens⟩
    intro e he
    exact Summary.pos_of_mem_ofTokens he

/-- A keyword that the scanner finds, one that is reported under a name with blanks around it, and a
token of a kind that is not known. -/
def Token.mixed : List Token :=
  [.located .keyword ['i', 'f'] 1 1,
   { kind := Kind.ofName "\u00a0KeyWord ", lexeme := "while" },
   { kind := Kind.ofName "Key word", lexeme := "go to" }]

/-- The keywords are counted together, whatever the spelling, and apart from the third token. -/
theorem Listing.kinds_counted_mixed :
    (∀ t ∈ Token.mixed, t.kind.Arises) ∧
    (Listing.ofTokens Token.mixed).count .keyword = 2 ∧
    (Listing.ofTokens Token.mixed).count (Kind.ofName "Key word") = 1 ∧
    (∀ e ∈ (Listing.ofTokens Token.mixed).summary.entries, 0 < e.2) ∧
    (Listing.ofTokens Token.mixed).summary.total = 3 := by
  have hcut : Cursor.cutSteps Language.c.profile 1 {} "if".toList =
      some [⟨{}, .keyword, ['i', 'f']⟩] := by decide +kernel
  have hscan : Token.located .keyword ['i', 'f'] 1 1 ∈ (Language.c.profile.scan "if").tokens := by
    rw [Profile.tokens_scan, Profile.pieces]
    show _ ∈ (Cursor.cutText Language.c.profile {} "if".toList).1.map Piece.token
    rw [Cursor.cutText_of_cutSteps (Cursor.fits_start _) hcut]
    exact List.mem_cons_self
  -- One kind comes from a scan, the other two are read from names.
  have hkeyword : Kind.Arises .keyword := .scanned hscan
  have htokens : ∀ t ∈ Token.mixed, t.kind.Arises := by
    simp only [Token.mixed, List.forall_mem_cons]
    exact ⟨hkeyword, .read _, .read _, fun t ht => absurd ht List.not_mem_nil⟩
  obtain ⟨hcount, hpositive, htotal⟩ := kinds_counted.2.2.2 _ htokens
  refine ⟨htokens, (hcount _ hkeyword).trans ?_, (hcount _ (.read _)).trans ?_, hpositive, htotal⟩
  · decide +kernel
  · decide +kernel

/-- A kind that is not read but made up takes the name of a known one, and is counted with it. -/
example : (Listing.ofTokens [{ kind := .other "keyword", lexeme := "if" }]).count .keyword = 1 := by
  decide

end PolyLex
