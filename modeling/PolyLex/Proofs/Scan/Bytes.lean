import PolyLex.Proofs.Language.WellFormed
import PolyLex.Proofs.Scan.Claims
import PolyLex.Proofs.Scan.Encoding

/-!
# No cut goes wrong

The scanner by byte offsets meets no fault and cuts the same pieces as the scanner by characters:

    cutLines_eq : p.QuotesInLine → Bytes.cutLines p cur lines = .ok (cur.cutLines p lines)

for every profile whose quotes are no line terminators. Without that a quote could be a terminator
itself, and the cut behind it would lie outside the line it was stripped from.

## What the layers are

* **Close markers** (`closeFrom_eq`): the search by offsets finds what the search by characters
  does.
* **Claims** (`claim?_eq`): each category claims as many bytes as its claim by characters takes.
* **The winner** (`claimAt_eq`): so the same claim wins.
* **Lines** (`cutFrom_eq`, `resume_eq`, `cutLines_eq`): so both cut at the same places.
-/

namespace PolyLex.Scan.Bytes

open Text

/-! ### Close markers -/

/-- With the text split at offset `size front`, the search from there on finds what the search by
characters finds. -/
theorem closeFrom_eq (escapes : Bool) (close : List Char) : ∀ front back : List Char,
    closeFrom escapes close (front ++ back) (size front) back =
      .ok ((Scan.closeEnd? escapes close back).map fun n => size front + size (back.take n)) := by
  intro front back
  fun_induction Scan.closeEnd? escapes close back generalizing front with
  | case1 => rfl
  | case2 c hc =>
    rw [closeFrom, if_pos hc]
    rfl
  | case3 c hc d rest ih =>
    -- The escaped character joins the part that was passed.
    have hsplit : front ++ c :: d :: rest = (front ++ [c, d]) ++ rest := by simp
    have hsize : size front + c.utf8Size + d.utf8Size = size (front ++ [c, d]) := by
      simp only [size_append, size]
      omega
    rw [closeFrom, if_pos hc]
    simp only [hsplit, hsize, ih, Option.map_map]
    congr 2
    funext n
    simp only [Function.comp_apply, List.take_succ_cons, size_append, size]
    omega
  | case4 c cs hc hs =>
    obtain ⟨tail, htail⟩ := startsWith_iff.mp hs
    rw [closeFrom.eq_def]
    simp only [if_neg hc, onFrom_append, Option.map_some]
    show (if startsWith close (c :: cs) = true then _ else _) = _
    rw [if_pos hs, ← htail, List.take_left]
    rfl
  | case5 c cs hc hs ih =>
    have hsplit : front ++ c :: cs = (front ++ [c]) ++ cs := by simp
    have hsize : size front + c.utf8Size = size (front ++ [c]) := by
      simp only [size_append, size, Nat.add_zero]
    rw [closeFrom.eq_def]
    simp only [if_neg hc, onFrom_append]
    show (if startsWith close (c :: cs) = true then _ else _) = _
    rw [if_neg hs, hsplit, hsize, ih, Option.map_map]
    congr 2
    funext n
    simp only [Function.comp_apply, List.take_succ_cons, size_append, size]
    omega

/-- The close is found at the same place, and no slice meets a fault. -/
theorem closeEnd?_eq (escapes : Bool) (close text : List Char) :
    closeEnd? escapes close text =
      .ok ((Scan.closeEnd? escapes close text).map fun n => size (text.take n)) := by
  have h := closeFrom_eq escapes close [] text
  simp only [List.nil_append, size, Nat.zero_add] at h
  exact h

/-! ### Claims -/

/-- The claim with its length in bytes. -/
def inBytes (rest : List Char) (c : Claim) : Claim := { c with length := size (rest.take c.length) }

/-- A construct is opened over the same text. -/
theorem openConstruct_eq (kind : Kind) (escapes : Bool) (lead close body : List Char)
    (mode : Mode) : openConstruct kind escapes lead close (lead ++ body) body mode =
      .ok (inBytes (lead ++ body)
        (Category.openConstruct kind escapes lead close (lead ++ body) body mode)) := by
  rw [openConstruct, closeEnd?_eq, Category.openConstruct]
  cases Scan.closeEnd? escapes close body with
  | none =>
    simp only [inBytes, List.take_length]
    rfl
  | some n =>
    simp only [inBytes, List.take_length_add_append, size_append]
    rfl

theorem blockCommentClaim?_eq (p : Profile) (rest : List Char) :
    blockCommentClaim? p rest = .ok ((Category.blockCommentClaim? p rest).map (inBytes rest)) := by
  unfold blockCommentClaim? Category.blockCommentClaim?
  cases p.blockComment with
  | none => rfl
  | some marks =>
    obtain ⟨lead, close⟩ := marks
    cases hafter : after? lead.toList rest with
    | none => simp [hafter]
    | some body =>
      obtain rfl := after?_eq_some_iff.mp hafter
      simp only [hafter, openConstruct_eq, Option.bind_eq_bind, Option.bind_some]
      rfl

theorem blockStringClaim?_eq (p : Profile) (rest : List Char) :
    blockStringClaim? p rest = .ok ((Category.blockStringClaim? p rest).map (inBytes rest)) := by
  unfold blockStringClaim? Category.blockStringClaim?
  cases hfind : p.blockStrings.find? fun d => startsWith d.toList rest with
  | none => rfl
  | some delimiter =>
    have hstarts : startsWith delimiter.toList rest = true := by
      simpa using List.find?_some hfind
    obtain ⟨body, hafter⟩ := Option.isSome_iff_exists.mp hstarts
    obtain rfl := after?_eq_some_iff.mp hafter
    simp only [onFrom_append]
    show (some <$> openConstruct _ _ _ _ _ body _) = _
    rw [openConstruct_eq]
    simp only [Option.bind_eq_bind, Option.bind_some, hafter]
    rfl

theorem lineCommentClaim?_eq (p : Profile) (rest : List Char) :
    lineCommentClaim? p rest = (Category.lineCommentClaim? p rest).map (inBytes rest) := by
  unfold lineCommentClaim? Category.lineCommentClaim?
  split
  · rw [Option.map_some, inBytes, take_length_content]
  · rfl

/-- A quote that is no terminator is also the first character of the content, so neither cut of the
line goes wrong, and what is left is the search behind the quote. -/
theorem quotedClaim?_cons {p : Profile} {quote : Char} {kind : Kind}
    (hkind : Category.quoteKind? p quote = some kind) (hn : quote ≠ '\n') (hr : quote ≠ '\r')
    (cs : List Char) : quotedClaim? p (quote :: cs) = (do
      match ← closeEnd? true [quote] (content cs) with
      | some n => return some { kind, length := quote.utf8Size + n }
      | none => return some { kind, length := size (quote :: content cs) }) := by
  have hline : content (quote :: cs) = quote :: content cs := content_cons_of_ne hn hr cs
  have hupTo := upTo_take (content (quote :: cs)).length (quote :: cs)
  rw [take_length_content, hline] at hupTo
  have hbody : onFrom quote.utf8Size (quote :: content cs) = .ok (content cs) :=
    onFrom_append [quote] (content cs)
  simp only [quotedClaim?, List.head?_cons, hkind, hline, hupTo, ok_bind]
  rw [hbody]
  rfl

/-- A quoted text is claimed over the same text, where quotes stay within lines. -/
theorem quotedClaim?_eq {p : Profile} (hp : p.QuotesInLine) (rest : List Char) :
    quotedClaim? p rest = .ok ((Category.quotedClaim? p rest).map (inBytes rest)) := by
  cases rest with
  | nil => rfl
  | cons quote cs =>
    cases hkind : Category.quoteKind? p quote with
    | none => simp [quotedClaim?, Category.quotedClaim?, hkind]
    | some kind =>
      obtain ⟨hn, hr⟩ := hp quote (Category.mem_of_quoteKind? hkind)
      have hline : content (quote :: cs) = quote :: content cs := content_cons_of_ne hn hr cs
      have htake := take_length_content (quote :: cs)
      rw [quotedClaim?_cons hkind hn hr, closeEnd?_eq, ok_bind]
      simp only [Category.quotedClaim?, List.head?_cons, hkind, hline, Option.bind_eq_bind,
        Option.bind_some, List.tail_cons]
      -- Both search the line behind the quote, without its terminator.
      cases hclose : Scan.closeEnd? true [quote] (content cs) with
      | none =>
        rw [hline] at htake
        simp only [Option.map_none, Option.pure_def, Option.map_some, inBytes, htake]
        rfl
      | some n =>
        have hbody : (content cs).take n = cs.take n := by
          rw [← take_length_content cs, List.take_take, Nat.min_eq_left (closeEnd?_le hclose)]
        simp only [Option.map_some, Option.pure_def, inBytes, List.take_succ_cons, hbody, size]
        rfl

/-! ### Numbers in bytes -/

/-- A fraction has as many bytes as characters, and its bytes can be read. -/
theorem fractionSize_eq (front back : List Char) :
    fractionSize (encode (front ++ back)) (size front) = .ok (Category.fractionLength back) := by
  have hpoint := any_getElem?_encode (isAscii_beq (a := '.') (by decide)) front back
  rw [fractionSize]
  -- Only a point can begin a fraction, and it is one byte that no other character has.
  by_cases hback : ∃ more, back = '.' :: more
  · obtain ⟨more, rfl⟩ := hback
    have hrun := runFrom_encode isAscii_isDigit (front ++ ['.']) more
    rw [List.append_assoc, List.singleton_append, size_append] at hrun
    cases hb : (encode (front ++ '.' :: more))[size front]? with
    | none => simp [hb] at hpoint
    | some b =>
      rw [hb] at hpoint
      have hbyte : isAsciiOf (· == '.') b = true := by simpa using hpoint
      have hone : size front + 1 = size front + size ['.'] := rfl
      simp only [if_pos hbyte, hone, hrun, ok_bind, Category.fractionLength]
      rfl
  · have hhead : back.head?.any (· == '.') = false := by
      cases back with
      | nil => rfl
      | cons c cs =>
        rw [List.head?_cons, Option.any_some, beq_eq_false_iff_ne]
        rintro rfl
        exact hback ⟨cs, rfl⟩
    have hnone : Category.fractionLength back = 0 := by
      rw [Category.fractionLength]
      intro more h
      exact hback ⟨more, h⟩
    rw [hnone]
    cases hb : (encode (front ++ back))[size front]? with
    | none => rfl
    | some b =>
      rw [hb, hhead, Option.any_some] at hpoint
      simp only [hpoint, Bool.false_eq_true, if_false]
      rfl

/-- Without `0x` or `0X` there is no hexadecimal number. -/
theorem hexLength_eq_zero {rest : List Char}
    (h : ∀ x more, rest = '0' :: x :: more → x ≠ 'x' ∧ x ≠ 'X') : Category.hexLength rest = 0 := by
  unfold Category.hexLength
  split
  · next x more =>
    obtain ⟨hx, hX⟩ := h x more rfl
    simp [hx, hX]
  · rfl

/-- The first two bytes announce a hexadecimal number only if the first two characters do. -/
theorem exists_of_hexBytes {rest : List Char} {zero mark : UInt8} {bs : List UInt8}
    (hbs : encode rest = zero :: mark :: bs) (hzero : isAsciiOf (· == '0') zero = true)
    (hmark : isAsciiOf (fun c => c == 'x' || c == 'X') mark = true) :
    ∃ x more, rest = '0' :: x :: more ∧ (x = 'x' ∨ x = 'X') := by
  -- Bytes in an ASCII class are characters of their own.
  have hfirst := any_head_encode (isAscii_beq (a := '0') (by decide)) rest
  rw [hbs, List.head?_cons, Option.any_some, hzero] at hfirst
  cases rest with
  | nil => cases hfirst
  | cons c cs =>
    obtain rfl : c = '0' := by simpa using hfirst.symm
    have hsecond := any_getElem?_encode isAscii_hexMark ['0'] cs
    have hone : (encode ('0' :: cs))[size ['0']]? = some mark := by
      rw [hbs]
      rfl
    rw [List.singleton_append, hone, Option.any_some, hmark] at hsecond
    cases cs with
    | nil => cases hsecond
    | cons x more => exact ⟨x, more, rfl, by simpa using hsecond.symm⟩

/-- A hexadecimal number has as many bytes as characters. -/
theorem hexSize_eq (rest : List Char) : hexSize (encode rest) = .ok (Category.hexLength rest) := by
  by_cases hrest : ∃ x more, rest = '0' :: x :: more ∧ (x = 'x' ∨ x = 'X')
  · obtain ⟨x, more, rfl, hx⟩ := hrest
    -- Zero and mark are one byte each.
    have hxlt : x.toNat < 128 := by
      rcases hx with rfl | rfl <;> decide
    have hmark : isAsciiOf (fun c => c == 'x' || c == 'X') (UInt8.ofNat x.toNat) = true := by
      rw [isAsciiOf_ofNat hxlt]
      simpa using hx
    have hbs : encode ('0' :: x :: more) = 48 :: UInt8.ofNat x.toNat :: encode more := by
      rw [encode_cons, encode_cons, encodeChar_of_lt hxlt]
      rfl
    have hsize : size ['0', x] = 2 := by
      rw [← length_encode, encode_cons, encode_cons, encodeChar_of_lt hxlt]
      rfl
    have hrun := runFrom_encode isAscii_isHexDigit ['0', x] more
    rw [hsize, List.cons_append, List.singleton_append, hbs] at hrun
    rw [Category.hexLength, if_pos hx, hexSize, hbs]
    split
    · have hat : byteAt (48 :: UInt8.ofNat x.toNat :: encode more) 0 = .ok 48 := rfl
      have hat' : byteAt (48 :: UInt8.ofNat x.toNat :: encode more) 1 =
        .ok (UInt8.ofNat x.toNat) := rfl
      have hzero : isAsciiOf (· == '0') 48 = true := by decide
      simp only [hat, hat', ok_bind, hzero, hmark, Bool.and_self, if_pos, hrun]
      rfl
    · next hlen =>
      have hmore : more = [] := by
        rw [List.length_cons, List.length_cons, length_encode] at hlen
        cases more with
        | nil => rfl
        | cons c cs =>
          have := size_pos (List.cons_ne_nil c cs)
          omega
      rw [hmore]
      rfl
  · have hzero : Category.hexLength rest = 0 := by
      apply hexLength_eq_zero
      intro x more h
      exact not_or.mp fun hx => hrest ⟨x, more, h, hx⟩
    rw [hzero, hexSize]
    split
    · next hlen =>
      -- Two bytes are read even so, but they are no zero and mark.
      obtain ⟨zero, bs, hbs⟩ : ∃ zero bs, encode rest = zero :: bs :=
        List.exists_cons_of_length_pos (Nat.zero_lt_of_lt hlen)
      rw [hbs, List.length_cons] at hlen
      have hpos : 0 < bs.length := by omega
      obtain ⟨mark, bs, rfl⟩ := List.exists_cons_of_length_pos hpos
      have hat : byteAt (zero :: mark :: bs) 0 = .ok zero := rfl
      have hat' : byteAt (zero :: mark :: bs) 1 = .ok mark := rfl
      simp only [hbs, hat, hat', ok_bind]
      split
      · next hbytes =>
        obtain ⟨hz, hm⟩ := Bool.and_eq_true_iff.mp hbytes
        exact absurd (exists_of_hexBytes hbs hz hm) hrest
      · rfl
    · rfl

/-- A number has as many bytes as characters. -/
theorem numberSize_eq (rest : List Char) :
    numberSize (encode rest) = .ok (Category.numberLength rest) := by
  have hwhole : runFrom isDigit (encode rest) 0 = .ok (Category.runLength isDigit rest) :=
    runFrom_encode isAscii_isDigit [] rest
  have hfraction := fractionSize_eq (rest.takeWhile isDigit) (rest.dropWhile isDigit)
  rw [List.takeWhile_append_dropWhile, size_takeWhile isAscii_isDigit,
    ← Category.drop_runLength] at hfraction
  simp only [numberSize, hexSize_eq, hwhole, hfraction, ok_bind, Category.numberLength]
  split
  · rfl
  · rfl

theorem toNat_lt_of_isNumber {w : List Char} (h : IsNumber w) : ∀ c ∈ w, c.toNat < 128 := by
  have hdigits : ∀ {ds : List Char}, (∀ d ∈ ds, isDigit d = true) → ∀ d ∈ ds, d.toNat < 128 :=
    fun hds d hd => isAscii_isDigit d (hds d hd)
  intro c hc
  cases h with
  | hex hx _ hds =>
    rcases List.mem_cons.mp hc with rfl | hc
    · decide
    · rcases List.mem_cons.mp hc with rfl | hc
      · rcases hx with rfl | rfl <;> decide
      · exact isAscii_isHexDigit c (hds c hc)
  | whole _ hds => exact hdigits hds c hc
  | decimal _ hds _ hfs =>
    rcases List.mem_append.mp hc with hc | hc
    · exact hdigits hds c hc
    · rcases List.mem_cons.mp hc with rfl | hc
      · decide
      · exact hdigits hfs c hc
  | fraction _ hfs =>
    rcases List.mem_cons.mp hc with rfl | hc
    · decide
    · exact hdigits hfs c hc

/-- The characters of a number take one byte each. -/
theorem size_take_numberLength {rest : List Char} (h : Category.numberLength rest ≠ 0) :
    size (rest.take (Category.numberLength rest)) = Category.numberLength rest := by
  rw [size_eq_length (toNat_lt_of_isNumber (isNumber_take_numberLength h)),
    length_take_numberLength]

theorem numberClaim?_eq (rest : List Char) :
    numberClaim? rest = .ok ((Category.numberClaim? rest).map (inBytes rest)) := by
  simp only [numberClaim?, Category.numberClaim?, numberSize_eq, ok_bind]
  split
  · rfl
  · next h =>
    simp only [Option.map_some, inBytes, size_take_numberLength h]
    rfl

/-! ### Words, operators and single characters -/

/-- A word is claimed over the same text, with its size in bytes. -/
theorem wordClaim?_eq (p : Profile) (rest : List Char) :
    wordClaim? p rest = .ok ((Category.wordClaim? p rest).map (inBytes rest)) := by
  cases rest with
  | nil => rfl
  | cons c cs =>
    by_cases hstart : p.isWordStart c = true
    · have hword : c :: cs = (c :: cs.takeWhile p.isWordPart) ++ cs.dropWhile p.isWordPart := by
        rw [List.cons_append, List.takeWhile_append_dropWhile]
      have htake : (c :: cs).take (c :: cs.takeWhile p.isWordPart).length =
          c :: cs.takeWhile p.isWordPart := by
        conv => lhs; rw [hword, List.take_left]
      -- The word is cut where a character ends, so the cut is no fault.
      have hupTo := upTo_append (c :: cs.takeWhile p.isWordPart) (cs.dropWhile p.isWordPart)
      rw [← hword, size] at hupTo
      simp only [wordClaim?, Category.wordClaim?, if_pos hstart, hupTo, ok_bind, Option.map_some,
        inBytes, htake, size, runSize_eq]
      rfl
    · simp only [wordClaim?, Category.wordClaim?, if_neg hstart]
      rfl

theorem operatorClaim?_eq (p : Profile) (rest : List Char) :
    operatorClaim? p rest = (Category.operatorClaim? p rest).map (inBytes rest) := by
  unfold operatorClaim? Category.operatorClaim?
  cases hfind : p.operators.find? fun op => startsWith op.toList rest with
  | none => rfl
  | some op =>
    have hstarts : startsWith op.toList rest = true := by
      simpa using List.find?_some hfind
    obtain ⟨tail, rfl⟩ := startsWith_iff.mp hstarts
    simp only [Option.map_some, Option.bind_eq_bind, Option.bind_some, Option.pure_def, inBytes,
      ← String.length_toList, List.take_left, size_toList]

/-- A single character is claimed with all its bytes. -/
theorem singleClaim?_eq (kind : Kind) (table rest : List Char) :
    singleClaim? kind table rest = (Category.singleClaim? kind table rest).map (inBytes rest) := by
  unfold singleClaim? Category.singleClaim?
  cases rest with
  | nil => rfl
  | cons c cs =>
    simp only [List.head?_cons, Option.bind_eq_bind, Option.bind_some]
    split
    · rfl
    · rfl

theorem whitespaceClaim?_eq (rest : List Char) :
    whitespaceClaim? rest = (Category.whitespaceClaim? rest).map (inBytes rest) := by
  rw [whitespaceClaim?, Category.whitespaceClaim?, Option.map_some, inBytes,
    Category.take_runLength, runSize_eq]

/-- Each category claims as many bytes as its claim by characters takes. -/
theorem claim?_eq {p : Profile} (hp : p.QuotesInLine) (rest : List Char) (category : Category) :
    claim? p rest category = .ok ((category.claim? p rest).map (inBytes rest)) := by
  cases category with
  | blockComment => exact blockCommentClaim?_eq p rest
  | lineComment => exact congrArg _ (lineCommentClaim?_eq p rest)
  | blockString => exact blockStringClaim?_eq p rest
  | quoted => exact quotedClaim?_eq hp rest
  | number => exact numberClaim?_eq rest
  | word => exact wordClaim?_eq p rest
  | operator => exact congrArg _ (operatorClaim?_eq p rest)
  | punctuation => exact congrArg _ (singleClaim?_eq _ _ rest)
  | delimiter => exact congrArg _ (singleClaim?_eq _ _ rest)
  | whitespace => exact congrArg _ (whitespaceClaim?_eq rest)

/-! ### The winning claim -/

/-- Counting bytes instead of characters changes no winner. -/
theorem longer_inBytes {rest : List Char} {best claim : Option Claim} (hbest : Within rest best)
    (hclaim : Within rest claim) :
    Claim.longer (best.map (inBytes rest)) (claim.map (inBytes rest)) =
      (Claim.longer best claim).map (inBytes rest) :=
  longer_measured rfl size_take_lt_iff hbest hclaim

/-- Of claims in bytes the longest is the one that is longest in characters. -/
theorem longestClaim?_eq {p : Profile} (hp : p.QuotesInLine) (rest : List Char) :
    ∀ (categories : List Category) {best : Option Claim}, Within rest best →
      longestClaim? p rest (best.map (inBytes rest)) categories =
        .ok ((categories.foldl (fun best category =>
          Claim.longer best (category.claim? p rest)) best).map (inBytes rest))
  | [], _, _ => rfl
  | category :: categories, best, hbest => by
    have hclaim := within_claim? p rest category
    rw [longestClaim?, claim?_eq hp, ok_bind, longer_inBytes hbest hclaim]
    exact longestClaim?_eq hp rest categories (within_longer hbest hclaim)

/-- The claim on the rest of a line is the same, and no read meets a fault. -/
theorem claimAt_eq {p : Profile} (hp : p.QuotesInLine) {rest : List Char} (hrest : rest ≠ []) :
    claimAt p rest = .ok (inBytes rest (Scan.claimAt p rest)) := by
  have hnone : Within rest none := fun _ hb => by cases hb
  have h := longestClaim?_eq hp rest Category.all hnone
  rw [Option.map_none] at h
  rw [claimAt, h, ok_bind, Scan.claimAt, Scan.longestClaim?]
  cases Category.all.foldl (fun best category =>
      Claim.longer best (category.claim? p rest)) none with
  | some claim => rfl
  | none =>
    obtain ⟨c, cs, rfl⟩ := List.exists_cons_of_ne_nil hrest
    rfl

/-! ### Lines -/

/-- A line is cut by one claim and then from its end on. -/
theorem cutFrom_step {p : Profile} {cur : Cursor} {line rest : List Char} {pos : Nat} {c : Claim}
    (hpos : pos < size line) (hrest : onFrom pos line = .ok rest) (hc : claimAt p rest = .ok c) :
    cutFrom p cur line pos = (do
      let lexeme ← upTo c.length rest
      let (pieces, last) ← cutFrom p (cur.skip lexeme c.next) line (pos + c.length)
      return (⟨cur, c.kind, lexeme⟩ :: pieces, last)) := by
  rw [cutFrom, if_pos hpos]
  simp only [hrest]
  split
  · next e he =>
    rw [hc] at he
    cases he
  · next c' he =>
    rw [hc] at he
    cases he
    rfl

/-- From an opening of the line on, both scanners cut the same pieces. -/
theorem cutFrom_eq {p : Profile} (hp : p.QuotesInLine) (cur : Cursor) (front rest : List Char) :
    cutFrom p cur (front ++ rest) (size front) = .ok (cur.cutRest p rest) := by
  fun_induction Cursor.cutRest p cur rest generalizing front with
  | case1 cur =>
    rw [List.append_nil, cutFrom, if_neg (Nat.lt_irrefl _)]
  | case2 cur c cs claim lexeme pieces last heq ih =>
    have hpos : size front < size (front ++ c :: cs) := by
      have := size_pos (List.cons_ne_nil c cs)
      rw [size_append]
      omega
    have hclaim := claimAt_eq hp (List.cons_ne_nil c cs)
    have hsplit : front ++ c :: cs =
        (front ++ (c :: cs).take claim.length) ++ (c :: cs).drop claim.length := by
      rw [List.append_assoc, List.take_append_drop]
    -- What was cut so far grows by the lexeme.
    have hnext := ih (front ++ (c :: cs).take claim.length)
    rw [← hsplit, size_append, heq] at hnext
    rw [cutFrom_step hpos (onFrom_append front (c :: cs)) hclaim]
    simp only [inBytes, upTo_take, ok_bind]
    rw [hnext]
    rfl

/-- An open construct is continued by its offsets as it is by its characters. -/
theorem continueConstruct_eq (cur : Cursor) (kind : Kind) (escapes : Bool)
    (close line : List Char) :
    let owed := cur.continueConstruct kind escapes close line
    ∃ front, line = front ++ owed.2.2 ∧
      continueConstruct cur kind escapes close line = .ok (owed.1, owed.2.1, size front) := by
  simp only [continueConstruct, Cursor.continueConstruct, closeEnd?_eq, ok_bind]
  cases Scan.closeEnd? escapes close line with
  | none => exact ⟨line, (List.append_nil line).symm, rfl⟩
  | some n =>
    refine ⟨line.take n, (List.take_append_drop n line).symm, ?_⟩
    simp only [Option.map_some, upTo_take, ok_bind]
    rfl

/-- A line behind an open construct is taken up by its offsets as it is by its characters. -/
theorem resume_eq (p : Profile) (cur : Cursor) (line : List Char) :
    let owed := cur.resume p line
    ∃ front, line = front ++ owed.2.2 ∧
      resume p cur line = .ok (owed.1, owed.2.1, size front) := by
  unfold resume Cursor.resume
  cases cur.mode with
  | normal => exact ⟨[], rfl, rfl⟩
  | blockComment =>
    cases p.blockComment with
    | none => exact ⟨[], rfl, rfl⟩
    | some marks => exact continueConstruct_eq ..
  | blockString delimiter => exact continueConstruct_eq ..

/-- A line is cut by offsets into the pieces into which it is cut by characters. -/
theorem cutLine_eq {p : Profile} (hp : p.QuotesInLine) (cur : Cursor) (line : List Char) :
    cutLine p cur line = .ok (cur.cutLine p line) := by
  obtain ⟨front, hline, hresume⟩ := resume_eq p cur line
  rw [cutLine, hresume, ok_bind]
  have hfrom := cutFrom_eq hp (cur.resume p line).2.1 front (cur.resume p line).2.2
  rw [← hline] at hfrom
  simp only [hfrom, ok_bind]
  rfl

/-- The scanner by byte offsets meets no fault and cuts the same pieces. -/
theorem cutLines_eq {p : Profile} (hp : p.QuotesInLine) : ∀ (cur : Cursor)
    (lines : List (List Char)), cutLines p cur lines = .ok (cur.cutLines p lines)
  | _, [] => rfl
  | cur, line :: rest => by
    rw [cutLines, cutLine_eq hp, ok_bind]
    simp only [cutLines_eq hp _ rest, ok_bind]
    rfl

/-- Every list of lines is cut by offsets without a fault, into the pieces of the lines. -/
theorem feedLines_eq {p : Profile} (hp : p.QuotesInLine) (cur : Cursor)
    (lines : List (List Char)) : feedLines p cur lines = .ok (cur.feedLines p lines) := by
  rw [feedLines, cutLines_eq hp, Cursor.feedLines_eq]
  rfl

end PolyLex.Scan.Bytes
