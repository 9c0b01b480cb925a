import PolyLex.Proofs.Json.Nested

/-!
# The values that documents hold

Most of `Value` is never read: a document holds whole numbers of 64 bits and doubles only, and in
one that is read strictly no part is `unfit`. `Value.Fit` collects this, and `fit_of_parse` says
that every document is fit. What a reader of values says about all fit values therefore holds of
all documents.
-/

namespace PolyLex.Json

open Numeric

/-- A value of the data format: whole numbers have 64 bits, signed or not, all others are doubles,
and each part stands for something. -/
inductive Value.Fit : Value → Prop
  | null : Fit .null
  | bool (b : Bool) : Fit (.bool b)
  | int {n : Int} : -0x8000000000000000 ≤ n → n < 0x10000000000000000 → Fit (.int n)
  | real (x : Binary) : Fit (.real .double x)
  | str (s : String) : Fit (.str s)
  | arr {items : List Value} : (∀ v ∈ items, Fit v) → Fit (.arr items)
  | obj {members : List (String × Value)} : (∀ m ∈ members, Fit m.2) → Fit (.obj members)

/-! ### Numbers -/

/-- A number that is read as a double is a double. -/
theorem NumberText.fit_of_real? {negative : Bool} {significand : Nat} {exponent : Int} {v : Value}
    (h : real? negative significand exponent = some v) : v.Fit := by
  obtain ⟨x, -, rfl⟩ := Option.map_eq_some_iff.mp h
  exact .real _

theorem NumberText.fit_of_realValue? {t : NumberText} {v : Value}
    (h : t.realValue? = some v) : v.Fit := by
  unfold realValue? at h
  dsimp only at h
  split at h
  · exact fit_of_real? h
  · split at h
    · split at h
      · cases h
      · cases h
        exact .real _
    · exact fit_of_real? h

/-- A number that is read fits: its whole values are in range, and all others are doubles. -/
theorem NumberText.fit_of_value? {t : NumberText} {v : Value} (h : t.value? = some v) :
    v.Fit := by
  unfold value? at h
  dsimp only at h
  split at h
  · next hwhole =>
    have hbound : ofDigits t.whole ≤ 0xFFFFFFFFFFFFFFFF := hwhole.2.2
    split at h
    · cases h
      exact .int (by omega) (by omega)
    · split at h
      · exact fit_of_real? h
      · next hsmall =>
        cases h
        exact .int (by omega) (by omega)
  · exact fit_of_realValue? h

/-! ### Members -/

/-- A member whose name is a text and whose value is fit. -/
def Member.Fit (m : Member) : Prop := m.1.isSome ∧ m.2.Fit

/-- No member is lost for want of a name. -/
theorem exists_named : ∀ {ms : List Member}, (∀ m ∈ ms, m.Fit) →
    ∃ named, (ms.mapM fun m => m.1.map fun name => (name, m.2)) = some named ∧
      ∀ m ∈ named, m.2.Fit
  | [], _ => ⟨[], rfl, fun m hm => absurd hm List.not_mem_nil⟩
  | (some name, v) :: ms, h => by
    obtain ⟨⟨-, hv⟩, hms⟩ := List.forall_mem_cons.mp h
    obtain ⟨named, hnamed, hfit⟩ := exists_named hms
    refine ⟨(name, v) :: named, ?_, List.forall_mem_cons.mpr ⟨hv, hfit⟩⟩
    simp [List.mapM_cons, hnamed]
  | (none, v) :: ms, h => by
    obtain ⟨⟨hname, -⟩, -⟩ := List.forall_mem_cons.mp h
    cases hname

/-- Members that fit make an object that fits, since strict reading leaves no name half. -/
theorem fit_ofMembers {ms : List Member} (h : ∀ m ∈ ms, m.Fit) : (ofMembers ms).Fit := by
  obtain ⟨named, hnamed, hfit⟩ := exists_named h
  rw [ofMembers, hnamed]
  exact .obj hfit

/-! ### Readers -/

/-- The reader yields fit values only. -/
def ReadsFit (read : (cs : List Char) → Reading Value cs) : Prop :=
  ∀ {cs v rest}, Reads (read cs) v rest → v.Fit

section Loops

variable {item : (cs : List Char) → Reading Value cs} (hitem : ReadsFit item) {cs rest : List Char}
include hitem

theorem fit_of_readMoreItems {vs : List Value} (h : Reads (readMoreItems item cs) vs rest) :
    ∀ v ∈ vs, v.Fit := by
  induction vs generalizing cs with
  | nil => exact fun v hv => absurd hv List.not_mem_nil
  | cons v more ih =>
    rcases reads_readMoreItems_iff.mp h with ⟨hvs, -⟩ | ⟨_, _, _, _, hvs, -, -, hv, hmore⟩
    · cases hvs
    · cases hvs
      exact List.forall_mem_cons.mpr ⟨hitem hv, ih hmore⟩

/-- The items that a reader of fitting values reads all fit. -/
theorem fit_of_readItems {vs : List Value} (h : Reads (readItems item cs) vs rest) :
    ∀ v ∈ vs, v.Fit := by
  rcases reads_readItems_iff.mp h with ⟨rfl, -⟩ | ⟨v, mid, more, rfl, -, hv, hmore⟩
  · exact fun v hv => absurd hv List.not_mem_nil
  · exact List.forall_mem_cons.mpr ⟨hitem hv, fit_of_readMoreItems hitem hmore⟩

/-- A member is read with its name as it was written, so it fits when its value does. -/
theorem fit_of_readMember {m : Member} (h : Reads (readMember true item cs) m rest) : m.Fit := by
  obtain ⟨name, mid, after, v, hname, -, hv, rfl⟩ := reads_readMember_iff.mp h
  obtain ⟨s, -, rfl, -⟩ := readChars_local hname
  exact ⟨rfl, hitem hv⟩

theorem fit_of_readMoreMembers {ms : List Member}
    (h : Reads (readMoreMembers true item cs) ms rest) : ∀ m ∈ ms, m.Fit := by
  induction ms generalizing cs with
  | nil => exact fun m hm => absurd hm List.not_mem_nil
  | cons m more ih =>
    rcases reads_readMoreMembers_iff.mp h with
      ⟨hms, -⟩ | ⟨_, _, _, _, _, hms, -, -, hm, hmore⟩
    · cases hms
    · cases hms
      exact List.forall_mem_cons.mpr ⟨fit_of_readMember hitem hm, ih hmore⟩

/-- The members that a reader of fitting values reads all fit. -/
theorem fit_of_readMembers {ms : List Member} (h : Reads (readMembers true item cs) ms rest) :
    ∀ m ∈ ms, m.Fit := by
  rcases reads_readMembers_iff.mp h with ⟨rfl, -⟩ | ⟨opened, m, mid, more, rfl, -, hm, hmore⟩
  · exact fun m hm => absurd hm List.not_mem_nil
  · exact List.forall_mem_cons.mpr
      ⟨fit_of_readMember hitem hm, fit_of_readMoreMembers hitem hmore⟩

end Loops

/-- What a value begins with decides which reader takes it, and each of them gives values that fit.
-/
theorem fit_of_readFrom {inner : Option ((cs : List Char) → Reading Value cs)}
    (hinner : ∀ item ∈ inner, ReadsFit item) {c : Char} {after rest : List Char} {v : Value}
    (h : Reads (readFrom true inner c after) v rest) : v.Fit := by
  cases ReadsFrom.of_reads h with
  | text hs =>
    obtain ⟨s, -, rfl, -⟩ := readChars_local hs
    exact .str _
  | array hitem hvs => exact .arr (fit_of_readItems (hinner _ hitem) hvs)
  | object hitem hms => exact fit_ofMembers (fit_of_readMembers (hinner _ hitem) hms)
  | negative hv =>
    obtain ⟨_, _, _, _, _, ⟨t, ht⟩, -⟩ := readNumber_local hv
    exact t.fit_of_value? ht
  | number hdigit hv =>
    obtain ⟨_, _, _, _, _, ⟨t, ht⟩, -⟩ := readNumber_local hv
    exact t.fit_of_value? ht
  | word hword hv =>
    obtain ⟨rfl, -, -⟩ := readWord_local hv
    cases hword with
    | null => exact .null
    | true => exact .bool true
    | false => exact .bool false

/-- Values fit if those one level deeper do, so that induction on the depth applies. -/
theorem readsFit_of_inner {depth : Nat} (hinner : ∀ item ∈ innerReader true depth, ReadsFit item) :
    ReadsFit (readValue true depth) := by
  intro cs v rest h
  obtain ⟨c, after, -, hfrom⟩ := reads_readValue_iff.mp h
  exact fit_of_readFrom hinner hfrom

/-- By induction on the number of brackets that may be open. -/
theorem innerReader_fit : ∀ depth, ∀ item ∈ innerReader true depth, ReadsFit item
  | 0, _, hitem => by
    cases hitem
  | depth + 1, _, hitem => by
    cases hitem
    exact readsFit_of_inner (innerReader_fit depth)

/-! ### Documents -/

mutual
/-- To settle repeated names keeps a value fit. -/
theorem Value.Fit.settled : ∀ {v : Value}, v.Fit → v.settled.Fit
  | _, .null => .null
  | _, .bool b => .bool b
  | _, .int hlow hhigh => .int hlow hhigh
  | _, .real x => .real x
  | _, .str s => .str s
  | _, .arr h => .arr (fit_settledItems h)
  | _, .obj h => .obj fun m hm => fit_settledMembers h m (Keyed.mem_ofList hm)
theorem fit_settledItems : ∀ {items : List Value}, (∀ v ∈ items, v.Fit) →
    ∀ v ∈ Value.settledItems items, v.Fit
  | [], _, v, hv => absurd hv List.not_mem_nil
  | w :: items, h, v, hv => by
    obtain ⟨hw, hitems⟩ := List.forall_mem_cons.mp h
    rcases List.mem_cons.mp hv with rfl | hv
    · exact hw.settled
    · exact fit_settledItems hitems v hv
theorem fit_settledMembers : ∀ {members : List (String × Value)}, (∀ m ∈ members, m.2.Fit) →
    ∀ m ∈ Value.settledMembers members, m.2.Fit
  | [], _, m, hm => absurd hm List.not_mem_nil
  | (name, w) :: members, h, m, hm => by
    obtain ⟨hw, hmembers⟩ := List.forall_mem_cons.mp h
    rcases List.mem_cons.mp hm with rfl | hm
    · exact hw.settled
    · exact fit_settledMembers hmembers m hm
end

/-- Every document is fit. -/
theorem fit_of_parse {text : String} {v : Value} (h : parse text = .ok v) : v.Fit := by
  obtain ⟨w, rest, hread, -, rfl⟩ := parse_ok_iff.mp h
  exact (readsFit_of_inner (innerReader_fit _) hread).settled

end PolyLex.Json
