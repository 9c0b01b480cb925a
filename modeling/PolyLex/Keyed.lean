/-!
# Entries in key order

Objects of a data format, tables of settings and token counts are all lists of entries whose keys
ascend strictly. This module holds the two operations on such lists, look-up and update, and says
what one does to the other:

* `find?_update_self`, `find?_update_of_ne` — an update is seen at its own key and nowhere else;
* `ordered_update` — it keeps the keys ascending;
* `mem_of_find?`, `mem_ofList` — what is found was put in;
* `eq_of_find?_eq` — ordered lists with equal look-ups are equal, so an ordered list *is* the
  finite map it stands for;
* `find?_ofList` — pairs with distinct keys are all kept.

Keys ascend by code points, which for valid text is also the order of their encoded bytes.
-/

namespace PolyLex.Keyed

variable {α β : Type}

/-- The value that the list holds under a key. -/
def find? (key : String) : List (String × α) → Option α
  | [] => none
  | (k, v) :: rest => if k = key then some v else find? key rest

/-- Put `f` of the present value, if any, under a key. A new key goes where the order wants it. -/
def update (key : String) (f : Option α → α) : List (String × α) → List (String × α)
  | [] => [(key, f none)]
  | (k, v) :: rest =>
    if key < k then (key, f none) :: (k, v) :: rest
    else if k = key then (k, f (some v)) :: rest
    else (k, v) :: update key f rest

/-- Put a value under a key, replacing the one that is there. -/
def insert (key : String) (value : α) (entries : List (String × α)) : List (String × α) :=
  update key (fun _ => value) entries

/-- The entries of a list of pairs; of several under one key the last stays. -/
def ofList (pairs : List (String × α)) : List (String × α) :=
  pairs.foldl (fun entries p => insert p.1 p.2 entries) []

def Ordered (entries : List (String × α)) : Prop :=
  entries.Pairwise (fun a b => a.1 < b.1)

/-! ### Look-up after an update -/

/-- A key below all keys of a list is not in it. -/
theorem find?_eq_none_of_lt {key : String} : ∀ {entries : List (String × α)},
    (∀ e ∈ entries, key < e.1) → find? key entries = none
  | [], _ => rfl
  | (k, v) :: rest, h => by
    have hk : key < k := h (k, v) List.mem_cons_self
    have hne : k ≠ key := fun e => String.lt_irrefl key (e ▸ hk)
    simp only [find?, if_neg hne]
    exact find?_eq_none_of_lt fun e he => h e (List.mem_cons_of_mem _ he)

theorem Ordered.tail {e : String × α} {rest : List (String × α)} (h : Ordered (e :: rest)) :
    Ordered rest := (List.pairwise_cons.mp h).2

/-- The first key of an ordered list is below all others. -/
theorem Ordered.head_lt {e : String × α} {rest : List (String × α)} (h : Ordered (e :: rest)) :
    ∀ a ∈ rest, e.1 < a.1 := (List.pairwise_cons.mp h).1

/-- A key below the first is not in an ordered list. -/
theorem Ordered.find?_eq_none {key k : String} {v : α} {rest : List (String × α)}
    (h : Ordered ((k, v) :: rest)) (hk : key < k) : find? key ((k, v) :: rest) = none :=
  find?_eq_none_of_lt fun e he => by
    rcases List.mem_cons.mp he with rfl | he
    · exact hk
    · exact String.lt_trans hk (h.head_lt e he)

theorem find?_update_self (key : String) (f : Option α → α) : ∀ {entries : List (String × α)},
    Ordered entries → find? key (update key f entries) = some (f (find? key entries))
  | [], _ => by simp [update, find?]
  | (k, v) :: rest, h => by
    unfold update
    split
    · next hlt => rw [h.find?_eq_none hlt]; simp [find?]
    · split
      · next heq => simp [find?, heq]
      · next hne => simp only [find?, if_neg hne]; exact find?_update_self key f h.tail

/-- Under any other key, an update changes nothing. -/
theorem find?_update_of_ne {key other : String} (f : Option α → α) (hne : key ≠ other) :
    ∀ entries : List (String × α), find? other (update key f entries) = find? other entries
  | [] => by simp [update, find?, hne]
  | (k, v) :: rest => by
    unfold update
    split
    · simp [find?, hne]
    · split
      · next heq => subst heq; simp [find?, hne]
      · simp only [find?]
        split
        · rfl
        · exact find?_update_of_ne f hne rest

/-! ### Members and order -/

/-- What is in a list after an update has its key or was there before. -/
theorem mem_update {key : String} {f : Option α → α} {e : String × α} :
    ∀ {entries : List (String × α)}, e ∈ update key f entries → e.1 = key ∨ e ∈ entries
  | [], h => by simp [update] at h; simp [h]
  | (k, v) :: rest, h => by
    unfold update at h
    split at h
    · rcases List.mem_cons.mp h with rfl | h
      · exact .inl rfl
      · exact .inr h
    · split at h
      · next heq =>
        rcases List.mem_cons.mp h with rfl | h
        · exact .inl heq
        · exact .inr (List.mem_cons_of_mem _ h)
      · rcases List.mem_cons.mp h with rfl | h
        · exact .inr List.mem_cons_self
        · exact (mem_update h).imp_right (List.mem_cons_of_mem _)

/-- What all values satisfy, all do after an update that keeps it. -/
theorem forall_mem_update {p : α → Prop} {key : String} {f : Option α → α}
    (hf : ∀ old : Option α, (∀ v ∈ old, p v) → p (f old)) : ∀ {entries : List (String × α)},
    (∀ e ∈ entries, p e.2) → ∀ e ∈ update key f entries, p e.2
  | [], _ => List.forall_mem_singleton.mpr (hf none (by simp))
  | (k, v) :: rest, h => by
    obtain ⟨hv, hrest⟩ := List.forall_mem_cons.mp h
    unfold update
    split
    · exact List.forall_mem_cons.mpr ⟨hf none (by simp), h⟩
    · split
      · exact List.forall_mem_cons.mpr ⟨hf (some v) (by simpa using hv), hrest⟩
      · exact List.forall_mem_cons.mpr ⟨hv, forall_mem_update hf hrest⟩

theorem mem_insert {key : String} {value : α} {e : String × α} :
    ∀ {entries : List (String × α)}, e ∈ insert key value entries → e = (key, value) ∨ e ∈ entries
  | [], h => .inl (List.mem_singleton.mp h)
  | (k, v) :: rest, h => by
    unfold insert update at h
    split at h
    · exact List.mem_cons.mp h
    · split at h
      · next heq =>
        subst heq
        exact (List.mem_cons.mp h).imp_right (List.mem_cons_of_mem _)
      · rcases List.mem_cons.mp h with rfl | h
        · exact .inr List.mem_cons_self
        · exact (mem_insert h).imp_right (List.mem_cons_of_mem _)

/-- What a list of pairs leaves is among the pairs. -/
theorem mem_ofList {pairs : List (String × α)} {e : String × α} (h : e ∈ ofList pairs) :
    e ∈ pairs := by
  suffices ∀ (ps acc : List (String × α)),
      e ∈ ps.foldl (fun entries p => insert p.1 p.2 entries) acc → e ∈ ps ∨ e ∈ acc from
    (this pairs [] h).resolve_right List.not_mem_nil
  intro ps
  induction ps with
  | nil => exact fun acc h => .inr h
  | cons p ps ih =>
    intro acc h
    rcases ih _ h with h | h
    · exact .inl (List.mem_cons_of_mem _ h)
    · rcases mem_insert h with rfl | h
      · exact .inl List.mem_cons_self
      · exact .inr h

/-- A value that is found stands in the list. -/
theorem mem_of_find? {key : String} {v : α} : ∀ {entries : List (String × α)},
    find? key entries = some v → (key, v) ∈ entries
  | (k, w) :: rest, h => by
    unfold find? at h
    split at h
    · next heq =>
      subst heq
      cases h
      exact List.mem_cons_self
    · exact List.mem_cons_of_mem _ (mem_of_find? h)

theorem ordered_nil : Ordered ([] : List (String × α)) := List.Pairwise.nil

theorem ordered_update (key : String) (f : Option α → α) : ∀ {entries : List (String × α)},
    Ordered entries → Ordered (update key f entries)
  | [], _ => by simp [update, Ordered]
  | (k, v) :: rest, h => by
    unfold update
    split
    · next hlt =>
      refine List.pairwise_cons.mpr ⟨fun a ha => ?_, h⟩
      rcases List.mem_cons.mp ha with rfl | ha
      · exact hlt
      · exact String.lt_trans hlt (h.head_lt a ha)
    · next hlt =>
      split
      · exact List.pairwise_cons.mpr ⟨fun a ha => h.head_lt a ha, h.tail⟩
      · next hne =>
        refine List.pairwise_cons.mpr ⟨fun a ha => ?_, ordered_update key f h.tail⟩
        rcases mem_update ha with hk | ha
        · have hle : k ≤ key := String.not_lt.mp hlt
          rw [hk]
          exact Decidable.byContradiction fun hnl =>
            hne (String.le_antisymm hle (String.not_lt.mp hnl))
        · exact h.head_lt a ha

/-- However pairs come, their list by keys is in order. -/
theorem ordered_ofList (pairs : List (String × α)) : Ordered (ofList pairs) := by
  suffices ∀ (ps : List (String × α)) (acc : List (String × α)), Ordered acc →
      Ordered (ps.foldl (fun entries p => insert p.1 p.2 entries) acc) from
    this pairs [] ordered_nil
  intro ps
  induction ps with
  | nil => exact fun _ h => h
  | cons p ps ih => exact fun acc h => ih _ (ordered_update _ _ h)

/-- Ordered lists with equal look-ups are equal. -/
theorem eq_of_find?_eq : ∀ {l₁ l₂ : List (String × α)}, Ordered l₁ → Ordered l₂ →
    (∀ key, find? key l₁ = find? key l₂) → l₁ = l₂
  | [], [], _, _, _ => rfl
  | [], (k, v) :: rest, _, _, h => by have := h k; simp [find?] at this
  | (k, v) :: rest, [], _, _, h => by have := h k; simp [find?] at this
  | (k₁, v₁) :: r₁, (k₂, v₂) :: r₂, h₁, h₂, h => by
    -- The lower of two different heads would be found on one side only.
    have hk : k₁ = k₂ := by
      apply Decidable.byContradiction
      intro hne
      rcases String.le_total k₁ k₂ with hle | hle
      · have hlt : k₁ < k₂ := Decidable.byContradiction fun hn =>
          hne (String.le_antisymm hle (String.not_lt.mp hn))
        have := h k₁
        rw [h₂.find?_eq_none hlt] at this
        simp [find?] at this
      · have hlt : k₂ < k₁ := Decidable.byContradiction fun hn =>
          hne (String.le_antisymm (String.not_lt.mp hn) hle)
        have := h k₂
        rw [h₁.find?_eq_none hlt] at this
        simp [find?] at this
    subst hk
    have hv : v₁ = v₂ := by simpa [find?] using h k₁
    subst hv
    have hr : r₁ = r₂ := eq_of_find?_eq h₁.tail h₂.tail fun key => by
      by_cases hkey : k₁ = key
      · subst hkey
        rw [find?_eq_none_of_lt h₁.head_lt, find?_eq_none_of_lt h₂.head_lt]
      · simpa [find?, hkey] using h key
    rw [hr]

/-! ### Lists with distinct keys -/

/-- A change of all values does not touch the look-up of keys. -/
theorem find?_map {β : Type} (key : String) (f : α → β) (entries : List (String × α)) :
    find? key (entries.map fun e => (e.1, f e.2)) = (find? key entries).map f := by
  induction entries with
  | nil => rfl
  | cons e rest ih =>
    simp only [List.map_cons, find?, ih]
    split <;> rfl

theorem find?_eq_none_of_not_mem {key : String} {entries : List (String × α)}
    (h : key ∉ entries.map Prod.fst) : find? key entries = none := by
  induction entries with
  | nil => rfl
  | cons e rest ih =>
    rw [List.map_cons, List.mem_cons, not_or] at h
    rw [find?, if_neg (Ne.symm h.1), ih h.2]

/-- Where no key stands twice, each entry is found under its key. -/
theorem find?_of_mem {key : String} {v : α} {entries : List (String × α)}
    (h : (entries.map Prod.fst).Nodup) (hmem : (key, v) ∈ entries) :
    find? key entries = some v := by
  induction entries with
  | nil => exact absurd hmem List.not_mem_nil
  | cons e rest ih =>
    rw [List.map_cons, List.nodup_cons] at h
    rcases List.mem_cons.mp hmem with rfl | hmem
    · rw [find?, if_pos rfl]
    · have hne : e.1 ≠ key := by
        rintro rfl
        exact h.1 (List.mem_map.mpr ⟨(e.1, v), hmem, rfl⟩)
      rw [find?, if_neg hne, ih h.2 hmem]

/-- A list of pairs with distinct keys holds what it is made of. -/
theorem find?_ofList {pairs : List (String × α)} (h : (pairs.map Prod.fst).Nodup)
    (key : String) : find? key (ofList pairs) = find? key pairs := by
  -- Generalised to any list that the pairs are put into.
  suffices ∀ (ps acc : List (String × α)), (ps.map Prod.fst).Nodup → Ordered acc →
      find? key (ps.foldl (fun entries p => insert p.1 p.2 entries) acc) =
        (find? key ps).or (find? key acc) by
    rw [ofList, this pairs [] h ordered_nil]
    cases find? key pairs <;> rfl
  intro ps
  induction ps with
  | nil => exact fun acc _ _ => rfl
  | cons p ps ih =>
    intro acc hkeys hacc
    rw [List.map_cons, List.nodup_cons] at hkeys
    have hnext : Ordered (insert p.1 p.2 acc) := ordered_update _ _ hacc
    rw [List.foldl_cons, ih _ hkeys.2 hnext, insert, find?]
    by_cases hp : p.1 = key
    · subst hp
      rw [find?_eq_none_of_not_mem hkeys.1, if_pos rfl, find?_update_self _ _ hacc]
      rfl
    · rw [if_neg hp, find?_update_of_ne _ hp]

theorem Ordered.nodup_keys {entries : List (String × α)} (h : Ordered entries) :
    (entries.map Prod.fst).Nodup := by
  refine List.pairwise_map.mpr (h.imp fun hlt heq => ?_)
  exact String.lt_irrefl _ (heq ▸ hlt)

/-- An ordered list is the list of its own pairs. -/
theorem ofList_of_ordered {entries : List (String × α)} (h : Ordered entries) :
    ofList entries = entries :=
  eq_of_find?_eq (ordered_ofList entries) h (find?_ofList h.nodup_keys)

/-! ### Putting a value under a key -/

/-- What is put under a key is found there, whatever the order of the list. -/
theorem find?_insert_self (key : String) (v : α) (entries : List (String × α)) :
    find? key (insert key v entries) = some v := by
  induction entries with
  | nil => exact if_pos rfl
  | cons e entries ih =>
    rw [insert, update]
    split
    · exact if_pos rfl
    · split
      · next heq => exact if_pos heq
      · next hne => exact (if_neg hne).trans ih

/-- Of two values put under one key the later stays. -/
theorem insert_insert (key : String) (v w : α) {entries : List (String × α)}
    (h : Ordered entries) : insert key v (insert key w entries) = insert key v entries := by
  have hinner : Ordered (insert key w entries) := ordered_update _ _ h
  refine eq_of_find?_eq (ordered_update _ _ hinner) (ordered_update _ _ h) fun other => ?_
  by_cases hkey : key = other
  · subst hkey
    simp only [insert]
    rw [find?_update_self _ _ (ordered_update _ _ h), find?_update_self _ _ h]
  · simp only [insert, find?_update_of_ne _ hkey]

/-- Values may be changed before an update or after it, if the update can tell. -/
theorem map_update {f : Option α → α} {g : Option β → β} {m : α → β} (key : String)
    (h : ∀ old : Option α, m (f old) = g (old.map m)) (entries : List (String × α)) :
    (update key f entries).map (fun e => (e.1, m e.2)) =
      update key g (entries.map fun e => (e.1, m e.2)) := by
  induction entries with
  | nil => simp [update, h none]
  | cons e entries ih =>
    obtain ⟨name, v⟩ := e
    simp only [List.map_cons, update]
    split
    · simp [h none]
    · split
      · simp [h (some v)]
      · rw [List.map_cons, ih]

/-- It does not matter whether values are changed before or after an insertion. -/
theorem map_insert (f : α → β) (key : String) (v : α) (entries : List (String × α)) :
    (insert key v entries).map (fun e => (e.1, f e.2)) =
      insert key (f v) (entries.map fun e => (e.1, f e.2)) :=
  map_update (g := fun _ => f v) key (fun _ => rfl) entries

end PolyLex.Keyed
