import PolyLex.Proofs.Config.Overlay
import PolyLex.Proofs.Config.Store
import PolyLex.Proofs.Toml.Values

/-!
# Whole numbers among the settings

The whole numbers of a file have 64 bits with a sign, and so have those of the defaults. Overlays
and readers of records add none, whether sections are tables or lists. So the bound on a call that
comes out of files only can be written to a file again (`ofValue?_timeoutSecs_lt`).
-/

namespace PolyLex.Config

open Json (Value)
open Toml (Signed)

mutual
/-- Whole numbers stay in range under a layer, since a layer makes no numbers. -/
theorem signed_overlay {below : Value} (h : Signed below) :
    ∀ {v : Value}, Signed v → Signed (overlay below v)
  | .obj members, .obj hmembers => by
    rw [overlay_obj]
    refine .obj (signed_overlayMembers ?_ hmembers)
    cases h with
    | obj hentries => exact hentries
    | _ => simp [Value.members?]
  | .null, h | .bool _, h | .int _, h | .real _ _, h | .str _, h | .arr _, h | .unfit, h => h
theorem signed_overlayMembers {entries : List (String × Value)} (h : ∀ e ∈ entries, Signed e.2) :
    ∀ {members : List (String × Value)}, (∀ m ∈ members, Signed m.2) →
      ∀ e ∈ overlayMembers entries members, Signed e.2
  | [], _ => h
  | (key, v) :: rest, hmembers => by
    rw [List.forall_mem_cons] at hmembers
    rw [overlayMembers]
    refine signed_overlayMembers (Keyed.forall_mem_update (fun old hold => ?_) h) hmembers.2
    refine signed_overlay ?_ hmembers.1
    cases old with
    | none => exact .null
    | some v => exact hold v rfl
end

/-- The defaults have whole numbers in range. -/
theorem signed_defaults : Signed defaults := by
  rw [defaults_eq]
  refine .obj ?_
  simp only [List.forall_mem_cons]
  refine ⟨.obj ?_, .obj ?_, .obj ?_, .str _, by simp⟩
  · exact List.forall_mem_singleton.mpr .null
  · exact List.forall_mem_singleton.mpr (.str _)
  · simp only [List.forall_mem_cons]
    exact ⟨.str _, .bool _, .str _, .str _, .str _, .str _, .real _ _,
      .int (by decide) (by decide), by simp⟩

/-- The fields of a record come from the value. -/
theorem signed_record? {names : List String} {v : Value} (hv : Signed v)
    {fields : List (Option Value)} (h : Json.record? names v = some fields) {w : Value}
    (hw : some w ∈ fields) : Signed w := by
  cases hv with
  -- A record may be given as an array of its fields in order.
  | @arr items hitems =>
    replace h : (if items.length ≤ names.length then
      some (items.map some ++ List.replicate (names.length - items.length) none) else none) =
        some fields := h
    split at h
    · cases h
      simp only [List.mem_append, List.mem_map, Option.some.injEq, exists_eq_right,
        List.mem_replicate, reduceCtorEq, and_false, or_false] at hw
      exact hitems w hw
    · cases h
  -- Or as an object, where a field that is repeated is refused.
  | @obj members hmembers =>
    have hfield : ∀ name, Json.field? members name = some (some w) → Signed w := by
      intro name hname
      unfold Json.field? at hname
      split at hname
      · cases hname
      · next m hm =>
        cases hname
        exact hmembers m (List.mem_filter.mp (hm ▸ List.mem_singleton_self m)).1
      · cases hname
    replace h : names.mapM (Json.field? members) = some fields := h
    induction names generalizing fields with
    | nil =>
      cases h
      cases hw
    | cons name names ih =>
      rw [List.mapM_cons] at h
      obtain ⟨field, hname, h⟩ := Option.bind_eq_some_iff.mp h
      obtain ⟨rest, hrest, h⟩ := Option.bind_eq_some_iff.mp h
      cases h
      rcases List.mem_cons.mp hw with rfl | hw
      · exact hfield name hname
      · exact ih hw hrest
  | _ => cases h

/-- The fields of a record are values of the layer. -/
theorem signed_layerRecord? {names : List String} {v : Value} (hv : Signed v)
    {fields : List (Option Value)} (h : layerRecord? names v = some fields) {w : Value}
    (hw : some w ∈ fields) : Signed w := by
  cases hv with
  | @arr items hitems =>
    exact signed_record? (.arr fun v hv => hitems v (List.mem_of_mem_take hv)) h hw
  | obj hmembers => exact signed_record? (.obj hmembers) h hw
  | _ => cases h

/-- A natural number of such a value is in range. -/
theorem nat?_lt_of_signed {v : Value} (hv : Signed v) {n : Nat} (h : v.nat? = some n) :
    n < 0x8000000000000000 := by
  obtain rfl := Value.nat?_eq_some_iff.mp h
  cases hv with
  | int _ hlt => omega

/-- The bound on a call, where whole numbers have 64 bits with a sign. -/
theorem remote?_timeoutSecs_lt {v : Value} (hv : Signed v) {r : RemoteSettings}
    (h : remote? layerRecord? v = some r) : r.timeoutSecs < 0x8000000000000000 := by
  obtain ⟨fields, hfields, h⟩ := Option.bind_eq_some_iff.mp h
  dsimp only at h
  split at h
  · next timeout _ _ _ _ =>
    simp only [Option.bind_eq_bind, Option.bind_eq_some_iff] at h
    obtain ⟨_, -, _, -, _, -, _, -, n, hn, _, -, _, -, _, -, _, -, ⟨⟩⟩ := h
    cases htimeout : timeout with
    | none =>
      rw [htimeout] at hn
      cases hn
      exact (by decide : ({} : RemoteSettings).timeoutSecs < 0x8000000000000000)
    | some w =>
      rw [htimeout] at hn hfields
      exact nat?_lt_of_signed (signed_layerRecord? hv hfields (by simp)) hn
  · cases h

/-- The bound on a call is in range, be it given or the default. -/
theorem ofValue?_timeoutSecs_lt {v : Value} (hv : Signed v) {c : Config}
    (h : ofValue? layerRecord? v = some c) : c.remote.timeoutSecs < 0x8000000000000000 := by
  obtain ⟨fields, hfields, h⟩ := Option.bind_eq_some_iff.mp h
  dsimp only at h
  split at h
  · next remote _ _ =>
    simp only [Option.bind_eq_bind, Option.bind_eq_some_iff] at h
    obtain ⟨_, -, r, hr, _, -, _, -, ⟨⟩⟩ := h
    cases hremote : remote with
    | none =>
      rw [hremote] at hr
      cases hr
      exact (by decide : ({} : RemoteSettings).timeoutSecs < 0x8000000000000000)
    | some w =>
      rw [hremote] at hr hfields
      exact remote?_timeoutSecs_lt (signed_layerRecord? hv hfields (by simp)) hr
  · cases h

/-! ### Files -/

/-- The layer of a file has whole numbers in range. -/
theorem signed_fileLayer {tree : Files.Tree} {path : String} {layer : Value}
    (h : fileLayer tree path = .ok layer) : Signed layer := by
  rcases fileLayer_eq_ok_iff.mp h with ⟨-, rfl⟩ | ⟨_, _, -, hparse, rfl⟩
  · exact .obj (by simp)
  · exact Toml.signed_parse? hparse

end PolyLex.Config
