import PolyLex.Proofs.Url.Address
import PolyLex.Remote.Service
import PolyLex.Url.Domain

/-!
# Where questions go

A base that passes the check is read twice: as it is written, to be checked, and with its slashes
replaced by a single one, to find the address for questions (`endpoint`). The two readings agree on
the scheme and on the authority, and the path for questions is that of the base and
`/chat/completions` if the base ends in the name of a segment, slashes aside
(`endpoint_of_validate`). In general it is so just if the path of the second reading ends in one
slash. Behind a query the slash is none of the path, whose last segment is lost then; behind a
backslash or two dots it may be the second one.

A blank at the end of a base is ruled out throughout. The check trims it, but before the slash it is
a part of the address, which then may be none at all (`endpoint_blank`).
-/

namespace PolyLex

open Url (Address withoutSlashes EndsInName EndsInOneSlash isQueryMark isWebSlash withoutBreaks)

section Names

variable [Url.DomainNames]

namespace Config

/-- A base that is checked is a web address. -/
theorem exists_of_checkBase {base : String} (h : checkBase base = .ok ()) :
    ∃ b, Address.parse base = .ok b ∧ b.IsWeb := by
  unfold checkBase at h
  split at h
  · cases h
  · next b hb =>
    split at h
    · next hweb => exact ⟨b, hb, hweb⟩
    · cases h

/-- A configuration that is valid has a base that passes the check. -/
theorem checkBase_of_validate {config : Config} (h : config.validate = .ok ()) :
    checkBase config.remote.apiBase = .ok () := by
  unfold validate at h
  split at h
  · cases h
  · next hremote =>
    unfold checkRemote at hremote
    split at hremote
    · cases hremote
    · -- The base is looked at last.
      split at hremote
      · cases hremote
      · exact hremote

end Config

end Names

namespace Remote

/-- The end of the text is the end of an address: no blank is trimmed there, apart from line breaks
and tabs, or it belongs to a query or a fragment. -/
def EndsClearly (base : String) : Prop :=
  (∃ c ∈ base.toList, isQueryMark c = true) ∨ ∃ c ∈ (withoutBreaks base.toList).getLast?, ' ' < c

/-- The text has no query and no fragment, and what is left of it without the slashes at its end
ends in the name of a segment: in no backslash and no dots. -/
def EndsInSegment (base : String) : Prop :=
  (∀ c ∈ base.toList, isQueryMark c = false) ∧
    EndsInName isWebSlash (withoutBreaks (withoutSlashes base).toList)

/-- A text is what is left of it without the slashes at its end, and some slashes. -/
theorem exists_slashes (base : String) : ∃ text k,
    base = String.ofList (text ++ List.replicate k '/') ∧
      (withoutSlashes base).toList = text ∧
      withoutSlashes base ++ "/" = String.ofList (text ++ ['/']) := by
  obtain ⟨back, hbase, hback, -⟩ := Text.exists_dropEndWhile (· == '/') base.toList
  have hslashes : back = List.replicate back.length '/' :=
    List.eq_replicate_of_mem fun c hc => by simpa using hback c hc
  refine ⟨Text.dropEndWhile (· == '/') base.toList, back.length, ?_, ?_, ?_⟩
  · rw [← hslashes, ← hbase, String.ofList_toList]
  · rw [withoutSlashes, String.toList_ofList]
  · rw [withoutSlashes, String.ofList_append]

section Names

variable [Url.DomainNames]

/-- The address for questions has two segments in place of the last one of the directory. -/
theorem endpoint_of_directory {base : String} {directory : Address} {names : List String}
    {last : String} (h : Address.parse (withoutSlashes base ++ "/") = .ok directory)
    (hweb : directory.IsWeb) (hpath : directory.path = .segments (names ++ [last])) :
    endpoint base =
      .ok { directory with path := .segments (names ++ ["chat", "completions"]) } := by
  obtain ⟨port, hport⟩ := hweb.exists_port
  have hsibling : directory.sibling ["chat", "completions"] =
      .ok { directory with path := .segments (names ++ ["chat", "completions"]) } := by
    have hfiles : (Url.schemeKind directory.scheme == .files) = false := by
      rw [hport]
      rfl
    rw [Address.sibling, hpath, hfiles]
    simp [Url.takeBack]
  unfold withoutSlashes at h
  simp only [endpoint, h, hsibling]

/-- The directory differs from the base by nothing but empty segments at the end of its path, and it
has one of them if the base ends in the name of a segment. -/
theorem exists_directory {base : String} {b : Address} (h : Address.parse base = .ok b)
    (hweb : b.IsWeb) (hend : EndsClearly base) : ∃ present names last,
    b.path = .segments present ∧
    Address.parse (withoutSlashes base ++ "/") =
      .ok { b with path := .segments (names ++ [last]) } ∧
    '/' ∉ last.toList ∧
    withoutSlashes (Url.segmentsText present) =
      withoutSlashes (Url.segmentsText (names ++ [last])) ∧
    (EndsInSegment base → EndsInOneSlash (Url.segmentsText (names ++ [last]))) := by
  obtain ⟨text, k, rfl, htext, hdirectory⟩ := exists_slashes base
  rw [hdirectory, EndsInSegment, htext, String.toList_ofList]
  by_cases hquery : ∃ c ∈ text, isQueryMark c = true
  -- Behind a query mark the slash belongs to the query, and the path stays as it is.
  · obtain ⟨names, last, hpath, hlast⟩ := Address.exists_path_concat h hweb
    rw [Address.parse_slashes_of_query hquery] at h
    refine ⟨_, names, last, hpath, by rw [h, ← hpath], hlast, rfl, fun hsegment => ?_⟩
    obtain ⟨c, hc, hmark⟩ := hquery
    rw [hsegment.1 c (List.mem_append_left _ hc)] at hmark
    cases hmark
  · have hclear : ∀ c ∈ text, isQueryMark c = false := by
      intro c hc
      rw [Bool.eq_false_iff]
      exact fun hmark => hquery ⟨c, hc, hmark⟩
    -- The end of the text is not trimmed: it is a slash, or visible.
    have hvisible : 0 < k ∨ ∃ c ∈ (withoutBreaks text).getLast?, ' ' < c := by
      rcases Nat.eq_zero_or_pos k with rfl | hk
      · right
        rw [EndsClearly, String.toList_ofList, List.replicate_zero, List.append_nil] at hend
        exact hend.resolve_left hquery
      · exact .inl hk
    obtain ⟨kept, j, hpath, hparse, hone⟩ := Address.exists_parse_slashes h hweb hclear hvisible
    refine ⟨_, kept, "", hpath, hparse, by decide, ?_, fun hsegment => hone hsegment.2⟩
    rw [Url.withoutSlashes_segmentsText]
    exact (Url.withoutSlashes_segmentsText kept 1).symm

/-- Every base that passes the check and ends clearly has an address for questions, of the same
scheme and authority. If the base ends in the name of a segment, the path is the path of the base
without the slashes at its end, and `/chat/completions`. In general it is that just if the path of
the directory ends in one slash. -/
theorem endpoint_of_validate {config : Config} (h : config.validate = .ok ())
    (hend : EndsClearly config.remote.apiBase) : ∃ base directory address,
    Address.parse config.remote.apiBase = .ok base ∧
    Address.parse (withoutSlashes config.remote.apiBase ++ "/") = .ok directory ∧
    endpoint config.remote.apiBase = .ok address ∧
    address.scheme = base.scheme ∧ address.authority = base.authority ∧
    (EndsInSegment config.remote.apiBase →
      address.path.text = withoutSlashes base.path.text ++ "/chat/completions") ∧
    (address.path.text = withoutSlashes base.path.text ++ "/chat/completions" ↔
      EndsInOneSlash directory.path.text) := by
  obtain ⟨base, hbase, hweb⟩ := Config.exists_of_checkBase (Config.checkBase_of_validate h)
  obtain ⟨present, names, last, hpath, hdirectory, hlast, hslashes, hone⟩ :=
    exists_directory hbase hweb hend
  have hmore : Url.segmentsText ["chat", "completions"] = "/chat/completions" := by decide
  -- The last segment of the directory is replaced, so it must be empty for nothing to be lost.
  have hiff : Url.segmentsText (names ++ ["chat", "completions"]) =
      withoutSlashes base.path.text ++ "/chat/completions" ↔
      EndsInOneSlash (Url.segmentsText (names ++ [last])) := by
    rw [Url.segmentsText_append, hmore, hpath]
    show _ = withoutSlashes (Url.segmentsText present) ++ _ ↔ _
    rw [hslashes]
    exact Url.append_eq_withoutSlashes_iff hlast "/chat/completions"
  exact ⟨base, _, _, hbase, hdirectory, endpoint_of_directory hdirectory hweb rfl, rfl, rfl,
    fun hsegment => hiff.mpr (hone hsegment), hiff⟩

end Names

/-- A slash at the end of a base does not matter. -/
theorem endpoint_of_validate_slash :
    let config : Config := { remote := { apiBase := "https://openrouter.ai/api/v1/" } }
    config.validate = .ok () ∧ ∃ base address,
      Address.parse config.remote.apiBase = .ok base ∧
      endpoint config.remote.apiBase = .ok address ∧
      address.scheme = base.scheme ∧ address.authority = base.authority ∧
      address.path.text = withoutSlashes base.path.text ++ "/chat/completions" := by
  intro config
  have hvalid : config.validate = .ok () := by decide +kernel
  have hend : EndsClearly config.remote.apiBase := .inr ⟨'/', by decide +kernel, by decide⟩
  have hsegment : EndsInSegment config.remote.apiBase := by
    refine ⟨Text.forall_mem_of_all (by decide +kernel), fun part hpart => ?_⟩
    -- Behind the last slash, the one at the end aside, stands v1.
    have hlast : (Text.splitBy isWebSlash
        (withoutBreaks (withoutSlashes config.remote.apiBase).toList)).getLast? =
          some ['v', '1'] := by
      decide +kernel
    rw [hlast] at hpart
    cases hpart
    decide
  obtain ⟨base, -, address, hbase, -, haddress, hscheme, hauthority, hpath, -⟩ :=
    endpoint_of_validate hvalid hend
  exact ⟨hvalid, base, address, hbase, haddress, hscheme, hauthority, hpath hsegment⟩

/-- A base that passes the check and has no address for questions. -/
theorem endpoint_blank :
    let config : Config := { remote := { apiBase := "https://example.com " } }
    config.validate = .ok () ∧
      endpoint config.remote.apiBase =
        .error (.endpoint "https://example.com " .invalidDomainName) := by
  decide +kernel

/-- With a query, the last segment of a base is lost. -/
example : (endpoint "https://example.com/api?version=1").map Address.text =
    .ok "https://example.com/chat/completions" := by
  decide +kernel

end Remote

end PolyLex
