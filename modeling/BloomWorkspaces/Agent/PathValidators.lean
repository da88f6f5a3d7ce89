import BloomWorkspaces.Agent.GuestWorkspace
import BloomWorkspaces.Jobs.Forwarding

/-!
# The validators of a path

A path of a workspace is checked by the schemas of the host, by the guest, and by the data files of a
workspace that is not running. Each of them has a grammar of its own; on the texts that the guest can read
in full they accept the same paths and read them alike.
-/

namespace Bloom

/-- `validateRelativePath` of `data-files.ts`, where `sep` is `/`. -/
def DataFiles.validateRelativePath (value : JsText) (allowEmpty : Bool) : Except RuntimeDataError JsText :=
  if 4096 < Utf16.byteLength value ∨ 0 ∈ value ∨ 92 ∈ value ∨ value.head? = some JsText.slash then
    .error ⟨"Invalid workspace path", 400⟩
  else if (value = [] ∨ value = JsText.dot) ∧ allowEmpty then .ok []
  else
    let parts := value.splitOn JsText.slash
    if value = [] ∨ parts.any fun part => part = [] || part = JsText.dot || part = JsText.dotDot then
      .error ⟨"Invalid workspace path", 400⟩
    else .ok ([JsText.slash].intercalate parts)

/-- The validators agree on a text, and what they make of it is the same path. -/
structure PathsAgree (s : String) : Prop where
  guest : isSafeWorkspacePath (jsText s) = true ↔ ∃ parts, validateRelativePath (.string s) = .ok parts
  dataFiles : ∀ allowEmpty, isSafeWorkspacePath (jsText s) = true ↔
    ∃ path, path ≠ [] ∧ DataFiles.validateRelativePath (jsText s) allowEmpty = .ok path
  directory : isRelativeJobPath (jsText s) = true ↔
    ∃ parts, validateWorkspaceDirectory (.string s) = .ok parts
  guestPath : ∀ parts, validateRelativePath (.string s) = .ok parts → joinParts parts = s
  dataPath : ∀ allowEmpty path, path ≠ [] →
    DataFiles.validateRelativePath (jsText s) allowEmpty = .ok path → path = jsText s
  directoryPath : ∀ parts, validateWorkspaceDirectory (.string s) = .ok parts →
    s = "." ∧ parts = [] ∨ s ≠ "." ∧ joinParts parts = s

section Texts

variable {s : String} {value path : JsText} {allowEmpty : Bool}

lemma byteLength_jsText (s : String) : Utf16.byteLength (jsText s) = s.utf8ByteSize := by
  rw [jsText, Utf16.byteLength_of_decode (Utf16.decode_encode _), Utf8.length_encode]

lemma length_jsText_le (s : String) : (jsText s).length ≤ s.utf8ByteSize := by
  rw [jsText, ← Utf8.length_encode]
  exact Utf16.length_encode_le_bytes s.toList

lemma splitOn_jsText (s : String) : (jsText s).splitOn JsText.slash = (pathParts s).map Utf16.encode :=
  Utf16.splitOn_encode (by decide : ('/').val.toNat < 55296) s.toList

/-- A relative path of the guest is safe for the host. -/
lemma safe_of_isRelativePath (h : IsRelativePath s) : isSafeWorkspacePath (jsText s) = true := by
  refine isSafeWorkspacePath_iff.mpr ⟨?_, ?_, fun segment hsegment => ?_⟩
  · have hnul := h.noNul
    rw [hasNul, decide_eq_false_iff_not] at hnul
    exact fun hmem => hnul ((Utf16.mem_encode (by decide : ('\x00').val.toNat < 55296)).mp hmem)
  · exact fun hmem => h.noBackslash ((Utf16.mem_encode (by decide : ('\\').val.toNat < 55296)).mp hmem)
  · rw [splitOn_jsText] at hsegment
    obtain ⟨part, hpart, rfl⟩ := List.mem_map.mp hsegment
    exact isPlainSegment_encode.mpr (h.parts part hpart)

lemma safe_iff_isRelativePath (hlength : s.utf8ByteSize ≤ 1024) :
    isSafeWorkspacePath (jsText s) = true ↔ IsRelativePath s :=
  ⟨fun h => isRelativePath_of_safe h hlength, safe_of_isRelativePath⟩

lemma guest_iff_isRelativePath :
    (∃ parts, validateRelativePath (.string s) = .ok parts) ↔ IsRelativePath s := by
  constructor
  · rintro ⟨parts, h⟩
    obtain ⟨s', hs', hpath, -⟩ := validateRelativePath_ok h
    obtain rfl := Option.some.inj hs'
    exact hpath
  · intro h
    exact ⟨_, validateRelativePath_eq_ok h⟩

lemma any_eq_false_iff : ((value.splitOn JsText.slash).any fun part =>
      part = [] || part = JsText.dot || part = JsText.dotDot) = false ↔
    ∀ part ∈ value.splitOn JsText.slash, IsPlainSegment part := by
  simp only [List.any_eq_false, Bool.or_eq_true, decide_eq_true_eq, not_or, IsPlainSegment, and_assoc, ne_eq]

/-- The data files accept the safe paths, as they are. -/
lemma dataFiles_iff (hlength : Utf16.byteLength value ≤ 4096) (hne : path ≠ []) :
    DataFiles.validateRelativePath value allowEmpty = .ok path ↔
      isSafeWorkspacePath value = true ∧ path = value := by
  simp only [isSafeWorkspacePath_iff, DataFiles.validateRelativePath]
  constructor
  · intro h
    split_ifs at h with hfirst hempty hparts
    · exact absurd (Except.ok.inj h).symm hne
    · simp only [not_or] at hfirst hparts
      refine ⟨⟨hfirst.2.1, hfirst.2.2.1, any_eq_false_iff.mp (Bool.eq_false_iff.mpr hparts.2)⟩, ?_⟩
      rw [← Except.ok.inj h, List.intercalate_splitOn]
  · rintro ⟨⟨hzero, hbackslash, hplain⟩, rfl⟩
    have hhead : path.head? ≠ some JsText.slash :=
      fun h => (hplain [] (Ascii.nil_mem_splitOn_of_head h)).1 rfl
    have hdot : path ≠ JsText.dot := by
      rintro rfl
      exact (hplain JsText.dot (by decide)).2.1 rfl
    rw [if_neg (by simp only [not_or]; exact ⟨by omega, hzero, hbackslash, hhead⟩),
      if_neg (fun h => absurd h.1 (not_or.mpr ⟨hne, hdot⟩)), any_eq_false_iff.mpr hplain,
      if_neg (not_or.mpr ⟨hne, Bool.false_ne_true⟩), List.intercalate_splitOn]

/-- The paths of the jobs are `.` and the safe paths, when they are not too long. -/
lemma isRelativeJobPath_iff (hshort : 1 ≤ value.length) (hlong : value.length ≤ 1024) :
    isRelativeJobPath value = true ↔ value = JsText.dot ∨ isSafeWorkspacePath value = true := by
  constructor
  · intro h
    rcases isWorkspaceDirectory_of_isRelativeJobPath h with hdot | hrelative
    · exact .inl hdot
    · simp only [isRelativePath, Bool.and_eq_true] at hrelative
      exact .inr hrelative.2
  · intro h
    rw [isRelativeJobPath, Bool.and_eq_true, Bool.and_eq_true, Bool.or_eq_true, decide_eq_true_eq,
      decide_eq_true_eq, decide_eq_true_eq]
    refine ⟨⟨hshort, hlong⟩, h.imp_right fun hsafe => ?_⟩
    obtain ⟨hzero, hbackslash, hplain⟩ := isSafeWorkspacePath_iff.mp hsafe
    have hhead : value.head? ≠ some JsText.slash :=
      fun h => (hplain [] (Ascii.nil_mem_splitOn_of_head h)).1 rfl
    have hlast : value.getLast? ≠ some JsText.slash :=
      fun h => (hplain [] (Ascii.nil_mem_splitOn_of_getLast h)).1 rfl
    have hparts := any_eq_false_iff.mpr hplain
    simp only [List.any_eq_false, Bool.or_eq_true, decide_eq_true_eq, not_or] at hparts
    simp only [hzero, hbackslash, hhead, hlast, decide_false, Bool.or_false, Bool.not_false, Bool.true_and,
      List.all_eq_true, Bool.and_eq_true, decide_eq_true_eq]
    exact hparts

lemma joinParts_eq {parts : List String} (h : validateRelativePath (.string s) = .ok parts) :
    joinParts parts = s := by
  obtain ⟨s', hs', -, rfl⟩ := validateRelativePath_ok h
  obtain rfl := Option.some.inj hs'
  have hparts : (pathParts s).map (String.toList ∘ String.ofList) = pathParts s := by
    have hid : String.toList ∘ String.ofList = id := funext fun part => String.toList_ofList
    rw [hid, List.map_id]
  rw [joinParts, List.map_map, hparts, pathParts, List.intercalate_splitOn, String.ofList_toList]

end Texts

/-- For every text of at most 1024 bytes the validators agree. -/
theorem pathsAgree (s : String) (hlength : s.utf8ByteSize ≤ 1024) : PathsAgree s := by
  have hbytes := byteLength_jsText s
  have hguest : isSafeWorkspacePath (jsText s) = true ↔
      ∃ parts, validateRelativePath (.string s) = .ok parts := by
    rw [safe_iff_isRelativePath hlength, guest_iff_isRelativePath]
  refine ⟨hguest, ?_, ?_, fun parts => joinParts_eq, ?_, ?_⟩
  · intro allowEmpty
    constructor
    · intro hsafe
      have hne : jsText s ≠ [] := by
        intro hnil
        rw [hnil] at hsafe
        exact absurd hsafe (by decide)
      exact ⟨jsText s, hne, (dataFiles_iff (by omega) hne).mpr ⟨hsafe, rfl⟩⟩
    · rintro ⟨path, hne, hpath⟩
      exact ((dataFiles_iff (by omega) hne).mp hpath).1
  · constructor
    · intro h
      have hbounds := h
      simp only [isRelativeJobPath, Bool.and_eq_true, decide_eq_true_eq] at hbounds
      rcases (isRelativeJobPath_iff hbounds.1.1 hbounds.1.2).mp h with hdot | hsafe
      · have hs : s = "." := String.toList_inj.mp (Utf16.encode_injective hdot)
        exact ⟨[], by rw [hs]; rfl⟩
      · obtain ⟨parts, hparts⟩ := hguest.mp hsafe
        rw [validateWorkspaceDirectory]
        split_ifs
        · exact ⟨_, rfl⟩
        · exact ⟨parts, hparts⟩
    · rintro ⟨parts, hparts⟩
      have hcases : jsText s = JsText.dot ∨ isSafeWorkspacePath (jsText s) = true := by
        rcases validateWorkspaceDirectory_ok hparts with ⟨hdot, -⟩ | ⟨-, hrelative⟩
        · exact .inl (by rw [Option.some.inj hdot]; rfl)
        · exact .inr (hguest.mpr ⟨parts, hrelative⟩)
      have hne : jsText s ≠ [] := by
        intro hnil
        rw [hnil] at hcases
        exact absurd hcases (by decide)
      exact (isRelativeJobPath_iff (List.length_pos_of_ne_nil hne)
        ((length_jsText_le s).trans hlength)).mpr hcases
  · intro allowEmpty path hne hpath
    exact ((dataFiles_iff (by omega) hne).mp hpath).2
  · intro parts hparts
    rcases validateWorkspaceDirectory_ok hparts with ⟨hdot, hnil⟩ | ⟨hdot, hrelative⟩
    · exact .inl ⟨Option.some.inj hdot, hnil⟩
    · exact .inr ⟨fun h => hdot (congrArg some h), joinParts_eq hrelative⟩

theorem pathsAgree_nested : PathsAgree "src/app" := pathsAgree "src/app" (by decide)

end Bloom
