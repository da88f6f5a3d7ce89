import BloomWorkspaces.Guest.Validate
import BloomWorkspaces.Library.Utf16

/-!
# Paths of the guest protocol

The path schemas of `guest-protocol.ts`, on strings of JavaScript. A path that is accepted and stands
for a text is a relative path for the guest, except for its length in bytes.
-/

namespace Bloom

/-- A string of JavaScript. -/
abbrev JsText := List UInt16

namespace JsText

def slash : UInt16 := 47

def dot : JsText := [46]

def dotDot : JsText := [46, 46]

end JsText

/-- The segments of `normalizeString`: `.` and empty ones are dropped, `..` drops the one before, and
is kept where there is none and the path may lead above its start. -/
def normalizeSegments (allowAboveRoot : Bool) : List JsText → List JsText → List JsText
  | done, [] => done
  | done, segment :: rest =>
    if segment = [] ∨ segment = JsText.dot then normalizeSegments allowAboveRoot done rest
    else if segment = JsText.dotDot then
      if done ≠ [] ∧ done.getLast? ≠ some JsText.dotDot then
        normalizeSegments allowAboveRoot done.dropLast rest
      else if allowAboveRoot then normalizeSegments allowAboveRoot (done ++ [segment]) rest
      else normalizeSegments allowAboveRoot done rest
    else normalizeSegments allowAboveRoot (done ++ [segment]) rest

/-- `posix.normalize` -/
def posixNormalize (path : JsText) : JsText :=
  let isAbsolute : Bool := path.head? = some JsText.slash
  let trailingSeparator : Bool := path.getLast? = some JsText.slash
  let normal := [JsText.slash].intercalate
    (normalizeSegments (!isAbsolute) [] (path.splitOn JsText.slash))
  if path = [] then JsText.dot
  else if normal = [] then
    if isAbsolute then [JsText.slash]
    else if trailingSeparator then JsText.dot ++ [JsText.slash] else JsText.dot
  else
    (if isAbsolute then [JsText.slash] else []) ++ normal ++
      (if trailingSeparator then [JsText.slash] else [])

def isSafeWorkspacePath (value : JsText) : Bool :=
  if 0 ∈ value ∨ 92 ∈ value ∨ value.head? = some JsText.slash ∨ value.getLast? = some JsText.slash then
    false
  else
    posixNormalize value = value && posixNormalize value ≠ JsText.dot &&
      !(JsText.dotDot ++ [JsText.slash]).isPrefixOf (posixNormalize value) &&
      posixNormalize value ≠ JsText.dotDot

/-- The schema `RelativePath`. -/
def isRelativePath (value : JsText) : Bool :=
  1 ≤ value.length && value.length ≤ 1024 && isSafeWorkspacePath value

/-- The schema `WorkspaceDirectory`. -/
def isWorkspaceDirectory (value : JsText) : Bool := value = JsText.dot || isRelativePath value

/-! ### Normal paths -/

/-- A segment that `normalize` keeps wherever it stands. -/
def IsPlainSegment (segment : JsText) : Prop :=
  segment ≠ [] ∧ segment ≠ JsText.dot ∧ segment ≠ JsText.dotDot

section Normal

variable {value : JsText} {done segments : List JsText} {allow : Bool}

lemma normalizeSegments_plain (h : ∀ segment ∈ segments, IsPlainSegment segment) :
    normalizeSegments allow done segments = done ++ segments := by
  induction segments generalizing done with
  | nil => simp [normalizeSegments]
  | cons segment rest ih =>
    obtain ⟨hnil, hdot, hdotDot⟩ := h segment List.mem_cons_self
    rw [normalizeSegments, if_neg (not_or.mpr ⟨hnil, hdot⟩), if_neg hdotDot,
      ih fun s hs => h s (List.mem_cons_of_mem _ hs), List.append_assoc]
    rfl

/-- First come the segments that lead up, then plain ones. -/
def IsNormal (done : List JsText) : Prop :=
  ∃ k plain, done = List.replicate k JsText.dotDot ++ plain ∧ ∀ segment ∈ plain, IsPlainSegment segment

lemma IsNormal.concat (h : IsNormal done) {segment : JsText} (hsegment : IsPlainSegment segment) :
    IsNormal (done ++ [segment]) := by
  obtain ⟨k, plain, rfl, hplain⟩ := h
  refine ⟨k, plain ++ [segment], by rw [List.append_assoc], ?_⟩
  intro s hs
  rcases List.mem_append.mp hs with hold | hnew
  · exact hplain s hold
  · rw [List.mem_singleton.mp hnew]
    exact hsegment

lemma IsNormal.dropLast (h : IsNormal done) (hlast : done.getLast? ≠ some JsText.dotDot)
    (hne : done ≠ []) : IsNormal done.dropLast := by
  obtain ⟨k, plain, rfl, hplain⟩ := h
  by_cases hnil : plain = []
  · subst hnil
    cases k with
    | zero => exact absurd rfl hne
    | succ k =>
      rw [List.append_nil, List.replicate_succ', List.getLast?_concat] at hlast
      exact absurd rfl hlast
  · refine ⟨k, plain.dropLast, List.dropLast_append_of_ne_nil hnil, ?_⟩
    exact fun s hs => hplain s (List.dropLast_subset _ hs)

lemma IsNormal.up (h : IsNormal done) (hlast : ¬(done ≠ [] ∧ done.getLast? ≠ some JsText.dotDot)) :
    IsNormal (done ++ [JsText.dotDot]) := by
  obtain ⟨k, plain, rfl, hplain⟩ := h
  have hnil : plain = [] := by
    by_contra hne
    refine hlast ⟨by simp [hne], ?_⟩
    rw [List.getLast?_append_of_ne_nil _ hne, List.getLast?_eq_some_getLast hne]
    intro heq
    exact (hplain _ (List.getLast_mem hne)).2.2 (Option.some.inj heq)
  refine ⟨k + 1, [], ?_, fun s hs => absurd hs List.not_mem_nil⟩
  rw [hnil, List.append_nil, List.append_nil, List.replicate_succ']

lemma isNormal_normalizeSegments (h : IsNormal done) : IsNormal (normalizeSegments allow done segments) := by
  induction segments generalizing done with
  | nil => exact h
  | cons segment rest ih =>
    rw [normalizeSegments]
    split
    · exact ih h
    · rename_i hempty
      rw [not_or] at hempty
      split
      · rename_i hup
        rw [hup]
        split
        · rename_i hpop
          exact ih (h.dropLast hpop.2 hpop.1)
        · rename_i hstay
          split
          · exact ih (h.up hstay)
          · exact ih h
      · rename_i hup
        exact ih (h.concat ⟨hempty.1, hempty.2, hup⟩)

lemma mem_normalizeSegments {segment : JsText} (h : segment ∈ normalizeSegments allow done segments) :
    segment ∈ done ∨ segment ∈ segments := by
  induction segments generalizing done with
  | nil => exact Or.inl h
  | cons first rest ih =>
    have hrest : ∀ kept, segment ∈ normalizeSegments allow kept rest →
        (segment ∈ kept → segment ∈ done ∨ segment = first) →
        segment ∈ done ∨ segment ∈ first :: rest := by
      intro kept hmem hkept
      rcases ih hmem with hold | hnew
      · rcases hkept hold with hdone | rfl
        · exact Or.inl hdone
        · exact Or.inr List.mem_cons_self
      · exact Or.inr (List.mem_cons_of_mem _ hnew)
    have hconcat : segment ∈ done ++ [first] → segment ∈ done ∨ segment = first := by
      intro hmem
      rcases List.mem_append.mp hmem with hdone | hfirst
      · exact Or.inl hdone
      · exact Or.inr (List.mem_singleton.mp hfirst)
    rw [normalizeSegments] at h
    split at h
    · exact hrest done h Or.inl
    · split at h
      · split at h
        · exact hrest _ h fun hmem => Or.inl (List.dropLast_subset _ hmem)
        · split at h
          · exact hrest _ h hconcat
          · exact hrest done h Or.inl
      · exact hrest _ h hconcat

/-- A path without a slash at its ends. -/
lemma posixNormalize_relative (hne : value ≠ []) (hhead : value.head? ≠ some JsText.slash)
    (hlast : value.getLast? ≠ some JsText.slash) :
    posixNormalize value =
      if [JsText.slash].intercalate (normalizeSegments true [] (value.splitOn JsText.slash)) = [] then
        JsText.dot
      else [JsText.slash].intercalate (normalizeSegments true [] (value.splitOn JsText.slash)) := by
  simp only [posixNormalize, hhead, hlast, hne, decide_false, Bool.not_false, if_false,
    Bool.false_eq_true, List.nil_append, List.append_nil]

/-- A normal path has plain components unless it leads up. -/
lemma plain_of_normal (hsegments : IsNormal segments)
    (hup : segments.head? ≠ some JsText.dotDot) : ∀ segment ∈ segments, IsPlainSegment segment := by
  obtain ⟨k, plain, rfl, hplain⟩ := hsegments
  cases k with
  | zero => exact hplain
  | succ k => exact absurd rfl hup

/-- What a path whose first component is `..` starts with. -/
lemma intercalate_dotDot (rest : List JsText) :
    [JsText.slash].intercalate (JsText.dotDot :: rest) = JsText.dotDot ∨
      (JsText.dotDot ++ [JsText.slash]).isPrefixOf
        ([JsText.slash].intercalate (JsText.dotDot :: rest)) = true := by
  cases rest with
  | nil => exact Or.inl (by simp [List.intercalate])
  | cons segment rest =>
    refine Or.inr (List.isPrefixOf_iff_prefix.mpr ?_)
    rw [List.intercalate_cons_cons]
    exact List.prefix_append _ _

lemma splitOn_plain_of_safe (hne : value ≠ []) (hhead : value.head? ≠ some JsText.slash)
    (hlast : value.getLast? ≠ some JsText.slash) (hnormal : posixNormalize value = value)
    (hdot : value ≠ JsText.dot) (hdotDot : value ≠ JsText.dotDot)
    (hups : (JsText.dotDot ++ [JsText.slash]).isPrefixOf value = false) :
    ∀ segment ∈ value.splitOn JsText.slash, IsPlainSegment segment := by
  have hvalue := posixNormalize_relative hne hhead hlast
  rw [hnormal] at hvalue
  split at hvalue
  · exact absurd hvalue hdot
  · rename_i hsome
    set segments := normalizeSegments true [] (value.splitOn JsText.slash)
    have hnil : segments ≠ [] := by
      intro hnil
      rw [hnil] at hsome
      exact hsome rfl
    have hslash : ∀ segment ∈ segments, JsText.slash ∉ segment := by
      intro segment hsegment
      rcases mem_normalizeSegments hsegment with hnone | hmem
      · exact absurd hnone List.not_mem_nil
      · exact Ascii.not_mem_of_mem_splitOn hmem
    rw [hvalue, List.splitOn_intercalate JsText.slash hslash hnil]
    refine plain_of_normal (isNormal_normalizeSegments ⟨0, [], rfl, by simp⟩) ?_
    intro hup
    obtain ⟨rest, hrest⟩ := List.head?_eq_some_iff.mp hup
    have hstart := intercalate_dotDot rest
    rw [← hrest, ← hvalue, hups] at hstart
    rcases hstart with heq | hfalse
    · exact hdotDot heq
    · cases hfalse

lemma posixNormalize_plain (hplain : ∀ segment ∈ value.splitOn JsText.slash, IsPlainSegment segment) :
    posixNormalize value = value := by
  have hne : value ≠ [] := by
    rintro rfl
    exact (hplain [] (List.mem_singleton.mpr rfl)).1 rfl
  have hhead : value.head? ≠ some JsText.slash := fun h =>
    (hplain [] (Ascii.nil_mem_splitOn_of_head h)).1 rfl
  have hlast : value.getLast? ≠ some JsText.slash := fun h =>
    (hplain [] (Ascii.nil_mem_splitOn_of_getLast h)).1 rfl
  rw [posixNormalize_relative hne hhead hlast, normalizeSegments_plain hplain, List.nil_append,
    List.intercalate_splitOn, if_neg hne]

/-- The safe paths are those whose components are all plain. -/
theorem isSafeWorkspacePath_iff : isSafeWorkspacePath value = true ↔
    0 ∉ value ∧ 92 ∉ value ∧ ∀ segment ∈ value.splitOn JsText.slash, IsPlainSegment segment := by
  constructor
  · intro h
    rw [isSafeWorkspacePath] at h
    split at h
    · cases h
    · rename_i hchars
      simp only [not_or] at hchars
      obtain ⟨hzero, hbackslash, hhead, hlast⟩ := hchars
      simp only [Bool.and_eq_true, decide_eq_true_eq, Bool.not_eq_true'] at h
      obtain ⟨⟨⟨hnormal, hdot⟩, hups⟩, hdotDot⟩ := h
      rw [hnormal] at hdot hups hdotDot
      have hne : value ≠ [] := by
        rintro rfl
        cases hnormal
      exact ⟨hzero, hbackslash,
        splitOn_plain_of_safe hne hhead hlast hnormal hdot hdotDot hups⟩
  · rintro ⟨hzero, hbackslash, hplain⟩
    have hhead : value.head? ≠ some JsText.slash := fun h =>
      (hplain [] (Ascii.nil_mem_splitOn_of_head h)).1 rfl
    have hlast : value.getLast? ≠ some JsText.slash := fun h =>
      (hplain [] (Ascii.nil_mem_splitOn_of_getLast h)).1 rfl
    have hdot : value ≠ JsText.dot := by
      rintro rfl
      exact (hplain JsText.dot (by decide)).2.1 rfl
    have hdotDot : value ≠ JsText.dotDot := by
      rintro rfl
      exact (hplain JsText.dotDot (by decide)).2.2 rfl
    have hups : (JsText.dotDot ++ [JsText.slash]).isPrefixOf value = false := by
      rw [← Bool.not_eq_true, List.isPrefixOf_iff_prefix]
      rintro ⟨rest, rfl⟩
      refine (hplain JsText.dotDot ?_).2.2 rfl
      rw [List.append_assoc, List.singleton_append, List.splitOn_append_cons_self]
      exact List.mem_append_left _ (by decide)
    rw [isSafeWorkspacePath, if_neg (by simp [hzero, hbackslash, hhead, hlast]),
      posixNormalize_plain hplain, hups]
    simp [hdot, hdotDot]

end Normal

/-! ### Paths that stand for texts -/

section Texts

variable {s : String}

lemma isPlainSegment_encode {part : List Char} :
    IsPlainSegment (Utf16.encode part) ↔ part ≠ [] ∧ part ≠ ['.'] ∧ part ≠ ['.', '.'] := by
  have hiff : ∀ text : List Char, Utf16.encode part = Utf16.encode text ↔ part = text :=
    fun text => ⟨Utf16.encode_injective, fun h => h ▸ rfl⟩
  have hnil := hiff []
  have hdot := hiff ['.']
  have hdotDot := hiff ['.', '.']
  simp only [IsPlainSegment, ne_eq]
  rw [← hnil, ← hdot, ← hdotDot]
  rfl

/-- An accepted path is one for the guest if its bytes are few enough. -/
theorem isRelativePath_of_safe (h : isSafeWorkspacePath (Utf16.encode s.toList) = true)
    (hlength : s.utf8ByteSize ≤ 1024) : IsRelativePath s := by
  obtain ⟨hzero, hbackslash, hplain⟩ := isSafeWorkspacePath_iff.mp h
  have hsplit : (Utf16.encode s.toList).splitOn JsText.slash = (pathParts s).map Utf16.encode :=
    Utf16.splitOn_encode (by decide : ('/').val.toNat < 55296) s.toList
  refine ⟨hlength, ?_, ?_, ?_⟩
  · rw [hasNul, decide_eq_false_iff_not]
    exact fun hmem => hzero ((Utf16.mem_encode (by decide : ('\x00').val.toNat < 55296)).mpr hmem)
  · exact fun hmem =>
      hbackslash ((Utf16.mem_encode (by decide : ('\\').val.toNat < 55296)).mpr hmem)
  · intro part hpart
    rw [← isPlainSegment_encode]
    apply hplain
    rw [hsplit]
    exact List.mem_map_of_mem hpart

end Texts

end Bloom
