import BloomWorkspaces.Agent.CreateFailure
import BloomWorkspaces.Library.JsNumber

/-!
# Attaching a volume again

A whole call of `ensureExt4Volume`, with its arguments and the path that it returns, on a volume whose image
has been published. The free space of the host is asked for first, although no space is needed.
-/

namespace Bloom

namespace Provisioning

open Action

variable {env : Environment} {node : Node} {volumeId dataDir : String} {quotaBytes : ℕ}

/-- `ensureExt4Volume` with its checks and its result; the name of the volume is checked after the quota and
the free space. -/
@[irreducible] def ensureVolumeImage (dataDir : String) (env : Environment) (volumeId : String) (quotaBytes : JsNumber) :
    Create String :=
  match quotaBytes.safeInteger with
  | none => reject (.data ⟨"Invalid volume quota", 400⟩)
  | some quota =>
    match volumeDirectory dataDir volumeId with
    | .error error => do
      checkQuota env quota.toNat
      reject (.data error)
    | .ok directory => do
      ensureExt4Volume env volumeId quota.toNat
      pure (directory ++ "/workspace.ext4")

/-- `join(volumeDirectory(dataDir, volumeId), "workspace.ext4")` -/
def imagePath (dataDir volumeId : String) : String := dataDir ++ "/volumes/" ++ volumeId ++ "/workspace.ext4"

/-- The call returns the image of the volume, and every image is as it was. -/
def Attached (dataDir : String) (env : Environment) (volumeId : String) (quotaBytes : ℕ) (node : Node) : Prop :=
  ∃ s, outcome (ensureVolumeImage dataDir env volumeId (some quotaBytes)) node =
      (.ok (imagePath dataDir volumeId), s) ∧ s.images = node.images

/-- The arguments are valid, the host has room for one more image of this quota, and no operation fails that
looks for the image. -/
structure FitsAgain (env : Environment) (volumeId : String) (quotaBytes : ℕ) : Prop where
  id : isWorkspaceId volumeId = true
  least : 16 * 1024 * 1024 ≤ quotaBytes
  most : quotaBytes ≤ 5 * 1024 * 1024 * 1024
  room : quotaBytes ≤ env.available
  looks : env.Succeeds [.statfs, .mkdirVolume, .openImage, .readImage]

lemma safeInteger_natCast (quotaBytes : ℕ) :
    JsNumber.safeInteger (some (quotaBytes : ℤ)) = if quotaBytes < 2 ^ 53 then some (quotaBytes : ℤ) else none := by
  have hlow : -(2 ^ 53) < (quotaBytes : ℤ) := by omega
  rw [JsNumber.safeInteger, Option.filter_some]
  by_cases hhigh : quotaBytes < 2 ^ 53
  · rw [if_pos hhigh, if_pos]
    exact Bool.and_eq_true_iff.mpr ⟨decide_eq_true hlow, decide_eq_true (by omega)⟩
  · rw [if_neg hhigh, if_neg]
    exact fun h => hhigh (by have := of_decide_eq_true (Bool.and_eq_true_iff.mp h).2; omega)

/-- What the call comes to where the image is published: without `FitsAgain` it fails. -/
lemma post_ensureExt4Volume (himage : publishedImage (node.images volumeId) quotaBytes = .ok true)
    {Q : Unit → Node → Prop} {E : Failure → Node → Prop}
    (hok : 16 * 1024 * 1024 ≤ quotaBytes → quotaBytes ≤ 5 * 1024 * 1024 * 1024 →
      quotaBytes ≤ env.available → env.Succeeds [.statfs, .mkdirVolume, .openImage, .readImage] → Q () node)
    (herr : ¬(16 * 1024 * 1024 ≤ quotaBytes ∧ quotaBytes ≤ 5 * 1024 * 1024 * 1024 ∧
      quotaBytes ≤ env.available ∧ env.Succeeds [.statfs, .mkdirVolume, .openImage, .readImage]) →
      ∀ error, E (.rejected error) node) :
    Post Q E (outcome (ensureExt4Volume env volumeId quotaBytes) node) := by
  have hfails : ∀ operation ∈ [Operation.statfs, .mkdirVolume, .openImage, .readImage],
      env.fails operation = true → ∀ error, E (.rejected error) node :=
    fun operation hmem h => herr fun hall => not_succeeds hmem h hall.2.2.2
  rw [ensureExt4Volume, post_bind]
  apply post_checkQuota
  · intro hleast hmost hstatfs hroom
    simp only [post_bind, post_perform, outcome_get, post_ok, post_liftData, himage]
    refine ⟨fun hmkdir => ⟨fun hopen => ⟨?_, ?_⟩, fun hopen => hfails .openImage (by simp) hopen _⟩,
      fun hmkdir => hfails .mkdirVolume (by simp) hmkdir _⟩
    · rintro published ⟨⟩
      rw [if_pos rfl, post_perform]
      refine ⟨fun hread => ?_, fun hread => hfails .readImage (by simp) hread _⟩
      exact hok hleast hmost hroom (by simp [succeeds_cons, hstatfs, hmkdir, hopen, hread])
    · rintro error ⟨⟩
  · intro hnot error
    apply herr
    rintro ⟨hleast, hmost, hroom, hlooks⟩
    exact hnot ⟨hleast, hmost, hroom, hlooks .statfs List.mem_cons_self⟩

lemma post_ensureVolumeImage (himage : publishedImage (node.images volumeId) quotaBytes = .ok true)
    {Q : String → Node → Prop} {E : Failure → Node → Prop}
    (hok : FitsAgain env volumeId quotaBytes → Q (imagePath dataDir volumeId) node)
    (herr : ¬FitsAgain env volumeId quotaBytes → ∀ error, E (.rejected error) node) :
    Post Q E (outcome (ensureVolumeImage dataDir env volumeId (some quotaBytes)) node) := by
  rw [ensureVolumeImage, safeInteger_natCast]
  by_cases hsafe : quotaBytes < 2 ^ 53
  · simp only [if_pos hsafe, Int.toNat_natCast]
    cases hid : isWorkspaceId volumeId with
    | false =>
      have hdirectory : volumeDirectory dataDir volumeId = .error ⟨"Invalid volume id", 400⟩ := by
        rw [volumeDirectory, hid]
        rfl
      have hnot : ¬FitsAgain env volumeId quotaBytes := by
        intro h
        rw [h.id] at hid
        cases hid
      rw [hdirectory]
      simp only [post_bind]
      apply post_checkQuota
      · intro _ _ _ _
        rw [post_reject]
        exact herr hnot _
      · exact fun _ => herr hnot
    | true =>
      have hdirectory : volumeDirectory dataDir volumeId = .ok (dataDir ++ "/volumes/" ++ volumeId) := by
        rw [volumeDirectory, hid]
        rfl
      rw [hdirectory]
      simp only [post_bind]
      apply post_ensureExt4Volume himage
      · exact fun hleast hmost hroom hlooks => hok ⟨hid, hleast, hmost, hroom, hlooks⟩
      · exact fun hnot => herr fun h => hnot ⟨h.least, h.most, h.room, h.looks⟩
  · rw [if_neg hsafe]
    apply herr
    intro h
    have hmost := h.most
    omega

/-- The call comes back with the image, or fails. -/
lemma ensureVolumeImage_cases (dataDir : String) (env : Environment)
    (himage : publishedImage (node.images volumeId) quotaBytes = .ok true) :
    (∃ path s, outcome (ensureVolumeImage dataDir env volumeId (some quotaBytes)) node = (.ok path, s) ∧
        FitsAgain env volumeId quotaBytes ∧ path = imagePath dataDir volumeId ∧ s = node) ∨
      ∃ error s, outcome (ensureVolumeImage dataDir env volumeId (some quotaBytes)) node = (.error error, s) ∧
        ¬FitsAgain env volumeId quotaBytes := by
  apply Post.cases
  apply post_ensureVolumeImage himage
  · exact fun h => ⟨h, rfl, rfl⟩
  · exact fun h _ => h

/-- A call for a volume whose image of this quota has been published returns this image, unchanged, exactly
when the host has room for another one, besides valid arguments and operations that do not fail. -/
theorem attached_iff_fitsAgain (himage : publishedImage (node.images volumeId) quotaBytes = .ok true) :
    Attached dataDir env volumeId quotaBytes node ↔ FitsAgain env volumeId quotaBytes := by
  obtain ⟨path, s, hs, hfits, rfl, rfl⟩ | ⟨error, s, hs, hnot⟩ :=
    ensureVolumeImage_cases dataDir env himage
  · exact iff_of_true ⟨s, hs, rfl⟩ hfits
  · refine iff_of_false ?_ hnot
    rintro ⟨s', hs', -⟩
    rw [hs] at hs'
    cases hs'

lemma publishedImage_formatted {bytes : ℕ → UInt8} (hfirst : bytes 1080 = 0x53) (hsecond : bytes 1081 = 0xef)
    (quotaBytes : ℕ) : publishedImage (some (.file quotaBytes bytes)) quotaBytes = .ok true := by
  simp only [publishedImage]
  rw [if_neg (not_not.mpr rfl), if_neg]
  rintro (h | h)
  · exact h hfirst
  · exact h hsecond

def volumeName : String := "00000000-0000-4000-8000-000000000002"

@[irreducible] def leastQuota : ℕ := 16 * 1024 * 1024

/-- A node with a published image. -/
def volumeNode : Node :=
  { emptyNode with
    images := fun _ => some (.file leastQuota fun i => if i = 1080 then 0x53 else 0xef) }

/-- A host on which nothing fails. -/
def roomyHost (available : ℕ) : Environment := { silentBoot [] with available := available }

lemma published_volumeNode : publishedImage (volumeNode.images volumeName) leastQuota = .ok true :=
  publishedImage_formatted rfl rfl leastQuota

theorem attached_iff_fitsAgain_roomy :
    Attached "data" (roomyHost leastQuota) volumeName leastQuota volumeNode := by
  apply (attached_iff_fitsAgain published_volumeNode).mpr
  refine ⟨by decide +kernel, ?_, ?_, Nat.le_refl _, fun operation _ => rfl⟩
  · unfold leastQuota
    exact Nat.le_refl _
  · unfold leastQuota
    decide

/-- On a full host the image cannot be attached again. -/
theorem not_attached : ¬∀ (dataDir : String) (env : Environment) (node : Node) (volumeId : String)
    (quotaBytes : ℕ), publishedImage (node.images volumeId) quotaBytes = .ok true →
      Attached dataDir env volumeId quotaBytes node := by
  intro h
  obtain ⟨s, hs, -⟩ := h "data" (roomyHost 0) volumeNode volumeName leastQuota published_volumeNode
  have hfull : ¬FitsAgain (roomyHost 0) volumeName leastQuota := by
    intro hfits
    have hroom : leastQuota ≤ 0 := hfits.room
    unfold leastQuota at hroom
    exact absurd hroom (by decide)
  obtain ⟨path, s', -, hfits, -⟩ | ⟨error, s', hs', -⟩ :=
    ensureVolumeImage_cases "data" (roomyHost 0) published_volumeNode
  · exact hfull hfits
  · rw [hs] at hs'
    cases hs'

end Provisioning

end Bloom
