import BloomWorkspaces.Agent.UploadLoop
import BloomWorkspaces.Guest.Accounting

/-!
# Round trips of files

A file that is uploaded and then downloaded. The guest wants a parent directory in each path, counts the
bytes of names and paths, and cannot take a path that stands for no text.
-/

namespace Bloom

open Action

/-! ### Downloads -/

section Download

variable {t : WorkspaceTree} {path : JsText} {text : List Char} {contents : List UInt8} {n : ℕ}
  {s : String} {transfer : Transfer} (hsize : contents.length ≤ maxReadBytes)

/-- How far a read has come that is still running. -/
lemma offset_of_running (h : readLoop s (honestGuest s contents hsize) n = (transfer, none)) :
    transfer.offset = n * maxFileChunkBytes ∧ n * maxFileChunkBytes ≤ contents.length := by
  have hgoing := ((readLoop_progress s (honestGuest s contents hsize) n).running (by rw [h])).1
  rw [h] at hgoing
  cases n with
  | zero =>
    have hstart : transfer = .start := hgoing
    subst hstart
    exact ⟨(Nat.zero_mul _).symm, by rw [Nat.zero_mul]; exact Nat.zero_le _⟩
  | succ n =>
    obtain ⟨last, hlast, heof, -, hoffset, -⟩ := hgoing
    obtain ⟨-, -, hreply, -⟩ := hlast.reached
    cases hreply
    have hmore : ¬contents.length ≤ (n + 1) * maxFileChunkBytes := of_decide_eq_false heof
    have hnext : (honestChunk s contents hsize n).nextOffset = (n + 1) * maxFileChunkBytes :=
      Nat.min_eq_left (by omega)
    exact ⟨hoffset.trans hnext, by omega⟩

/-- What the guest replies to the request for a chunk. -/
lemma parseReadChunk_readReply (text : List Char)
    (hoffset : n * maxFileChunkBytes ≤ contents.length) :
    parseReadChunk (readReply (guestParts text) contents (n * maxFileChunkBytes) maxFileChunkBytes) =
      honestGuest (String.ofList text) contents hsize n := by
  have hnext : n * maxFileChunkBytes +
      ((contents.drop (n * maxFileChunkBytes)).take maxFileChunkBytes).length =
        min ((n + 1) * maxFileChunkBytes) contents.length := by
    rw [List.length_take, List.length_drop, Nat.succ_mul]
    omega
  have hmin : min (n * maxFileChunkBytes) contents.length = n * maxFileChunkBytes :=
    Nat.min_eq_left hoffset
  have heof : decide (contents.length ≤ min ((n + 1) * maxFileChunkBytes) contents.length) =
      decide (contents.length ≤ (n + 1) * maxFileChunkBytes) := by
    rw [decide_eq_decide]
    omega
  have hsafe : maxReadBytes ≤ maxSafeInteger := by decide
  rw [parseReadChunk, dif_pos]
  · simp only [readReply, honestGuest, honestChunk, joinParts_guestParts, hnext, hmin, heof, fileChunk]
  · simp only [readReply, hnext]
    omega

/-- A download from a tree that holds the file is a read from a guest that serves it. -/
lemma downloadLoop_eq (ids : ℕ → RequestId) (h : Addresses path text)
    (hlength : 2 ≤ (components text).length)
    (hnode : t.node (components text) = some (.file contents)) (n : ℕ) :
    downloadLoop ids path t n =
      (⟨(readLoop (String.ofList text) (honestGuest (String.ofList text) contents hsize) n).1, t⟩,
        (readLoop (String.ofList text) (honestGuest (String.ofList text) contents hsize) n).2) := by
  induction n with
  | zero => rfl
  | succ n ih =>
    cases hloop : readLoop (String.ofList text)
        (honestGuest (String.ofList text) contents hsize) n with
    | mk transfer outcome =>
      rw [hloop] at ih
      cases outcome with
      | some outcome =>
        rw [readLoop_stopped hloop]
        simp only [downloadLoop, ih]
      | none =>
        obtain ⟨hoffset, hle⟩ := offset_of_running hsize hloop
        have hsend := send_readRequest (ids n) h hlength hnode hsize hle
        rw [← hoffset] at hsend
        have hreply := parseReadChunk_readReply hsize text hle
        rw [← hoffset] at hreply
        rw [readLoop_succ hloop]
        simp only [downloadLoop, ih, Download.turn, hsend, Except.bind, hreply, h.decoded,
          Option.getD_some]

/-- A file of at most the largest size is downloaded as it is. -/
theorem downloadLoop_stored (ids : ℕ → RequestId) (hsize : contents.length ≤ maxReadBytes)
    (h : Addresses path text) (hlength : 2 ≤ (components text).length)
    (hnode : t.node (components text) = some (.file contents)) :
    ∃ n, (downloadLoop ids path t n).2 = some (.ok contents) := by
  obtain ⟨n, hn⟩ : ∃ n, (readLoop (String.ofList text)
      (honestGuest (String.ofList text) contents hsize) n).2 = some (.ok contents) :=
    readLoop_honestGuest hsize
  refine ⟨n, ?_⟩
  rw [downloadLoop_eq hsize ids h hlength hnode]
  exact hn

end Download

/-! ### Uploads followed by downloads -/

/-- The upload succeeds, and the download that follows returns what was uploaded; `pwrites` is what each
`pwrite` of the upload takes. -/
def RoundTrips (quota : WorkspaceFiles.Quota) (pwrites : ℕ → List ℕ) (path : JsText)
    (contents : List UInt8) (t : WorkspaceTree) : Prop :=
  ∀ ids ids' : ℕ → RequestId, ∃ n u reply,
    uploadLoop quota ids pwrites path contents t n = (u, some (.ok reply)) ∧
      ∃ m, (downloadLoop ids' path u.tree m).2 = some (.ok contents)

/-- Every chunk of the upload is within the quota. -/
def QuotaPermits (quota : WorkspaceFiles.Quota) (t : WorkspaceTree) (target : TreePath)
    (contents : List UInt8) : Prop :=
  ∀ k, HasChunk contents k → Grants quota t target contents k

/-- What the guest asks of a path and of the tree that the path schema does not. -/
structure Storable (t : WorkspaceTree) (text : List Char) (contents : List UInt8) : Prop where
  bytes : (Utf8.encode text).length ≤ 1024
  parent : 2 ≤ (components text).length
  names : ∀ name ∈ components text, name.length ≤ 255
  hasRoom : t.HasRoom (components text)
  covers : Covers t (components text) contents

section RoundTrip

variable {quota : WorkspaceFiles.Quota} {t : WorkspaceTree} {path : JsText} {text : List Char}
  {contents : List UInt8}

lemma Storable.writable (h : Addresses path text) (hfits : t.Fits (components text))
    (hstorable : Storable t text contents) : t.Writable (components text) :=
  ⟨hfits, hstorable.parent, fun name hname => h.plain hname (hstorable.names name hname),
    hstorable.hasRoom⟩

/-- A tree that is counted permits an upload that there is room for. -/
lemma quotaPermits_of_room {target : TreePath} (hwritable : t.Writable target)
    (h : Counted t target)
    (hroom : t.listedBytes + contents.length ≤ quota.bytes + (t.contentsAt target).length) :
    QuotaPermits quota t target contents := by
  intro k _
  rw [grants_iff_room hwritable h]
  omega

lemma length_of_isPlainName {name : FileName} (h : isPlainName name = true) : name.length ≤ 255 := by
  simp only [isPlainName, Bool.and_eq_true, decide_eq_true_eq] at h
  exact h.1.1.2

end RoundTrip

/-- For an accepted path in a tree where it can be a regular file, and within the quota, a file makes the
round trip exactly when none of its `pwrite`s fails, its path has a parent directory, stands for a text, is
short enough in bytes, there is room for what is missing of it, and the accounting finds the file that is
replaced. -/
theorem roundTrips_iff {quota : WorkspaceFiles.Quota} {pwrites : ℕ → List ℕ} {t : WorkspaceTree}
    {path : JsText} {contents : List UInt8} (haccepted : isRelativePath path = true)
    (hsize : contents.length ≤ maxReadBytes)
    (hfits : ∀ text, Utf16.decode path = some text → t.Fits (components text))
    (hquota : ∀ text, Utf16.decode path = some text →
      QuotaPermits quota t (components text) contents) :
    RoundTrips quota pwrites path contents t ↔
      (∀ k, HasChunk contents k → ChunkCompletes pwrites contents k) ∧
        ∃ text, Utf16.decode path = some text ∧ Storable t text contents := by
  constructor
  · intro h
    obtain ⟨n, u, reply, hok, -⟩ := h default default
    obtain ⟨text, haddresses, hwritable, hcovers, hstores⟩ := uploadLoop_ok hsize hok
    refine ⟨fun k hchunk => (hstores k hchunk).completes, text, haddresses.decoded, haddresses.bytes,
      hwritable.length, ?_, hwritable.hasRoom, hcovers⟩
    exact fun name hname => length_of_isPlainName (hwritable.plain name hname)
  · rintro ⟨hcompletes, text, hdecoded, hstorable⟩ ids ids'
    have haddresses : Addresses path text := ⟨haccepted, hdecoded, hstorable.bytes⟩
    have hwritable := hstorable.writable haddresses (hfits text hdecoded)
    have hstores : ∀ k, HasChunk contents k → Stores quota pwrites t (components text) contents k :=
      fun k hchunk => ⟨hquota text hdecoded k hchunk, hcompletes k hchunk⟩
    obtain ⟨n, u, reply, hok, hnode⟩ := uploadLoop_stored ids haddresses hsize hwritable
      hstorable.covers hstores
    exact ⟨n, u, reply, hok, downloadLoop_stored ids' hsize haddresses hstorable.parent hnode⟩

/-- `d/f` -/
def nestedPath : JsText := [100, 47, 102]

lemma decode_nestedPath {text : List Char} (h : Utf16.decode nestedPath = some text) :
    text = ['d', '/', 'f'] := by
  have hdecode : Utf16.decode nestedPath = some ['d', '/', 'f'] := by decide
  rw [hdecode] at h
  exact (Option.some.inj h).symm

lemma components_nested : components ['d', '/', 'f'] = [[100], [102]] := by decide +kernel

lemma fits_empty {target : TreePath} (h : target ≠ []) : WorkspaceTree.empty.Fits target := by
  have hnone : ∀ p : TreePath, p ≠ [] → WorkspaceTree.empty.node p = none := by
    intro p hp
    rw [WorkspaceTree.node, if_neg hp]
    rfl
  refine ⟨?_, Or.inl (hnone target h)⟩
  intro p _ _
  by_cases hp : p = []
  · rw [hp]
    exact Or.inl (WorkspaceTree.node_nil _)
  · exact Or.inr (hnone p hp)

lemma hasRoom_nested : WorkspaceTree.empty.HasRoom [[100], [102]] :=
  (fits_empty (by decide)).hasRoom (fun _ _ => rfl) (by decide) (by decide)

lemma writable_nested : WorkspaceTree.empty.Writable [[100], [102]] :=
  ⟨fits_empty (by decide), by decide, by decide, hasRoom_nested⟩

lemma counted_nested : Counted WorkspaceTree.empty [[100], [102]] :=
  ⟨⟨by decide +kernel, by decide +kernel⟩, by decide +kernel, by decide +kernel⟩

/-- One byte and then the two others. -/
theorem roundTrips_nestedPath : RoundTrips .smallest (fun _ => [1, 2]) nestedPath [1, 2, 3] .empty := by
  have hfits : ∀ text, Utf16.decode nestedPath = some text →
      WorkspaceTree.empty.Fits (components text) := by
    intro text htext
    rw [decode_nestedPath htext, components_nested]
    exact fits_empty (by decide)
  have hquota : ∀ text, Utf16.decode nestedPath = some text →
      QuotaPermits .smallest .empty (components text) [1, 2, 3] := by
    intro text htext
    rw [decode_nestedPath htext, components_nested]
    exact quotaPermits_of_room writable_nested counted_nested (by decide)
  have hcompletes : ∀ k, HasChunk [1, 2, 3] k → ChunkCompletes (fun _ => [1, 2]) [1, 2, 3] k := by
    intro k hchunk
    obtain rfl := hchunk.eq_zero (by decide)
    decide
  refine (roundTrips_iff (by decide +kernel) (by decide) hfits hquota).mpr
    ⟨hcompletes, ['d', '/', 'f'], by decide, by decide +kernel, ?_, ?_, ?_, ?_⟩
  · rw [components_nested]
    decide
  · rw [components_nested]
    decide
  · rw [components_nested]
    exact hasRoom_nested
  · rw [components_nested]
    exact covers_of_counted writable_nested counted_nested

/-! ### A name in the root -/

/-- The path of the round trip that a running service is tried with. -/
def smokeText : List Char := ".bloom-live-smoke.txt".toList

def smokePath : JsText := Utf16.encode smokeText

def smokeBytes : List UInt8 := Utf8.encode "file-api-executed-ok\n".toList

/-- A file in the root is accepted by the path schema and by the quota, but it cannot be uploaded. -/
theorem not_roundTrips_smokePath :
    isRelativePath smokePath = true ∧ smokeBytes.length ≤ maxReadBytes ∧
      (∀ text, Utf16.decode smokePath = some text → WorkspaceTree.empty.Fits (components text)) ∧
      (∀ text, Utf16.decode smokePath = some text →
        QuotaPermits .smallest .empty (components text) smokeBytes) ∧
      (∀ k, HasChunk smokeBytes k → ChunkCompletes (fun _ => [21]) smokeBytes k) ∧
      ¬ RoundTrips .smallest (fun _ => [21]) smokePath smokeBytes .empty := by
  have hsize : smokeBytes.length = 21 := by decide +kernel
  have hcomponents : components smokeText = [Utf8.encode smokeText] := by decide +kernel
  have hname : Utf8.encode smokeText ≠ [] := by decide +kernel
  have htext : ∀ text, Utf16.decode smokePath = some text → text = smokeText := by
    intro text h
    rw [smokePath, Utf16.decode_encode] at h
    exact (Option.some.inj h).symm
  have hlarge : smokeBytes.length ≤ maxReadBytes := by
    rw [hsize]
    decide
  have honly : ∀ k, HasChunk smokeBytes k → k = 0 := by
    intro k hchunk
    apply hchunk.eq_zero
    rw [hsize]
    decide
  refine ⟨by decide +kernel, hlarge, ?_, ?_, ?_, ?_⟩
  · intro text h
    rw [htext text h, hcomponents]
    exact fits_empty (List.cons_ne_nil _ _)
  · intro text h k hchunk
    rw [htext text h, hcomponents]
    obtain rfl := honly k hchunk
    exact ⟨0, by decide +kernel, by decide +kernel⟩
  · intro k hchunk
    obtain rfl := honly k hchunk
    decide +kernel
  · intro h
    obtain ⟨n, u, reply, hok, -⟩ := h default default
    obtain ⟨text, haddresses, hwritable, -, -⟩ := uploadLoop_ok hlarge hok
    have hlength := hwritable.length
    rw [htext text haddresses.decoded, hcomponents] at hlength
    exact absurd hlength (by simp)

end Bloom
