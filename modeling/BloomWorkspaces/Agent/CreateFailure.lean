import BloomWorkspaces.Agent.Provisioning
import Mathlib.Data.Finset.Basic

/-!
# When a failed create gives everything back

A create that fails before it has acquired anything leaves the node alone, and one that fails after the
machine was spawned cleans up, except where the process has never started or has exited by itself. What
fails in between leaves the directories behind.
-/

namespace Bloom

namespace Provisioning

open Action

/-! ### The law -/

/-- Nothing on the node belongs to the workspace. -/
structure Node.Fresh (node : Node) (id : String) : Prop where
  workspace : .workspace id ∉ node.directories
  socket : .socket id ∉ node.directories
  jail : .jail id ∉ node.directories
  egress : id ∉ node.egress
  sshEndpoint : node.sshEndpoints id = none
  process : id ∉ node.processes
  session : node.instances id = none

/-- The images that existed keep their contents. -/
def Keeps (images images' : String → Option VolumeImage) : Prop :=
  ∀ volumeId image, images volumeId = some image → images' volumeId = some image

/-- The node has the directories, listeners, endpoints, uids and processes that it had before, and its
images. -/
structure Restored (node s : Node) : Prop where
  directories : s.directories = node.directories
  egress : s.egress = node.egress
  sshEndpoints : s.sshEndpoints = node.sshEndpoints
  allocatedUids : s.allocatedUids = node.allocatedUids
  processes : s.processes = node.processes
  images : Keeps node.images s.images

def Environment.Succeeds (env : Environment) (operations : List Operation) : Prop :=
  ∀ operation ∈ operations, env.fails operation = false

/-- The operations that make a new image. -/
def formatting : List Operation := [.openTemporary, .truncate, .mkfs, .link, .reopenImage]

/-- An image that is there passes its check, and one that is missing can be made. -/
def ImageReady (env : Environment) (image : Option VolumeImage) (quotaBytes : ℕ) : Prop :=
  match image with
  | some _ => publishedImage image quotaBytes = .ok true ∧ env.fails .readImage = false
  | none =>
    env.Succeeds formatting ∧ env.fails .removeTemporary = false ∧
      publishedImage (some (.file quotaBytes env.formatted)) quotaBytes = .ok true

def VolumeReady (env : Environment) (images : String → Option VolumeImage) (storage : RuntimeStorage) :
    Prop :=
  storage.mode = .persistent →
    16 * 1024 * 1024 ≤ storage.quotaBytes ∧ storage.quotaBytes ≤ 5 * 1024 * 1024 * 1024 ∧
      storage.quotaBytes ≤ env.available ∧ env.fails .statfs = false ∧ env.fails .mkdirVolume = false ∧
      env.fails .openImage = false ∧
      ImageReady env (images (storage.volumeId.getD "")) storage.quotaBytes

/-- The programs and images that `FirecrackerRuntime` looks for. -/
def accesses (jailed : Bool) : List Operation :=
  [.accessFirecracker, .accessKernel, .accessRootfs] ++ if jailed then [.accessJailer] else []

def egressOperations (config : VmConfig) : List Operation :=
  if config.controlledEgress then .listen :: if config.kind = .qemu then [.address] else [] else []

/-- What is done for a machine from its first directory to its spawn, other than for the volume. -/
def preparation (config : VmConfig) : List Operation :=
  match config.kind with
  | .qemu => [.mkdirWorkspace, .accessKernel, .accessRootfs, .mkdirSocket, .copyRootfs] ++
      egressOperations config ++ if config.sshEnabled then [.allocatePort] else []
  | .firecracker false =>
    [.mkdirWorkspace, .mkdirSocket, .copyRootfs] ++ egressOperations config ++ [.writeConfig]
  | .firecracker true =>
    [.mkdirWorkspace, .mkdirRun, .copyRootfs, .copyKernel, .chownRoot, .chownRun, .chownRootfs,
      .chownKernel] ++ egressOperations config ++ [.writeConfig, .chownConfig]

/-- What the cleanup does. -/
def releases (config : VmConfig) : List Operation :=
  (if config.controlledEgress then [.closeEgress] else []) ++ [socketRemoval config.kind, .rmWorkspace]

/-- The call is refused before anything is acquired. -/
def Refused (config : VmConfig) (env : Environment) (spec : RuntimeSpec) : Prop :=
  isWorkspaceId spec.id = false ∨ spec.leaseExpiresAt ≤ env.now ∨
    validateStorage config.kind config.dataDir spec.storage ≠ .ok () ∨
    match config.kind with
    | .qemu => env.fails .mkdirWorkspace = true
    | .firecracker false =>
      ¬env.Succeeds (accesses false) ∨ env.fails .mkdirWorkspace = true ∧ env.fails .mkdirSocket = true
    | .firecracker true => ¬env.Succeeds (accesses true) ∨ env.privileged = false

/-- The machine can be prepared. -/
def Prepares (config : VmConfig) (env : Environment) (spec : RuntimeSpec) (node : Node) : Prop :=
  env.Succeeds (preparation config) ∧ VolumeReady env node.images spec.storage

/-- The failure of the machine is one after which somebody waits for the cleanup. -/
def Boot.isCleanedUp (kind : VmKind) : Boot → Bool
  | notStarted _ => kind = .qemu
  | ready => false
  | silent _ => true
  | exits _ cleanedUp => cleanedUp

/-- A failed create leaves nothing behind. -/
def LeavesNothing (config : VmConfig) (env : Environment) (spec : RuntimeSpec) (node : Node) : Prop :=
  Refused config env spec ∨
    Prepares config env spec node ∧ env.boot.isCleanedUp config.kind = true ∧
      env.Succeeds (releases config)

/-! ### Operations -/

section Rules

variable {α β : Type} {Q : α → Node → Prop} {E : Failure → Node → Prop} {node s : Node}
variable {env : Environment} {operation : Operation} {operations : List Operation}

lemma not_succeeds (hmem : operation ∈ operations) (h : env.fails operation = true) :
    ¬env.Succeeds operations := by
  intro hs
  have hfails := hs operation hmem
  rw [h] at hfails
  cases hfails

@[simp] lemma post_reject {error : CreateError} :
    Post Q E (outcome (reject error : Create α) s) ↔ E (.rejected error) s := Iff.rfl

@[simp] lemma post_check {c : Bool} {text : String} {Q : Unit → Node → Prop} :
    Post Q E (outcome (check c text) s) ↔
      (c = true → Q () s) ∧ (c = false → E (.rejected (.message text)) s) := by
  cases c with
  | true => simp [check]
  | false => simp [check]

@[simp] lemma post_perform {Q : Unit → Node → Prop} :
    Post Q E (outcome (perform env operation) s) ↔
      (env.fails operation = false → Q () s) ∧
        (env.fails operation = true → E (.rejected (.system operation)) s) := by
  unfold perform
  cases env.fails operation with
  | true => simp
  | false => simp

@[simp] lemma post_acquire {effect : Node → Node} {Q : Unit → Node → Prop} :
    Post Q E (outcome (acquire env operation effect) s) ↔
      (env.fails operation = false → Q () (effect s)) ∧
        (env.fails operation = true → E (.rejected (.system operation)) s) := by
  simp [acquire, post_bind]

lemma post_rescue {body : Create α} {handler : CreateError → Create α} :
    Post Q E (outcome (rescue body handler) s) ↔
      Post Q (fun e s => match e with
        | .rejected error => Post Q E (outcome (handler error) s)
        | .unsettled => E .unsettled s) (outcome body s) := by
  unfold rescue
  rw [post_tryCatch]
  refine iff_of_eq (congrArg (fun E' => Post Q E' (outcome body s)) ?_)
  funext e s
  cases e with
  | rejected error => rfl
  | unsettled => rfl

lemma post_detach {body : Create Unit} {Q : Unit → Node → Prop} :
    Post Q E (outcome (detach body) s) ↔ Post Q (fun _ s => E .unsettled s) (outcome body s) := by
  unfold detach
  rw [post_tryCatch]
  rfl

lemma post_performAll {steps : List (Operation × (Node → Node))} {Q : Unit → Node → Prop}
    (hok : env.Succeeds (steps.map (·.1)) → Q () (steps.foldl (fun node step => step.2 node) s))
    (herr : ¬env.Succeeds (steps.map (·.1)) → ∀ error, E (.rejected error)
      (steps.foldl (fun node step => if env.fails step.1 then node else step.2 node) s)) :
    Post Q E (outcome (performAll env steps) s) := by
  unfold performAll
  simp only [post_bind, outcome_modify, post_ok]
  split
  · rename_i step hstep
    have hfails : env.fails step.1 = true := by
      simpa using List.find?_some hstep
    have hmem : step.1 ∈ steps.map (·.1) := List.mem_map_of_mem (List.mem_of_find?_eq_some hstep)
    exact herr (not_succeeds hmem hfails) _
  · rename_i hnone
    have hall : ∀ step ∈ steps, env.fails step.1 = false := by
      simpa using List.find?_eq_none.mp hnone
    have hfold : ∀ l ⊆ steps, ∀ s : Node,
        l.foldl (fun node step => if env.fails step.1 then node else step.2 node) s =
          l.foldl (fun node step => step.2 node) s := by
      intro l
      induction l with
      | nil => exact fun _ _ => rfl
      | cons step l ih =>
        intro hsub s
        simp only [List.foldl_cons, hall step (hsub List.mem_cons_self), Bool.false_eq_true, if_false]
        exact ih (fun x hx => hsub (List.mem_cons_of_mem _ hx)) _
    rw [hfold steps (List.Subset.refl _)]
    apply hok
    intro operation hmem
    obtain ⟨step, hstep, rfl⟩ := List.mem_map.mp hmem
    exact hall step hstep

lemma post_attemptAll {Q : Unit → Node → Prop} (hok : env.Succeeds operations → Q () s)
    (herr : ¬env.Succeeds operations → ∀ error, E (.rejected error) s) :
    Post Q E (outcome (attemptAll env operations) s) := by
  have hnames : (operations.map fun operation => (operation, (id : Node → Node))).map (·.1) =
      operations := by
    rw [List.map_map]
    exact List.map_id operations
  apply post_performAll
  · intro hall
    rw [List.foldl_map, List.foldl_fixed' fun _ => rfl]
    exact hok (hnames ▸ hall)
  · intro hfails error
    rw [List.foldl_map, List.foldl_fixed' fun operation => ite_self s]
    exact herr (hnames ▸ hfails) error

lemma Keeps.refl (images : String → Option VolumeImage) : Keeps images images := fun _ _ h => h

/-- An image is only made where there was none. -/
lemma keeps_update {images : String → Option VolumeImage} {volumeId : String} {image : VolumeImage}
    (h : images volumeId = none) : Keeps images (Function.update images volumeId (some image)) := by
  intro other old hold
  have hne : other ≠ volumeId := by
    rintro rfl
    rw [h] at hold
    cases hold
  rw [Function.update_of_ne hne]
  exact hold

lemma post_liftData {result : Except RuntimeDataError α} :
    Post Q E (outcome (liftData result) s) ↔
      (∀ a, result = .ok a → Q a s) ∧ ∀ error, result = .error error → E (.rejected (.data error)) s := by
  cases result with
  | ok a => simp [liftData]
  | error error => simp [liftData]

lemma post_checkQuota {quotaBytes : ℕ} {Q : Unit → Node → Prop}
    (hok : 16 * 1024 * 1024 ≤ quotaBytes → quotaBytes ≤ 5 * 1024 * 1024 * 1024 →
      env.fails .statfs = false → quotaBytes ≤ env.available → Q () s)
    (herr : ¬(16 * 1024 * 1024 ≤ quotaBytes ∧ quotaBytes ≤ 5 * 1024 * 1024 * 1024 ∧
      quotaBytes ≤ env.available ∧ env.fails .statfs = false) → ∀ error, E (.rejected error) s) :
    Post Q E (outcome (checkQuota env quotaBytes) s) := by
  unfold checkQuota
  split
  · rename_i hbound
    exact herr (fun h => by omega) _
  · rename_i hbound
    rw [post_bind, post_perform]
    refine ⟨fun hstatfs => ?_, fun hstatfs => herr (fun h => ?_) _⟩
    · split
      · rename_i hfull
        exact herr (fun h => by omega) _
      · rename_i hfree
        exact hok (by omega) (by omega) hstatfs (by omega)
    · rw [hstatfs] at h
      exact Bool.noConfusion h.2.2.2

lemma succeeds_cons :
    env.Succeeds (operation :: operations) ↔ env.fails operation = false ∧ env.Succeeds operations :=
  List.forall_mem_cons

@[simp] lemma succeeds_nil : env.Succeeds [] := fun _ h => by cases h

/-- The check never takes an image that is there for one that is missing. -/
lemma publishedImage_some {image : VolumeImage} {quotaBytes : ℕ} :
    publishedImage (some image) quotaBytes ≠ .ok false := by
  unfold publishedImage
  cases image with
  | symbolicLink => simp
  | special => simp
  | file size bytes =>
    dsimp only
    split
    · simp
    · split
      · simp
      · simp

lemma post_formatImage {volumeId : String} {quotaBytes : ℕ} {Q : Unit → Node → Prop}
    (hmissing : node.images volumeId = none)
    (hok : env.Succeeds formatting →
      publishedImage (some (.file quotaBytes env.formatted)) quotaBytes = .ok true →
      Q () (node.setImage volumeId (.file quotaBytes env.formatted)))
    (herr : ¬(env.Succeeds formatting ∧
        publishedImage (some (.file quotaBytes env.formatted)) quotaBytes = .ok true) →
      ∀ error images, Keeps node.images images → E (.rejected error) { node with images := images }) :
    Post Q E (outcome (formatImage env volumeId quotaBytes) node) := by
  have hkept : Keeps node.images node.images := Keeps.refl _
  have hmade : Keeps node.images
      (node.setImage volumeId (.file quotaBytes env.formatted)).images := keeps_update hmissing
  have hfails : ∀ operation ∈ formatting, env.fails operation = true →
      ∀ error images, Keeps node.images images → E (.rejected error) { node with images := images } :=
    fun operation hmem h => herr fun hready => not_succeeds hmem h hready.1
  have hsame : (node.setImage volumeId (.file quotaBytes env.formatted)).images volumeId =
      some (.file quotaBytes env.formatted) := by simp [Node.setImage]
  unfold formatImage
  simp only [post_bind, post_perform, post_acquire, outcome_get, post_ok, post_liftData, hsame]
  refine ⟨fun hopen => ⟨fun htruncate => ⟨fun hmkfs => ⟨fun hlink => ⟨fun hreopen => ⟨?_, ?_⟩, ?_⟩, ?_⟩,
    ?_⟩, ?_⟩, ?_⟩
  · intro published hpublished
    have htrue : published = true := by
      by_contra hfalse
      rw [Bool.not_eq_true] at hfalse
      exact publishedImage_some (hfalse ▸ hpublished)
    refine hok ?_ (htrue ▸ hpublished)
    simp [formatting, succeeds_cons, hopen, htruncate, hmkfs, hlink, hreopen]
  · intro error herror
    refine herr (fun hready => ?_) _ _ hmade
    rw [hready.2] at herror
    cases herror
  · exact fun h => hfails .reopenImage (by simp [formatting]) h _ _ hmade
  · exact fun h => hfails .link (by simp [formatting]) h _ _ hkept
  · exact fun h => hfails .mkfs (by simp [formatting]) h _ _ hkept
  · exact fun h => hfails .truncate (by simp [formatting]) h _ _ hkept
  · exact fun h => hfails .openTemporary (by simp [formatting]) h _ _ hkept

/-- Where the path has no image, one is made. -/
lemma post_newImage {volumeId : String} {quotaBytes : ℕ} {Q : Unit → Node → Prop}
    (hmissing : node.images volumeId = none)
    (hok : ImageReady env none quotaBytes → ∀ images, Keeps node.images images →
      Q () { node with images := images })
    (herr : ¬ImageReady env none quotaBytes → ∀ error images, Keeps node.images images →
      E (.rejected error) { node with images := images }) :
    Post Q E (outcome (do
      rescue (formatImage env volumeId quotaBytes) fun error => do
        perform env .removeTemporary
        reject error
      perform env .removeTemporary) node) := by
  rw [post_bind, post_rescue]
  apply post_formatImage hmissing
  · intro hformat hpublished
    rw [post_perform]
    have hmade : Keeps node.images (Function.update node.images volumeId
        (some (.file quotaBytes env.formatted))) := keeps_update hmissing
    refine ⟨fun hremove => hok ⟨hformat, hremove, hpublished⟩ _ hmade, fun hremove => ?_⟩
    refine herr (fun hready => ?_) _ _ hmade
    exact Bool.noConfusion (hremove.symm.trans hready.2.1)
  · intro hfails error images hkeeps
    have hnot : ¬ImageReady env none quotaBytes := fun hready => hfails ⟨hready.1, hready.2.2⟩
    simp only [post_bind, post_perform, post_reject]
    exact ⟨fun _ => herr hnot _ _ hkeeps, fun _ => herr hnot _ _ hkeeps⟩

lemma post_prepareVolume {storage : RuntimeStorage} {Q : Unit → Node → Prop}
    (hok : VolumeReady env node.images storage → ∀ images, Keeps node.images images →
      Q () { node with images := images })
    (herr : ¬VolumeReady env node.images storage → ∀ error images, Keeps node.images images →
      E (.rejected error) { node with images := images }) :
    Post Q E (outcome (prepareVolume env storage) node) := by
  have hkept : Keeps node.images node.images := Keeps.refl _
  unfold prepareVolume
  cases hmode : storage.mode with
  | disposable =>
    exact hok (fun h => by rw [hmode] at h; cases h) _ hkept
  | persistent =>
    have hfails : ∀ {p : Prop}, (VolumeReady env node.images storage → p) → ¬p →
        ∀ error, E (.rejected error) node :=
      fun hp hnot error => herr (fun hready => hnot (hp hready)) error _ hkept
    dsimp only [ensureExt4Volume]
    rw [post_bind]
    apply post_checkQuota
    · intro hmin hmax hstatfs havailable
      simp only [post_bind, post_perform, outcome_get, post_ok, post_liftData]
      refine ⟨fun hmkdir => ⟨fun hopen => ⟨fun published hpublished => ?_, fun error herror => ?_⟩,
        fun hopen => ?_⟩, fun hmkdir => ?_⟩
      · have hready : ImageReady env (node.images (storage.volumeId.getD "")) storage.quotaBytes →
            VolumeReady env node.images storage :=
          fun himage _ => ⟨hmin, hmax, havailable, hstatfs, hmkdir, hopen, himage⟩
        have hvolume : VolumeReady env node.images storage →
            ImageReady env (node.images (storage.volumeId.getD "")) storage.quotaBytes :=
          fun h => (h hmode).2.2.2.2.2.2
        cases himage : node.images (storage.volumeId.getD "") with
        | none =>
          rw [himage] at hpublished hready hvolume
          cases hpublished
          rw [if_neg Bool.false_ne_true]
          exact post_newImage himage (fun h => hok (hready h))
            fun hnot => herr fun h => hnot (hvolume h)
        | some image =>
          rw [himage] at hpublished hready hvolume
          cases published with
          | false => exact absurd hpublished publishedImage_some
          | true =>
            rw [if_pos rfl, post_perform]
            refine ⟨fun hread => hok (hready ⟨hpublished, hread⟩) _ hkept, fun hread => ?_⟩
            refine herr (fun h => ?_) _ _ hkept
            exact Bool.noConfusion (hread.symm.trans (hvolume h).2)
      · refine herr (fun h => ?_) _ _ hkept
        have himage := (h hmode).2.2.2.2.2.2
        cases hnode : node.images (storage.volumeId.getD "") with
        | none =>
          rw [hnode] at herror
          cases herror
        | some image =>
          rw [hnode] at herror himage
          rw [himage.1] at herror
          cases herror
      · exact hfails (fun h => (h hmode).2.2.2.2.2.1) (by simp [hopen]) _
      · exact hfails (fun h => (h hmode).2.2.2.2.1) (by simp [hmkdir]) _
    · intro hquota error
      refine herr (fun h => hquota ?_) error _ hkept
      obtain ⟨hmin, hmax, havailable, hstatfs, -⟩ := h hmode
      exact ⟨hmin, hmax, havailable, hstatfs⟩

lemma post_startEgress {config : VmConfig} {id : String} {Q : Bool → Node → Prop}
    (hok : env.Succeeds (egressOperations config) → ∀ egress,
      egress = (if config.controlledEgress then insert id node.egress else node.egress) →
      Q config.controlledEgress { node with egress := egress })
    (herr : ¬env.Succeeds (egressOperations config) → ∀ error egress,
      E (.rejected error) { node with egress := egress }) :
    Post Q E (outcome (startEgress config env id) node) := by
  unfold startEgress
  unfold egressOperations at hok herr
  cases hcontrolled : config.controlledEgress with
  | false =>
    rw [hcontrolled] at hok herr
    exact hok (by simp) node.egress (by simp)
  | true =>
    rw [hcontrolled] at hok herr
    simp only [if_true, post_bind, post_acquire] at hok herr ⊢
    refine ⟨fun hlisten => ?_, fun hlisten => herr (not_succeeds List.mem_cons_self hlisten) _ _⟩
    split
    · rename_i haddress
      have hmem : Operation.address ∈
          Operation.listen :: if config.kind = .qemu then [.address] else [] := by simp [haddress.1]
      have hnot := not_succeeds hmem haddress.2
      simp only [closeEgress, if_true, post_bind, post_acquire, post_reject]
      exact ⟨fun _ => herr hnot _ _, fun _ => herr hnot _ _⟩
    · rename_i haddress
      refine hok ?_ _ rfl
      rw [succeeds_cons]
      refine ⟨hlisten, ?_⟩
      by_cases hkind : config.kind = .qemu
      · simp only [hkind, true_and, Bool.not_eq_true] at haddress
        simp [hkind, succeeds_cons, haddress]
      · simp [hkind]

end Rules

/-! ### Cleanup -/

/-- What a prepared machine has acquired since `node`. -/
structure Acquired (config : VmConfig) (id : String) (node : Node) (cleanup : Cleanup) (s : Node) :
    Prop where
  directories : s.directories =
    insert (socketDirectory config.kind id) (insert (.workspace id) node.directories)
  listens : cleanup.egress = config.controlledEgress
  egress : s.egress = if config.controlledEgress then insert id node.egress else node.egress
  sshEndpoints : (deleteEndpoint config.kind id s).sshEndpoints = node.sshEndpoints
  allocatedUids : (returnUid cleanup.uid s).allocatedUids = node.allocatedUids
  images : Keeps node.images s.images

/-- The node before the directories are removed. -/
def detached (config : VmConfig) (id : String) (cleanup : Cleanup) (s : Node) : Node :=
  let deleted := deleteEndpoint config.kind id s
  returnUid cleanup.uid (if cleanup.egress then deleted.closeEgress id else deleted)

/-- The node after a cleanup. -/
def released (config : VmConfig) (id : String) (cleanup : Cleanup) (s : Node) : Node :=
  ((detached config id cleanup s).removeDirectory (socketDirectory config.kind id)).removeDirectory
    (.workspace id)

section Cleanup

variable {Q : Unit → Node → Prop} {E : Failure → Node → Prop} {node s : Node}
variable {config : VmConfig} {env : Environment} {id : String} {cleanup : Cleanup}

lemma Node.Fresh.socketDirectory (h : node.Fresh id) (kind : VmKind) :
    Provisioning.socketDirectory kind id ∉ node.directories := by
  cases kind with
  | qemu => exact h.socket
  | firecracker jailed =>
    cases jailed with
    | false => exact h.socket
    | true => exact h.jail

lemma socketDirectory_ne_workspace (kind : VmKind) :
    socketDirectory kind id ≠ .workspace id := by
  cases kind with
  | qemu => simp [socketDirectory]
  | firecracker jailed =>
    cases jailed with
    | false => simp [socketDirectory]
    | true => simp [socketDirectory]

lemma not_restored_of_directory {directory : Directory} (h : directory ∈ s.directories)
    (hnew : directory ∉ node.directories) : ¬Restored node s :=
  fun hr => hnew (hr.directories ▸ h)

/-- A change to the rest of the node is no matter. -/
lemma Acquired.congr {s' : Node} (h : Acquired config id node cleanup s)
    (hdirectories : s'.directories = s.directories) (hegress : s'.egress = s.egress)
    (hssh : s'.sshEndpoints = s.sshEndpoints) (huids : s'.allocatedUids = s.allocatedUids)
    (himages : s'.images = s.images) : Acquired config id node cleanup s' where
  directories := hdirectories.trans h.directories
  listens := h.listens
  egress := hegress.trans h.egress
  sshEndpoints := by
    rw [← h.sshEndpoints]
    unfold deleteEndpoint Node.setEndpoint
    cases config.kind with
    | qemu => simp [hssh]
    | firecracker jailed => exact hssh
  allocatedUids := by
    rw [← h.allocatedUids]
    unfold returnUid Node.deleteUid
    cases cleanup.uid with
    | some uid => simp [huids]
    | none => exact huids
  images := himages ▸ h.images

lemma released_eq : released config id cleanup s = { s with
    directories := (s.directories.erase (socketDirectory config.kind id)).erase (.workspace id)
    egress := if cleanup.egress then s.egress.erase id else s.egress
    sshEndpoints := (deleteEndpoint config.kind id s).sshEndpoints
    allocatedUids := (returnUid cleanup.uid s).allocatedUids } := by
  unfold released detached deleteEndpoint returnUid
  cases config.kind <;> cases cleanup.egress <;> cases cleanup.uid <;> rfl

lemma detached_directories : (detached config id cleanup s).directories = s.directories := by
  unfold detached deleteEndpoint returnUid
  cases config.kind <;> cases cleanup.egress <;> cases cleanup.uid <;> rfl

lemma detached_instances : (detached config id cleanup s).instances = s.instances := by
  unfold detached deleteEndpoint returnUid
  cases config.kind <;> cases cleanup.egress <;> cases cleanup.uid <;> rfl

/-- The cleanup of a prepared machine gives everything back. -/
lemma Acquired.restored (h : Acquired config id node cleanup s) (hfresh : node.Fresh id)
    (hprocesses : s.processes = node.processes) : Restored node (released config id cleanup s) := by
  have hnotmem : socketDirectory config.kind id ∉ insert (.workspace id) node.directories := by
    rw [Finset.mem_insert, not_or]
    exact ⟨socketDirectory_ne_workspace _, hfresh.socketDirectory _⟩
  rw [released_eq]
  refine ⟨?_, ?_, h.sshEndpoints, h.allocatedUids, hprocesses, h.images⟩
  · dsimp only
    rw [h.directories, Finset.erase_insert hnotmem, Finset.erase_insert hfresh.workspace]
  · dsimp only
    rw [h.egress, h.listens]
    cases config.controlledEgress with
    | true => simp [Finset.erase_insert hfresh.egress]
    | false => simp

lemma post_closeEgress {egress : Bool}
    (hok : (egress = true → env.fails .closeEgress = false) →
      Q () (if egress then s.closeEgress id else s))
    (herr : egress = true → env.fails .closeEgress = true → ∀ error, E (.rejected error) s) :
    Post Q E (outcome (closeEgress env id egress) s) := by
  unfold closeEgress
  cases egress with
  | false => exact hok fun h => by cases h
  | true =>
    rw [if_pos rfl, post_acquire]
    exact ⟨fun h => hok fun _ => h, fun h => herr rfl h _⟩

/-- Where one of the removals fails its directory stays. -/
lemma post_removeDirectories {kind : VmKind} (hsocket : socketDirectory kind id ∈ s.directories)
    (hworkspace : .workspace id ∈ s.directories)
    (hok : env.Succeeds [socketRemoval kind, .rmWorkspace] →
      Q () ((s.removeDirectory (socketDirectory kind id)).removeDirectory (.workspace id)))
    (herr : ¬env.Succeeds [socketRemoval kind, .rmWorkspace] → ∀ error s',
      socketDirectory kind id ∈ s'.directories ∨ .workspace id ∈ s'.directories →
      s'.instances = s.instances → E (.rejected error) s') :
    Post Q E (outcome (performAll env [(socketRemoval kind,
      Node.removeDirectory (socketDirectory kind id)),
      (.rmWorkspace, Node.removeDirectory (.workspace id))]) s) := by
  have hne : socketDirectory kind id ≠ .workspace id := socketDirectory_ne_workspace kind
  apply post_performAll
  · exact hok
  · intro hfails error
    apply herr hfails
    · cases hrm : env.fails (socketRemoval kind) with
      | true =>
        left
        cases hrm' : env.fails .rmWorkspace with
        | true => simpa [hrm, hrm'] using hsocket
        | false => simpa [hrm, hrm', Node.removeDirectory, hne] using hsocket
      | false =>
        right
        have hrm' : env.fails .rmWorkspace = true := by
          by_contra hrm'
          rw [Bool.not_eq_true] at hrm'
          apply hfails
          simp [succeeds_cons, hrm, hrm']
        simpa [hrm, hrm', Node.removeDirectory, hne.symm] using hworkspace
    · simp only [List.foldl_cons, List.foldl_nil]
      split <;> split <;> rfl

/-- A cleanup that fails leaves the listener or a directory behind. -/
lemma post_runCleanup (hfresh : node.Fresh id) (h : Acquired config id node cleanup s)
    (hok : env.Succeeds (releases config) → Q () (released config id cleanup s))
    (herr : ¬env.Succeeds (releases config) → ∀ error s', ¬Restored node s' →
      s'.instances = s.instances → E (.rejected error) s') :
    Post Q E (outcome (runCleanup config env id cleanup) s) := by
  have hsocket : socketDirectory config.kind id ∈ s.directories := by
    rw [h.directories]
    exact Finset.mem_insert_self _ _
  have hworkspace : .workspace id ∈ s.directories := by
    rw [h.directories]
    exact Finset.mem_insert_of_mem (Finset.mem_insert_self _ _)
  unfold runCleanup
  simp only [post_bind, outcome_modify, post_ok]
  apply post_closeEgress
  · intro hclose
    have hreleases : env.Succeeds [socketRemoval config.kind, .rmWorkspace] →
        env.Succeeds (releases config) := by
      intro hremovals operation hmem
      rw [releases, List.mem_append] at hmem
      rcases hmem with hmem | hmem
      · rw [← h.listens] at hmem
        split at hmem
        · rename_i hegress
          rw [List.mem_singleton.mp hmem]
          exact hclose hegress
        · cases hmem
      · exact hremovals operation hmem
    apply post_removeDirectories (s := detached config id cleanup s)
    · rw [detached_directories]
      exact hsocket
    · rw [detached_directories]
      exact hworkspace
    · exact fun hremovals => hok (hreleases hremovals)
    · intro hremovals error s' hleft hsession
      rw [detached_instances] at hsession
      refine herr (fun hall => hremovals fun operation hmem => hall operation ?_) error s' ?_ hsession
      · exact List.mem_append_right _ hmem
      · rcases hleft with hleft | hleft
        · exact not_restored_of_directory hleft (hfresh.socketDirectory _)
        · exact not_restored_of_directory hleft hfresh.workspace
  · intro hegress hclose error
    have hcontrolled : config.controlledEgress = true := h.listens ▸ hegress
    have hmem : Operation.closeEgress ∈ releases config := by simp [releases, hcontrolled]
    refine herr (not_succeeds hmem hclose) error _ ?_ ?_
    · apply not_restored_of_directory _ hfresh.workspace
      unfold deleteEndpoint
      cases config.kind <;> exact hworkspace
    · unfold deleteEndpoint
      cases config.kind <;> rfl

end Cleanup

/-! ### Preparation -/

/-- Only directories and uids have been added. -/
structure Untouched (node s : Node) : Prop where
  images : s.images = node.images
  egress : s.egress = node.egress
  sshEndpoints : s.sshEndpoints = node.sshEndpoints
  processes : s.processes = node.processes
  instances : s.instances = node.instances

section Preparation

variable {E : Failure → Node → Prop} {node s : Node}
variable {config : VmConfig} {env : Environment} {id : String} {spec : RuntimeSpec}

/-- The operations of `command`, other than for the volume. -/
def commandOperations (config : VmConfig) : List Operation :=
  [.accessKernel, .accessRootfs, .mkdirSocket, .copyRootfs] ++ egressOperations config ++
    if config.sshEnabled then [.allocatePort] else []

lemma succeeds_append {first second : List Operation} :
    env.Succeeds (first ++ second) ↔ env.Succeeds first ∧ env.Succeeds second :=
  List.forall_mem_append

lemma Environment.Succeeds.mono {first second : List Operation} (h : env.Succeeds second)
    (hsub : first ⊆ second) : env.Succeeds first :=
  fun operation hmem => h operation (hsub hmem)

lemma post_allocateEndpoint {Q : Unit → Node → Prop}
    (hok : env.Succeeds (if config.sshEnabled then [.allocatePort] else []) → ∀ sshEndpoints,
      Function.update sshEndpoints id none = Function.update s.sshEndpoints id none →
      Q () { s with sshEndpoints := sshEndpoints })
    (herr : ¬env.Succeeds (if config.sshEnabled then [.allocatePort] else []) →
      ∀ error, E (.rejected error) s) :
    Post Q E (outcome (allocateEndpoint config env id) s) := by
  unfold allocateEndpoint
  cases hssh : config.sshEnabled with
  | false =>
    rw [hssh] at hok
    exact hok succeeds_nil s.sshEndpoints rfl
  | true =>
    rw [hssh] at hok herr
    rw [if_pos rfl, post_acquire]
    refine ⟨fun hport => hok ?_ _ (Function.update_idem _ _ _), fun hport => herr ?_ _⟩
    · rw [if_pos rfl, succeeds_cons]
      exact ⟨hport, succeeds_nil⟩
    · exact not_succeeds List.mem_cons_self hport

/-- `command`, after the directory of the workspace has been made. -/
lemma post_command {Q : Cleanup → Node → Prop} (hkind : config.kind = .qemu)
    (hfresh : node.Fresh spec.id) (hu : Untouched node s) (huids : s.allocatedUids = node.allocatedUids)
    (hdirectories : s.directories = insert (.workspace spec.id) node.directories)
    (hok : env.Succeeds (commandOperations config) → VolumeReady env node.images spec.storage →
      ∀ cleanup t, Acquired config spec.id node cleanup t → t.processes = node.processes →
      t.instances = node.instances → Q cleanup t)
    (herr : ¬(env.Succeeds (commandOperations config) ∧ VolumeReady env node.images spec.storage) →
      ∀ error t, .workspace spec.id ∈ t.directories → t.instances = node.instances →
      E (.rejected error) t) :
    Post Q E (outcome (command config env spec) s) := by
  have hmem : .workspace spec.id ∈ s.directories := by
    rw [hdirectories]
    exact Finset.mem_insert_self _ _
  have hmem' : .workspace spec.id ∈ insert (.socket spec.id) s.directories :=
    Finset.mem_insert_of_mem hmem
  have hfails : ∀ {operations}, ¬env.Succeeds operations → operations ⊆ commandOperations config →
      ∀ error t, .workspace spec.id ∈ t.directories → t.instances = node.instances →
      E (.rejected error) t :=
    fun hnot hsub => herr fun h => hnot (h.1.mono hsub)
  have hfail : ∀ {operation}, env.fails operation = true → operation ∈ commandOperations config →
      ∀ error t, .workspace spec.id ∈ t.directories → t.instances = node.instances →
      E (.rejected error) t :=
    fun h hop => herr fun hall => not_succeeds hop h hall.1
  unfold command
  rw [post_bind]
  apply post_attemptAll
  · intro haccess
    rw [post_bind, post_acquire]
    refine ⟨fun hmkdir => ?_, fun h => hfail h (by simp [commandOperations]) _ _ hmem hu.instances⟩
    rw [post_bind, post_perform]
    refine ⟨fun hcopy => ?_, fun h => hfail h (by simp [commandOperations]) _ _ hmem' hu.instances⟩
    rw [post_bind]
    apply post_prepareVolume
    · intro hvolume images himages
      rw [post_bind]
      apply post_startEgress
      · intro hegress egress hopened
        rw [post_bind]
        apply post_allocateEndpoint
        · intro hport sshEndpoints hssh
          refine hok ?_ (hu.images ▸ hvolume) _ _ ⟨?_, rfl, ?_, ?_, huids, ?_⟩ hu.processes hu.instances
          · unfold commandOperations
            rw [succeeds_append, succeeds_append]
            refine ⟨⟨?_, hegress⟩, hport⟩
            simp only [succeeds_cons, succeeds_nil, and_true] at haccess ⊢
            exact ⟨haccess.1, haccess.2, hmkdir, hcopy⟩
          · rw [hkind, ← hdirectories]
            rfl
          · rw [hopened, ← hu.egress]
            rfl
          · rw [hkind, ← hu.sshEndpoints]
            refine hssh.trans ?_
            have hnone : s.sshEndpoints spec.id = none := by
              rw [hu.sshEndpoints]
              exact hfresh.sshEndpoint
            exact (Function.update_eq_self_iff.mpr hnone.symm)
          · exact hu.images ▸ himages
        · exact fun hnot error =>
            hfails hnot (List.subset_append_right _ _) _ _ hmem' hu.instances
      · exact fun hnot error egress => hfails hnot (List.Subset.trans
          (List.subset_append_right _ _) (List.subset_append_left _ _)) _ _ hmem' hu.instances
    · exact fun hnot error images _ => herr (fun h => hnot (hu.images ▸ h.2)) _ _ hmem' hu.instances
  · exact fun hnot error => hfails hnot (by simp [commandOperations]) _ _ hmem hu.instances

lemma Untouched.restored (hu : Untouched node s) (huids : s.allocatedUids = node.allocatedUids)
    (hdirectories : s.directories = node.directories) : Restored node s :=
  ⟨hdirectories, hu.egress, hu.sshEndpoints, huids, hu.processes, fun _ _ h => hu.images ▸ h⟩

/-- The `catch` block around the configuration of the machine. -/
lemma post_writeConfig (operations : List Operation) {Q : Unit → Node → Prop} {body : Create Unit}
    {egress : Bool}
    (hbody : ∀ E' : Failure → Node → Prop, (env.Succeeds operations → Q () s) →
      (¬env.Succeeds operations → ∀ error, E' (.rejected error) s) → Post Q E' (outcome body s))
    (hok : env.Succeeds operations → Q () s)
    (herr : ¬env.Succeeds operations → ∀ error egress, E (.rejected error) { s with egress := egress }) :
    Post Q E (outcome (rescue body fun error => do
      closeEgress env id egress
      reject error) s) := by
  rw [post_rescue]
  refine hbody _ hok fun hnot error => ?_
  simp only [post_bind]
  apply post_closeEgress
  · intro _
    rw [post_reject]
    cases egress with
    | true => exact herr hnot error _
    | false => exact herr hnot error s.egress
  · exact fun _ _ error => herr hnot error s.egress

lemma post_prepareDirect {Q : Cleanup → Node → Prop} (hkind : config.kind = .firecracker false)
    (hfresh : node.Fresh spec.id) (hu : Untouched node s) (huids : s.allocatedUids = node.allocatedUids)
    (hdirectories : s.directories = node.directories)
    (hok : env.Succeeds (preparation config) → VolumeReady env node.images spec.storage →
      ∀ cleanup t, Acquired config spec.id node cleanup t → t.processes = node.processes →
      t.instances = node.instances → Q cleanup t)
    (herr : ¬(env.Succeeds (preparation config) ∧ VolumeReady env node.images spec.storage) →
      ∀ error t, (Restored node t ↔ env.fails .mkdirWorkspace = true ∧ env.fails .mkdirSocket = true) →
      t.instances = node.instances → E (.rejected error) t) :
    Post Q E (outcome (prepareDirect config env spec) s) := by
  have hpreparation : preparation config =
      [.mkdirWorkspace, .mkdirSocket, .copyRootfs] ++ egressOperations config ++ [.writeConfig] := by
    simp [preparation, hkind]
  rw [hpreparation] at hok herr
  unfold prepareDirect
  rw [post_bind]
  apply post_performAll
  · intro hmkdir
    simp only [List.map_cons, List.map_nil, succeeds_cons, succeeds_nil, and_true] at hmkdir
    -- From here on a failure leaves the directory of the workspace.
    have hmade : ∀ t : Node, .workspace spec.id ∈ t.directories →
        (Restored node t ↔ env.fails .mkdirWorkspace = true ∧ env.fails .mkdirSocket = true) := by
      intro t ht
      have hnot : ¬Restored node t := not_restored_of_directory ht hfresh.workspace
      simp [hnot, hmkdir.1]
    have hmem : .workspace spec.id ∈ insert (.socket spec.id) (insert (.workspace spec.id) s.directories) :=
      Finset.mem_insert_of_mem (Finset.mem_insert_self _ _)
    simp only [List.foldl_cons, List.foldl_nil]
    rw [post_bind, post_perform]
    refine ⟨fun hcopy => ?_, fun hcopy => herr (fun h => ?_) _ _ (hmade _ hmem) hu.instances⟩
    · rw [post_bind]
      apply post_prepareVolume
      · intro hvolume images himages
        rw [post_bind]
        apply post_startEgress
        · intro hegress egress hopened
          rw [post_bind]
          apply post_writeConfig [.writeConfig]
          · intro E' hok' herr'
            rw [post_perform]
            exact ⟨fun h => hok' (succeeds_cons.mpr ⟨h, succeeds_nil⟩),
              fun h => herr' (not_succeeds List.mem_cons_self h) _⟩
          · intro hwrite
            refine hok ?_ (hu.images ▸ hvolume) _ _ ⟨?_, rfl, ?_, ?_, huids, ?_⟩ hu.processes
              hu.instances
            · rw [succeeds_append, succeeds_append]
              refine ⟨⟨?_, hegress⟩, hwrite⟩
              simp only [succeeds_cons, succeeds_nil, and_true]
              exact ⟨hmkdir.1, hmkdir.2, hcopy⟩
            · rw [hkind, ← hdirectories]
              rfl
            · rw [hopened, ← hu.egress]
              rfl
            · rw [hkind]
              exact hu.sshEndpoints
            · exact hu.images ▸ himages
          · intro hnot error egress
            refine herr (fun h => hnot (h.1.mono ?_)) _ _ (hmade _ hmem) hu.instances
            exact List.subset_append_right _ _
        · intro hnot error egress
          refine herr (fun h => hnot (h.1.mono ?_)) _ _ (hmade _ hmem) hu.instances
          exact List.Subset.trans (List.subset_append_right _ _) (List.subset_append_left _ _)
      · exact fun hnot error images _ =>
          herr (fun h => hnot (hu.images ▸ h.2)) _ _ (hmade _ hmem) hu.instances
    · exact not_succeeds (by simp) hcopy h.1
  · intro hnot error
    refine herr (fun h => hnot (h.1.mono ?_)) error _ ?_ ?_
    · simp
    · simp only [List.foldl_cons, List.foldl_nil]
      cases hworkspace : env.fails .mkdirWorkspace with
      | true =>
        cases hsocket : env.fails .mkdirSocket with
        | true => simpa using hu.restored huids hdirectories
        | false =>
          have hmem : .socket spec.id ∈ (s.makeDirectory (.socket spec.id)).directories :=
            Finset.mem_insert_self _ _
          simpa using not_restored_of_directory hmem hfresh.socket
      | false =>
        have hmem : ∀ t : Node, .workspace spec.id ∈
            (if env.fails .mkdirSocket = true then t.makeDirectory (.workspace spec.id)
              else (t.makeDirectory (.workspace spec.id)).makeDirectory (.socket spec.id)).directories := by
          intro t
          split
          · exact Finset.mem_insert_self _ _
          · exact Finset.mem_insert_of_mem (Finset.mem_insert_self _ _)
        simpa using not_restored_of_directory (hmem s) hfresh.workspace
    · simp only [List.foldl_cons, List.foldl_nil]
      split <;> split <;> exact hu.instances

/-- A machine behind the jailer has no volume. -/
lemma post_prepareJail {Q : Cleanup → Node → Prop} {uid : ℕ}
    (hkind : config.kind = .firecracker true) (hnew : uid ∉ node.allocatedUids)
    (hu : Untouched node s) (huids : s.allocatedUids = insert uid node.allocatedUids)
    (hdirectories : s.directories = node.directories)
    (hok : env.Succeeds (preparation config) → ∀ cleanup t, Acquired config spec.id node cleanup t →
      t.processes = node.processes → t.instances = node.instances → Q cleanup t)
    (herr : ¬env.Succeeds (preparation config) → ∀ error t, ¬Restored node t →
      t.instances = node.instances → E (.rejected error) t) :
    Post Q E (outcome (prepareJail config env spec uid) s) := by
  have hpreparation : preparation config = [.mkdirWorkspace, .mkdirRun] ++ ([.copyRootfs, .copyKernel] ++
      ([.chownRoot, .chownRun, .chownRootfs, .chownKernel] ++ (egressOperations config ++
        [.writeConfig, .chownConfig]))) := by
    simp [preparation, hkind]
  rw [hpreparation] at hok herr
  simp only [succeeds_append] at hok herr
  have hleft : ∀ t : Node, t.allocatedUids = insert uid node.allocatedUids → ¬Restored node t := by
    intro t ht hr
    apply hnew
    rw [← hr.allocatedUids, ht]
    exact Finset.mem_insert_self _ _
  unfold prepareJail
  rw [post_bind]
  apply post_performAll
  · intro hmkdir
    simp only [List.foldl_cons, List.foldl_nil]
    rw [post_bind]
    apply post_attemptAll
    · intro hcopy
      rw [post_bind]
      apply post_attemptAll
      · intro hchown
        rw [post_bind]
        apply post_startEgress
        · intro hegress egress hopened
          rw [post_bind]
          apply post_writeConfig [.writeConfig, .chownConfig]
          · intro E' hok' herr'
            rw [post_bind, post_perform]
            refine ⟨fun hwrite => ?_, fun h => herr' (not_succeeds (by simp) h) _⟩
            rw [post_perform]
            refine ⟨fun hchown => hok' ?_, fun h => herr' (not_succeeds (by simp) h) _⟩
            simp [succeeds_cons, hwrite, hchown]
          · intro hwrite
            refine hok ⟨hmkdir, hcopy, hchown, hegress, hwrite⟩ _ _ ⟨?_, rfl, ?_, ?_, ?_, ?_⟩
              hu.processes hu.instances
            · rw [hkind, ← hdirectories]
              rfl
            · rw [hopened, ← hu.egress]
              rfl
            · rw [hkind]
              exact hu.sshEndpoints
            · change s.allocatedUids.erase uid = node.allocatedUids
              rw [huids, Finset.erase_insert hnew]
            · exact fun _ _ h => hu.images ▸ h
          · exact fun hnot error egress => herr (fun h => hnot h.2.2.2.2) _ _ (hleft _ huids) hu.instances
        · exact fun hnot error egress => herr (fun h => hnot h.2.2.2.1) _ _ (hleft _ huids) hu.instances
      · exact fun hnot error => herr (fun h => hnot h.2.2.1) _ _ (hleft _ huids) hu.instances
    · exact fun hnot error => herr (fun h => hnot h.2.1) _ _ (hleft _ huids) hu.instances
  · intro hnot error
    refine herr (fun h => hnot h.1) error _ (hleft _ ?_) ?_
    · simp only [List.foldl_cons, List.foldl_nil]
      split <;> split <;> exact huids
    · simp only [List.foldl_cons, List.foldl_nil]
      split <;> split <;> exact hu.instances

end Preparation

/-! ### The machine -/

/-- No session of the id runs. -/
def Node.Idle (node : Node) (id : String) : Prop :=
  ∀ cleanup, node.instances id ≠ some ⟨.running, cleanup⟩

section Machine

variable {Q : Unit → Node → Prop} {E : Failure → Node → Prop} {node s : Node}
variable {config : VmConfig} {env : Environment} {id : String} {cleanup : Cleanup}

lemma idle_leave {state : InstanceState} (h : state ≠ .running) : (s.leave id state cleanup).Idle id := by
  intro other heq
  simp only [Node.leave, Function.update_self, Option.some.injEq, Instance.mk.injEq] at heq
  exact h heq.1

lemma post_stop_idle (h : s.Idle id) : Post Q E (outcome (stop config env id) s) ↔ Q () s := by
  unfold stop
  simp only [post_bind, outcome_get, post_ok]
  split
  · rename_i cleanup hsession
    exact absurd hsession (h cleanup)
  · rfl

/-- A machine that is entered in the table, and what its process holds besides. -/
structure Entered (config : VmConfig) (id : String) (node : Node) (cleanup : Cleanup) (s : Node) : Prop
    where
  acquired : Acquired config id node cleanup s
  session : s.instances id = some ⟨.running, cleanup⟩
  processes : s.processes.erase id = node.processes

lemma Entered.leave (h : Entered config id node cleanup s) (state : InstanceState) :
    Acquired config id node cleanup (s.leave id state cleanup) ∧
      (s.leave id state cleanup).processes = node.processes :=
  ⟨h.acquired.congr rfl rfl rfl rfl rfl, h.processes⟩

lemma Acquired.not_restored (h : Acquired config id node cleanup s) (hfresh : node.Fresh id) :
    ¬Restored node s := by
  apply not_restored_of_directory _ hfresh.workspace
  rw [h.directories]
  exact Finset.mem_insert_of_mem (Finset.mem_insert_self _ _)

lemma post_stop_entered (hfresh : node.Fresh id) (h : Entered config id node cleanup s)
    (hok : env.Succeeds (releases config) → ∀ t, Restored node t → Q () t)
    (herr : ¬env.Succeeds (releases config) → ∀ error t, ¬Restored node t → E (.rejected error) t) :
    Post Q E (outcome (stop config env id) s) := by
  obtain ⟨hacquired, hprocesses⟩ := h.leave .stopped
  unfold stop
  simp only [post_bind, outcome_get, post_ok, h.session, outcome_modify]
  apply post_runCleanup hfresh hacquired
  · exact fun hreleases => hok hreleases _ (hacquired.restored hfresh hprocesses)
  · exact fun hfails error t hleft _ => herr hfails error t hleft

/-- The wait ends with the guest, with a machine that still runs, or with one whose session has ended. -/
lemma post_waitForGuestControl (hfresh : node.Fresh id) (h : Entered config id node cleanup s)
    (hkind : ∀ event, env.boot = .notStarted event → config.kind ≠ .qemu)
    (hok : Q () s)
    (hsilent : ∀ lastError error, env.boot = .silent lastError → E (.rejected error) s)
    (hidle : ∀ error t, t.Idle id → (Restored node t ↔
      env.boot.isCleanedUp config.kind = true ∧ env.Succeeds (releases config)) → E (.rejected error) t)
    (hunsettled : ∀ t, E .unsettled t) :
    Post Q E (outcome (waitForGuestControl config env id) s) := by
  unfold waitForGuestControl
  simp only [post_bind, outcome_get, post_ok, h.session]
  cases hboot : env.boot with
  | ready => exact hok
  | silent lastError => exact hsilent lastError _ hboot
  | notStarted event =>
    simp only [post_bind, outcome_modify, post_ok, post_reject]
    refine hidle _ _ (idle_leave (by simp)) ?_
    have hnot := (h.leave .failed).1.not_restored hfresh
    simp [hnot, hboot, Boot.isCleanedUp, hkind event hboot]
  | exits success cleanedUp =>
    have hstate : (if success then InstanceState.stopped else .failed) ≠ .running := by
      cases success <;> simp
    obtain ⟨hacquired, hprocesses⟩ := h.leave (if success then .stopped else .failed)
    simp only [post_bind, outcome_modify, post_ok]
    cases cleanedUp with
    | false =>
      refine hidle _ _ (idle_leave hstate) ?_
      have hnot := hacquired.not_restored hfresh
      simp [hnot, hboot, Boot.isCleanedUp]
    | true =>
      rw [if_pos rfl, post_bind, post_detach]
      apply post_runCleanup hfresh hacquired
      · intro hreleases
        have hrestored := hacquired.restored hfresh hprocesses
        refine hidle _ _ ?_ ?_
        · intro other
          rw [released_eq]
          exact idle_leave hstate other
        · simp [hrestored, hboot, Boot.isCleanedUp, hreleases]
      · exact fun _ _ _ _ _ => hunsettled _

end Machine

/-! ### The calls -/

/-- What is claimed of a call that rejects. -/
def Judged (config : VmConfig) (env : Environment) (spec : RuntimeSpec) (node : Node) :
    Failure → Node → Prop
  | .rejected _, s => Restored node s ↔ LeavesNothing config env spec node
  | .unsettled, _ => True

section Calls

variable {node s : Node} {config : VmConfig} {env : Environment} {spec : RuntimeSpec}

lemma restored_setStorage {storage : Option RuntimeStorage} {id : String} :
    Restored node (s.setStorage id storage) ↔ Restored node s :=
  ⟨fun h => ⟨h.directories, h.egress, h.sshEndpoints, h.allocatedUids, h.processes, h.images⟩,
    fun h => ⟨h.directories, h.egress, h.sshEndpoints, h.allocatedUids, h.processes, h.images⟩⟩

lemma restored_refl (node : Node) : Restored node node := ⟨rfl, rfl, rfl, rfl, rfl, Keeps.refl _⟩

lemma judged_of_refused {error : CreateError} (h : Refused config env spec) (hr : Restored node s) :
    Judged config env spec node (.rejected error) s :=
  iff_of_true hr (.inl h)

/-- A call that is not refused is judged by what has become of the machine. -/
lemma leavesNothing_iff (h : ¬Refused config env spec) : LeavesNothing config env spec node ↔
    Prepares config env spec node ∧ env.boot.isCleanedUp config.kind = true ∧
      env.Succeeds (releases config) :=
  or_iff_right h

section Qemu

variable {error : CreateError}

lemma post_catchQemu_idle {Q : Unit → Node → Prop} (hidle : s.Idle spec.id)
    (h : Restored node s ↔ LeavesNothing config env spec node) :
    Post Q (Judged config env spec node) (outcome (catchQemu config env spec.id error) s) := by
  unfold catchQemu
  rw [post_bind, post_rescue, post_stop_idle hidle]
  simp only [post_bind, outcome_modify, post_ok, post_reject]
  exact restored_setStorage.trans h

lemma post_catchQemu_entered {Q : Unit → Node → Prop} {cleanup : Cleanup} (hfresh : node.Fresh spec.id)
    (h : Entered config spec.id node cleanup s)
    (hleaves : LeavesNothing config env spec node ↔ env.Succeeds (releases config)) :
    Post Q (Judged config env spec node) (outcome (catchQemu config env spec.id error) s) := by
  unfold catchQemu
  rw [post_bind, post_rescue]
  apply post_stop_entered hfresh h
  · intro hreleases t ht
    simp only [post_bind, outcome_modify, post_ok, post_reject]
    exact iff_of_true (restored_setStorage.mpr ht) (hleaves.mpr hreleases)
  · intro hfails _ t ht
    simp only [post_bind, outcome_modify, post_ok, post_reject, outcome_pure]
    exact iff_of_false (fun hr => ht (restored_setStorage.mp hr)) (fun hl => hfails (hleaves.mp hl))

/-- Where `QemuRuntime.create` is not refused its preparation decides. -/
lemma prepares_iff_of_qemu (hkind : config.kind = .qemu) (hmkdir : env.fails .mkdirWorkspace = false) :
    Prepares config env spec node ↔
      env.Succeeds (commandOperations config) ∧ VolumeReady env node.images spec.storage := by
  have hpreparation : preparation config = .mkdirWorkspace :: commandOperations config := by
    simp [preparation, commandOperations, hkind]
  unfold Prepares
  rw [hpreparation, succeeds_cons]
  simp [hmkdir]

lemma post_createQemu {Q : Unit → Node → Prop} (hkind : config.kind = .qemu)
    (hfresh : node.Fresh spec.id) (hQ : ∀ s, Q () s) :
    Post Q (Judged config env spec node) (outcome (createQemu config env spec) node) := by
  unfold createQemu
  rw [post_bind, post_liftData]
  refine ⟨fun _ hvalid => ?_, fun error hinvalid => ?_⟩
  · simp only [post_bind, outcome_modify, post_ok]
    rw [post_rescue, post_bind]
    have hidle : ∀ {t : Node}, t.instances = node.instances → t.Idle spec.id := by
      intro t ht cleanup
      rw [ht, hfresh.session]
      simp
    -- The call is refused before it has made a directory.
    have hrefused : Refused config env spec → ∀ error,
        Post Q (Judged config env spec node) (outcome (catchQemu config env spec.id error)
          (node.setStorage spec.id (some spec.storage))) := by
      intro hr error
      refine post_catchQemu_idle (hidle ?_) ?_
      · rfl
      · exact iff_of_true (restored_setStorage.mpr (restored_refl node)) (.inl hr)
    unfold createTerminal
    simp only [post_bind, post_check, outcome_get, post_ok]
    refine ⟨fun hid => ⟨fun hlease => ?_, fun hlease => ?_⟩, fun hid => ?_⟩
    · have hnone : (node.setStorage spec.id (some spec.storage)).instances spec.id = none :=
        hfresh.session
      rw [hnone, if_neg (by simp)]
      simp only [post_bind, post_acquire]
      refine ⟨fun hmkdir => ?_, fun hmkdir => ?_⟩
      · have hnot : ¬Refused config env spec := by
          unfold Refused
          rw [hkind] at hvalid ⊢
          simp [hid, hvalid, hmkdir, of_decide_eq_true hlease]
        have hleaves : LeavesNothing config env spec node ↔ _ :=
          (leavesNothing_iff hnot).trans (and_congr_left' (prepares_iff_of_qemu hkind hmkdir))
        refine post_command hkind hfresh ⟨?_, ?_, ?_, ?_, ?_⟩ ?_ ?_ ?_ ?_
        iterate 7 rfl
        · intro hoperations hvolume cleanup t hacquired hprocesses hsession
          have hdone := hleaves.trans (and_iff_right ⟨hoperations, hvolume⟩)
          unfold spawnTerminal
          split
          · rename_i event hboot
            have hcleaned : env.boot.isCleanedUp config.kind = true := by
              simp [hboot, hkind, Boot.isCleanedUp]
            simp only [post_bind]
            apply post_runCleanup hfresh hacquired
            · intro hreleases
              apply post_catchQemu_idle
              · apply hidle
                rw [released_eq]
                exact hsession
              · exact iff_of_true (hacquired.restored hfresh hprocesses) (hdone.mpr ⟨hcleaned, hreleases⟩)
            · intro hfails error t' hleft hsession'
              apply post_catchQemu_idle (hidle (hsession'.trans hsession))
              exact iff_of_false hleft (fun hl => hfails (hdone.mp hl).2)
          · rename_i hboot
            have hentered : Entered config spec.id node cleanup (t.enter spec.id true cleanup) := by
              refine ⟨hacquired.congr rfl rfl rfl rfl rfl, ?_, ?_⟩
              · simp [Node.enter]
              · simp [Node.enter, hprocesses, Finset.erase_insert hfresh.process]
            simp only [outcome_modify, post_ok]
            apply post_waitForGuestControl hfresh hentered
            · exact fun event h => absurd h (hboot event)
            · exact hQ _
            · intro lastError error hsilent
              apply post_catchQemu_entered hfresh hentered
              exact hdone.trans (and_iff_right (by simp [hsilent, Boot.isCleanedUp]))
            · exact fun error t' hidle' hrestored => post_catchQemu_idle hidle' (hrestored.trans hdone.symm)
            · exact fun _ => trivial
        · intro hfails error t hmem hsession
          apply post_catchQemu_idle (hidle hsession)
          apply iff_of_false
          · exact not_restored_of_directory hmem hfresh.workspace
          · exact fun hl => hfails (hleaves.mp hl).1
      · apply hrefused
        unfold Refused
        rw [hkind]
        exact .inr (.inr (.inr hmkdir))
    · apply hrefused
      exact .inr (.inl (by simpa using hlease))
    · exact hrefused (.inl hid) _
  · apply judged_of_refused _ (restored_refl node)
    right; right; left
    rw [hinvalid]
    simp

end Qemu

section Firecracker

/-- The call passes the checks of its arguments. -/
structure Checked (config : VmConfig) (env : Environment) (spec : RuntimeSpec) : Prop where
  id : isWorkspaceId spec.id = true
  lease : env.now < spec.leaseExpiresAt
  storage : validateStorage config.kind config.dataDir spec.storage = .ok ()

lemma Checked.refused_direct (h : Checked config env spec) (hkind : config.kind = .firecracker false) :
    Refused config env spec ↔ ¬env.Succeeds (accesses false) ∨
      env.fails .mkdirWorkspace = true ∧ env.fails .mkdirSocket = true := by
  have hstorage := h.storage
  unfold Refused
  rw [hkind] at hstorage ⊢
  simp [h.id, h.lease, hstorage]

lemma Checked.refused_jailed (h : Checked config env spec) (hkind : config.kind = .firecracker true) :
    Refused config env spec ↔ ¬env.Succeeds (accesses true) ∨ env.privileged = false := by
  have hstorage := h.storage
  unfold Refused
  rw [hkind] at hstorage ⊢
  simp [h.id, h.lease, hstorage]

lemma volumeReady_of_jailed (hkind : config.kind = .firecracker true)
    (h : validateStorage config.kind config.dataDir spec.storage = .ok ()) :
    VolumeReady env node.images spec.storage := by
  intro hmode
  rw [hkind] at h
  unfold validateStorage at h
  rw [hmode] at h
  dsimp only at h
  cases hvolume : volumeDirectory config.dataDir (spec.storage.volumeId.getD "") with
  | ok directory => simp [hvolume, bind, Except.bind, throw, throwThe, MonadExceptOf.throw] at h
  | error error => simp [hvolume, bind, Except.bind] at h

lemma post_prepare {Q : Cleanup → Node → Prop} {E : Failure → Node → Prop} {jailed : Bool}
    (hkind : config.kind = .firecracker jailed) (hchecked : Checked config env spec)
    (hfresh : node.Fresh spec.id) (hu : Untouched node s) (huids : s.allocatedUids = node.allocatedUids)
    (hdirectories : s.directories = node.directories)
    (hok : ¬Refused config env spec → Prepares config env spec node → ∀ cleanup t,
      Acquired config spec.id node cleanup t → t.processes = node.processes →
      t.instances = node.instances → Q cleanup t)
    (herr : ∀ error t, (Restored node t ↔ LeavesNothing config env spec node) →
      t.instances = node.instances → E (.rejected error) t)
    (hunsettled : ∀ t, E .unsettled t) :
    Post Q E (outcome (prepare config env spec jailed) s) := by
  have hrestored := hu.restored huids hdirectories
  unfold prepare accessPrograms
  rw [post_bind]
  cases jailed with
  | false =>
    have hrefused := hchecked.refused_direct hkind
    apply post_attemptAll
    · intro haccess
      have hrefused' : Refused config env spec ↔
          env.fails .mkdirWorkspace = true ∧ env.fails .mkdirSocket = true :=
        hrefused.trans (or_iff_right (not_not_intro haccess))
      apply post_prepareDirect hkind hfresh hu huids hdirectories
      · intro hoperations hvolume
        refine hok (fun hr => ?_) ⟨hoperations, hvolume⟩
        apply not_succeeds _ (hrefused'.mp hr).1 hoperations
        simp [preparation, hkind]
      · intro hfails error t ht hsession
        refine herr error t ?_ hsession
        rw [ht, ← hrefused']
        exact (or_iff_left fun h => hfails h.1).symm
    · intro hfails error
      exact herr error s (iff_of_true hrestored (.inl (hrefused.mpr (.inl hfails)))) hu.instances
  | true =>
    have hrefused := hchecked.refused_jailed hkind
    apply post_attemptAll
    · intro haccess
      simp only [if_true, prepareJailed, post_bind, post_check, outcome_get, post_ok]
      refine ⟨fun hprivileged => ?_, fun hprivileged => ?_⟩
      · have hnot : ¬Refused config env spec := by
          rw [hrefused]
          simp [hprivileged, show env.Succeeds (accesses true) from haccess]
        cases huid : takeUid s.allocatedUids spec.id with
        | none => exact hunsettled s
        | some uid =>
          have hnew : uid ∉ node.allocatedUids := by
            rw [← huids]
            exact FirecrackerRuntime.probe_not_mem huid
          simp only [post_bind, outcome_modify, post_ok]
          refine post_prepareJail hkind hnew ⟨hu.images, hu.egress, hu.sshEndpoints, hu.processes,
            hu.instances⟩ ?_ hdirectories ?_ ?_
          · rw [← huids]
            rfl
          · exact fun hoperations => hok hnot ⟨hoperations, volumeReady_of_jailed hkind hchecked.storage⟩
          · intro hfails error t ht hsession
            refine herr error t (iff_of_false ht fun hl => ?_) hsession
            exact hfails ((leavesNothing_iff hnot).mp hl).1.1
      · have hr : Refused config env spec := hrefused.mpr (.inr hprivileged)
        exact herr _ s (iff_of_true hrestored (.inl hr)) hu.instances
    · intro hfails error
      exact herr error s (iff_of_true hrestored (.inl (hrefused.mpr (.inl hfails)))) hu.instances

lemma post_catchFirecracker_idle {Q : Unit → Node → Prop} {error : CreateError}
    (hidle : s.Idle spec.id) (h : Restored node s ↔ LeavesNothing config env spec node) :
    Post Q (Judged config env spec node) (outcome (catchFirecracker config env spec.id error) s) := by
  unfold catchFirecracker
  rw [post_bind, post_stop_idle hidle]
  simp only [post_bind, outcome_modify, post_ok, post_reject]
  exact restored_setStorage.trans h

lemma post_catchFirecracker_entered {Q : Unit → Node → Prop} {error : CreateError} {cleanup : Cleanup}
    (hfresh : node.Fresh spec.id) (h : Entered config spec.id node cleanup s)
    (hleaves : LeavesNothing config env spec node ↔ env.Succeeds (releases config)) :
    Post Q (Judged config env spec node) (outcome (catchFirecracker config env spec.id error) s) := by
  unfold catchFirecracker
  rw [post_bind]
  apply post_stop_entered hfresh h
  · intro hreleases t ht
    simp only [post_bind, outcome_modify, post_ok, post_reject]
    exact iff_of_true (restored_setStorage.mpr ht) (hleaves.mpr hreleases)
  · exact fun hfails _ t ht => iff_of_false ht (fun hl => hfails (hleaves.mp hl))

/-- A machine that is prepared is entered in the table, or its spawn throws and nobody cleans up. -/
lemma post_spawnProcess {Q : Unit → Node → Prop} {E : Failure → Node → Prop} {cleanup : Cleanup}
    (hfresh : node.Fresh spec.id) (hacquired : Acquired config spec.id node cleanup s)
    (hprocesses : s.processes = node.processes)
    (hok : ∀ t, Entered config spec.id node cleanup t → Q () t)
    (herr : env.boot = .notStarted false → ∀ error, E (.rejected error) s) :
    Post Q E (outcome (spawnProcess env spec.id cleanup) s) := by
  have hentered : ∀ live, Entered config spec.id node cleanup (s.enter spec.id live cleanup) := by
    intro live
    refine ⟨hacquired.congr rfl rfl rfl rfl rfl, by simp [Node.enter], ?_⟩
    cases live with
    | true => simp [Node.enter, hprocesses, Finset.erase_insert hfresh.process]
    | false => simp [Node.enter, hprocesses, Finset.erase_eq_of_notMem hfresh.process]
  unfold spawnProcess
  split
  · rename_i event hboot
    cases event with
    | true => exact hok _ (hentered false)
    | false => exact herr hboot _
  · exact hok _ (hentered true)

lemma post_createMachine {Q : Unit → Node → Prop} {jailed : Bool}
    (hkind : config.kind = .firecracker jailed) (hchecked : Checked config env spec)
    (hfresh : node.Fresh spec.id) (hQ : ∀ s, Q () s) :
    Post Q (Judged config env spec node) (outcome (createMachine config env spec jailed) node) := by
  have hidle : ∀ {t : Node}, t.instances = node.instances → t.Idle spec.id := by
    intro t ht cleanup
    rw [ht, hfresh.session]
    simp
  unfold createMachine
  simp only [post_bind, outcome_modify, post_ok]
  rw [post_rescue]
  refine post_prepare hkind hchecked hfresh ⟨?_, ?_, ?_, ?_, ?_⟩ ?_ ?_ ?_ ?_ ?_
  iterate 7 rfl
  · intro hnot hprepares cleanup t hacquired hprocesses hsession
    have hdone := (leavesNothing_iff hnot).trans (and_iff_right hprepares)
    apply post_spawnProcess hfresh hacquired hprocesses
    · intro t' hentered
      rw [post_rescue]
      apply post_waitForGuestControl hfresh hentered
      · intro event _
        rw [hkind]
        simp
      · exact hQ _
      · intro lastError error hsilent
        apply post_catchFirecracker_entered hfresh hentered
        exact hdone.trans (and_iff_right (by simp [hsilent, Boot.isCleanedUp]))
      · exact fun error t' hidle' hrestored =>
          post_catchFirecracker_idle hidle' (hrestored.trans hdone.symm)
      · exact fun _ => trivial
    · intro hboot error
      apply iff_of_false (hacquired.not_restored hfresh)
      intro hl
      have hcleaned := (hdone.mp hl).1
      rw [hboot, hkind] at hcleaned
      cases hcleaned
  · intro error t ht hsession
    simp only [post_bind, outcome_modify, post_ok, post_reject]
    exact restored_setStorage.trans ht
  · exact fun _ => trivial

lemma post_createFirecracker {Q : Unit → Node → Prop} {jailed : Bool}
    (hkind : config.kind = .firecracker jailed) (hfresh : node.Fresh spec.id) (hQ : ∀ s, Q () s) :
    Post Q (Judged config env spec node) (outcome (createFirecracker config env spec jailed) node) := by
  have hrefused : ∀ error, Refused config env spec → Judged config env spec node (.rejected error) node :=
    fun error h => judged_of_refused h (restored_refl node)
  unfold createFirecracker
  simp only [post_bind, post_check, outcome_get, post_ok, hfresh.session]
  refine ⟨fun hid => ⟨fun hlease => ?_, fun hlease => ?_⟩, fun hid => ?_⟩
  · rw [if_neg (by simp), post_bind, post_liftData]
    refine ⟨fun _ hvalid => ?_, fun error hinvalid => ?_⟩
    · exact post_createMachine hkind ⟨hid, of_decide_eq_true hlease, hvalid⟩ hfresh hQ
    · apply hrefused
      right; right; left
      rw [hinvalid]
      simp
  · exact hrefused _ (.inr (.inl (by simpa using hlease)))
  · exact hrefused _ (.inl hid)

end Firecracker

/-- A create of a fresh workspace that rejects leaves the node as it was if and only if it is refused
before it acquires anything, or its machine has been prepared and its cleanup is awaited and succeeds. -/
theorem restored_iff_leavesNothing {error : CreateError} (hfresh : node.Fresh spec.id)
    (h : outcome (create config env spec) node = (.error (.rejected error), s)) :
    Restored node s ↔ LeavesNothing config env spec node := by
  have hpost : Post (fun _ _ => True) (Judged config env spec node)
      (outcome (create config env spec) node) := by
    unfold create
    split
    · rename_i hkind
      exact post_createQemu hkind hfresh fun _ => trivial
    · rename_i jailed hkind
      exact post_createFirecracker hkind hfresh fun _ => trivial
  rw [h] at hpost
  exact hpost

end Calls

/-! ### Runs -/

/-- A node without workspaces. -/
def emptyNode : Node := ⟨∅, fun _ => none, ∅, fun _ => none, ∅, ∅, fun _ => none, fun _ => none⟩

lemma fresh_emptyNode (id : String) : emptyNode.Fresh id := by
  refine ⟨?_, ?_, ?_, ?_, rfl, ?_, rfl⟩ <;> exact Finset.notMem_empty _

/-- A guest that never answers, on a node where the given operations fail. -/
def silentBoot (failing : List Operation) : Environment :=
  ⟨0, fun operation => operation ∈ failing, 0, fun _ => 0, 40000, true, .silent "timeout"⟩

def qemuConfig : VmConfig := ⟨.qemu, "data", true, true⟩

def workspaceSpec : RuntimeSpec :=
  FirecrackerRuntime.disposableSpec "00000000-0000-4000-8000-000000000001"

/-- A guest that does not answer is stopped, and its cleanup is awaited. -/
theorem restored_of_silent_guest : ∃ s,
    outcome (create qemuConfig (silentBoot []) workspaceSpec) emptyNode =
      (.error (.rejected (.message "Guest control did not become ready: timeout")), s) ∧
      Restored emptyNode s := by
  have hrun : ∃ s, outcome (create qemuConfig (silentBoot []) workspaceSpec) emptyNode =
      (.error (.rejected (.message "Guest control did not become ready: timeout")), s) := ⟨_, rfl⟩
  obtain ⟨s, hs⟩ := hrun
  refine ⟨s, hs, (restored_iff_leavesNothing (fresh_emptyNode _) hs).mpr (.inr ⟨⟨?_, ?_⟩, rfl, ?_⟩)⟩
  · exact fun operation _ => rfl
  · intro h
    cases h
  · exact fun operation _ => rfl

/-- A root file system that cannot be copied leaves both directories. -/
theorem not_restored_of_copy_failure :
    ¬∀ (config : VmConfig) (env : Environment) (spec : RuntimeSpec) (node s : Node) (error : CreateError),
      node.Fresh spec.id → outcome (create config env spec) node = (.error (.rejected error), s) →
        Restored node s := by
  intro h
  have hrun : ∃ s, outcome (create qemuConfig (silentBoot [.copyRootfs]) workspaceSpec) emptyNode =
      (.error (.rejected (.system .copyRootfs)), s) ∧
      .workspace workspaceSpec.id ∈ s.directories := ⟨_, rfl, by decide +kernel⟩
  obtain ⟨s, hs, hmem⟩ := hrun
  have hrestored := h _ _ _ emptyNode s _ (fresh_emptyNode _) hs
  rw [hrestored.directories] at hmem
  exact absurd hmem (Finset.notMem_empty _)

end Provisioning

end Bloom
