import BloomWorkspaces.Agent.VmRuntime
import BloomWorkspaces.Library.Table

/-!
# Removing the volume of a machine

`destroyVolume` asks whether a running workspace uses the volume. A workspace that is still being
prepared is remembered with its volume but does not run yet, so its volume can go away under it. The
check is right for the calls that come one after the other.
-/

namespace Bloom

namespace VmRuntime

/-! ### The law of the volumes -/

/-- The workspace of the call is being created. -/
def VmCreate.creates (creation : VmCreate) (spec : RuntimeSpec) : Prop :=
  creation = .preparing spec ∨ creation = .waiting spec

/-- No volume is being removed while a workspace that uses it is being created, and no live machine uses
one whose removal has begun. -/
structure RemovalsSafe (s : VmRuntime) : Prop where
  creating : ∀ volumeId ∈ s.removing, ∀ c ∈ s.creations, ∀ spec, VmCreate.creates c spec →
    spec.storage.volumeId ≠ some volumeId
  running : ∀ volumeId ∈ s.begun, ∀ vm ∈ s.vms, vm.alive = true →
    vm.storage.volumeId ≠ some volumeId
  removing_begun : ∀ volumeId ∈ s.removing, volumeId ∈ s.begun

/-- A call of `create` comes after the others for its id have settled, names no volume whose removal has
begun and, for a running workspace, the volume that this was created with. A call of `destroyVolume`
comes while no workspace that uses the volume is being created, unless its machine runs. -/
def orderly (s : VmRuntime) : Event → Bool
  | .create _ spec =>
    (s.creations.all fun c => c.spec?.all fun other => other.id ≠ spec.id) &&
      (spec.storage.volumeId.all fun volumeId => volumeId ∉ s.begun) &&
      (s.status spec.id ≠ .running ||
        s.storage.all fun entry => entry.1 ≠ spec.id || entry.2.volumeId = spec.storage.volumeId)
  | .destroyVolume volumeId =>
    s.creations.all fun
      | .preparing spec => spec.storage.volumeId ≠ some volumeId
      | .waiting spec => s.status spec.id = .running || spec.storage.volumeId ≠ some volumeId
      | .releasing _ | .settled => true
  | _ => true

/-- No live process has the id. -/
def Dead (s : VmRuntime) (id : String) : Prop := ∀ vm ∈ s.vms, vm.id = id → vm.alive = false

/-- The invariant behind the check of `destroyVolume`: what is live or open is remembered. -/
structure Held (s : VmRuntime) : Prop where
  recorded : s.Recorded
  distinct : ∀ (i j : ℕ) (c c' : VmCreate) (spec spec' : RuntimeSpec), s.creations[i]? = some c →
    s.creations[j]? = some c' → c.spec? = some spec → c'.spec? = some spec' → spec.id = spec'.id → i = j
  remembered : ∀ c ∈ s.creations, ∀ spec, c.spec? = some spec → (spec.id, spec.storage) ∈ s.storage
  attached : ∀ vm ∈ s.vms, vm.alive = true →
    ∃ storage, (vm.id, storage) ∈ s.storage ∧ storage.volumeId = vm.storage.volumeId
  unregistered : ∀ spec, .preparing spec ∈ s.creations → s.instances spec.id = none
  released : ∀ spec, .releasing spec ∈ s.creations → s.Dead spec.id
  creating : ∀ c ∈ s.creations, ∀ spec, VmCreate.creates c spec → ∀ volumeId ∈ s.begun,
    spec.storage.volumeId ≠ some volumeId
  running : ∀ volumeId ∈ s.begun, ∀ vm ∈ s.vms, vm.alive = true →
    vm.storage.volumeId ≠ some volumeId
  removing_begun : ∀ volumeId ∈ s.removing, volumeId ∈ s.begun

lemma Held.removalsSafe {s : VmRuntime} (h : s.Held) : s.RemovalsSafe :=
  ⟨fun v hv c hc spec hspec => h.creating c hc spec hspec v (h.removing_begun v hv), h.running,
    h.removing_begun⟩

lemma VmCreate.spec?_of_creates {c : VmCreate} {spec : RuntimeSpec} (h : VmCreate.creates c spec) :
    c.spec? = some spec := by
  rcases h with rfl | rfl
  · rfl
  · rfl

variable {kind : VmKind} {dataDir : String} {s s' : VmRuntime} {call : ℕ} {spec : RuntimeSpec}

lemma held_initial : initial.Held := by
  refine ⟨recorded_initial, ?_, ?_, ?_, ?_, ?_, ?_, ?_, ?_⟩
  · intro i j c c' spec spec' hc
    cases hc
  · intro c hc
    cases hc
  · intro vm hvm
    cases hvm
  · intro spec hspec
    cases hspec
  · intro spec hspec
    cases hspec
  · intro c hc
    cases hc
  · intro v hv
    cases hv
  · intro v hv
    cases hv

/-! ### Processes -/

lemma Wanes.mem (h : Wanes s s') {vm : VmInstance} (hvm : vm ∈ s'.vms) (halive : vm.alive = true) :
    vm ∈ s.vms := by
  obtain ⟨n, hn⟩ := List.mem_iff_getElem?.mp hvm
  obtain ⟨vm', hvm', -, hsame⟩ := h.vms n vm hn
  rw [hsame halive]
  exact List.mem_of_getElem? hvm'

lemma Wanes.dead (h : Wanes s s') {id : String} (hdead : s.Dead id) : s'.Dead id := by
  intro vm hvm hid
  by_contra hlive
  have halive : vm.alive = true := by simpa using hlive
  rw [hdead vm (h.mem hvm halive) hid] at halive
  cases halive

/-- Processes end; the calls and the volumes stay as they are. -/
lemma Held.wanes (h : s.Held) (hw : Wanes s s') (hcreations : s'.creations = s.creations)
    (hstorage : s'.storage = s.storage) (hremoving : s'.removing = s.removing)
    (hbegun : s'.begun = s.begun) : s'.Held where
  recorded := hw.recorded h.recorded
  distinct := hcreations ▸ h.distinct
  remembered := by
    rw [hcreations, hstorage]
    exact h.remembered
  attached := by
    rw [hstorage]
    exact fun vm hvm halive => h.attached vm (hw.mem hvm halive) halive
  unregistered := by
    rw [hcreations, hw.instances]
    exact h.unregistered
  released := by
    rw [hcreations]
    exact fun spec hspec => hw.dead (h.released spec hspec)
  creating := by
    rw [hcreations, hbegun]
    exact h.creating
  running := by
    rw [hbegun]
    exact fun v hv vm hvm halive => h.running v hv vm (hw.mem hvm halive) halive
  removing_begun := by
    rw [hremoving, hbegun]
    exact h.removing_begun

/-- `stop` leaves the calls and the volumes alone. -/
lemma stop_keeps (s : VmRuntime) (id : String) :
    (s.stop id).creations = s.creations ∧ (s.stop id).storage = s.storage ∧
      (s.stop id).removing = s.removing ∧ (s.stop id).begun = s.begun := by
  unfold VmRuntime.stop
  split
  · exact ⟨rfl, rfl, rfl, rfl⟩
  · split
    · exact ⟨rfl, rfl, rfl, rfl⟩
    · split
      · exact ⟨rfl, rfl, rfl, rfl⟩
      · exact ⟨rfl, rfl, rfl, rfl⟩

lemma Held.stop (h : s.Held) (id : String) : (s.stop id).Held := by
  obtain ⟨hcreations, hstorage, hremoving, hbegun⟩ := stop_keeps s id
  exact h.wanes (wanes_stop s id) hcreations hstorage hremoving hbegun

lemma Held.sweep (h : s.Held) (now : ℕ) : (s.sweep now).Held := by
  unfold VmRuntime.sweep
  induction s.expired now generalizing s with
  | nil => exact h
  | cons id ids ih => exact ih (h.stop id)

/-- Where the table has no session that runs, no process of the id is live. -/
lemma Recorded.dead_of_status (h : s.Recorded) {id : String} (hstatus : s.status id ≠ .running) :
    s.Dead id := by
  intro vm hvm hid
  by_contra hlive
  have halive : vm.alive = true := by simpa using hlive
  obtain ⟨n, hn⟩ := List.mem_iff_getElem?.mp hvm
  obtain ⟨hinstance, hrunning⟩ := h n vm hn halive
  apply hstatus
  rw [hid] at hinstance
  simp [status, session, hinstance, hn, hrunning, InstanceState.runtimeState]

lemma status_of_unregistered {id : String} (h : s.instances id = none) : s.status id ≠ .running := by
  simp [status, session, h]

/-! ### Calls -/

/-- A call goes on: it is about the same workspace as before, and what it releases is dead. -/
lemma Held.setCreation (h : s.Held) {c c' : VmCreate} (hc : s.creations[call]? = some c)
    (hspec : ∀ spec, c'.spec? = some spec → c.spec? = some spec)
    (hpreparing : ∀ spec, c' ≠ .preparing spec)
    (hcreates : ∀ spec, VmCreate.creates c' spec → VmCreate.creates c spec)
    (hreleasing : ∀ spec, c' = .releasing spec → s.Dead spec.id) : (s.setCreation call c').Held := by
  have hmem : c ∈ s.creations := List.mem_of_getElem? hc
  have hcases : ∀ x ∈ (s.setCreation call c').creations, x ∈ s.creations ∨ x = c' :=
    fun x hx => List.mem_or_eq_of_mem_set hx
  -- The call at each position is about a workspace that the call there was about before.
  have hbefore : ∀ (i : ℕ) (x : VmCreate) (spec : RuntimeSpec),
      (s.setCreation call c').creations[i]? = some x → x.spec? = some spec →
        ∃ y, s.creations[i]? = some y ∧ y.spec? = some spec := by
    intro i x spec hx hxspec
    have hx' : (s.creations.set call c')[i]? = some x := hx
    by_cases hi : call = i
    · subst hi
      have hlt : call < s.creations.length := (List.getElem?_eq_some_iff.mp hc).1
      rw [List.getElem?_set_self hlt] at hx'
      cases hx'
      exact ⟨c, hc, hspec spec hxspec⟩
    · rw [List.getElem?_set_ne hi] at hx'
      exact ⟨x, hx', hxspec⟩
  refine ⟨h.recorded, ?_, ?_, h.attached, ?_, ?_, ?_, h.running, h.removing_begun⟩
  · intro i j x x' spec spec' hx hx' hxspec hxspec' hid
    obtain ⟨y, hy, hyspec⟩ := hbefore i x spec hx hxspec
    obtain ⟨y', hy', hyspec'⟩ := hbefore j x' spec' hx' hxspec'
    exact h.distinct i j y y' spec spec' hy hy' hyspec hyspec' hid
  · intro x hx spec hxspec
    rcases hcases x hx with hold | rfl
    · exact h.remembered x hold spec hxspec
    · exact h.remembered c hmem spec (hspec spec hxspec)
  · intro spec hx
    rcases hcases _ hx with hold | heq
    · exact h.unregistered spec hold
    · exact absurd heq.symm (hpreparing spec)
  · intro spec hx
    rcases hcases _ hx with hold | heq
    · exact h.released spec hold
    · exact hreleasing spec heq.symm
  · intro x hx spec hxspec
    rcases hcases x hx with hold | rfl
    · exact h.creating x hold spec hxspec
    · exact h.creating c hmem spec (hcreates spec hxspec)

/-- A call ends. -/
lemma Held.settle (h : s.Held) {c : VmCreate} (hc : s.creations[call]? = some c) :
    (s.setCreation call .settled).Held := by
  apply h.setCreation hc
  · intro spec hspec
    cases hspec
  · intro spec hspec
    cases hspec
  · rintro spec (hspec | hspec) <;> cases hspec
  · intro spec hspec
    cases hspec

/-- The storage of a workspace that has ended is forgotten. -/
lemma Held.deleteStorage (h : s.Held) {id : String} (hdead : s.Dead id)
    (hclosed : ∀ c ∈ s.creations, ∀ spec, c.spec? = some spec → spec.id ≠ id) :
    (s.deleteStorage id).Held := by
  have hkeeps : ∀ entry ∈ s.storage, entry.1 ≠ id → entry ∈ (s.deleteStorage id).storage :=
    fun entry hentry hne => List.mem_filter.mpr ⟨hentry, by simpa using hne⟩
  refine ⟨h.recorded, h.distinct, fun c hc spec hspec => ?_, fun vm hvm halive => ?_, h.unregistered,
    h.released, h.creating, h.running, h.removing_begun⟩
  · exact hkeeps _ (h.remembered c hc spec hspec) (hclosed c hc spec hspec)
  · obtain ⟨storage, hstorage, hvolume⟩ := h.attached vm hvm halive
    refine ⟨storage, hkeeps _ hstorage fun hid => ?_, hvolume⟩
    rw [hdead vm hvm hid] at halive
    cases halive

/-- No other open call is about the workspace of a call. -/
lemma Held.closed_of_settled (h : s.Held) {c : VmCreate} (hc : s.creations[call]? = some c)
    (hspec : c.spec? = some spec) :
    ∀ x ∈ (s.setCreation call .settled).creations, ∀ other, x.spec? = some other →
      other.id ≠ spec.id := by
  intro x hx other hother hid
  obtain ⟨i, hi⟩ := List.mem_iff_getElem?.mp hx
  have hi' : (s.creations.set call .settled)[i]? = some x := hi
  by_cases hcall : call = i
  · subst hcall
    have hlt : call < s.creations.length := (List.getElem?_eq_some_iff.mp hc).1
    rw [List.getElem?_set_self hlt] at hi'
    cases hi'
    cases hother
  · rw [List.getElem?_set_ne hcall] at hi'
    exact hcall (h.distinct i call x c other spec hi' hc hother hspec hid).symm

/-- The `catch` block of `QemuRuntime.create`. -/
lemma Held.failCreate (h : s.Held) {c : VmCreate} (hc : s.creations[call]? = some c)
    (hspec : c.spec? = some spec) : (s.failCreate call spec).Held := by
  apply (h.stop spec.id).setCreation ((stop_keeps s spec.id).1 ▸ hc)
  · intro other hother
    cases hother
    exact hspec
  · intro other hother
    cases hother
  · rintro other (hother | hother) <;> cases hother
  · intro other hother
    cases hother
    exact stop_ends h.recorded spec.id

/-- The storage of a workspace is remembered under its id, in place of what was there. -/
lemma Held.setStorage (h : s.Held) (id : String) (storage : RuntimeStorage)
    (hclosed : ∀ c ∈ s.creations, ∀ spec, c.spec? = some spec → spec.id ≠ id)
    (hvolume : ∀ vm ∈ s.vms, vm.alive = true → vm.id = id → storage.volumeId = vm.storage.volumeId) :
    (s.setStorage id storage).Held := by
  have hkeeps : ∀ entry ∈ s.storage, entry.1 ≠ id → entry ∈ (s.setStorage id storage).storage :=
    fun entry hentry hne =>
      List.mem_cons_of_mem _ (List.mem_filter.mpr ⟨hentry, by simpa using hne⟩)
  refine ⟨h.recorded, h.distinct, fun c hc spec hspec => ?_, fun vm hvm halive => ?_, h.unregistered,
    h.released, h.creating, h.running, h.removing_begun⟩
  · exact hkeeps _ (h.remembered c hc spec hspec) (hclosed c hc spec hspec)
  · by_cases hid : vm.id = id
    · refine ⟨storage, ?_, hvolume vm hvm halive hid⟩
      rw [hid]
      exact List.mem_cons_self
    · obtain ⟨old, hold, hsame⟩ := h.attached vm hvm halive
      exact ⟨old, hkeeps _ hold hid, hsame⟩

/-- A new call of `create`. -/
lemma Held.addCreation (h : s.Held) {c : VmCreate} (hspec : c.spec? = some spec)
    (hclosed : ∀ x ∈ s.creations, ∀ other, x.spec? = some other → other.id ≠ spec.id)
    (hremembered : (spec.id, spec.storage) ∈ s.storage)
    (hpreparing : c = .preparing spec → s.instances spec.id = none)
    (hreleasing : c = .releasing spec → s.Dead spec.id)
    (hvolume : ∀ volumeId ∈ s.begun, spec.storage.volumeId ≠ some volumeId) :
    Held { s with creations := s.creations ++ [c] } := by
  have hsame : ∀ {other : RuntimeSpec}, c.spec? = some other → other = spec := fun hother =>
    Option.some.inj (hother.symm.trans hspec)
  have hcases : ∀ x ∈ s.creations ++ [c], x ∈ s.creations ∨ x = c := fun x hx =>
    (List.mem_append.mp hx).imp_right List.mem_singleton.mp
  refine ⟨h.recorded, ?_, ?_, h.attached, ?_, ?_, ?_, h.running, h.removing_begun⟩
  · intro i j x x' other other' hx hx' hxspec hxspec' hid
    rcases Table.getElem?_concat_cases hx with hold | ⟨hi, rfl⟩
    · rcases Table.getElem?_concat_cases hx' with hold' | ⟨hj, rfl⟩
      · exact h.distinct i j x x' other other' hold hold' hxspec hxspec' hid
      · rw [hsame hxspec'] at hid
        exact absurd hid (hclosed x (List.mem_of_getElem? hold) other hxspec)
    · rcases Table.getElem?_concat_cases hx' with hold' | ⟨hj, rfl⟩
      · rw [hsame hxspec] at hid
        exact absurd hid.symm (hclosed x' (List.mem_of_getElem? hold') other' hxspec')
      · rw [hi, hj]
  · intro x hx other hother
    rcases hcases x hx with hold | rfl
    · exact h.remembered x hold other hother
    · exact hsame hother ▸ hremembered
  · intro other hx
    rcases hcases _ hx with hold | heq
    · exact h.unregistered other hold
    · obtain rfl : other = spec := hsame (by rw [← heq]; rfl)
      exact hpreparing heq.symm
  · intro other hx
    rcases hcases _ hx with hold | heq
    · exact h.released other hold
    · obtain rfl : other = spec := hsame (by rw [← heq]; rfl)
      exact hreleasing heq.symm
  · intro x hx other hother
    rcases hcases x hx with hold | rfl
    · exact h.creating x hold other hother
    · exact hsame (VmCreate.spec?_of_creates hother) ▸ hvolume

/-! ### Steps -/

/-- What the condition says of a call of `create`. -/
lemma orderly_create {now : ℕ} (h : s.orderly (.create now spec) = true) :
    (∀ c ∈ s.creations, ∀ other, c.spec? = some other → other.id ≠ spec.id) ∧
      (∀ volumeId ∈ s.begun, spec.storage.volumeId ≠ some volumeId) ∧
      (s.status spec.id = .running → ∀ storage, (spec.id, storage) ∈ s.storage →
        storage.volumeId = spec.storage.volumeId) := by
  simp only [orderly, Bool.and_eq_true, Bool.or_eq_true, List.all_eq_true] at h
  obtain ⟨⟨hclosed, hvolume⟩, hstorage⟩ := h
  refine ⟨fun c hc other hother => ?_, fun v hv heq => ?_, fun hrunning storage hmem => ?_⟩
  · have hne := hclosed c hc
    rw [hother] at hne
    simpa using hne
  · rw [heq] at hvolume
    simp [hv] at hvolume
  · rcases hstorage with hstatus | hall
    · simp [hrunning] at hstatus
    · simpa using hall _ hmem

lemma Held.create {now : ℕ} (h : s.Held) (he : s.orderly (.create now spec) = true) :
    (create kind dataDir s now spec).Held := by
  obtain ⟨hclosed, hvolume, hstorage⟩ := orderly_create he
  have hattached : ∀ vm ∈ s.vms, vm.alive = true → vm.id = spec.id →
      spec.storage.volumeId = vm.storage.volumeId := by
    intro vm hvm halive hid
    have hrunning : s.status spec.id = .running := by
      by_contra hstatus
      have hended := h.recorded.dead_of_status hstatus vm hvm hid
      rw [halive] at hended
      cases hended
    obtain ⟨storage, hmem, hsame⟩ := h.attached vm hvm halive
    exact (hstorage hrunning storage (hid ▸ hmem)).symm.trans hsame
  have hremembered : (s.setStorage spec.id spec.storage).Held :=
    h.setStorage spec.id spec.storage hclosed hattached
  have hentry : (spec.id, spec.storage) ∈ (s.setStorage spec.id spec.storage).storage :=
    List.mem_cons_self
  have hpreparing : s.instances spec.id = none →
      Held { s.setStorage spec.id spec.storage with creations := s.creations ++ [.preparing spec] } :=
    fun hnone => hremembered.addCreation rfl hclosed hentry (fun _ => hnone)
      (fun heq => by cases heq) hvolume
  unfold VmRuntime.create
  cases kind with
  | qemu =>
    dsimp only
    split
    · exact h
    · split
      · obtain ⟨hcreations, hstorage', -, hbegun⟩ :=
          stop_keeps (s.setStorage spec.id spec.storage) spec.id
        apply (hremembered.stop spec.id).addCreation rfl
        · rw [hcreations]
          exact hclosed
        · rw [hstorage']
          exact hentry
        · intro heq
          cases heq
        · exact fun _ => stop_ends hremembered.recorded spec.id
        · rw [hbegun]
          exact hvolume
      · split
        · exact hremembered.addCreation rfl hclosed hentry (fun heq => by cases heq)
            (fun heq => by cases heq) hvolume
        · rename_i hnone
          exact hpreparing (by simpa using hnone)
  | firecracker jailed =>
    dsimp only
    split
    · exact h
    · split
      · exact h
      · rename_i hnone
        split
        · exact h
        · exact hpreparing (by simpa using hnone)

lemma preparing?_eq_some (h : s.preparing? call = some spec) :
    s.creations[call]? = some (.preparing spec) := by
  unfold preparing? at h
  split at h
  · rename_i heq
    cases h
    exact heq
  · cases h

lemma waiting?_eq_some (h : s.waiting? call = some spec) :
    s.creations[call]? = some (.waiting spec) := by
  unfold waiting? at h
  split at h
  · rename_i heq
    cases h
    exact heq
  · cases h

lemma releasing?_eq_some (h : s.releasing? call = some spec) :
    s.creations[call]? = some (.releasing spec) := by
  unfold releasing? at h
  split at h
  · rename_i heq
    cases h
    exact heq
  · cases h

lemma Held.spawn (h : s.Held) {started : Bool} (hcall : s.creations[call]? = some (.preparing spec)) :
    (s.spawn call spec started).Held := by
  have hmem : .preparing spec ∈ s.creations := List.mem_of_getElem? hcall
  have hnone : s.instances spec.id = none := h.unregistered spec hmem
  have hset : (s.setCreation call (.waiting spec)).Held := by
    apply h.setCreation hcall
    · intro other hother
      exact hother
    · intro other hother
      cases hother
    · rintro other (hother | hother)
      · cases hother
      · cases hother
        exact .inl rfl
    · intro other hother
      cases hother
  have hvms : ∀ vm ∈ (s.spawn call spec started).vms, vm ∈ s.vms ∨
      vm = ⟨spec.id, spec.leaseExpiresAt, spec.storage, .running, started⟩ := fun vm hvm =>
    (List.mem_append.mp hvm).imp_right List.mem_singleton.mp
  -- No other open call is about the id that enters the table.
  have hother : ∀ (c : VmCreate) (other : RuntimeSpec), c ∈ (s.setCreation call (.waiting spec)).creations →
      c.spec? = some other → c ≠ .waiting spec → other.id ≠ spec.id := by
    intro c other hc hspec hne hid
    obtain ⟨i, hi⟩ := List.mem_iff_getElem?.mp hc
    have hself : (s.setCreation call (.waiting spec)).creations[call]? = some (.waiting spec) :=
      List.getElem?_set_self (List.getElem?_eq_some_iff.mp hcall).1
    obtain rfl := hset.distinct i call c _ other spec hi hself hspec rfl hid
    rw [hself] at hi
    exact hne (Option.some.inj hi).symm
  refine ⟨h.recorded.spawn (status_of_unregistered hnone), hset.distinct, hset.remembered, ?_, ?_, ?_,
    hset.creating, ?_, h.removing_begun⟩
  · intro vm hvm halive
    rcases hvms vm hvm with hold | rfl
    · exact h.attached vm hold halive
    · exact ⟨spec.storage, h.remembered _ hmem spec rfl, rfl⟩
  · intro other hx
    have hne : other.id ≠ spec.id := hother _ other hx rfl (fun heq => by cases heq)
    have hold : s.instances other.id = none := hset.unregistered other hx
    simpa [VmRuntime.spawn, Function.update_of_ne hne] using hold
  · intro other hx vm hvm hid
    rcases hvms vm hvm with hold | rfl
    · exact hset.released other hx vm hold hid
    · exact absurd hid.symm (hother _ other hx rfl (fun heq => by cases heq))
  · intro v hv vm hvm halive
    rcases hvms vm hvm with hold | rfl
    · exact h.running v hv vm hold halive
    · exact h.creating _ hmem spec (.inl rfl) v hv

lemma Held.forget {n : ℕ} {vm : VmInstance} (h : s.Held) (hvm : s.vms[n]? = some vm)
    (hended : vm.state ≠ .running) (hinstance : s.instances vm.id = some n) :
    Held { s with instances := Function.update s.instances vm.id none } := by
  refine ⟨h.recorded.forget hvm hended hinstance, h.distinct, h.remembered, h.attached,
    fun spec hspec => ?_, h.released, h.creating, h.running, h.removing_begun⟩
  by_cases hid : spec.id = vm.id
  · simp [hid]
  · simpa [Function.update_of_ne hid] using h.unregistered spec hspec

/-- A volume that is not attached is one that no live machine uses. -/
lemma Held.destroyVolume (h : s.Held) {volumeId : String}
    (he : s.orderly (.destroyVolume volumeId) = true) :
    (s.destroyVolume dataDir volumeId).2.Held := by
  unfold VmRuntime.destroyVolume
  split
  · exact h
  · rename_i hattached
    split
    · exact h
    · have hfree : ∀ storage id, (id, storage) ∈ s.storage → storage.volumeId = some volumeId →
          s.status id ≠ .running := by
        intro storage id hmem hvolume hrunning
        apply hattached
        exact List.any_eq_true.mpr ⟨_, hmem, by simp [hvolume, hrunning]⟩
      refine ⟨h.recorded, h.distinct, h.remembered, h.attached, h.unregistered, h.released,
        fun c hc spec hspec v hv => ?_, fun v hv vm hvm halive => ?_, fun v hv => ?_⟩
      · rcases List.mem_cons.mp hv with rfl | hold
        · simp only [orderly, List.all_eq_true] at he
          have hcall := he c hc
          rcases hspec with rfl | rfl
          · simpa using hcall
          · intro hvolume
            have hmem := h.remembered _ hc spec rfl
            simp [hvolume, hfree _ _ hmem hvolume] at hcall
        · exact h.creating c hc spec hspec v hold
      · rcases List.mem_cons.mp hv with rfl | hold
        · intro hvolume
          obtain ⟨storage, hmem, hsame⟩ := h.attached vm hvm halive
          obtain ⟨n, hn⟩ := List.mem_iff_getElem?.mp hvm
          obtain ⟨hinstance, hrunning⟩ := h.recorded n vm hn halive
          apply hfree storage vm.id hmem (hsame.trans hvolume)
          simp [status, session, hinstance, hn, hrunning, InstanceState.runtimeState]
        · exact h.running v hold vm hvm halive
      · rcases List.mem_cons.mp hv with rfl | hold
        · exact List.mem_cons_self
        · exact List.mem_cons_of_mem _ (h.removing_begun v hold)

lemma Held.prepareFailed (h : s.Held) (hcall : s.creations[call]? = some (.preparing spec)) :
    (prepareFailed kind s call spec).Held := by
  have hdead : s.Dead spec.id :=
    h.recorded.dead_of_status (status_of_unregistered (h.unregistered spec (List.mem_of_getElem? hcall)))
  cases kind with
  | qemu => exact h.failCreate hcall rfl
  | firecracker jailed => exact (h.settle hcall).deleteStorage hdead (h.closed_of_settled hcall rfl)

theorem Held.step {e : Event} (h : s.Held) (he : s.orderly e = true)
    (hs : VmRuntime.step kind dataDir s e = some s') : s'.Held := by
  cases e with
  | create now spec =>
    cases hs
    exact h.create he
  | prepareFailed call =>
    obtain ⟨spec, hcall, rfl⟩ := Option.map_eq_some_iff.mp hs
    exact h.prepareFailed (preparing?_eq_some hcall)
  | spawn call started =>
    simp only [VmRuntime.step] at hs
    split at hs
    · cases hs
    · obtain ⟨spec, hcall, rfl⟩ := Option.map_eq_some_iff.mp hs
      exact h.spawn (preparing?_eq_some hcall)
  | spawnFailed call =>
    obtain ⟨spec, hcall, rfl⟩ := Option.map_eq_some_iff.mp hs
    cases kind with
    | qemu => exact h.failCreate (preparing?_eq_some hcall) rfl
    | firecracker jailed => exact h.settle (preparing?_eq_some hcall)
  | ready call =>
    obtain ⟨spec, hcall, rfl⟩ := Option.map_eq_some_iff.mp hs
    exact h.settle (waiting?_eq_some hcall)
  | notReady call =>
    obtain ⟨spec, hcall, rfl⟩ := Option.map_eq_some_iff.mp hs
    exact h.failCreate (waiting?_eq_some hcall) rfl
  | released call =>
    obtain ⟨spec, hcall, rfl⟩ := Option.map_eq_some_iff.mp hs
    have hreleasing := releasing?_eq_some hcall
    exact (h.settle hreleasing).deleteStorage (h.released spec (List.mem_of_getElem? hreleasing))
      (h.closed_of_settled hreleasing rfl)
  | processEnds process =>
    obtain ⟨vm, hvm, rfl⟩ := Option.map_eq_some_iff.mp hs
    exact h.wanes (.setVm hvm rfl fun halive => by cases halive) rfl rfl rfl rfl
  | error process =>
    obtain ⟨vm', hw, rfl⟩ := setVm_of_error hs
    exact h.wanes hw rfl rfl rfl rfl
  | exit process success =>
    obtain ⟨vm', hw, rfl⟩ := setVm_of_exit hs
    exact h.wanes hw rfl rfl rfl rfl
  | stop id =>
    cases hs
    exact h.stop id
  | sweep now =>
    cases hs
    exact h.sweep now
  | forget process =>
    simp only [VmRuntime.step] at hs
    split at hs
    · rename_i vm hvm
      split at hs
      · rename_i hended
        cases hs
        exact h.forget hvm hended.1 hended.2
      · cases hs
    · cases hs
  | destroyVolume volumeId =>
    cases hs
    exact h.destroyVolume he
  | removed volumeId =>
    simp only [VmRuntime.step] at hs
    split at hs
    · cases hs
      exact ⟨h.recorded, h.distinct, h.remembered, h.attached, h.unregistered, h.released, h.creating,
        h.running, fun v hv => h.removing_begun v (List.mem_of_mem_erase hv)⟩
    · cases hs

/-! ### The main result -/

/-- In a run whose calls come one after the other no volume goes away under a workspace. -/
theorem removalsSafe_of_orderly
    (h : Reachable kind dataDir (fun s e => s.orderly e = true) s) : s.RemovalsSafe := by
  have hheld : s.Held :=
    Transition.Leads.invariant Held h held_initial fun _ _ _ ht he hs => ht.step he hs
  exact hheld.removalsSafe

/-- A workspace with a volume of its own. -/
def persistentSpec : RuntimeSpec :=
  { FirecrackerRuntime.disposableSpec "00000000-0000-4000-8000-000000000001" with
    storage := { mode := .persistent
                 volumeId := some "00000000-0000-4000-8000-000000000002"
                 quotaBytes := 16777216 } }

/-- The volume is removed after its workspace was stopped. -/
theorem removalsSafe_stopped :
    ∃ s : VmRuntime, s.removing = ["00000000-0000-4000-8000-000000000002"] ∧ s.RemovalsSafe := by
  have hrun : ∃ s, Transition.exec (Transition.guard (VmRuntime.step .qemu "data") orderly) initial
      [.create 0 persistentSpec, .spawn 0 true, .ready 0,
        .destroyVolume "00000000-0000-4000-8000-000000000002",
        .stop "00000000-0000-4000-8000-000000000001",
        .destroyVolume "00000000-0000-4000-8000-000000000002"] = some s ∧
      s.removing = ["00000000-0000-4000-8000-000000000002"] := ⟨_, rfl, by decide +kernel⟩
  obtain ⟨s, hs, hremoving⟩ := hrun
  exact ⟨s, hremoving, removalsSafe_of_orderly (Transition.leads_of_exec_guard hs)⟩

/-- The volume of a machine that is being prepared is removed: the check sees no running workspace. -/
theorem not_removalsSafe_preparing :
    ¬∀ s, Reachable .qemu "data" Transition.anyStep s → s.RemovalsSafe := by
  intro h
  have hrun : ∃ s, Transition.exec (VmRuntime.step .qemu "data") initial
      [.create 0 persistentSpec, .destroyVolume "00000000-0000-4000-8000-000000000002"] = some s ∧
      s.removing = ["00000000-0000-4000-8000-000000000002"] ∧
      s.creations = [.preparing persistentSpec] := ⟨_, rfl, by decide +kernel, by decide +kernel⟩
  obtain ⟨s, hs, hremoving, hcreations⟩ := hrun
  apply (h s (Transition.leads_of_exec hs)).creating "00000000-0000-4000-8000-000000000002"
  · rw [hremoving]
    exact List.mem_cons_self
  · rw [hcreations]
    exact List.mem_cons_self
  · exact .inl rfl
  · rfl

end VmRuntime

end Bloom
