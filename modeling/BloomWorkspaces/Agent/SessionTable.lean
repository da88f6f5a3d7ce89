import BloomWorkspaces.Agent.PtyRuntime
import BloomWorkspaces.Library.Transition
import Mathlib.Order.Defs.Unbundled

/-!
# The table of sessions

Every model of the node agent keeps the sessions of its workspaces: `Node` for the control plane, `VmRuntime`
for what `create` and `stop` race over, `FirecrackerRuntime` for the uids of the jailer, and the node of
`Provisioning` for a single call. Here they are one table, which spawns, stops, exits, errors and timers
change in the same way in all of them.
-/

namespace Bloom

/-- The state of the session of each id, if there is one. -/
abbrev SessionTable := String → Option InstanceState

namespace SessionTable

variable {t t' t'' : SessionTable} {id id' : String} {state : InstanceState} {entered : String → Prop}

def enter (t : SessionTable) (id : String) : SessionTable := Function.update t id (some .running)

/-- A session that runs ends in a state. -/
def leave (t : SessionTable) (id : String) (state : InstanceState) : SessionTable :=
  if t id = some .running then Function.update t id (some state) else t

def stop (t : SessionTable) (id : String) : SessionTable := t.leave id .stopped

def exit (t : SessionTable) (id : String) (success : Bool) : SessionTable :=
  t.leave id (if success then .stopped else .failed)

/-- The error event. -/
def fail (t : SessionTable) (id : String) : SessionTable :=
  if (t id).isSome then Function.update t id (some .failed) else t

def forget (t : SessionTable) (id : String) : SessionTable :=
  if t id = some .running then t else Function.update t id none

inductive Event
  | enter (id : String)
  | stop (id : String)
  | exit (id : String) (success : Bool)
  | fail (id : String)
  | forget (id : String)

def step (t : SessionTable) : Event → Option SessionTable
  | .enter id => some (t.enter id)
  | .stop id => some (t.stop id)
  | .exit id success => some (t.exit id success)
  | .fail id => some (t.fail id)
  | .forget id => some (t.forget id)

/-- The one table becomes the other, and only some ids are entered on the way. -/
def TurnsInto (entered : String → Prop) : SessionTable → SessionTable → Prop :=
  Transition.Leads step fun _ e => ∀ id, e = .enter id → entered id

namespace TurnsInto

lemma refl (t : SessionTable) : TurnsInto entered t t := Transition.Leads.refl t

lemma trans (h : TurnsInto entered t t') (h' : TurnsInto entered t' t'') : TurnsInto entered t t'' :=
  Transition.Leads.trans h h'

instance isPreorder (entered : String → Prop) : IsPreorder SessionTable (TurnsInto entered) where
  refl := refl
  trans _ _ _ := trans

lemma enter (t : SessionTable) (hid : entered id) : TurnsInto entered t (t.enter id) :=
  Transition.Leads.single (a := .enter id) (by simpa using hid) rfl

lemma stop (t : SessionTable) (id : String) : TurnsInto entered t (t.stop id) :=
  Transition.Leads.single (a := .stop id) (by simp) rfl

lemma exit (t : SessionTable) (id : String) (success : Bool) : TurnsInto entered t (t.exit id success) :=
  Transition.Leads.single (a := .exit id success) (by simp) rfl

lemma fail (t : SessionTable) (id : String) : TurnsInto entered t (t.fail id) :=
  Transition.Leads.single (a := .fail id) (by simp) rfl

lemma forget (t : SessionTable) (id : String) : TurnsInto entered t (t.forget id) :=
  Transition.Leads.single (a := .forget id) (by simp) rfl

/-- A write of the state that the session has. -/
lemma same (h : t id = some state) : TurnsInto entered t (Function.update t id (some state)) := by
  rw [← h, Function.update_eq_self]
  exact refl t

lemma stopped (h : t id = some .running) : TurnsInto entered t (Function.update t id (some .stopped)) := by
  have hstop : TurnsInto entered t (t.stop id) := stop t id
  simpa [SessionTable.stop, leave, h] using hstop

lemma exited (h : t id = some .running) (success : Bool) :
    TurnsInto entered t (Function.update t id (some (if success then .stopped else .failed))) := by
  have hexit : TurnsInto entered t (t.exit id success) := exit t id success
  simpa [SessionTable.exit, leave, h] using hexit

lemma failed (h : t id = some state) : TurnsInto entered t (Function.update t id (some .failed)) := by
  have hfail : TurnsInto entered t (t.fail id) := fail t id
  simpa [SessionTable.fail, h] using hfail

end TurnsInto

lemma stop_of_running (h : t id = some .running) : t.stop id = Function.update t id (some .stopped) :=
  if_pos h

lemma stop_of_ne_running (h : t id ≠ some .running) : t.stop id = t := if_neg h

lemma leave_ne_running (hstate : state ≠ .running) (h : t.leave id state id' = some .running) :
    t id' = some .running := by
  unfold leave at h
  split_ifs at h
  · by_cases heq : id' = id
    · simp [heq, hstate] at h
    · simpa [heq] using h
  · exact h

lemma running_of_step {e : Event} (hs : t.step e = some t') (h : t' id = some .running) :
    t id = some .running ∨ e = .enter id := by
  cases e with
  | enter id' =>
    cases hs
    by_cases heq : id = id'
    · simp [heq]
    · exact .inl (by simpa [SessionTable.enter, heq] using h)
  | stop id' =>
    cases hs
    exact .inl (leave_ne_running (by simp) h)
  | exit id' success =>
    cases hs
    exact .inl (leave_ne_running (by cases success <;> simp) h)
  | fail id' =>
    cases hs
    unfold SessionTable.fail at h
    split_ifs at h
    · by_cases heq : id = id'
      · simp [heq] at h
      · simpa [heq] using h
    · exact .inl h
  | forget id' =>
    cases hs
    unfold SessionTable.forget at h
    split_ifs at h
    · exact .inl h
    · by_cases heq : id = id'
      · simp [heq] at h
      · simpa [heq] using h

/-- A session runs because it ran before or because it was entered. -/
theorem running_of_follows (h : TurnsInto entered t t') (hrunning : t' id = some .running) :
    t id = some .running ∨ entered id := by
  refine h.invariant (fun u => u id = some .running → t id = some .running ∨ entered id) .inl ?_ hrunning
  intro u e u' hu hallowed hs hu'
  rcases running_of_step hs hu' with hbefore | heq
  · exact hu hbefore
  · exact .inr (hallowed id heq)

/-! ### Entries that name processes -/

/-- A table whose entries name processes, each with its id and the state of its session. -/
structure Entries where
  instances : String → Option ℕ
  process : ℕ → Option (String × InstanceState)

namespace Entries

variable {e e' e'' : Entries} {n : ℕ} {state' : InstanceState}

def sessions (e : Entries) : SessionTable := fun id => (e.instances id).bind fun n => (e.process n).map (·.2)

/-- The entry of an id is a process of that id. -/
def Named (e : Entries) : Prop :=
  ∀ id n, e.instances id = some n → ∃ state, e.process n = some (id, state)

lemma Named.sessions_eq (h : e.Named) (hn : e.instances id = some n) :
    e.process n = (e.sessions id).map fun state => (id, state) := by
  obtain ⟨state, hstate⟩ := h id n hn
  simp [sessions, hn, hstate]

/-- What the processes are is not changed for those that there were. -/
lemma sessions_keep (h : e.Named) (hinstances : e'.instances = e.instances)
    (hprocess : ∀ n p, e.process n = some p → e'.process n = some p) : e'.sessions = e.sessions := by
  funext id
  cases hid : e.instances id with
  | none => simp [sessions, hinstances, hid]
  | some n =>
    obtain ⟨state, hstate⟩ := h id n hid
    simp [sessions, hinstances, hid, hstate, hprocess n _ hstate]

/-- The session of one process changes its state, which shows where the table has it. -/
lemma sessions_change (h : e.Named) (hn : e.process n = some (id, state))
    (hinstances : e'.instances = e.instances)
    (hprocess : e'.process = Function.update e.process n (some (id, state'))) :
    e'.sessions = if e.instances id = some n then Function.update e.sessions id (some state')
      else e.sessions := by
  funext id'
  cases hid : e.instances id' with
  | none =>
    by_cases heq : id' = id
    · subst heq
      simp [sessions, hinstances, hid]
    · split_ifs <;> simp [sessions, hinstances, hid, heq]
  | some m =>
    by_cases hm : m = n
    · subst hm
      obtain ⟨state₂, hstate⟩ := h id' m hid
      obtain ⟨rfl, -⟩ : id = id' ∧ state = state₂ := by simpa [hn] using hstate
      simp [sessions, hinstances, hprocess, hid]
    · by_cases heq : id' = id
      · subst heq
        simp [sessions, hinstances, hprocess, hid, hm]
      · split_ifs <;> simp [sessions, hinstances, hprocess, hid, hm, heq]

lemma sessions_stop (h : e.Named) (hid : e.instances id = some n) (hn : e.process n = some (id, .running))
    (hinstances : e'.instances = e.instances)
    (hprocess : e'.process = Function.update e.process n (some (id, .stopped))) :
    e'.sessions = e.sessions.stop id := by
  rw [sessions_change h hn hinstances hprocess, if_pos hid, stop_of_running (by simp [sessions, hid, hn])]

lemma sessions_enter (h : e.Named) (hinstances : e'.instances = Function.update e.instances id (some n))
    (hnew : e'.process n = some (id, .running))
    (hprocess : ∀ m p, e.process m = some p → e'.process m = some p) :
    e'.sessions = e.sessions.enter id := by
  funext id'
  by_cases heq : id' = id
  · simp [sessions, SessionTable.enter, hinstances, hnew, heq]
  · cases hid : e.instances id' with
    | none => simp [sessions, SessionTable.enter, hinstances, heq, hid]
    | some m =>
      obtain ⟨state, hstate⟩ := h id' m hid
      simp [sessions, SessionTable.enter, hinstances, heq, hid, hstate, hprocess m _ hstate]

lemma sessions_forget (hn : e.process n = some (id, state)) (hended : state ≠ .running)
    (hinstance : e.instances id = some n) (hinstances : e'.instances = Function.update e.instances id none)
    (hprocess : e'.process = e.process) : e'.sessions = e.sessions.forget id := by
  have hstate : e.sessions id = some state := by simp [sessions, hinstance, hn]
  rw [SessionTable.forget, if_neg (by simp [hstate, hended])]
  funext id'
  by_cases heq : id' = id
  · simp [sessions, hinstances, heq]
  · simp [sessions, hinstances, hprocess, heq]

/-- Entries keep naming processes of their ids, and the table follows. -/
structure Moves (entered : String → Prop) (e e' : Entries) : Prop where
  named : e.Named → e'.Named
  follows : e.Named → TurnsInto entered e.sessions e'.sessions

namespace Moves

lemma keep (hinstances : e'.instances = e.instances)
    (hprocess : ∀ n p, e.process n = some p → e'.process n = some p) : Moves entered e e' where
  named h id n hn := by
    obtain ⟨state, hstate⟩ := h id n (hinstances ▸ hn)
    exact ⟨state, hprocess n _ hstate⟩
  follows h := by
    rw [sessions_keep h hinstances hprocess]
    exact .refl _

lemma refl (e : Entries) : Moves entered e e := keep rfl fun _ _ h => h

lemma trans (h : Moves entered e e') (h' : Moves entered e' e'') : Moves entered e e'' where
  named hnamed := h'.named (h.named hnamed)
  follows hnamed := (h.follows hnamed).trans (h'.follows (h.named hnamed))

lemma change (hn : e.process n = some (id, state)) (hinstances : e'.instances = e.instances)
    (hprocess : e'.process = Function.update e.process n (some (id, state')))
    (hfollows : ∀ t : SessionTable, t id = some state →
      TurnsInto entered t (Function.update t id (some state'))) : Moves entered e e' where
  named h id' m hm := by
    obtain ⟨state₂, hstate⟩ := h id' m (hinstances ▸ hm)
    by_cases heq : m = n
    · subst heq
      obtain ⟨rfl, -⟩ : id = id' ∧ state = state₂ := by simpa [hn] using hstate
      exact ⟨state', by simp [hprocess]⟩
    · exact ⟨state₂, by simpa [hprocess, heq] using hstate⟩
  follows h := by
    rw [sessions_change h hn hinstances hprocess]
    split_ifs with hinstance
    · apply hfollows
      simp [sessions, hinstance, hn]
    · exact .refl _

lemma enter (hid : entered id) (hinstances : e'.instances = Function.update e.instances id (some n))
    (hnew : e'.process n = some (id, .running))
    (hprocess : ∀ m p, e.process m = some p → e'.process m = some p) : Moves entered e e' where
  named h id' m hm := by
    by_cases heq : id' = id
    · subst heq
      obtain rfl : n = m := by simpa [hinstances] using hm
      exact ⟨_, hnew⟩
    · obtain ⟨state, hstate⟩ := h id' m (by simpa [hinstances, heq] using hm)
      exact ⟨state, hprocess m _ hstate⟩
  follows h := by
    rw [sessions_enter h hinstances hnew hprocess]
    exact .enter _ hid

lemma forget (hn : e.process n = some (id, state)) (hended : state ≠ .running)
    (hinstance : e.instances id = some n) (hinstances : e'.instances = Function.update e.instances id none)
    (hprocess : e'.process = e.process) : Moves entered e e' where
  named h id' m hm := by
    by_cases heq : id' = id
    · simp [hinstances, heq] at hm
    · rw [hprocess]
      exact h id' m (by simpa [hinstances, heq] using hm)
  follows _ := by
    rw [sessions_forget hn hended hinstance hinstances hprocess]
    exact .forget _ id

end Moves

end Entries

end SessionTable

end Bloom
