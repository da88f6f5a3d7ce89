import BloomWorkspaces.Control.Config
import BloomWorkspaces.Library.Table
import BloomWorkspaces.Library.Transition
import Mathlib.Logic.Function.Basic

/-!
# Admission of browser terminals

`TerminalAdmission` and the upgrade handler that acquires its slots. A slot is released by the close event
of a browser terminal, and an upgrade that the WebSocket library refuses has no such terminal: its slot is
lost. The counts are right for the upgrades that are completed.
-/

namespace Bloom

structure TerminalLimits where
  perWorkspace : ℕ
  global : ℕ
  deriving DecidableEq, Repr

/-- The arguments that the server gives its `TerminalAdmission`. -/
def terminalLimits (config : Config) : TerminalLimits := ⟨4, max 4 (config.maxRunning * 4)⟩

structure TerminalAdmission where
  active : ℤ
  byWorkspace : String → Option ℤ

namespace TerminalAdmission

def initial : TerminalAdmission := ⟨0, fun _ => none⟩

def workspaceCount (a : TerminalAdmission) (workspaceId : String) : ℤ :=
  (a.byWorkspace workspaceId).getD 0

/-- `none` stands for `undefined`. -/
def acquire (limits : TerminalLimits) (a : TerminalAdmission) (workspaceId : String) :
    Option TerminalAdmission :=
  if limits.perWorkspace ≤ a.workspaceCount workspaceId ∨ limits.global ≤ a.active then none
  else
    some
      { active := a.active + 1
        byWorkspace := Function.update a.byWorkspace workspaceId
          (some (a.workspaceCount workspaceId + 1)) }

/-- The function that `acquire` returns, where `released` is not set. -/
def release (a : TerminalAdmission) (workspaceId : String) : TerminalAdmission :=
  let remaining := (a.byWorkspace workspaceId).getD 1 - 1
  { active := a.active - 1
    byWorkspace := Function.update a.byWorkspace workspaceId
      (if remaining = 0 then none else some remaining) }

variable {limits : TerminalLimits} {a a' : TerminalAdmission} {workspaceId : String}

lemma acquire_eq_some : a.acquire limits workspaceId = some a' ↔
    a.workspaceCount workspaceId < limits.perWorkspace ∧ a.active < limits.global ∧
      a' = ⟨a.active + 1, Function.update a.byWorkspace workspaceId
        (some (a.workspaceCount workspaceId + 1))⟩ := by
  rw [acquire]
  split_ifs with hfull
  · constructor
    · rintro ⟨⟩
    · rintro ⟨hworkspace, hactive, -⟩
      omega
  · rw [Option.some_inj]
    constructor
    · rintro rfl
      exact ⟨by omega, by omega, rfl⟩
    · rintro ⟨-, -, rfl⟩
      rfl

lemma workspaceCount_acquire (h : a.acquire limits workspaceId = some a') (id : String) :
    a'.workspaceCount id = a.workspaceCount id + if workspaceId = id then 1 else 0 := by
  obtain ⟨-, -, rfl⟩ := acquire_eq_some.mp h
  by_cases hid : workspaceId = id
  · subst hid
    simp [workspaceCount]
  · simp [workspaceCount, hid, Function.update_of_ne (Ne.symm hid)]

/-- A slot of the workspace is taken. -/
lemma workspaceCount_release (h : 0 < a.workspaceCount workspaceId) (id : String) :
    (a.release workspaceId).workspaceCount id =
      a.workspaceCount id - if workspaceId = id then 1 else 0 := by
  by_cases hid : workspaceId = id
  · subst hid
    cases hcount : a.byWorkspace workspaceId with
    | none => simp [workspaceCount, hcount] at h
    | some count =>
      simp only [workspaceCount, release, hcount, Function.update_self, Option.getD_some, if_pos]
      split_ifs with hlast
      · exact hlast.symm
      · rfl
  · simp [workspaceCount, release, hid, Function.update_of_ne (Ne.symm hid)]

end TerminalAdmission

/-! ### Upgrades -/

/-- What `handleUpgrade` does: it calls back, it answers and destroys the socket without a word to its
caller, or it throws. -/
inductive UpgradeOutcome
  | completed
  | refused
  | threw
  deriving DecidableEq, Repr

/-- What has become of an admitted upgrade; only a completed one has a browser terminal. -/
inductive BrowserTerminal
  | opened
  | closed
  | refused
  | threw
  deriving DecidableEq, Repr

/-- An acquired slot with the flag of its release function. -/
structure TerminalSlot where
  workspaceId : String
  browser : BrowserTerminal
  released : Bool
  deriving DecidableEq, Repr

/-- The slots in the order of their upgrades, and the statuses of the requests that the handler has
rejected itself. -/
structure TerminalServer where
  admission : TerminalAdmission
  slots : List TerminalSlot
  rejected : List String

namespace TerminalServer

def initial : TerminalServer := ⟨.initial, [], []⟩

/-- A request is `authorized` when its origin, its path and its session pass the checks. -/
inductive Event
  | upgrade (workspaceId : String) (authorized : Bool) (outcome : UpgradeOutcome)
  | close (terminal : ℕ)
  deriving DecidableEq, Repr

def reject (s : TerminalServer) (status : String) : TerminalServer :=
  { s with rejected := s.rejected ++ [status] }

/-- The call of `handleUpgrade` with its `catch` block. -/
def handleUpgrade (s : TerminalServer) (admission : TerminalAdmission) (workspaceId : String) :
    UpgradeOutcome → TerminalServer
  | .completed =>
    { s with admission := admission, slots := s.slots ++ [⟨workspaceId, .opened, false⟩] }
  | .refused =>
    { s with admission := admission, slots := s.slots ++ [⟨workspaceId, .refused, false⟩] }
  | .threw =>
    reject
      { s with
        admission := admission.release workspaceId
        slots := s.slots ++ [⟨workspaceId, .threw, true⟩] }
      "401 Unauthorized"

/-- The listener that the close event of a browser terminal calls once. -/
def close (s : TerminalServer) (terminal : ℕ) (slot : TerminalSlot) : TerminalServer :=
  { s with
    admission := if slot.released then s.admission else s.admission.release slot.workspaceId
    slots := s.slots.set terminal { slot with browser := .closed, released := true } }

def step (limits : TerminalLimits) (s : TerminalServer) : Event → Option TerminalServer
  | .upgrade workspaceId authorized outcome =>
    if authorized then
      match s.admission.acquire limits workspaceId with
      | none => some (s.reject "503 Service Unavailable")
      | some admission => some (s.handleUpgrade admission workspaceId outcome)
    else some (s.reject "401 Unauthorized")
  | .close terminal =>
    match s.slots[terminal]? with
    | some slot => if slot.browser = .opened then some (s.close terminal slot) else none
    | none => none

/-! ### The law of the counts -/

/-- The open browser terminals among those with `p`. -/
def openCount (s : TerminalServer) (p : TerminalSlot → Bool) : ℕ :=
  s.slots.countP fun slot => slot.browser = .opened && p slot

/-- The counts are the numbers of open browser terminals and within their limits. -/
structure CountsOpen (limits : TerminalLimits) (s : TerminalServer) : Prop where
  active : s.admission.active = s.openCount fun _ => true
  workspace : ∀ id, s.admission.workspaceCount id = s.openCount fun slot => slot.workspaceId = id
  active_le : s.admission.active ≤ limits.global
  workspace_le : ∀ id, s.admission.workspaceCount id ≤ limits.perWorkspace
  active_nonneg : 0 ≤ s.admission.active
  workspace_nonneg : ∀ id, 0 ≤ s.admission.workspaceCount id

/-- The library does not refuse an upgrade for which a slot was acquired. -/
def notRefused (limits : TerminalLimits) (s : TerminalServer) : Event → Prop
  | .upgrade workspaceId authorized outcome =>
    authorized = true → (s.admission.acquire limits workspaceId).isSome = true → outcome ≠ .refused
  | .close _ => True

/-! ### Slots -/

/-- The slots among those with `p` that have not been released. -/
def heldCount (s : TerminalServer) (p : TerminalSlot → Bool) : ℕ :=
  s.slots.countP fun slot => !slot.released && p slot

/-- The counts are the numbers of slots that have not been released. -/
structure Accounts (limits : TerminalLimits) (s : TerminalServer) : Prop where
  held : ∀ slot ∈ s.slots, slot.released = false ↔ slot.browser = .opened ∨ slot.browser = .refused
  active : s.admission.active = s.heldCount fun _ => true
  workspace : ∀ id, s.admission.workspaceCount id = s.heldCount fun slot => slot.workspaceId = id
  active_le : s.admission.active ≤ limits.global
  workspace_le : ∀ id, s.admission.workspaceCount id ≤ limits.perWorkspace

variable {limits : TerminalLimits} {s s' : TerminalServer} {workspaceId : String}
  {admission : TerminalAdmission}

lemma accounts_initial : Accounts limits initial where
  held := by
    intro slot hslot
    cases hslot
  active := rfl
  workspace _ := rfl
  active_le := Int.natCast_nonneg _
  workspace_le _ := Int.natCast_nonneg _

lemma Accounts.reject (h : Accounts limits s) (status : String) : Accounts limits (s.reject status) :=
  ⟨h.held, h.active, h.workspace, h.active_le, h.workspace_le⟩

/-- A slot is acquired and kept. -/
lemma Accounts.keep (h : Accounts limits s)
    (hacquire : s.admission.acquire limits workspaceId = some admission) {browser : BrowserTerminal}
    (hbrowser : browser = .opened ∨ browser = .refused) :
    Accounts limits
      { s with admission := admission, slots := s.slots ++ [⟨workspaceId, browser, false⟩] } := by
  obtain ⟨hworkspace, hactive, hadmission⟩ := TerminalAdmission.acquire_eq_some.mp hacquire
  have hcount := TerminalAdmission.workspaceCount_acquire hacquire
  refine ⟨?_, ?_, ?_, ?_, ?_⟩
  · intro slot hslot
    rcases List.mem_append.mp hslot with hold | hnew
    · exact h.held slot hold
    · obtain rfl := List.mem_singleton.mp hnew
      exact ⟨fun _ => hbrowser, fun _ => rfl⟩
  · have hold := h.active
    simp only [heldCount, List.countP_append] at hold ⊢
    rw [hadmission]
    simp [hold]
  · intro id
    have hold := h.workspace id
    rw [hcount id, hold]
    simp only [heldCount, List.countP_append, List.countP_singleton]
    by_cases hid : workspaceId = id
    · simp [hid]
    · simp [hid]
  · rw [hadmission]
    exact hactive
  · intro id
    rw [hcount id]
    by_cases hid : workspaceId = id
    · subst hid
      rw [if_pos rfl]
      omega
    · rw [if_neg hid, Int.add_zero]
      exact h.workspace_le id

/-- A slot is acquired and released again. -/
lemma Accounts.giveBack (h : Accounts limits s)
    (hacquire : s.admission.acquire limits workspaceId = some admission) :
    Accounts limits
      { s with
        admission := admission.release workspaceId
        slots := s.slots ++ [⟨workspaceId, .threw, true⟩] } := by
  obtain ⟨-, -, hadmission⟩ := TerminalAdmission.acquire_eq_some.mp hacquire
  have hactive : (admission.release workspaceId).active = s.admission.active := by
    rw [hadmission]
    exact Int.add_sub_cancel _ _
  have hpos : 0 < admission.workspaceCount workspaceId := by
    rw [TerminalAdmission.workspaceCount_acquire hacquire, if_pos rfl, h.workspace]
    omega
  have hcount : ∀ id, (admission.release workspaceId).workspaceCount id =
      s.admission.workspaceCount id := by
    intro id
    rw [TerminalAdmission.workspaceCount_release hpos, TerminalAdmission.workspaceCount_acquire hacquire,
      Int.add_sub_cancel]
  refine ⟨?_, ?_, ?_, ?_, ?_⟩
  · intro slot hslot
    rcases List.mem_append.mp hslot with hold | hnew
    · exact h.held slot hold
    · obtain rfl := List.mem_singleton.mp hnew
      simp
  · rw [hactive, h.active]
    simp [heldCount]
  · intro id
    rw [hcount id, h.workspace id]
    simp [heldCount]
  · rw [hactive]
    exact h.active_le
  · intro id
    rw [hcount id]
    exact h.workspace_le id

/-- The close event of an open browser terminal. -/
lemma Accounts.close (h : Accounts limits s) {terminal : ℕ} {slot : TerminalSlot}
    (hslot : s.slots[terminal]? = some slot) (hopen : slot.browser = .opened) :
    Accounts limits (s.close terminal slot) := by
  have hmem : slot ∈ s.slots := List.mem_of_getElem? hslot
  have hheld : slot.released = false := (h.held slot hmem).mpr (.inl hopen)
  have hset : ∀ p : TerminalSlot → Bool,
      (s.close terminal slot).heldCount p + (if p slot then 1 else 0) = s.heldCount p := by
    intro p
    have hcount := Table.countP_set_add (p := fun slot : TerminalSlot => !slot.released && p slot)
      hslot { slot with browser := .closed, released := true }
    simpa [hheld, heldCount, TerminalServer.close] using hcount
  have hpos : 0 < s.admission.workspaceCount slot.workspaceId := by
    have hone := hset fun other => other.workspaceId = slot.workspaceId
    rw [if_pos (decide_eq_true rfl)] at hone
    rw [h.workspace]
    omega
  have hadmission : (s.close terminal slot).admission = s.admission.release slot.workspaceId := by
    simp [TerminalServer.close, hheld]
  have hcount := TerminalAdmission.workspaceCount_release hpos
  refine ⟨?_, ?_, ?_, ?_, ?_⟩
  · intro other hother
    rcases List.mem_or_eq_of_mem_set hother with hold | rfl
    · exact h.held other hold
    · simp
  · have hone := hset fun _ => true
    rw [if_pos rfl] at hone
    rw [hadmission, TerminalAdmission.release, h.active]
    show ((s.heldCount fun _ => true : ℕ) : ℤ) - 1 = _
    omega
  · intro id
    have hone := hset fun other => other.workspaceId = id
    rw [hadmission, hcount id, h.workspace id]
    simp only [decide_eq_true_eq] at hone
    split_ifs at hone ⊢ with hid
    · omega
    · omega
  · rw [hadmission]
    have hle := h.active_le
    show s.admission.active - 1 ≤ _
    omega
  · intro id
    have hle := h.workspace_le id
    rw [hadmission, hcount id]
    split_ifs with hid
    · omega
    · omega

/-- Every step keeps the accounts. -/
lemma Accounts.step {e : Event} (h : Accounts limits s) (hs : s.step limits e = some s') :
    Accounts limits s' := by
  cases e with
  | upgrade workspaceId authorized outcome =>
    simp only [TerminalServer.step] at hs
    split at hs
    · split at hs
      · cases hs
        exact h.reject _
      · rename_i admission hacquire
        cases hs
        cases outcome with
        | completed => exact h.keep hacquire (.inl rfl)
        | refused => exact h.keep hacquire (.inr rfl)
        | threw => exact (h.giveBack hacquire).reject _
    · cases hs
      exact h.reject _
  | close terminal =>
    simp only [TerminalServer.step] at hs
    split at hs
    · rename_i slot hslot
      split_ifs at hs with hopen
      cases hs
      exact h.close hslot hopen
    · cases hs

/-! ### Refused upgrades -/

/-- The counts are right as long as no slot is that of a refused upgrade. -/
lemma Accounts.countsOpen_iff (h : Accounts limits s) :
    CountsOpen limits s ↔ ∀ slot ∈ s.slots, slot.browser ≠ .refused := by
  constructor
  · intro hopen slot hslot hrefused
    have hlt : (s.openCount fun _ => true) < s.heldCount fun _ => true := by
      refine Table.countP_lt_countP ?_ hslot (by simp [hrefused]) ?_
      · intro other hother hcounted
        rw [Bool.and_true, decide_eq_true_eq] at hcounted
        simp [(h.held other hother).mpr (.inl hcounted)]
      · simp [(h.held slot hslot).mpr (.inr hrefused)]
    have hactive := hopen.active
    rw [h.active] at hactive
    omega
  · intro hnone
    have hcount : ∀ p, s.heldCount p = s.openCount p := by
      intro p
      refine List.countP_congr fun slot hslot => ?_
      have hheld := h.held slot hslot
      have hkept := hnone slot hslot
      by_cases hreleased : slot.released = false
      · simp [hreleased, (hheld.mp hreleased).resolve_right hkept]
      · have hclosed : slot.browser ≠ .opened := fun hopen => hreleased (hheld.mpr (.inl hopen))
        simp [hreleased, hclosed]
    constructor
    · rw [h.active, hcount]
    · intro id
      rw [h.workspace, hcount]
    · exact h.active_le
    · exact h.workspace_le
    · rw [h.active]
      exact Int.natCast_nonneg _
    · intro id
      rw [h.workspace]
      exact Int.natCast_nonneg _

/-- A slot of a refused upgrade comes from a step that refuses one. -/
lemma refused_of_step {e : Event} (hs : s.step limits e = some s')
    (hnew : ∃ slot ∈ s'.slots, slot.browser = .refused) :
    (∃ slot ∈ s.slots, slot.browser = .refused) ∨ ¬s.notRefused limits e := by
  obtain ⟨slot, hslot, hrefused⟩ := hnew
  cases e with
  | upgrade workspaceId authorized outcome =>
    simp only [TerminalServer.step] at hs
    split at hs
    · rename_i hauthorized
      split at hs
      · cases hs
        exact .inl ⟨slot, hslot, hrefused⟩
      · rename_i admission hacquire
        cases hs
        cases outcome with
        | completed =>
          rcases List.mem_append.mp hslot with hold | hlast
          · exact .inl ⟨slot, hold, hrefused⟩
          · obtain rfl := List.mem_singleton.mp hlast
            cases hrefused
        | refused =>
          exact .inr fun hkept => hkept hauthorized (Option.isSome_iff_exists.mpr ⟨_, hacquire⟩) rfl
        | threw =>
          rcases List.mem_append.mp hslot with hold | hlast
          · exact .inl ⟨slot, hold, hrefused⟩
          · obtain rfl := List.mem_singleton.mp hlast
            cases hrefused
    · cases hs
      exact .inl ⟨slot, hslot, hrefused⟩
  | close terminal =>
    simp only [TerminalServer.step] at hs
    split at hs
    · split_ifs at hs
      cases hs
      rcases List.mem_or_eq_of_mem_set hslot with hold | rfl
      · exact .inl ⟨slot, hold, hrefused⟩
      · cases hrefused
    · cases hs

/-- A refused upgrade leaves its slot behind. -/
lemma exists_refused_of_step {e : Event} (hs : s.step limits e = some s')
    (hrefused : ¬s.notRefused limits e) : ∃ slot ∈ s'.slots, slot.browser = .refused := by
  cases e with
  | upgrade workspaceId authorized outcome =>
    simp only [notRefused, Classical.not_imp, ne_eq, not_not] at hrefused
    obtain ⟨hauthorized, hacquired, rfl⟩ := hrefused
    obtain ⟨admission, hacquire⟩ := Option.isSome_iff_exists.mp hacquired
    simp only [TerminalServer.step, hauthorized, if_true, hacquire, Option.some_inj] at hs
    subst hs
    exact ⟨_, List.mem_append_right _ (List.mem_singleton_self _), rfl⟩
  | close terminal => exact absurd trivial hrefused

/-- The slot of a refused upgrade stays. -/
lemma refused_kept {e : Event} (hs : s.step limits e = some s')
    (hold : ∃ slot ∈ s.slots, slot.browser = .refused) :
    ∃ slot ∈ s'.slots, slot.browser = .refused := by
  obtain ⟨slot, hslot, hrefused⟩ := hold
  cases e with
  | upgrade workspaceId authorized outcome =>
    simp only [TerminalServer.step] at hs
    split at hs
    · split at hs
      · cases hs
        exact ⟨slot, hslot, hrefused⟩
      · cases hs
        cases outcome with
        | completed => exact ⟨slot, List.mem_append_left _ hslot, hrefused⟩
        | refused => exact ⟨slot, List.mem_append_left _ hslot, hrefused⟩
        | threw => exact ⟨slot, List.mem_append_left _ hslot, hrefused⟩
    · cases hs
      exact ⟨slot, hslot, hrefused⟩
  | close terminal =>
    simp only [TerminalServer.step] at hs
    split at hs
    · rename_i closing hclosing
      split_ifs at hs with hopen
      cases hs
      obtain ⟨n, hn⟩ := List.mem_iff_getElem?.mp hslot
      have hne : terminal ≠ n := by
        rintro rfl
        rw [hclosing, Option.some_inj] at hn
        rw [hn, hrefused] at hopen
        cases hopen
      refine ⟨slot, List.mem_iff_getElem?.mpr ⟨n, ?_⟩, hrefused⟩
      show (s.slots.set terminal _)[n]? = some slot
      rw [List.getElem?_set_ne hne, hn]
    · cases hs

lemma accounts_of_leads {allowed : TerminalServer → Event → Prop}
    (h : Transition.Leads (step limits) allowed initial s) : Accounts limits s :=
  h.invariant (Accounts limits) accounts_initial fun _ _ _ haccounts _ hs => haccounts.step hs

/-- The counts are those of the open terminals in every run in which the library refuses no upgrade that
was given a slot, and never again after it has refused one. -/
theorem countsOpen_unless_refused (limits : TerminalLimits) :
    (∀ s, Transition.Leads (step limits) (notRefused limits) initial s → CountsOpen limits s) ∧
      ∀ s e s' s'', Transition.Leads (step limits) Transition.anyStep initial s →
        ¬s.notRefused limits e → s.step limits e = some s' →
          Transition.Leads (step limits) Transition.anyStep s' s'' → ¬CountsOpen limits s'' := by
  constructor
  · intro s h
    refine (accounts_of_leads h).countsOpen_iff.mpr ?_
    have hnone : ¬∃ slot ∈ s.slots, slot.browser = .refused := by
      refine h.invariant (fun s => ¬∃ slot ∈ s.slots, slot.browser = .refused) ?_ ?_
      · rintro ⟨slot, hslot, -⟩
        cases hslot
      · intro t e t' hnone hkept hs hnew
        exact (refused_of_step hs hnew).elim hnone fun hrefused => hrefused hkept
    exact fun slot hslot hrefused => hnone ⟨slot, hslot, hrefused⟩
  · intro s e s' s'' h hrefused hs h' hopen
    have hlost : ∃ slot ∈ s''.slots, slot.browser = .refused :=
      h'.invariant (fun s => ∃ slot ∈ s.slots, slot.browser = .refused)
        (exists_refused_of_step hs hrefused) fun _ _ _ hold _ hs => refused_kept hs hold
    obtain ⟨slot, hslot, hbrowser⟩ := hlost
    have haccounts := accounts_of_leads ((h.tail trivial hs).trans h')
    exact haccounts.countsOpen_iff.mp hopen slot hslot hbrowser

theorem countsOpen_unless_refused_default :
    (CountsOpen (terminalLimits .default)
      ⟨⟨1, Function.update (fun _ => none) "w" (some 1)⟩, [⟨"w", .opened, false⟩], []⟩) ∧
    ¬CountsOpen (terminalLimits .default)
      ⟨⟨1, Function.update (fun _ => none) "w" (some 1)⟩, [⟨"w", .refused, false⟩], []⟩ := by
  obtain ⟨hkept, hlost⟩ := countsOpen_unless_refused (terminalLimits .default)
  constructor
  · refine hkept _ (Transition.Leads.single (a := .upgrade "w" true .completed) ?_ rfl)
    exact fun _ _ => UpgradeOutcome.noConfusion
  · refine hlost initial (.upgrade "w" true .refused) _ _ (Transition.Leads.refl _) ?_ rfl
      (Transition.Leads.refl _)
    exact fun hkept => hkept rfl rfl rfl

/-- One refused upgrade is counted although no terminal is open. -/
theorem not_countsOpen : ¬∀ (limits : TerminalLimits) (s : TerminalServer),
    Transition.Leads (step limits) Transition.anyStep initial s → CountsOpen limits s := by
  intro hall
  have hcounts := (hall (terminalLimits .default) _
    (Transition.Leads.single (a := .upgrade "w" true .refused) trivial rfl)).active
  exact absurd hcounts (by decide)

end TerminalServer

end Bloom
