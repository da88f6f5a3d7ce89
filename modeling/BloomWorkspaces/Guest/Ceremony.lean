import BloomWorkspaces.Guest.BloomIpc
import BloomWorkspaces.Library.Transition

/-!
# Pending ceremonies

`ceremony_pending` goes through the wallets, their chains and the transactions that are pending on
them. It is compared with a walk that keeps a list of what is still to be asked.
-/

namespace Bloom

namespace GuestControl

open Action

def maxOutboxPlanBytes : ℕ := 64 * 1024

def maxOutboxChains : ℕ := 16

def maxOutboxPending : ℕ := 32

/-! ### Answers -/

/-- The names of the directories of a listing. -/
def dirNames (listing : IpcValue) : List String :=
  match (listing.get "entries").bind IpcValue.asArray with
  | none => []
  | some entries =>
    (entries.filter fun e => (e.get "type").bind IpcValue.asStr = some "dir").filterMap fun e =>
      (e.get "name").bind IpcValue.asStr

/-- The decoder of `STANDARD` takes canonical texts only. -/
def standardDecode (s : String) : Option (List UInt8) :=
  if Base64.isBase64 s.toList && Base64.encode (Base64.decode s.toList) = s.toList then
    some (Base64.decode s.toList)
  else none

def bytesField (result : IpcValue) : Option String := (result.get "bytes_b64").bind IpcValue.asStr

/-- The plan before it is cut. -/
def planText (result : IpcValue) : String :=
  ((standardDecode ((bytesField result).getD "")).bind fun bytes =>
    String.fromUTF8? ⟨bytes.toArray⟩).getD ""

def ceremonyUrl (s : BloomSocket) (result : IpcValue) : Option String := do
  let bytes ← standardDecode (← bytesField result)
  let challenge ← s.fromSlice bytes
  (challenge.get "ceremony_url").bind IpcValue.asStr

/-! ### Paths -/

def chainsPath (wallet : String) : String := "/wallets/" ++ wallet ++ "/chains"

def pendingPath (wallet chain : String) : String :=
  chainsPath wallet ++ "/" ++ chain ++ "/outbox/pending"

def planPath (wallet chain id : String) : String := pendingPath wallet chain ++ "/" ++ id ++ "/plan.md"

def challengePath (wallet chain id : String) : String :=
  pendingPath wallet chain ++ "/" ++ id ++ "/approval_challenge.json"

/-! ### The loops -/

structure PendingRequest where
  id : String
  chain : String
  wallet : String
  planMd : String
  ceremonyUrl : Option String
  deriving DecidableEq, Repr

/-- A loop that pushes what its body finds. -/
def collect {α β : Type} (body : α → Ipc (List β)) : List α → Ipc (List β)
  | [] => pure []
  | a :: rest => do
    let found ← body a
    let others ← collect body rest
    pure (found ++ others)

/-- The plan is sliced where it is too long. -/
def cutPlan (plan : String) : Ipc String :=
  match truncateStr plan maxOutboxPlanBytes with
  | some cut => pure cut
  | none => throw .panic

def pendingTransaction (s : BloomSocket) (wallet chain id : String) : Ipc (List PendingRequest) := do
  let result ← orFault (← bloomIpc s "read" (planPath wallet chain id))
  let planMd ← cutPlan (planText result)
  let challenge ← bloomIpc s "read" (challengePath wallet chain id)
  pure [⟨id, chain, wallet, planMd, challenge.toOption.bind (ceremonyUrl s)⟩]

def pendingOfChain (s : BloomSocket) (wallet chain : String) : Ipc (List PendingRequest) := do
  let listing ← orFault (← bloomIpc s "list" (pendingPath wallet chain))
  collect (pendingTransaction s wallet chain) ((dirNames listing).take maxOutboxPending)

def pendingOfWallet (s : BloomSocket) (wallet : String) : Ipc (List PendingRequest) := do
  let listing ← orFault (← bloomIpc s "list" (chainsPath wallet))
  collect (pendingOfChain s wallet) ((dirNames listing).take maxOutboxChains)

def ceremonyPending (s : BloomSocket) : Ipc (List PendingRequest) := do
  let listing ← orFault (← bloomIpc s "list" "/wallets")
  collect (pendingOfWallet s) ((dirNames listing).take maxOutboxChains)

/-! ### The walk -/

/-- What is asked of Bloom. -/
inductive Ask
  | wallets
  | chains (wallet : String)
  | pending (wallet chain : String)
  | plan (wallet chain id : String)
  | challenge (wallet chain id : String)
  deriving DecidableEq, Repr

namespace Ask

def frame : Ask → List Char
  | wallets => ipcFrame "list" "/wallets"
  | chains wallet => ipcFrame "list" (chainsPath wallet)
  | pending wallet chain => ipcFrame "list" (pendingPath wallet chain)
  | plan wallet chain id => ipcFrame "read" (planPath wallet chain id)
  | challenge wallet chain id => ipcFrame "read" (challengePath wallet chain id)

/-- What an answer leads to. -/
def next : Ask → IpcValue → List Ask
  | wallets, listing => ((dirNames listing).take maxOutboxChains).map chains
  | chains wallet, listing => ((dirNames listing).take maxOutboxChains).map (pending wallet)
  | pending wallet chain, listing =>
    ((dirNames listing).take maxOutboxPending).flatMap fun id =>
      [plan wallet chain id, challenge wallet chain id]
  | plan _ _ _, _ => []
  | challenge _ _ _, _ => []

/-- An error in the place of a challenge is dropped. -/
def isOptional : Ask → Bool
  | challenge _ _ _ => true
  | _ => false

/-- What is cut of a reply is cut at the boundary of a character. -/
def CutsCleanly (ask : Ask) : Except ControlError IpcValue → Prop
  | .error error => ask.isOptional = true ∨ IsCuttable 1024 error.message
  | .ok result =>
    match ask with
    | plan _ _ _ => IsCuttable maxOutboxPlanBytes (planText result)
    | _ => True

end Ask

structure Walk where
  todo : List Ask
  frames : List (List Char)
  deriving DecidableEq, Repr

namespace Walk

variable {s : BloomSocket}

def initial : Walk := ⟨[.wallets], []⟩

/-- The reply to an ask. -/
def reply (s : BloomSocket) (frames : List (List Char)) (ask : Ask) : Except ControlError IpcValue :=
  s.reply (frames ++ [ask.frame])

/-- What an answer leads to comes first; the first error ends the walk, unless it is dropped. -/
def step (s : BloomSocket) (w : Walk) (_ : Unit) : Option Walk :=
  match w.todo with
  | [] => none
  | ask :: todo =>
    match reply s w.frames ask with
    | .ok result => some ⟨ask.next result ++ todo, w.frames ++ [ask.frame]⟩
    | .error _ => if ask.isOptional then some ⟨todo, w.frames ++ [ask.frame]⟩ else none

/-- The reply to the next ask is cut cleanly. -/
def CutsCleanly (s : BloomSocket) (w : Walk) : Prop :=
  ∀ ask ∈ w.todo.head?, ask.CutsCleanly (reply s w.frames ask)

/-- So is every reply from here on. -/
def IsSafe (s : BloomSocket) (w : Walk) : Prop :=
  ∀ w', Transition.Leads (step s) Transition.anyStep w w' → CutsCleanly s w'

variable {w : Walk} {ask : Ask} {todo : List Ask} {frames : List (List Char)} {result : IpcValue}
  {error : ControlError}

lemma isSafe_iff : IsSafe s w ↔ CutsCleanly s w ∧ ∀ w', step s w () = some w' → IsSafe s w' := by
  constructor
  · intro h
    refine ⟨h w (Transition.Leads.refl w), ?_⟩
    intro w' hstep w'' hleads
    exact h w'' (Transition.Leads.trans (Transition.Leads.single trivial hstep) hleads)
  · rintro ⟨hcuts, hnext⟩ w' hleads
    rcases Transition.Leads.cases_head_iff.mp hleads with rfl | ⟨_, t, -, hstep, hrest⟩
    · exact hcuts
    · exact hnext t hstep w' hrest

lemma isSafe_done : IsSafe s ⟨[], frames⟩ := by
  rw [isSafe_iff]
  exact ⟨nofun, nofun⟩

lemma isSafe_ok (h : reply s frames ask = .ok result) :
    IsSafe s ⟨ask :: todo, frames⟩ ↔
      ask.CutsCleanly (.ok result) ∧ IsSafe s ⟨ask.next result ++ todo, frames ++ [ask.frame]⟩ := by
  rw [isSafe_iff]
  simp only [CutsCleanly, step, List.head?_cons, Option.mem_def, Option.some.injEq, forall_eq', h]

lemma isSafe_error (h : reply s frames ask = .error error) (hneeded : ask.isOptional = false) :
    IsSafe s ⟨ask :: todo, frames⟩ ↔ IsCuttable 1024 error.message := by
  rw [isSafe_iff]
  simp [CutsCleanly, step, Ask.CutsCleanly, h, hneeded]

/-- A challenge is never cut. -/
lemma isSafe_challenge {wallet chain id : String} :
    IsSafe s ⟨.challenge wallet chain id :: todo, frames⟩ ↔
      IsSafe s ⟨todo, frames ++ [(Ask.challenge wallet chain id).frame]⟩ := by
  cases h : reply s frames (.challenge wallet chain id) with
  | ok result =>
    rw [isSafe_ok h]
    exact ⟨fun hsafe => hsafe.2, fun hsafe => ⟨trivial, hsafe⟩⟩
  | error error =>
    rw [isSafe_iff]
    simp [CutsCleanly, step, Ask.CutsCleanly, Ask.isOptional, h]

end Walk

/-! ### The loops follow the walk -/

/-- The handler can answer with the error. -/
def Fault.IsHarmless : Fault → Prop
  | .error e => IsCuttable 1024 e.message
  | .panic => False

/-- A program makes the asks, and what they lead to, before all others. It stops without harm if and
only if the walk is safe. -/
def Follows (s : BloomSocket) {α : Type} (x : Ipc α) (asks : List Ask) : Prop :=
  ∀ todo frames, Post
    (fun _ frames' => Walk.IsSafe s ⟨asks ++ todo, frames⟩ ↔ Walk.IsSafe s ⟨todo, frames'⟩)
    (fun fault _ => Walk.IsSafe s ⟨asks ++ todo, frames⟩ ↔ fault.IsHarmless) (outcome x frames)

section Follows

variable {s : BloomSocket} {α β : Type}

lemma follows_pure (a : α) : Follows s (pure a) [] := fun _ _ => Iff.rfl

lemma Follows.bind_pure {x : Ipc α} {asks : List Ask} (h : Follows s x asks) (f : α → β) :
    Follows s (x >>= fun a => pure (f a)) asks := by
  intro todo frames
  rw [post_bind]
  exact (h todo frames).mono (fun _ _ hsafe => hsafe) fun _ _ hsafe => hsafe

lemma Follows.bind {x : Ipc α} {f : α → Ipc β} {asks asks' : List Ask} (hx : Follows s x asks)
    (hf : ∀ a, Follows s (f a) asks') : Follows s (x >>= f) (asks ++ asks') := by
  intro todo frames
  rw [post_bind, List.append_assoc]
  refine (hx (asks' ++ todo) frames).mono ?_ fun _ _ hsafe => hsafe
  intro a frames' hsafe
  rw [hsafe]
  exact hf a todo frames'

lemma follows_collect {body : α → Ipc (List β)} {asks : α → List Ask}
    (h : ∀ a, Follows s (body a) (asks a)) (items : List α) :
    Follows s (collect body items) (items.flatMap asks) := by
  induction items with
  | nil => exact follows_pure []
  | cons a rest ih =>
    rw [List.flatMap_cons]
    exact (h a).bind fun found => ih.bind_pure _

/-- A listing, and what is done with its names. -/
lemma follows_listing {method path : String} {f : IpcValue → Ipc α} {ask : Ask}
    (hframe : ask.frame = ipcFrame method path) (hneeded : ask.isOptional = false)
    (hclean : ∀ listing, ask.CutsCleanly (.ok listing)) (hf : ∀ listing, Follows s (f listing) (ask.next listing)) :
    Follows s (do f (← orFault (← bloomIpc s method path))) [ask] := by
  intro todo frames
  have hcall : outcome (bloomIpc s method path) frames =
      (.ok (Walk.reply s frames ask), frames ++ [ask.frame]) := by
    rw [Walk.reply, hframe]
    rfl
  rw [post_bind, hcall, post_ok]
  cases hreply : Walk.reply s frames ask with
  | ok listing =>
    rw [List.singleton_append, Walk.isSafe_ok hreply]
    refine (hf listing todo _).mono ?_ ?_
    · exact fun _ _ hsafe => ⟨fun h => hsafe.mp h.2, fun h => ⟨hclean listing, hsafe.mpr h⟩⟩
    · exact fun _ _ hsafe => ⟨fun h => hsafe.mp h.2, fun h => ⟨hclean listing, hsafe.mpr h⟩⟩
  | error error =>
    show Walk.IsSafe s ⟨ask :: todo, frames⟩ ↔ IsCuttable 1024 error.message
    exact Walk.isSafe_error hreply hneeded

lemma post_cutPlan {Q : String → List (List Char) → Prop} {E : Fault → List (List Char) → Prop}
    {plan : String} {frames : List (List Char)}
    (hcut : IsCuttable maxOutboxPlanBytes plan → ∀ cut, Q cut frames)
    (hpanic : ¬IsCuttable maxOutboxPlanBytes plan → E .panic frames) :
    Post Q E (outcome (cutPlan plan) frames) := by
  unfold cutPlan
  cases hplan : truncateStr plan maxOutboxPlanBytes with
  | some cut =>
    refine hcut ?_ cut
    by_contra hnot
    rw [truncateStr_eq_none_iff.mpr hnot] at hplan
    cases hplan
  | none => exact hpanic (truncateStr_eq_none_iff.mp hplan)

lemma follows_transaction (wallet chain id : String) :
    Follows s (pendingTransaction s wallet chain id)
      [.plan wallet chain id, .challenge wallet chain id] := by
  intro todo frames
  unfold pendingTransaction
  have hcall : outcome (bloomIpc s "read" (planPath wallet chain id)) frames =
      (.ok (Walk.reply s frames (.plan wallet chain id)),
        frames ++ [(Ask.plan wallet chain id).frame]) := rfl
  rw [post_bind, hcall, post_ok]
  cases hreply : Walk.reply s frames (.plan wallet chain id) with
  | ok result =>
    show Post _ _ (outcome (cutPlan (planText result) >>= _) _)
    rw [post_bind]
    apply post_cutPlan
    · intro hcut planMd
      show Walk.IsSafe s _ ↔ Walk.IsSafe s _
      rw [List.cons_append, Walk.isSafe_ok hreply]
      constructor
      · exact fun hsafe => Walk.isSafe_challenge.mp hsafe.2
      · exact fun hsafe => ⟨hcut, Walk.isSafe_challenge.mpr hsafe⟩
    · intro hnot
      show Walk.IsSafe s _ ↔ False
      rw [List.cons_append, Walk.isSafe_ok hreply]
      exact ⟨fun hsafe => hnot hsafe.1, False.elim⟩
  | error error =>
    show Walk.IsSafe s ⟨.plan wallet chain id :: _, frames⟩ ↔ IsCuttable 1024 error.message
    exact Walk.isSafe_error hreply rfl

lemma follows_chain (wallet chain : String) :
    Follows s (pendingOfChain s wallet chain) [.pending wallet chain] :=
  follows_listing rfl rfl (fun _ => trivial) fun _ =>
    follows_collect (follows_transaction wallet chain) _

lemma follows_wallet (wallet : String) : Follows s (pendingOfWallet s wallet) [.chains wallet] := by
  refine follows_listing rfl rfl (fun _ => trivial) fun listing => ?_
  rw [Ask.next, List.map_eq_flatMap]
  exact follows_collect (follows_chain wallet) _

lemma follows_ceremonyPending : Follows s (ceremonyPending s) [.wallets] := by
  refine follows_listing rfl rfl (fun _ => trivial) fun listing => ?_
  rw [Ask.next, List.map_eq_flatMap]
  exact follows_collect follows_wallet _

/-- The ceremonies are collected, or end in an error that can be answered with, if and only if every
cut of the walk is at the boundary of a character. -/
theorem post_ceremonyPending :
    Post (fun _ _ => Walk.IsSafe s .initial) (fun fault _ => Walk.IsSafe s .initial ↔ fault.IsHarmless)
      (outcome (ceremonyPending s) []) := by
  refine (follows_ceremonyPending [] []).mono ?_ fun _ _ hsafe => hsafe
  exact fun _ _ hsafe => hsafe.mpr Walk.isSafe_done

end Follows

end GuestControl

end Bloom
