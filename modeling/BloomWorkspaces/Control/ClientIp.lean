import BloomWorkspaces.Agent.Egress.Address
import BloomWorkspaces.Agent.GuestProtocol
import BloomWorkspaces.Library.Checked
import BloomWorkspaces.Library.JsString
import Mathlib.Data.List.GetD

/-!
# The address of a client

`clientIp` counts the entries of the header `X-Forwarded-For` from its end, where the trusted proxies have
written. It reads all of them before it takes one, those too that come from the client.
-/

namespace Bloom

namespace ClientIp

def comma : UInt16 := 44

/-- `::ffff:` -/
def mappedPrefix : JsText := [58, 58, 102, 102, 102, 102, 58]

def noAddress : String := "Unable to determine client IP"

def normalizeIp (value : JsText) : Except String JsText :=
  let normalized := if mappedPrefix.isPrefixOf value then value.drop 7 else value
  if isIP (JsString.chars normalized) = 0 then .error noAddress else .ok normalized

/-- The entries of a header. -/
def entries (forwarded : JsText) : List JsText := (forwarded.splitOn comma).map JsString.trim

/-- `chain[index]`, which must be there and not be empty. -/
def entryFromEnd (chain : List JsText) (trustedProxyHops : ℕ) : Except String JsText :=
  let entry := chain.getD (chain.length - trustedProxyHops) []
  if chain.length < trustedProxyHops ∨ entry = [] then .error "Invalid trusted proxy chain" else .ok entry

def clientIp (remoteAddress forwardedFor : Option JsText) (trustedProxyHops : ℕ) : Except String JsText := do
  let direct ← normalizeIp (remoteAddress.getD [])
  if trustedProxyHops = 0 then return direct
  else
    match forwardedFor with
    | none => .error "Missing X-Forwarded-For from trusted proxy"
    | some forwarded =>
      let chain ← (entries forwarded).mapM normalizeIp
      entryFromEnd chain trustedProxyHops

/-! ### Entries -/

/-- Every entry of the text is an address. -/
def areAddresses (forwarded : JsText) : Bool :=
  (entries forwarded).all fun entry => (normalizeIp entry).toOption.isSome

variable {a b : JsText} {values chain : List JsText} {remoteAddress : Option JsText} {hops : ℕ}

lemma entries_append (a b : JsText) : entries (a ++ comma :: b) = entries a ++ entries b := by
  rw [entries, List.splitOn_append_cons_self, List.map_append]
  rfl

lemma length_entries (b : JsText) : (entries b).length = (b.splitOn comma).length := List.length_map _

/-- An entry that is no address has one error only. -/
lemma normalizeIp_cases (value : JsText) :
    (∃ address, normalizeIp value = .ok address) ∨ normalizeIp value = .error noAddress := by
  simp only [normalizeIp]
  split_ifs
  · exact Or.inr rfl
  · exact Or.inl ⟨_, rfl⟩
  · exact Or.inr rfl
  · exact Or.inl ⟨_, rfl⟩

/-- The entries are all addresses, or the chain is not read. -/
lemma mapM_normalizeIp (values : List JsText) :
    (values.all fun entry => (normalizeIp entry).toOption.isSome) = true ∧
        (∃ chain, values.mapM normalizeIp = .ok chain ∧ chain.length = values.length) ∨
      (values.all fun entry => (normalizeIp entry).toOption.isSome) = false ∧
        values.mapM normalizeIp = .error noAddress := by
  induction values with
  | nil => exact Or.inl ⟨rfl, [], rfl, rfl⟩
  | cons entry values ih =>
    rw [List.all_cons, List.mapM_cons]
    rcases normalizeIp_cases entry with ⟨address, haddress⟩ | herror
    · rw [haddress]
      rcases ih with ⟨hall, chain, hchain, hlength⟩ | ⟨hall, hfails⟩
      · refine Or.inl ⟨hall, address :: chain, ?_, congrArg Nat.succ hlength⟩
        rw [hchain]
        rfl
      · refine Or.inr ⟨hall, ?_⟩
        rw [hfails]
        rfl
    · rw [herror]
      exact Or.inr ⟨rfl, rfl⟩

/-- What stands before the last entries does not matter. -/
lemma entryFromEnd_append (values : List JsText) (h : hops ≤ chain.length) :
    entryFromEnd (values ++ chain) hops = entryFromEnd chain hops := by
  have hindex : (values ++ chain).length - hops = values.length + (chain.length - hops) := by
    rw [List.length_append]
    omega
  have hlong : ¬(values ++ chain).length < hops := by
    rw [List.length_append]
    omega
  have hentry : (values ++ chain).getD (values.length + (chain.length - hops)) [] =
      chain.getD (chain.length - hops) [] := by
    rw [List.getD_append_right _ _ _ _ (Nat.le_add_right _ _), Nat.add_sub_cancel_left]
  simp only [entryFromEnd, hindex, hentry, hlong, Nat.not_lt.mpr h]

/-! ### What a client can add -/

/-- A client that writes in front of the trusted entries does not change the outcome, or it has written
what is no address, and its request fails. -/
theorem clientIp_append (remoteAddress : Option JsText) (a b : JsText) (hops : ℕ) (hpos : 1 ≤ hops)
    (hlength : hops ≤ (b.splitOn comma).length) :
    clientIp remoteAddress (some (a ++ comma :: b)) hops =
      if areAddresses a then clientIp remoteAddress (some b) hops else .error noAddress := by
  have hsome : ¬hops = 0 := Nat.ne_of_gt hpos
  rcases normalizeIp_cases (remoteAddress.getD []) with ⟨direct, hdirect⟩ | hdirect
  · simp only [clientIp, hdirect, hsome, if_false, entries_append, List.mapM_append]
    rcases mapM_normalizeIp (entries a) with ⟨hall, chain, hchain, -⟩ | ⟨hall, hfails⟩
    · rw [areAddresses, hall, if_pos rfl, hchain]
      rcases mapM_normalizeIp (entries b) with ⟨-, rest, hrest, hrestLength⟩ | ⟨-, hfails⟩
      · rw [hrest]
        refine entryFromEnd_append chain ?_
        rwa [hrestLength, length_entries]
      · rw [hfails]
        rfl
    · rw [areAddresses, hall, if_neg Bool.false_ne_true, hfails]
      rfl
  · rw [clientIp, clientIp, hdirect]
    exact (ite_self _).symm

/-- `203.0.113.5` -/
def clientAddress : JsText := Utf16.encode "203.0.113.5".toList

/-- `10.0.0.1` -/
def proxyAddress : JsText := Utf16.encode "10.0.0.1".toList

theorem clientIp_append_spoofed :
    clientIp (some proxyAddress) (some (proxyAddress ++ comma :: clientAddress)) 1 = .ok clientAddress := by
  rw [clientIp_append _ _ _ 1 (Nat.le_refl 1) (by decide), if_pos (by decide)]
  decide

/-- A client that puts a letter into the header has its own request refused. -/
theorem clientIp_append_ne :
    ¬∀ (remoteAddress : Option JsText) (a b : JsText) (hops : ℕ), 1 ≤ hops →
      hops ≤ (b.splitOn comma).length →
      clientIp remoteAddress (some (a ++ comma :: b)) hops = clientIp remoteAddress (some b) hops := by
  intro h
  have hsame := h (some proxyAddress) [120] clientAddress 1 (Nat.le_refl 1) (by decide)
  revert hsame
  decide

end ClientIp

end Bloom
