import BloomWorkspaces.Agent.Egress.Acceptance
import BloomWorkspaces.Agent.Egress.Arithmetic

/-!
# The classification of addresses

`isPublicAddress` answers by the number that an accepted text denotes: whether it lies outside the listed
ranges and, for 128 bits, inside `2000::/3`. A text with a zone is never public.
-/

namespace Bloom

/-! ### Ranges -/

/-- The addresses of `width` bits that begin like `base` up to the last `width - bits` of them. -/
def InBlock (width base bits n : ℕ) : Prop := base ≤ n ∧ n < base + 2 ^ (width - bits)

/-- Whether an address lies in a range of the IPv4 list. -/
def InIpv4Range (range : List Char × ℕ) (n : ℕ) : Prop :=
  ∃ base, DenotesIpv4 range.1 base ∧ InBlock 32 base range.2 n

/-- Whether an address lies in a range of the IPv6 list. -/
def InIpv6Range (range : List Char × ℕ) (n : ℕ) : Prop :=
  ∃ base, DenotesIpv6 range.1 base ∧ InBlock 128 base range.2 n

def PublicIpv4 (n : ℕ) : Prop := ∀ range ∈ specialIpv4, ¬InIpv4Range range n

/-- `2000::/3` without the special-purpose ranges. -/
def PublicIpv6 (n : ℕ) : Prop :=
  InBlock 128 (2 ^ 125) 3 n ∧ ∀ range ∈ specialIpv6, ¬InIpv6Range range n

section Ranges

variable {width base bits n : ℕ} {range : List Char × ℕ} {text : List Char}

/-- The prefixes agree exactly inside the block, if the base has no bits behind its prefix. -/
lemma inBlock_iff (h : base % 2 ^ (width - bits) = 0) :
    InBlock width base bits n ↔ n / 2 ^ (width - bits) = base / 2 ^ (width - bits) := by
  have hpos : 0 < 2 ^ (width - bits) := Nat.pow_pos (by decide)
  have hbase : base / 2 ^ (width - bits) * 2 ^ (width - bits) = base := Nat.div_mul_cancel (Nat.dvd_of_mod_eq_zero h)
  rw [InBlock, Nat.div_eq_iff hpos, hbase]
  omega

/-- The bases of the IPv4 list are addresses with no bits behind the prefix. -/
lemma specialIpv4_aligned : specialIpv4.all (fun range =>
    (ipv4ToNumber range.1).any fun base => base % 2 ^ (32 - range.2) = 0) = true := by
  decide +kernel

lemma specialIpv6_aligned : specialIpv6.all (fun range => isIPv6Body range.1 &&
    (ipv6ToBigInt range.1).any fun base => base % 2 ^ (128 - range.2) = 0) = true := by
  decide +kernel

lemma ipv4CidrContains_iff (hrange : range ∈ specialIpv4) :
    ipv4CidrContains n range.1 range.2 = true ↔ InIpv4Range range n := by
  obtain ⟨base, hbase, haligned⟩ :=
    (Option.any_eq_true _ _).mp (List.all_eq_true.mp specialIpv4_aligned range hrange)
  have hdenotes : DenotesIpv4 range.1 base := ipv4ToNumber_eq_some.mp hbase
  simp only [ipv4CidrContains, hbase]
  rw [decide_eq_true_iff, ← inBlock_iff (of_decide_eq_true haligned)]
  constructor
  · exact fun h => ⟨base, hdenotes, h⟩
  · rintro ⟨base', hdenotes', h⟩
    obtain rfl : base' = base := Option.some_inj.mp ((ipv4ToNumber_eq_some.mpr hdenotes').symm.trans hbase)
    exact h

lemma ipv6CidrContains_iff (hrange : range ∈ specialIpv6) :
    ipv6CidrContains n range.1 range.2 = true ↔ InIpv6Range range n := by
  have hrow := List.all_eq_true.mp specialIpv6_aligned range hrange
  rw [Bool.and_eq_true] at hrow
  obtain ⟨base, hbase, haligned⟩ := (Option.any_eq_true _ _).mp hrow.2
  simp only [ipv6CidrContains, hbase]
  rw [decide_eq_true_iff, ← inBlock_iff (of_decide_eq_true haligned)]
  constructor
  · intro h
    obtain ⟨base', hdenotes⟩ := isIPv6Body_iff.mp hrow.1
    obtain rfl : base' = base :=
      Option.some_inj.mp ((ipv6ToBigInt_of_denotes hdenotes).1.symm.trans hbase)
    exact ⟨base', hdenotes, h⟩
  · rintro ⟨base', hdenotes, h⟩
    obtain rfl : base' = base :=
      Option.some_inj.mp ((ipv6ToBigInt_of_denotes hdenotes).1.symm.trans hbase)
    exact h

/-- No range of a list that is tested has the address, if the test tells membership. -/
lemma not_any_iff {ranges : List (List Char × ℕ)} {contains : List Char × ℕ → Bool}
    {Contains : List Char × ℕ → Prop} (h : ∀ range ∈ ranges, contains range = true ↔ Contains range) :
    (!ranges.any contains) = true ↔ ∀ range ∈ ranges, ¬Contains range := by
  rw [Bool.not_eq_true', List.any_eq_false]
  exact forall₂_congr fun range hin => not_congr (h range hin)

lemma isPublicIpv4_iff (h : DenotesIpv4 text n) : isPublicIpv4 text = true ↔ PublicIpv4 n := by
  simp only [isPublicIpv4, ipv4ToNumber_eq_some.mpr h]
  exact not_any_iff fun range hin => ipv4CidrContains_iff hin

lemma isPublicIpv6_iff (h : DenotesIpv6 text n) : isPublicIpv6 text = true ↔ PublicIpv6 n := by
  have hblock : InBlock 128 (2 ^ 125) 3 n ↔ n / 2 ^ 125 = 1 := inBlock_iff (by decide)
  simp only [isPublicIpv6, (ipv6ToBigInt_of_denotes h).1]
  rw [PublicIpv6, hblock]
  split_ifs with hunicast
  · exact iff_of_false not_false fun hpublic => hunicast hpublic.1
  · rw [and_iff_right (not_not.mp hunicast)]
    exact not_any_iff fun range hin => ipv6CidrContains_iff hin

end Ranges

/-! ### The classification -/

section Classification

variable {text body zone : List Char} {n : ℕ}

lemma isPublicAddress_ipv4 (h : DenotesIpv4 text n) :
    Arithmetic.isPublicAddress text = true ↔ PublicIpv4 n := by
  rw [Arithmetic.isPublicAddress_eq, ← isPublicIpv4_iff h]
  simp only [isPublicAddress, isIP_eq_four.mpr ⟨n, h⟩]

lemma isPublicAddress_ipv6 (h : DenotesIpv6 text n) :
    Arithmetic.isPublicAddress text = true ↔ PublicIpv6 n := by
  have hsix : isIP text = 6 :=
    isIP_eq_six.mpr ⟨text, [], n, (List.append_nil text).symm, Or.inl rfl, h⟩
  rw [Arithmetic.isPublicAddress_eq, ← isPublicIpv6_iff h]
  simp only [isPublicAddress, hsix]

/-- The explicit guard of `ipv6ToBigInt`. -/
lemma isPublicAddress_zone (h : '%' ∈ text) : Arithmetic.isPublicAddress text = false := by
  rw [Arithmetic.isPublicAddress_eq, isPublicAddress, isIP]
  split_ifs with hfour hsix
  · obtain ⟨n, hn⟩ := isIPv4_iff.mp hfour
    exact absurd h hn.plain.2.2.2
  · simp only [isPublicIpv6, ipv6ToBigInt, if_pos h]
  · rfl

/-- What the classification is to be on a text. -/
structure ClassifiedByAddress (text : List Char) : Prop where
  four : isIP text = 4 ↔ ∃ n, DenotesIpv4 text n
  six : isIP text = 6 ↔ ∃ body zone n, text = body ++ zone ∧ IsZone zone ∧ DenotesIpv6 body n
  ipv4 : ∀ n, DenotesIpv4 text n →
    n < 2 ^ 32 ∧ (Arithmetic.isPublicAddress text = true ↔ PublicIpv4 n)
  ipv6 : ∀ n, DenotesIpv6 text n →
    n < 2 ^ 128 ∧ (Arithmetic.isPublicAddress text = true ↔ PublicIpv6 n)
  /-- An IPv4 address has one spelling; all spellings of an IPv6 address get one answer. -/
  spellings : ∀ n other, DenotesIpv4 text n ∧ DenotesIpv4 other n ∨ DenotesIpv6 text n ∧ DenotesIpv6 other n →
    Arithmetic.isPublicAddress text = Arithmetic.isPublicAddress other
  zone : '%' ∈ text → Arithmetic.isPublicAddress text = false
  /-- The operators of the source compute what the exact ones do. -/
  exact : Arithmetic.ipv4ToNumber text = ipv4ToNumber text ∧
    Arithmetic.ipv6ToBigInt text = ipv6ToBigInt text ∧
    Arithmetic.isPublicAddress text = isPublicAddress text

/-- `isPublicAddress` tells the denoted address from the special-purpose ranges. -/
theorem isPublicAddress_spec (text : List Char) : ClassifiedByAddress text where
  four := isIP_eq_four
  six := isIP_eq_six
  ipv4 := fun _ h => ⟨h.1, isPublicAddress_ipv4 h⟩
  ipv6 := fun _ h => ⟨h.lt, isPublicAddress_ipv6 h⟩
  spellings := by
    rintro n other (⟨h, hother⟩ | ⟨h, hother⟩)
    · rw [Bool.eq_iff_iff, isPublicAddress_ipv4 h, isPublicAddress_ipv4 hother]
    · rw [Bool.eq_iff_iff, isPublicAddress_ipv6 h, isPublicAddress_ipv6 hother]
  zone := isPublicAddress_zone
  exact := ⟨Arithmetic.ipv4ToNumber_eq text, Arithmetic.ipv6ToBigInt_eq text,
    Arithmetic.isPublicAddress_eq text⟩

/-- A public address of family 6 that is not public with a zone. -/
theorem not_public_with_zone : ∃ body zone n, "2606:4700:4700::1111%1".toList = body ++ zone ∧
    isIP (body ++ zone) = 6 ∧ DenotesIpv6 body n ∧ PublicIpv6 n ∧
    Arithmetic.isPublicAddress body = true ∧ Arithmetic.isPublicAddress (body ++ zone) = false := by
  have hbody : isIPv6Body "2606:4700:4700::1111".toList = true := by decide +kernel
  have hpublic : isPublicAddress "2606:4700:4700::1111".toList = true := by decide +kernel
  obtain ⟨n, hn⟩ := isIPv6Body_iff.mp hbody
  have hanswer : Arithmetic.isPublicAddress "2606:4700:4700::1111".toList = true :=
    (Arithmetic.isPublicAddress_eq _).trans hpublic
  refine ⟨"2606:4700:4700::1111".toList, "%1".toList, n, rfl, by decide +kernel, hn,
    (isPublicAddress_ipv6 hn).mp hanswer, hanswer, isPublicAddress_zone ?_⟩
  exact List.mem_append_right _ List.mem_cons_self

end Classification

end Bloom
