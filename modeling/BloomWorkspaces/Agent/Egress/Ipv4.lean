import BloomWorkspaces.Agent.Egress.Address
import BloomWorkspaces.Library.UrlHost

/-!
# IPv4 addresses

The texts that `ipv4ToNumber` reads are the dotted decimals of 32-bit numbers, one for each of them.
-/

namespace Bloom

/-! ### Dotted decimals -/

/-- The octets of an address in decimal. -/
lemma decimal_octet : ∀ n < 256, isDecimalOctet (Nat.toDigits 10 n) = true ∧
    Ascii.decimalNumber (Nat.toDigits 10 n) = n ∧ (Nat.toDigits 10 n).all Char.isDigit = true := by
  decide +kernel

lemma octets_lt {address n : ℕ} (h : n ∈ UrlHost.octets address) : n < 256 := by
  simp only [UrlHost.octets, List.mem_cons, List.not_mem_nil, or_false] at h
  omega

lemma splitOn_serializeIpv4 (address : ℕ) : (UrlHost.serializeIpv4 address).splitOn '.' =
    (UrlHost.octets address).map (Nat.toDigits 10) := by
  refine List.splitOn_intercalate _ ?_ (by simp [UrlHost.octets])
  intro octet hmem
  obtain ⟨n, hn, rfl⟩ := List.mem_map.mp hmem
  have hdigits := List.all_eq_true.mp (decimal_octet n (octets_lt hn)).2.2
  exact fun hdot => absurd (hdigits '.' hdot) (by decide)

lemma ipv4Value_octets {octets : List ℕ} (h : ∀ n ∈ octets, n < 256) (value : ℕ) :
    (ipv4Value value (octets.map (Nat.toDigits 10))).isSome = true := by
  induction octets generalizing value with
  | nil => rfl
  | cons n octets ih =>
    have hn := h n List.mem_cons_self
    obtain ⟨hdecimal, hnumber, -⟩ := decimal_octet n hn
    rw [List.map_cons, ipv4Value, if_neg (by rw [hdecimal]; decide), hnumber, if_neg (by omega)]
    exact ih (fun m hm => h m (List.mem_cons_of_mem _ hm)) _

/-- What the setter makes of a number is an address. -/
lemma isIP_serializeIpv4 (address : ℕ) : isIP (UrlHost.serializeIpv4 address) ≠ 0 := by
  have hfour : isIPv4 (UrlHost.serializeIpv4 address) = true := by
    rw [isIPv4, ipv4ToNumber, splitOn_serializeIpv4, if_neg (by simp [UrlHost.octets])]
    exact ipv4Value_octets (fun n hn => octets_lt hn) 0
  rw [isIP, if_pos hfour]
  decide

/-- The characters of a dotted decimal. -/
lemma mem_serializeIpv4 {c : Char} {address : ℕ} (hc : c ∈ UrlHost.serializeIpv4 address) :
    c = '.' ∨ c.isDigit = true := by
  rcases Ascii.eq_or_mem_splitOn '.' hc with rfl | ⟨octet, hoctet, hin⟩
  · exact Or.inl rfl
  · rw [splitOn_serializeIpv4] at hoctet
    obtain ⟨n, hn, rfl⟩ := List.mem_map.mp hoctet
    exact Or.inr (List.all_eq_true.mp (decimal_octet n (octets_lt hn)).2.2 c hin)

lemma toLower_serializeIpv4 (address : ℕ) :
    Ascii.toLower (UrlHost.serializeIpv4 address) = UrlHost.serializeIpv4 address := by
  rw [Ascii.toLower]
  conv_rhs => rw [← List.map_id (UrlHost.serializeIpv4 address)]
  refine List.map_congr_left fun c hc => ?_
  rcases mem_serializeIpv4 hc with rfl | hdigit
  · rfl
  · exact Ascii.toLower_of_isDigit hdigit

/-- A dotted decimal has a dot and nothing that is special in an IPv6 address. -/
lemma serializeIpv4_plain (address : ℕ) :
    '.' ∈ UrlHost.serializeIpv4 address ∧ ':' ∉ UrlHost.serializeIpv4 address ∧
      '%' ∉ UrlHost.serializeIpv4 address := by
  refine ⟨?_, fun hin => ?_, fun hin => ?_⟩
  · rw [UrlHost.serializeIpv4, UrlHost.octets, List.map_cons, List.map_cons, List.intercalate_cons_cons]
    simp
  · rcases mem_serializeIpv4 hin with h | h
    · cases h
    · cases h
  · rcases mem_serializeIpv4 hin with h | h
    · cases h
    · cases h

/-! ### What is read -/

lemma digitChar_of_isDigit {c : Char} (h : c.isDigit = true) : ∃ k < 10, c = Nat.digitChar k := by
  have hdigit : ∀ k < 10, (Nat.digitChar k).val.toNat = 48 + k := by decide
  simp only [Char.isDigit, Bool.and_eq_true, decide_eq_true_eq, ge_iff_le,
    UInt32.le_iff_toNat_le] at h
  have hlow : 48 ≤ c.val.toNat := h.1
  have hhigh : c.val.toNat ≤ 57 := h.2
  refine ⟨c.val.toNat - 48, by omega, ?_⟩
  apply Char.ext
  apply UInt32.toNat_inj.mp
  rw [hdigit _ (by omega)]
  omega

/-- A numeral without a leading zero is the decimal of its value. -/
lemma toDigits_decimalNumber {text : List Char} (hdigits : ∀ c ∈ text, c.isDigit = true) (hne : text ≠ [])
    (hhead : text.head? ≠ some '0') :
    0 < Ascii.decimalNumber text ∧ Nat.toDigits 10 (Ascii.decimalNumber text) = text := by
  induction text using List.reverseRecOn with
  | nil => exact absurd rfl hne
  | append_singleton text c ih =>
    obtain ⟨k, hk, rfl⟩ := digitChar_of_isDigit (hdigits c (by simp))
    have hdigit : ∀ k < 10, (Nat.digitChar k).toNat - 48 = k := by decide
    have hnumber : Ascii.decimalNumber (text ++ [Nat.digitChar k]) = 10 * Ascii.decimalNumber text + k := by
      simp [Ascii.decimalNumber, hdigit k hk, Nat.mul_comm]
    rw [hnumber]
    by_cases htext : text = []
    · subst htext
      have hpos : k ≠ 0 := by simpa using hhead
      exact ⟨by omega, by simp [Ascii.decimalNumber, Nat.toDigits_of_lt_base hk]⟩
    · obtain ⟨hpos, hsame⟩ := ih (fun c hc => hdigits c (by simp [hc])) htext
        (by simpa [List.head?_append_of_ne_nil _ htext] using hhead)
      refine ⟨by omega, ?_⟩
      rw [← Nat.toDigits_append_toDigits (by simp) hpos hk, hsame, Nat.toDigits_of_lt_base hk]

/-- A numeral that `ipv4ToNumber` accepts as an octet is the decimal of its value. -/
lemma toDigits_of_isDecimalOctet {text : List Char} (h : isDecimalOctet text = true) :
    Nat.toDigits 10 (Ascii.decimalNumber text) = text := by
  simp only [isDecimalOctet, Bool.or_eq_true, Bool.and_eq_true, decide_eq_true_eq,
    List.all_eq_true, ne_eq] at h
  rcases h with rfl | ⟨⟨⟨hpos, -⟩, hdigits⟩, hhead⟩
  · decide
  · exact (toDigits_decimalNumber hdigits (List.ne_nil_of_length_pos hpos) hhead).2

lemma ipv4Value_cons {value n : ℕ} {octet : List Char} {rest : List (List Char)} :
    ipv4Value value (octet :: rest) = some n ↔
      ∃ k < 256, octet = Nat.toDigits 10 k ∧ ipv4Value (value * 256 + k) rest = some n := by
  constructor
  · intro h
    rw [ipv4Value] at h
    split_ifs at h with hdecimal hlarge
    have hoctet := toDigits_of_isDecimalOctet (by simpa using hdecimal)
    exact ⟨Ascii.decimalNumber octet, by omega, hoctet.symm, h⟩
  · rintro ⟨k, hk, rfl, h⟩
    obtain ⟨hdecimal, hnumber, -⟩ := decimal_octet k hk
    rw [ipv4Value, if_neg (by rw [hdecimal]; decide), hnumber, if_neg (by omega)]
    exact h

/-- Four octets and the number that they make. -/
lemma octets_ofNumber {a b c d : ℕ} (ha : a < 256) (hb : b < 256) (hc : c < 256) (hd : d < 256) :
    UrlHost.octets (((a * 256 + b) * 256 + c) * 256 + d) = [a, b, c, d] := by
  simp only [UrlHost.octets, List.cons.injEq, and_true]
  omega

/-- `ipv4ToNumber` reads the dotted decimal of each 32-bit number, and nothing else. -/
theorem ipv4ToNumber_eq_some {text : List Char} {n : ℕ} :
    ipv4ToNumber text = some n ↔ n < 2 ^ 32 ∧ text = UrlHost.serializeIpv4 n := by
  constructor
  · intro h
    rw [ipv4ToNumber] at h
    split_ifs at h with hlength
    obtain ⟨p, q, r, s, hsplit⟩ := List.length_eq_four.mp (not_not.mp hlength)
    rw [hsplit] at h
    obtain ⟨a, ha, hp, hfirst⟩ := ipv4Value_cons.mp h
    obtain ⟨b, hb, hq, hsecond⟩ := ipv4Value_cons.mp hfirst
    obtain ⟨c, hc, hr, hthird⟩ := ipv4Value_cons.mp hsecond
    obtain ⟨d, hd, hs, hfourth⟩ := ipv4Value_cons.mp hthird
    obtain rfl : ((a * 256 + b) * 256 + c) * 256 + d = n := by simpa [ipv4Value] using hfourth
    refine ⟨by omega, ?_⟩
    rw [UrlHost.serializeIpv4, octets_ofNumber ha hb hc hd]
    have hjoin : ['.'].intercalate (text.splitOn '.') = text := List.intercalate_splitOn '.'
    rw [hsplit, hp, hq, hr, hs] at hjoin
    exact hjoin.symm
  · rintro ⟨hn, rfl⟩
    have hoctets : UrlHost.octets n =
        [n / 256 ^ 3 % 256, n / 256 ^ 2 % 256, n / 256 % 256, n % 256] := rfl
    rw [ipv4ToNumber, splitOn_serializeIpv4, if_neg (by simp [UrlHost.octets]), hoctets]
    refine ipv4Value_cons.mpr ⟨_, by omega, rfl, ?_⟩
    refine ipv4Value_cons.mpr ⟨_, by omega, rfl, ?_⟩
    refine ipv4Value_cons.mpr ⟨_, by omega, rfl, ?_⟩
    refine ipv4Value_cons.mpr ⟨_, by omega, rfl, ?_⟩
    have hsum : (((0 * 256 + n / 256 ^ 3 % 256) * 256 + n / 256 ^ 2 % 256) * 256 + n / 256 % 256) *
        256 + n % 256 = n := by omega
    rw [hsum]
    rfl

end Bloom
