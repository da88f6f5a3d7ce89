import BloomWorkspaces.Agent.Egress.Ipv4
import BloomWorkspaces.Library.JsArithmetic
import Mathlib.Tactic.Linarith

/-!
# Addresses in the arithmetic of the source

The functions of the classification again, with the operators that the source applies: numbers that are
doubles, shifts and masks of 32 bits, and `bigint`. They compute what the functions on natural numbers do.
-/

namespace Bloom.Arithmetic

open JsArithmetic

def ipv4Value : ℕ → List (List Char) → Option ℕ
  | value, [] => some value
  | value, octet :: rest =>
    if isDecimalOctet octet = false then none
    else if 255 < round (Ascii.decimalNumber octet) then none
    else ipv4Value (round (round (value * 256) + round (Ascii.decimalNumber octet))) rest

def ipv4ToNumber (address : List Char) : Option ℕ :=
  if (address.splitOn '.').length ≠ 4 then none
  else (ipv4Value 0 (address.splitOn '.')).map fun value => unsignedShiftRight value 0

def ipv4CidrContains (value : ℕ) (base : List Char) (bits : ℕ) : Bool :=
  match ipv4ToNumber base with
  | none => false
  | some baseValue => floorDivPow value (32 - bits) = floorDivPow baseValue (32 - bits)

def isPublicIpv4 (address : List Char) : Bool :=
  match ipv4ToNumber address with
  | none => false
  | some value => !specialIpv4.any fun range => ipv4CidrContains value range.1 range.2

def expandDottedTail (working : List Char) : Option (List Char) :=
  if '.' ∈ working then
    match Ascii.splitAtLast ':' working with
    | none => none
    | some (before, tail) =>
      match ipv4ToNumber tail with
      | none => none
      | some ipv4 =>
        some (before ++ ':' :: toString16 (unsignedShiftRight ipv4 16) ++
          ':' :: toString16 (bitAnd ipv4 0xffff))
  else some working

def ipv6ToBigInt (address : List Char) : Option ℕ :=
  if '%' ∈ address then none
  else
    match expandDottedTail (Ascii.toLower address) with
    | none => none
    | some working =>
      match ipv6Words working with
      | none => none
      | some words =>
        if words.length ≠ 8 || words.any fun word => !isHexWord word then none
        else some (words.foldl (fun value word => value <<< 16 ||| Ascii.hexNumber word) 0)

def ipv6CidrContains (value : ℕ) (base : List Char) (bits : ℕ) : Bool :=
  match ipv6ToBigInt base with
  | none => false
  | some baseValue => value >>> (128 - bits) = baseValue >>> (128 - bits)

def isPublicIpv6 (address : List Char) : Bool :=
  match ipv6ToBigInt address with
  | none => false
  | some value =>
    if value >>> 125 ≠ 1 then false
    else !specialIpv6.any fun range => ipv6CidrContains value range.1 range.2

def isPublicAddress (address : List Char) : Bool :=
  match isIP address with
  | 4 => isPublicIpv4 address
  | 6 => isPublicIpv6 address
  | _ => false

/-! ### No bits are lost -/

section Exact

variable {octets : List (List Char)} {value n : ℕ} {base text : List Char}

lemma hexNumber_word_lt (h : isHexWord text = true) : Ascii.hexNumber text < 2 ^ 16 := by
  simp only [isHexWord, Bool.and_eq_true, decide_eq_true_eq, List.all_eq_true] at h
  have hlt := Ascii.hexNumber_lt fun c hc => by
    have hdigit := h.2 c hc
    simp only [Ascii.isHexDigit, Bool.or_eq_true] at hdigit ⊢
    exact Or.inl hdigit
  have hle : 16 ^ text.length ≤ 16 ^ 4 := Nat.pow_le_pow_right (by decide) h.1.2
  omega

lemma decimalNumber_lt (h : isDecimalOctet text = true) : Ascii.decimalNumber text < 1000 := by
  have hlength : (Nat.toDigits 10 (Ascii.decimalNumber text)).length ≤ 3 := by
    rw [toDigits_of_isDecimalOctet h]
    simp only [isDecimalOctet, Bool.or_eq_true, Bool.and_eq_true, decide_eq_true_eq] at h
    rcases h with rfl | ⟨⟨⟨-, hlength⟩, -⟩, -⟩
    · decide
    · exact hlength
  exact (Nat.length_toDigits_le_iff (by decide) (by decide)).mp hlength

/-- The numbers of a few octets are far below the bound of safe integers. -/
lemma ipv4Value_eq (h : (value + 1) * 256 ^ octets.length ≤ 2 ^ 32) :
    ipv4Value value octets = Bloom.ipv4Value value octets ∧
      ∀ n, Bloom.ipv4Value value octets = some n → n < 2 ^ 32 := by
  induction octets generalizing value with
  | nil =>
    refine ⟨rfl, fun n hn => ?_⟩
    obtain rfl : value = n := Option.some_inj.mp hn
    rw [List.length_nil, pow_zero, mul_one] at h
    exact h
  | cons octet octets ih =>
    rw [ipv4Value, Bloom.ipv4Value]
    by_cases hdecimal : isDecimalOctet octet = false
    · rw [if_pos hdecimal, if_pos hdecimal]
      exact ⟨rfl, fun n hn => absurd hn (Option.some_ne_none n).symm⟩
    · have hsmall := decimalNumber_lt (eq_true_of_ne_false hdecimal)
      rw [if_neg hdecimal, if_neg hdecimal, round_of_lt (by omega)]
      by_cases hlarge : 255 < Ascii.decimalNumber octet
      · rw [if_pos hlarge, if_pos hlarge]
        exact ⟨rfl, fun n hn => absurd hn (Option.some_ne_none n).symm⟩
      · have hfits : (value + 1) * 256 * 256 ^ octets.length ≤ 2 ^ 32 := by
          rw [List.length_cons, pow_succ] at h
          linarith
        have hvalue : (value + 1) * 256 ≤ 2 ^ 32 :=
          le_trans (Nat.le_mul_of_pos_right _ (Nat.pow_pos (by decide))) hfits
        have hproduct : round (value * 256) = value * 256 := round_of_lt (by omega)
        rw [if_neg hlarge, if_neg hlarge, hproduct, round_of_lt (by omega)]
        exact ih (le_trans (Nat.mul_le_mul_right _ (by omega)) hfits)

theorem ipv4ToNumber_eq (address : List Char) : ipv4ToNumber address = Bloom.ipv4ToNumber address := by
  rw [ipv4ToNumber, Bloom.ipv4ToNumber]
  split_ifs with hlength
  · rfl
  · have hfits : (0 + 1) * 256 ^ (address.splitOn '.').length ≤ 2 ^ 32 := by
      rw [not_not.mp hlength]
      decide
    obtain ⟨hsame, hlt⟩ := ipv4Value_eq hfits
    rw [hsame]
    cases hvalue : Bloom.ipv4Value 0 (address.splitOn '.') with
    | none => rfl
    | some n => rw [Option.map_some, unsignedShiftRight_of_lt (hlt n hvalue), pow_zero, Nat.div_one]

lemma lt_of_ipv4ToNumber (h : Bloom.ipv4ToNumber text = some n) : n < 2 ^ 32 :=
  (ipv4ToNumber_eq_some.mp h).1

theorem ipv4CidrContains_eq (h : n < 2 ^ 32) (base : List Char) (bits : ℕ) :
    ipv4CidrContains n base bits = Bloom.ipv4CidrContains n base bits := by
  rw [ipv4CidrContains, Bloom.ipv4CidrContains, ipv4ToNumber_eq]
  cases hbase : Bloom.ipv4ToNumber base with
  | none => rfl
  | some baseValue =>
    have hlt := lt_of_ipv4ToNumber hbase
    simp only [floorDivPow_of_lt (n := n) (by omega), floorDivPow_of_lt (n := baseValue) (by omega)]

theorem isPublicIpv4_eq (address : List Char) : isPublicIpv4 address = Bloom.isPublicIpv4 address := by
  rw [isPublicIpv4, Bloom.isPublicIpv4, ipv4ToNumber_eq]
  cases haddress : Bloom.ipv4ToNumber address with
  | none => rfl
  | some value => simp only [ipv4CidrContains_eq (lt_of_ipv4ToNumber haddress)]

theorem expandDottedTail_eq (working : List Char) :
    expandDottedTail working = Bloom.expandDottedTail working := by
  rw [expandDottedTail, Bloom.expandDottedTail]
  split_ifs with hdot
  · cases hsplit : Ascii.splitAtLast ':' working with
    | none => rfl
    | some halves =>
      simp only [ipv4ToNumber_eq]
      cases htail : Bloom.ipv4ToNumber halves.2 with
      | none => rfl
      | some ipv4 =>
        simp only
        rw [unsignedShiftRight_of_lt (lt_of_ipv4ToNumber htail), bitAnd_mask, toString16_natCast,
          toString16_natCast]
        rfl
  · rfl

/-- Each word fits in the bits that the shift makes free. -/
lemma foldl_words_eq {words : List (List Char)} (h : ∀ word ∈ words, isHexWord word = true) (value : ℕ) :
    words.foldl (fun value word => value <<< 16 ||| Ascii.hexNumber word) value =
      words.foldl (fun value word => value * 65536 + Ascii.hexNumber word) value := by
  induction words generalizing value with
  | nil => rfl
  | cons word words ih =>
    have hword := hexNumber_word_lt (h word List.mem_cons_self)
    rw [List.foldl_cons, List.foldl_cons, shiftLeft_or hword]
    exact ih (fun w hin => h w (List.mem_cons_of_mem _ hin)) _

theorem ipv6ToBigInt_eq (address : List Char) : ipv6ToBigInt address = Bloom.ipv6ToBigInt address := by
  rw [ipv6ToBigInt, Bloom.ipv6ToBigInt]
  split_ifs with hzone
  · rfl
  · simp only [expandDottedTail_eq]
    cases Bloom.expandDottedTail (Ascii.toLower address) with
    | none => rfl
    | some working =>
      cases hwords : ipv6Words working with
      | none => simp only [hwords]
      | some words =>
        simp only [hwords]
        split_ifs with hvalid
        · rfl
        · rw [Bool.or_eq_true, not_or] at hvalid
          rw [foldl_words_eq]
          simpa using hvalid.2

theorem ipv6CidrContains_eq (value : ℕ) (base : List Char) (bits : ℕ) :
    ipv6CidrContains value base bits = Bloom.ipv6CidrContains value base bits := by
  rw [ipv6CidrContains, Bloom.ipv6CidrContains, ipv6ToBigInt_eq]
  cases Bloom.ipv6ToBigInt base with
  | none => rfl
  | some baseValue => simp only [Nat.shiftRight_eq_div_pow]

theorem isPublicIpv6_eq (address : List Char) : isPublicIpv6 address = Bloom.isPublicIpv6 address := by
  rw [isPublicIpv6, Bloom.isPublicIpv6, ipv6ToBigInt_eq]
  cases Bloom.ipv6ToBigInt address with
  | none => rfl
  | some value => simp only [Nat.shiftRight_eq_div_pow, ipv6CidrContains_eq]

theorem isPublicAddress_eq (address : List Char) :
    isPublicAddress address = Bloom.isPublicAddress address := by
  rw [isPublicAddress, Bloom.isPublicAddress, isIP]
  split_ifs with hfour hsix
  · exact isPublicIpv4_eq address
  · exact isPublicIpv6_eq address
  · rfl

end Exact

end Bloom.Arithmetic
