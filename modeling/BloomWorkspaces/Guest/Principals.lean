import BloomWorkspaces.Guest.Connections
import BloomWorkspaces.Library.Sha256
import BloomWorkspaces.Library.Utf8
import BloomWorkspaces.Ssh.Contracts

/-!
# Principals of the guest

The controller writes the principals of its workspace and wallet with a SHA-256 of its own; the host puts
`workspacePrincipal` into the certificates. Both are the same texts, since `sha256_hex` is the function of
FIPS 180-4 and what `connections.configure` accepts is in lower case already.
-/

namespace Bloom

open Connections
open Sha256 (Word Words)

/-! ### `sha256_hex` -/

/-- `hash`, as it is initialised. -/
def sha256Initial : Words where
  a := 0x6a09e667
  b := 0xbb67ae85
  c := 0x3c6ef372
  d := 0xa54ff53a
  e := 0x510e527f
  f := 0x9b05688c
  g := 0x1f83d9ab
  h := 0x5be0cd19

/-- `k` -/
def sha256Constants : List Word :=
  [0x428a2f98, 0x71374491, 0xb5c0fbcf, 0xe9b5dba5, 0x3956c25b, 0x59f111f1, 0x923f82a4,
   0xab1c5ed5, 0xd807aa98, 0x12835b01, 0x243185be, 0x550c7dc3, 0x72be5d74, 0x80deb1fe,
   0x9bdc06a7, 0xc19bf174, 0xe49b69c1, 0xefbe4786, 0x0fc19dc6, 0x240ca1cc, 0x2de92c6f,
   0x4a7484aa, 0x5cb0a9dc, 0x76f988da, 0x983e5152, 0xa831c66d, 0xb00327c8, 0xbf597fc7,
   0xc6e00bf3, 0xd5a79147, 0x06ca6351, 0x14292967, 0x27b70a85, 0x2e1b2138, 0x4d2c6dfc,
   0x53380d13, 0x650a7354, 0x766a0abb, 0x81c2c92e, 0x92722c85, 0xa2bfe8a1, 0xa81a664b,
   0xc24b8b70, 0xc76c51a3, 0xd192e819, 0xd6990624, 0xf40e3585, 0x106aa070, 0x19a4c116,
   0x1e376c08, 0x2748774c, 0x34b0bcb5, 0x391c0cb3, 0x4ed8aa4a, 0x5b9cca4f, 0x682e6ff3,
   0x748f82ee, 0x78a5636f, 0x84c87814, 0x8cc70208, 0x90befffa, 0xa4506ceb, 0xbef9a3f7,
   0xc67178f2]

/-- `while msg.len() % 64 != 56 { msg.push(0); }`, for at most `fuel` turns. -/
def pushZeros : ℕ → List UInt8 → List UInt8
  | 0, msg => msg
  | fuel + 1, msg => if msg.length % 64 ≠ 56 then pushZeros fuel (msg ++ [0]) else msg

/-- The padded message; the number of bits is a 64-bit one. -/
def padMessage (data : List UInt8) : List UInt8 :=
  pushZeros 64 (data ++ [0x80]) ++ BigEndian.toBytes 8 (data.length * 8 % 2 ^ 64)

/-- `chunks(64)` -/
def chunks (msg : List UInt8) : List (List UInt8) :=
  (List.range ((msg.length + 63) / 64)).map fun i => (msg.drop (64 * i)).take 64

/-- `w[i] = u32::from_be_bytes(…)` -/
def loadWord (chunk : List UInt8) (w : List Word) (i : ℕ) : List Word :=
  w.set i (BitVec.ofNat 32 (BigEndian.ofBytes
    [chunk.getD (i * 4) 0, chunk.getD (i * 4 + 1) 0, chunk.getD (i * 4 + 2) 0, chunk.getD (i * 4 + 3) 0]))

def extendWord (w : List Word) (i : ℕ) : List Word :=
  let w₁₅ := w.getD (i - 15) 0
  let w₂ := w.getD (i - 2) 0
  let s₀ := w₁₅.rotateRight 7 ^^^ w₁₅.rotateRight 18 ^^^ (w₁₅ >>> 3)
  let s₁ := w₂.rotateRight 17 ^^^ w₂.rotateRight 19 ^^^ (w₂ >>> 10)
  w.set i (w.getD (i - 16) 0 + s₀ + w.getD (i - 7) 0 + s₁)

/-- `w`, after its two loops. -/
def messageWords (chunk : List UInt8) : List Word :=
  (List.range' 16 48).foldl extendWord ((List.range 16).foldl (loadWord chunk) (List.replicate 64 0))

/-- A turn of the loop on the eight variables. -/
def compressionTurn (w : List Word) (v : Words) (i : ℕ) : Words :=
  let s₁ := v.e.rotateRight 6 ^^^ v.e.rotateRight 11 ^^^ v.e.rotateRight 25
  let ch := (v.e &&& v.f) ^^^ (~~~v.e &&& v.g)
  let temp₁ := v.h + s₁ + ch + sha256Constants.getD i 0 + w.getD i 0
  let s₀ := v.a.rotateRight 2 ^^^ v.a.rotateRight 13 ^^^ v.a.rotateRight 22
  let maj := (v.a &&& v.b) ^^^ (v.a &&& v.c) ^^^ (v.b &&& v.c)
  let temp₂ := s₀ + maj
  { h := v.g, g := v.f, f := v.e, e := v.d + temp₁, d := v.c, c := v.b, b := v.a, a := temp₁ + temp₂ }

def hashChunk (hash : Words) (chunk : List UInt8) : Words :=
  let v := (List.range 64).foldl (compressionTurn (messageWords chunk)) hash
  { a := hash.a + v.a, b := hash.b + v.b, c := hash.c + v.c, d := hash.d + v.d,
    e := hash.e + v.e, f := hash.f + v.f, g := hash.g + v.g, h := hash.h + v.h }

/-- `{:08x}` -/
def formatWord (w : Word) : List Char :=
  List.replicate (8 - (Nat.toDigits 16 w.toNat).length) '0' ++ Nat.toDigits 16 w.toNat

def sha256Hex (data : List UInt8) : List Char :=
  ((chunks (padMessage data)).foldl hashChunk sha256Initial).toList.flatMap formatWord

/-! ### Principals -/

/-- The lines of `authorized_principals`. -/
def guestPrincipals (fields : ConfigureFields) : List String :=
  let ownerDigest := String.ofList ((sha256Hex (Utf8.encode fields.wallet.toList)).take 32)
  let shell := "bloom-shell-" ++ fields.workspaceId ++ "-w-" ++ ownerDigest
  if fields.nfsEnabled then [shell, "bloom-nfs-" ++ fields.workspaceId ++ "-w-" ++ ownerDigest] else [shell]

/-- `createHash("sha256").update(value).digest("hex")` -/
def sha256Digest (value : String) : String :=
  String.ofList (Sha256.hexDigest (Sha256.bitsOf (Utf8.encode value.toList)))

/-- The modes in which a configured workspace is accessed. -/
def accessModes (fields : ConfigureFields) : List SshAccessMode :=
  if fields.nfsEnabled then [.shell, .nfs] else [.shell]

/-! ### The padded message -/

section Padding

variable {data msg chunk : List UInt8}

lemma pushZeros_eq (fuel : ℕ) (msg : List UInt8) (hfuel : (120 - msg.length % 64) % 64 ≤ fuel) :
    pushZeros fuel msg = msg ++ List.replicate ((120 - msg.length % 64) % 64) 0 := by
  induction fuel generalizing msg with
  | zero =>
    have hnone : (120 - msg.length % 64) % 64 = 0 := Nat.le_zero.mp hfuel
    rw [pushZeros, hnone, List.replicate_zero, List.append_nil]
  | succ fuel ih =>
    rw [pushZeros]
    split_ifs with hmore
    · have hlength : (msg ++ [(0 : UInt8)]).length = msg.length + 1 := List.length_append
      have hnext : (120 - msg.length % 64) % 64 = (120 - (msg.length + 1) % 64) % 64 + 1 := by omega
      rw [ih _ (by rw [hlength]; omega), hlength, hnext, List.replicate_succ, List.append_assoc]
      rfl
    · have hnone : (120 - msg.length % 64) % 64 = 0 := by omega
      rw [hnone, List.replicate_zero, List.append_nil]

/-- The bytes of a big-endian number depend on it modulo their width. -/
lemma toBytes_mod (width n : ℕ) : BigEndian.toBytes width (n % 256 ^ width) = BigEndian.toBytes width n := by
  cases width with
  | zero => rfl
  | succ width =>
    have hhigh : n % 256 ^ (width + 1) / 256 ^ width = n / 256 ^ width % 256 := by
      rw [Nat.pow_succ, Nat.mod_mul_right_div_self]
    have hlow : n % 256 ^ (width + 1) % 256 ^ width = n % 256 ^ width :=
      Nat.mod_mod_of_dvd _ (Nat.pow_dvd_pow 256 (Nat.le_succ width))
    rw [BigEndian.toBytes, BigEndian.toBytes, hhigh, hlow]
    congr 1
    apply UInt8.toNat_inj.mp
    rw [UInt8.toNat_ofNat', UInt8.toNat_ofNat']
    omega

lemma padMessage_eq (data : List UInt8) : padMessage data = Sha256.padBytes data := by
  have hzeros : (120 - (data ++ [(0x80 : UInt8)]).length % 64) % 64 = Sha256.zeroBytes data.length := by
    rw [List.length_append, List.length_singleton, Sha256.zeroBytes]
    omega
  have hlength : BigEndian.toBytes 8 (data.length * 8 % 2 ^ 64) = BigEndian.toBytes 8 (8 * data.length) := by
    have hpow : (2 : ℕ) ^ 64 = 256 ^ 8 := Nat.pow_mul 2 8 8
    rw [hpow, toBytes_mod, Nat.mul_comm]
  rw [padMessage, pushZeros_eq _ _ (by omega), hzeros, hlength, Sha256.padBytes]

end Padding

/-! ### The compression of a chunk -/

section Compression

variable {chunk : List UInt8} {block : ℕ → Word} {w : List Word}

lemma primes_eq : Sha256.primes = [
    2, 3, 5, 7, 11, 13, 17, 19, 23, 29, 31, 37, 41, 43, 47, 53, 59, 61, 67, 71, 73, 79, 83, 89, 97, 101, 103,
    107, 109, 113, 127, 131, 137, 139, 149, 151, 157, 163, 167, 173, 179, 181, 191, 193, 197, 199, 211, 223,
    227, 229, 233, 239, 241, 251, 257, 263, 269, 271, 277, 281, 283, 293, 307, 311] := by
  decide +kernel

/-- The words of the table are the constants of the standard. -/
lemma sha256Constants_eq : ∀ t < 64, sha256Constants.getD t 0 = Sha256.roundConstant t := by
  unfold Sha256.roundConstant Sha256.fractionalRoot
  rw [primes_eq]
  decide +kernel

lemma sha256Initial_eq : sha256Initial = Sha256.initial := by
  decide

lemma schedule_lt {t : ℕ} (h : t < 16) : Sha256.schedule block t = block t := by
  rw [Sha256.schedule, if_pos h]

lemma schedule_ge {t : ℕ} (h : 16 ≤ t) : Sha256.schedule block t =
    Sha256.smallSigma1 (Sha256.schedule block (t - 2)) + Sha256.schedule block (t - 7) +
      Sha256.smallSigma0 (Sha256.schedule block (t - 15)) + Sha256.schedule block (t - 16) := by
  rw [Sha256.schedule, if_neg (Nat.not_lt.mpr h)]

/-- Only the sixteen words of the block matter. -/
lemma schedule_congr {block' : ℕ → Word} (h : ∀ t < 16, block t = block' t) :
    Sha256.schedule block = Sha256.schedule block' := by
  funext t
  induction t using Nat.strongRecOn with
  | ind t ih =>
    by_cases ht : t < 16
    · rw [schedule_lt ht, schedule_lt ht, h t ht]
    · refine (schedule_ge (by omega)).trans (.trans ?_ (schedule_ge (by omega)).symm)
      rw [ih (t - 2) (by omega), ih (t - 7) (by omega), ih (t - 15) (by omega), ih (t - 16) (by omega)]

lemma length_loadWord (chunk : List UInt8) (w : List Word) (i : ℕ) :
    (loadWord chunk w i).length = w.length := by
  rw [loadWord, List.length_set]

lemma length_extendWord (w : List Word) (i : ℕ) : (extendWord w i).length = w.length := by
  rw [extendWord, List.length_set]

/-- A loop that sets one word after the other has set the words up to its end, to values of the words
before them. -/
lemma foldl_set (step : List Word → ℕ → List Word) (value : ℕ → Word) (start count : ℕ)
    (hlength : ∀ w i, (step w i).length = w.length)
    (hkeeps : ∀ w i t, t ≠ i → (step w i).getD t 0 = w.getD t 0)
    (hsets : ∀ w i, start ≤ i → i < start + count → i < w.length → (∀ t < i, w.getD t 0 = value t) →
      (step w i).getD i 0 = value i)
    (hcount : start + count ≤ w.length) (hw : ∀ t < start, w.getD t 0 = value t) :
    ((List.range' start count).foldl step w).length = w.length ∧
      ∀ t < start + count, ((List.range' start count).foldl step w).getD t 0 = value t := by
  induction count with
  | zero => exact ⟨rfl, hw⟩
  | succ count ih =>
    obtain ⟨hsize, hvalues⟩ := ih (fun w i hstart hi => hsets w i hstart (by omega)) (by omega)
    rw [List.range'_concat, List.foldl_concat, Nat.one_mul]
    refine ⟨(hlength _ _).trans hsize, fun t ht => ?_⟩
    by_cases hlast : t = start + count
    · rw [hlast]
      exact hsets _ _ (Nat.le_add_right _ _) (by omega) (by omega) hvalues
    · rw [hkeeps _ _ _ hlast]
      exact hvalues t (by omega)

lemma getD_set_self {i : ℕ} (h : i < w.length) (x : Word) : (w.set i x).getD i 0 = x := by
  rw [List.getD_eq_getElem _ _ (by rwa [List.length_set]), List.getElem_set_self]

lemma getD_set_ne {i t : ℕ} (h : t ≠ i) (x : Word) : (w.set i x).getD t 0 = w.getD t 0 := by
  rw [List.getD_eq_getElem?_getD, List.getD_eq_getElem?_getD, List.getElem?_set_ne h.symm]

/-- The four bytes of a word of the chunk. -/
lemma take_drop_four {t : ℕ} (h : 4 * t + 4 ≤ chunk.length) : (chunk.drop (4 * t)).take 4 =
    [chunk.getD (t * 4) 0, chunk.getD (t * 4 + 1) 0, chunk.getD (t * 4 + 2) 0, chunk.getD (t * 4 + 3) 0] := by
  rw [Nat.mul_comm 4 t, List.getD_eq_getElem _ _ (by omega), List.getD_eq_getElem _ _ (by omega),
    List.getD_eq_getElem _ _ (by omega), List.getD_eq_getElem _ _ (by omega),
    List.drop_eq_getElem_cons (by omega), List.drop_eq_getElem_cons (by omega),
    List.drop_eq_getElem_cons (by omega), List.drop_eq_getElem_cons (by omega)]
  rfl

/-- The words of a chunk are the message schedule of its block. -/
lemma messageWords_eq (hlength : chunk.length = 64) : ∀ t < 64, (messageWords chunk).getD t 0 =
    Sha256.schedule (fun i => BitVec.ofNat 32 (BigEndian.ofBytes ((chunk.drop (4 * i)).take 4))) t := by
  have hload := foldl_set (w := List.replicate 64 0) (loadWord chunk)
    (Sha256.schedule fun i => BitVec.ofNat 32 (BigEndian.ofBytes ((chunk.drop (4 * i)).take 4)))
    0 16 (length_loadWord chunk) (fun w i t hne => getD_set_ne hne _)
    (fun w i _ hi hsize _ => by
      rw [loadWord, getD_set_self hsize, schedule_lt (by omega), take_drop_four (by omega)])
    (by decide) (fun t ht => absurd ht (Nat.not_lt_zero t))
  obtain ⟨hsize, hloaded⟩ := hload
  have hextend := foldl_set (w := (List.range 16).foldl (loadWord chunk) (List.replicate 64 0))
    extendWord
    (Sha256.schedule fun i => BitVec.ofNat 32 (BigEndian.ofBytes ((chunk.drop (4 * i)).take 4)))
    16 48 length_extendWord (fun w i t hne => getD_set_ne hne _)
    (fun w i hstart _ hsize hbefore => by
      rw [extendWord, getD_set_self hsize, schedule_ge hstart, hbefore _ (by omega), hbefore _ (by omega),
        hbefore _ (by omega), hbefore _ (by omega), Sha256.smallSigma0, Sha256.smallSigma1]
      ac_rfl)
    (by rw [List.range_eq_range', hsize]; decide) (by rw [List.range_eq_range']; exact hloaded)
  exact hextend.2

lemma compressionTurn_eq {schedule : ℕ → Word} (hw : ∀ t < 64, w.getD t 0 = schedule t) (v : Words) {i : ℕ}
    (hi : i < 64) : compressionTurn w v i = Sha256.round schedule v i := by
  rw [compressionTurn, Sha256.round, sha256Constants_eq i hi, hw i hi]
  rfl

/-- The loop on the eight variables takes the rounds of the standard. -/
lemma foldl_compressionTurn {schedule : ℕ → Word} (hw : ∀ t < 64, w.getD t 0 = schedule t) (v : Words) :
    (List.range 64).foldl (compressionTurn w) v = (List.range 64).foldl (Sha256.round schedule) v :=
  List.foldl_ext _ _ v fun v _ hi => compressionTurn_eq hw v (List.mem_range.mp hi)

lemma hashChunk_eq (hlength : chunk.length = 64) (hash : Words) : hashChunk hash chunk =
    Sha256.compress hash fun i => BitVec.ofNat 32 (BigEndian.ofBytes ((chunk.drop (4 * i)).take 4)) := by
  rw [hashChunk, foldl_compressionTurn (messageWords_eq hlength), Sha256.compress, Words.add]

end Compression

/-! ### The digest -/

lemma foldl_chunks {msg : List UInt8} (hlength : msg.length % 64 = 0) (hash : Words) :
    (chunks msg).foldl hashChunk hash = (List.range (msg.length / 64)).foldl
      (fun value i => Sha256.compress value fun t =>
        BitVec.ofNat 32 (BigEndian.ofBytes ((msg.drop (4 * (16 * i + t))).take 4))) hash := by
  have hcount : (msg.length + 63) / 64 = msg.length / 64 := by omega
  rw [chunks, hcount, List.foldl_map]
  refine List.foldl_ext _ _ hash fun value i hi => ?_
  have hi' := List.mem_range.mp hi
  rw [hashChunk_eq (by rw [List.length_take, List.length_drop]; omega)]
  have hwords : ∀ t < 16, BitVec.ofNat 32 (BigEndian.ofBytes
        ((((msg.drop (64 * i)).take 64).drop (4 * t)).take 4)) =
      BitVec.ofNat 32 (BigEndian.ofBytes ((msg.drop (4 * (16 * i + t))).take 4)) := by
    intro t ht
    rw [List.drop_take, List.take_take, List.drop_drop, Nat.min_eq_left (by omega)]
    congr 4
    omega
  rw [Sha256.compress, Sha256.compress, schedule_congr hwords]

/-- The digits of a number that is padded to a width. -/
lemma replicate_toDigits (width n : ℕ) (h : n < 16 ^ (width + 1)) :
    List.replicate (width + 1 - (Nat.toDigits 16 n).length) '0' ++ Nat.toDigits 16 n =
      (List.range (width + 1)).map fun i => Nat.digitChar (n / 16 ^ (width - i) % 16) := by
  induction width generalizing n with
  | zero =>
    have hsmall : n < 16 := by simpa using h
    rw [Nat.toDigits_of_lt_base hsmall]
    simp [Nat.mod_eq_of_lt hsmall]
  | succ width ih =>
    have hquot : n / 16 < 16 ^ (width + 1) := by
      rw [Nat.div_lt_iff_lt_mul (by decide), ← Nat.pow_succ]
      exact h
    have hdigits : (List.range (width + 1 + 1)).map (fun i => Nat.digitChar (n / 16 ^ (width + 1 - i) % 16)) =
        (List.range (width + 1)).map (fun i => Nat.digitChar (n / 16 / 16 ^ (width - i) % 16)) ++
          [Nat.digitChar (n % 16)] := by
      rw [List.range_succ, List.map_append, List.map_singleton, Nat.sub_self, Nat.pow_zero, Nat.div_one]
      congr 1
      refine List.map_congr_left fun i hi => ?_
      have hi' := List.mem_range.mp hi
      rw [Nat.div_div_eq_div_mul, ← Nat.pow_succ', ← Nat.succ_sub (by omega)]
    rw [hdigits, ← ih _ hquot]
    by_cases hsmall : n < 16
    · have hzero : n / 16 = 0 := Nat.div_eq_of_lt hsmall
      rw [Nat.toDigits_of_lt_base hsmall, hzero, Nat.toDigits_zero, Nat.mod_eq_of_lt hsmall]
      simp only [List.length_singleton, Nat.add_sub_cancel, List.replicate_succ']
    · rw [Nat.toDigits_of_base_le (by decide) (by omega), List.length_append, List.length_singleton,
        ← List.append_assoc, Nat.add_sub_add_right]

lemma formatWord_eq (w : Word) : formatWord w = Sha256.hexWord w :=
  replicate_toDigits 7 w.toNat w.isLt

lemma sha256Hex_eq (data : List UInt8) : sha256Hex data = Sha256.hexDigest (Sha256.bitsOf data) := by
  have hformat : formatWord = Sha256.hexWord := funext formatWord_eq
  rw [sha256Hex, Sha256.hexDigest, Sha256.hash_bitsOf, padMessage_eq, foldl_chunks (Sha256.length_padBytes data),
    sha256Initial_eq, hformat]

example : String.ofList (sha256Hex [97, 98, 99]) =
    "ba7816bf8f01cfea414140de5dae2223b00361a396177a9cb410ff61f20015ad" := by
  decide +kernel

/-! ### What both sides accept -/

section Accepted

variable {s : String}

lemma toLower_of_isUpper {c : Char} (h : c.isUpper = false) : c.toLower = c := by
  delta Char.isUpper at h
  exact dif_neg (of_decide_eq_false h)

lemma lowerCase_eq (h : ∀ c ∈ s.toList, c.isUpper = false) : lowerCase s = s := by
  have hlower : Ascii.toLower s.toList = s.toList :=
    (List.map_congr_left fun c hc => toLower_of_isUpper (h c hc)).trans (List.map_id _)
  rw [lowerCase, hlower, String.ofList_toList]

lemma isUpper_of_class {c : Char} (h : c.isDigit = true ∨ 'a' ≤ c ∧ c ≤ 'f') : c.isUpper = false := by
  have hbound : c.val.toNat ≤ 57 ∨ 97 ≤ c.val.toNat := by
    rcases h with h | h
    · simp only [Char.isDigit, Bool.and_eq_true, decide_eq_true_eq] at h
      exact .inl (UInt32.le_iff_toNat_le.mp h.2)
    · exact .inr (UInt32.le_iff_toNat_le.mp h.1)
  delta Char.isUpper
  rw [decide_eq_false_iff_not]
  rintro ⟨hlow, hhigh⟩
  have hlow' : 65 ≤ c.val.toNat := UInt32.le_iff_toNat_le.mp hlow
  have hhigh' : c.val.toNat ≤ 90 := UInt32.le_iff_toNat_le.mp hhigh
  omega

/-- The class of the character at a position of an id. -/
def patternAt (i : ℕ) : Char → Bool :=
  if i ∈ dashPositions then isDash
  else if i = 14 then fun c => c = '4'
  else if i = 19 then fun c => c ∈ ['8', '9', 'a', 'b', 'A', 'B']
  else Ascii.isHexDigit

lemma idPattern_eq : idPattern = (List.range 36).map patternAt := rfl

lemma isWorkspaceId_of_guest (h : isGuestWorkspaceId s = true) : isWorkspaceId s = true ∧ lowerCase s = s := by
  rw [isGuestWorkspaceId, isUuidText, hasUuidShape] at h
  simp only [Bool.and_eq_true, decide_eq_true_eq] at h
  obtain ⟨⟨⟨⟨hlength, hshape⟩, hversion⟩, hvariant⟩, hlower⟩ := h
  constructor
  · rw [isWorkspaceId, idPattern_eq, Bool.and_eq_true, decide_eq_true_eq, List.length_map, List.length_range]
    refine ⟨hlength, List.all_eq_true.mpr fun accepted haccepted => ?_⟩
    obtain ⟨i, hi, rfl⟩ := List.mem_iff_getElem.mp haccepted
    rw [List.length_zipWith, List.length_map, List.length_range, hlength] at hi
    have hi' : i < 36 := by omega
    have hchar := List.getElem?_eq_getElem (l := s.toList) (i := i) (by omega)
    have hat := List.all_eq_true.mp hshape i (List.mem_range.mpr hi')
    rw [List.getElem_zipWith, List.getElem_map, List.getElem_range, patternAt]
    split_ifs with hdash hfour hnineteen
    · rw [if_pos hdash, hchar, decide_eq_true_eq] at hat
      rw [Option.some.inj hat]
      rfl
    · subst hfour
      rw [hchar] at hversion
      exact decide_eq_true (Option.some.inj hversion)
    · subst hnineteen
      rw [hchar, Option.any_some] at hvariant
      have hmem := of_decide_eq_true hvariant
      exact decide_eq_true (List.mem_append_left ['A', 'B'] hmem)
    · rw [if_neg hdash, hchar] at hat
      exact hat
  · exact lowerCase_eq fun c hc => by simpa using List.all_eq_true.mp hlower c hc

lemma isWallet_of_guest (h : isEvmAddress s = true) : isWallet s = true ∧ lowerCase s = s := by
  rw [isEvmAddress] at h
  split at h
  · rename_i digits hs
    rw [Bool.and_eq_true, decide_eq_true_eq] at h
    obtain ⟨hlength, hdigits⟩ := h
    have hclass : ∀ c ∈ digits, c.isDigit = true ∨ 'a' ≤ c ∧ c ≤ 'f' := by
      intro c hc
      simpa using List.all_eq_true.mp hdigits c hc
    constructor
    · rw [isWallet, hs]
      simp only [List.length_cons, hlength, List.take_succ_cons, List.take_zero, List.drop_succ_cons, List.drop_zero,
        Bool.and_eq_true, Bool.or_eq_true, decide_eq_true_eq]
      refine ⟨⟨trivial, .inl trivial⟩, List.all_eq_true.mpr fun c hc => ?_⟩
      rw [Ascii.isHexDigit]
      simpa using Or.inl (hclass c hc)
    · apply lowerCase_eq
      intro c hc
      rw [hs, List.mem_cons, List.mem_cons] at hc
      rcases hc with rfl | rfl | hc
      · rfl
      · rfl
      · exact isUpper_of_class (hclass c hc)
  · cases h

end Accepted

/-- `sha256_hex` is the hash function of the standard, and for whatever `connections.configure` accepts the
principals of the guest are those of the host, for each mode in which the workspace is accessed. -/
theorem principals_agree : (∀ data, sha256Hex data = Sha256.hexDigest (Sha256.bitsOf data)) ∧
    ∀ request fields, configureFields request = .ok fields →
      (accessModes fields).mapM (workspacePrincipal sha256Digest fields.workspaceId fields.wallet) =
        .ok (guestPrincipals fields) := by
  refine ⟨sha256Hex_eq, fun request fields hfields => ?_⟩
  obtain ⟨⟨-, hid⟩, ⟨-, hwallet⟩, -⟩ := configureFields_ok hfields
  obtain ⟨hid, hidLower⟩ := isWorkspaceId_of_guest hid
  obtain ⟨hwallet, hwalletLower⟩ := isWallet_of_guest hwallet
  have hprincipal : ∀ mode : SshAccessMode,
      workspacePrincipal sha256Digest fields.workspaceId fields.wallet mode =
        .ok ("bloom-" ++ mode.text ++ "-" ++ fields.workspaceId ++ "-w-" ++
          String.ofList ((sha256Hex (Utf8.encode fields.wallet.toList)).take 32)) := by
    intro mode
    rw [workspacePrincipal, normalizeWorkspaceId, if_pos hid, normalizeWallet, if_pos hwallet, hidLower, hwalletLower,
      sha256Hex_eq]
    simp only [bind, Except.bind, pure, Except.pure, sha256Digest, String.toList_ofList]
  rw [accessModes, guestPrincipals]
  split_ifs with hnfs
  · simp only [List.mapM_cons, List.mapM_nil, hprincipal, bind, Except.bind, pure, Except.pure]
    rfl
  · simp only [List.mapM_cons, List.mapM_nil, hprincipal, bind, Except.bind, pure, Except.pure]
    rfl

/-- What `configureRequest true` asks for. -/
def nfsFields : ConfigureFields where
  workspaceId := "00000000-0000-4000-8000-000000000001"
  wallet := "0x" ++ String.ofList (List.replicate 40 'a')
  caPublicKey := "ssh-ed25519 " ++ String.ofList (List.replicate 68 'A')
  nfsEnabled := true

theorem principals_agree_nfs :
    (accessModes nfsFields).mapM (workspacePrincipal sha256Digest nfsFields.workspaceId nfsFields.wallet) =
      .ok ["bloom-shell-00000000-0000-4000-8000-000000000001-w-30ffa9b5e1968e54bddadba7ff14c633",
        "bloom-nfs-00000000-0000-4000-8000-000000000001-w-30ffa9b5e1968e54bddadba7ff14c633"] := by
  have hfields : configureFields (configureRequest true) = .ok nfsFields := by decide +kernel
  have hguest : guestPrincipals nfsFields =
      ["bloom-shell-00000000-0000-4000-8000-000000000001-w-30ffa9b5e1968e54bddadba7ff14c633",
        "bloom-nfs-00000000-0000-4000-8000-000000000001-w-30ffa9b5e1968e54bddadba7ff14c633"] := by
    decide +kernel
  rw [← hguest]
  exact principals_agree.2 (configureRequest true) nfsFields hfields

end Bloom
