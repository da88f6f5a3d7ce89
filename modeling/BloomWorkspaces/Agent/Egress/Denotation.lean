import BloomWorkspaces.Agent.Egress.Ipv4

/-!
# The addresses that texts denote

What `net.isIP` accepts is a spelling of a 32-bit or of a 128-bit number, and `isPublicAddress` tells
no more of a text than this number. The exception is an IPv6 address with a zone, which is never public.
-/

namespace Bloom

/-! ### What a text denotes -/

/-- The only spelling of a 32-bit address. -/
def DenotesIpv4 (text : List Char) (n : ℕ) : Prop := n < 2 ^ 32 ∧ text = UrlHost.serializeIpv4 n

/-- The 16-bit words of a list of groups; the last group may be a dotted address of two words. -/
inductive GroupsDenote : List (List Char) → List ℕ → Prop
  | nil : GroupsDenote [] []
  | hex {group : List Char} {groups : List (List Char)} {words : List ℕ}
      (hgroup : isHexGroup group = true) (hrest : GroupsDenote groups words) :
      GroupsDenote (group :: groups) (Ascii.hexNumber group :: words)
  | dotted {group : List Char} {n : ℕ} (hgroup : DenotesIpv4 group n) :
      GroupsDenote [group] [n / 65536, n % 65536]

/-- The number with these 16-bit words, the most significant one first. -/
def addressOf (words : List ℕ) : ℕ := words.foldl (fun value word => value * 65536 + word) 0

def joinGroups (groups : List (List Char)) : List Char := [':'].intercalate groups

/-- Eight words, or fewer with two colons in place of the missing zeros. -/
inductive DenotesIpv6 : List Char → ℕ → Prop
  | full {groups : List (List Char)} {words : List ℕ} (hgroups : GroupsDenote groups words)
      (hlength : words.length = 8) : DenotesIpv6 (joinGroups groups) (addressOf words)
  | compressed {left right : List (List Char)} {words : List ℕ}
      (hleft : ∀ group ∈ left, isHexGroup group = true) (hright : GroupsDenote right words)
      (hlength : left.length + words.length ≤ 7) :
      DenotesIpv6 (joinGroups left ++ ':' :: ':' :: joinGroups right)
        (addressOf (left.map Ascii.hexNumber ++
          List.replicate (8 - left.length - words.length) 0 ++ words))

/-! ### Groups -/

section Groups

variable {group : List Char} {groups left right hexes : List (List Char)} {words : List ℕ} {n : ℕ}

lemma joinGroups_cons (hne : groups ≠ []) :
    joinGroups (group :: groups) = group ++ ':' :: joinGroups groups := by
  obtain ⟨next, rest, rfl⟩ := List.exists_cons_of_ne_nil hne
  rw [joinGroups, List.intercalate_cons_cons, List.append_assoc]
  rfl

lemma joinGroups_singleton (group : List Char) : joinGroups [group] = group :=
  List.intercalate_singleton

/-- A group is not empty and has no colon, no dot and no percent sign. -/
lemma isHexGroup_plain (h : isHexGroup group = true) :
    group ≠ [] ∧ ':' ∉ group ∧ '.' ∉ group ∧ '%' ∉ group := by
  simp only [isHexGroup, Bool.and_eq_true, decide_eq_true_eq, List.all_eq_true] at h
  refine ⟨?_, fun hin => absurd (h.2 _ hin) (by decide), fun hin => absurd (h.2 _ hin) (by decide),
    fun hin => absurd (h.2 _ hin) (by decide)⟩
  rintro rfl
  simp at h

lemma isHexWord_plain (h : isHexWord group = true) : group ≠ [] ∧ ':' ∉ group := by
  simp only [isHexWord, Bool.and_eq_true, decide_eq_true_eq, List.all_eq_true] at h
  refine ⟨?_, fun hin => absurd (h.2 _ hin) (by decide)⟩
  rintro rfl
  simp at h

lemma isHexWord_no_dot (h : isHexWord group = true) : '.' ∉ group := by
  simp only [isHexWord, Bool.and_eq_true, List.all_eq_true] at h
  exact fun hin => absurd (h.2 _ hin) (by decide)

lemma toLower_isHexGroup (h : isHexGroup group = true) :
    isHexWord (Ascii.toLower group) = true ∧
      Ascii.hexNumber (Ascii.toLower group) = Ascii.hexNumber group := by
  simp only [isHexGroup, Bool.and_eq_true, decide_eq_true_eq, List.all_eq_true] at h
  refine ⟨?_, Ascii.hexNumber_toLower h.2⟩
  simp only [isHexWord, Ascii.toLower, List.length_map, List.all_map, Bool.and_eq_true,
    decide_eq_true_eq, List.all_eq_true]
  exact ⟨h.1, fun c hc => (Ascii.toLower_of_isHexDigit (h.2 c hc)).1⟩

lemma isHexWord_toDigits (hn : n < 65536) : isHexWord (Nat.toDigits 16 n) = true := by
  have hlength : (Nat.toDigits 16 n).length ≤ 4 :=
    (Nat.length_toDigits_le_iff (by decide) (by decide)).mpr hn
  have hpos : 0 < (Nat.toDigits 16 n).length := Nat.length_toDigits_pos
  rw [isHexWord, (Ascii.hexNumber_toDigits n).2]
  simp only [Bool.and_true, Bool.and_eq_true, decide_eq_true_eq]
  exact ⟨hpos, hlength⟩

lemma DenotesIpv4.plain (h : DenotesIpv4 group n) :
    group ≠ [] ∧ '.' ∈ group ∧ ':' ∉ group ∧ '%' ∉ group := by
  obtain ⟨hdot, hcolon, hpercent⟩ := serializeIpv4_plain n
  rw [h.2]
  exact ⟨List.ne_nil_of_mem hdot, hdot, hcolon, hpercent⟩

/-- No group is empty or has a colon or a percent sign. -/
lemma GroupsDenote.plain (h : GroupsDenote groups words) :
    ∀ group ∈ groups, (group ≠ [] ∧ ':' ∉ group) ∧ '%' ∉ group := by
  induction h with
  | nil => exact fun _ hin => absurd hin List.not_mem_nil
  | hex hgroup _ ih =>
    intro g hin
    rcases List.mem_cons.mp hin with rfl | hin
    · obtain ⟨hne, hcolon, -, hpercent⟩ := isHexGroup_plain hgroup
      exact ⟨⟨hne, hcolon⟩, hpercent⟩
    · exact ih g hin
  | dotted hgroup =>
    intro g hin
    obtain ⟨hne, -, hcolon, hpercent⟩ := hgroup.plain
    rw [List.mem_singleton.mp hin]
    exact ⟨⟨hne, hcolon⟩, hpercent⟩

lemma GroupsDenote.nil_iff (h : GroupsDenote groups words) : groups = [] ↔ words = [] := by
  cases h with
  | nil => simp
  | hex hgroup hrest => simp
  | dotted hgroup => simp

/-! ### Words in lower case -/

lemma expandDottedTail_plain {working : List Char} (h : '.' ∉ working) :
    expandDottedTail working = some working := by
  rw [expandDottedTail, if_neg h]

lemma expandDottedTail_dotted {before : List Char} (h : DenotesIpv4 group n) :
    expandDottedTail (before ++ ':' :: group) =
      some (before ++ ':' :: joinGroups [Nat.toDigits 16 (n / 65536), Nat.toDigits 16 (n % 65536)]) := by
  obtain ⟨-, hdot, hcolon, -⟩ := h.plain
  rw [expandDottedTail, if_pos (List.mem_append_right _ (List.mem_cons_of_mem _ hdot)),
    Ascii.splitAtLast_append before hcolon]
  simp only [ipv4ToNumber_eq_some.mpr h]
  rw [joinGroups_cons (List.cons_ne_nil _ _), joinGroups_singleton, List.append_assoc]
  rfl

/-- In lower case and without a dotted tail, the groups behind a colon are as many words as they denote. -/
lemma GroupsDenote.expand (h : GroupsDenote groups words) :
    ∃ hexes, (∀ word ∈ hexes, isHexWord word = true) ∧ hexes.map Ascii.hexNumber = words ∧
      ∀ before : List Char, '.' ∉ before →
        expandDottedTail (before ++ ':' :: Ascii.toLower (joinGroups groups)) =
          some (before ++ ':' :: joinGroups hexes) := by
  induction h with
  | nil =>
    refine ⟨[], fun _ hin => absurd hin List.not_mem_nil, rfl, fun before hbefore => ?_⟩
    refine expandDottedTail_plain fun hin => ?_
    rcases List.mem_append.mp hin with hold | hnew
    · exact hbefore hold
    · cases List.mem_singleton.mp hnew
  | @hex group groups words hgroup hrest ih =>
    obtain ⟨hexes, hvalid, hwords, hexpand⟩ := ih
    obtain ⟨hword, hnumber⟩ := toLower_isHexGroup hgroup
    obtain ⟨-, -, hdot, -⟩ := isHexGroup_plain hgroup
    have hlower := isHexWord_no_dot hword
    refine ⟨Ascii.toLower group :: hexes, ?_, ?_, fun before hbefore => ?_⟩
    · intro word hin
      rcases List.mem_cons.mp hin with rfl | hin
      · exact hword
      · exact hvalid word hin
    · rw [List.map_cons, hnumber, hwords]
    · have hfront : '.' ∉ before ++ ':' :: Ascii.toLower group := by
        intro hin
        rcases List.mem_append.mp hin with hold | hnew
        · exact hbefore hold
        · rcases List.mem_cons.mp hnew with hcolon | hin
          · cases hcolon
          · exact hlower hin
      have htail := hexpand (before ++ ':' :: Ascii.toLower group) hfront
      by_cases hnil : groups = []
      · have hnone : hexes = [] := List.map_eq_nil_iff.mp (hwords.trans (hrest.nil_iff.mp hnil))
        rw [hnil, hnone, joinGroups_singleton, joinGroups_singleton]
        exact expandDottedTail_plain hfront
      · have hsome : hexes ≠ [] := fun hnone => hnil (hrest.nil_iff.mpr (hwords ▸ hnone ▸ rfl))
        rw [joinGroups_cons hnil, joinGroups_cons hsome, Ascii.toLower, List.map_append]
        rw [List.append_assoc, List.append_assoc] at htail
        exact htail
  | @dotted group n hgroup =>
    have hlt := hgroup.1
    refine ⟨[Nat.toDigits 16 (n / 65536), Nat.toDigits 16 (n % 65536)], ?_, ?_, fun before _ => ?_⟩
    · intro word hin
      rcases List.mem_pair.mp hin with rfl | rfl
      · exact isHexWord_toDigits (by omega)
      · exact isHexWord_toDigits (by omega)
    · rw [List.map_cons, List.map_singleton, (Ascii.hexNumber_toDigits _).1,
        (Ascii.hexNumber_toDigits _).1]
    · rw [joinGroups_singleton, hgroup.2, toLower_serializeIpv4, ← hgroup.2]
      exact expandDottedTail_dotted hgroup

/-- The words of a half are found again. -/
lemma halfWords_joinGroups (h : ∀ word ∈ hexes, isHexWord word = true) :
    halfWords (joinGroups hexes) = hexes := by
  cases hexes with
  | nil => rfl
  | cons word hexes =>
    have hplain : ∀ word' ∈ word :: hexes, ':' ∉ word' := fun word' hin => (isHexWord_plain (h word' hin)).2
    have hne : joinGroups (word :: hexes) ≠ [] := by
      obtain ⟨c, rest, hword⟩ :=
        List.exists_cons_of_ne_nil (isHexWord_plain (h word List.mem_cons_self)).1
      cases hexes with
      | nil => simp [joinGroups_singleton, hword]
      | cons next hexes => simp [joinGroups_cons, hword]
    rw [halfWords, if_neg hne]
    exact List.splitOn_intercalate ':' hplain (List.cons_ne_nil _ _)

lemma splitOnColons_full (h : ∀ word ∈ hexes, word ≠ [] ∧ ':' ∉ word) :
    Ascii.splitOnColons (joinGroups hexes) = [joinGroups hexes] := by
  have hsplit := Ascii.splitOnColons_intercalate h []
  rw [List.append_nil] at hsplit
  rw [joinGroups, hsplit]
  simp [Ascii.splitOnColons]

lemma splitOnColons_compressed (hleft : ∀ word ∈ left, word ≠ [] ∧ ':' ∉ word)
    (hright : ∀ word ∈ right, word ≠ [] ∧ ':' ∉ word) :
    Ascii.splitOnColons (joinGroups left ++ ':' :: ':' :: joinGroups right) =
      [joinGroups left, joinGroups right] := by
  have hsplit := Ascii.splitOnColons_intercalate hleft (':' :: ':' :: joinGroups right)
  rw [Ascii.splitOnColons_colons, splitOnColons_full hright, List.modifyHead_cons,
    List.append_nil] at hsplit
  exact hsplit

lemma addressOf_hexes (hexes : List (List Char)) :
    hexes.foldl (fun value word => value * 65536 + Ascii.hexNumber word) 0 =
      addressOf (hexes.map Ascii.hexNumber) := by
  rw [addressOf, List.foldl_map]

/-- Lower case goes through the joining of groups. -/
lemma toLower_joinGroups (groups : List (List Char)) :
    Ascii.toLower (joinGroups groups) = joinGroups (groups.map Ascii.toLower) := by
  induction groups with
  | nil => rfl
  | cons group groups ih =>
    cases groups with
    | nil => rw [joinGroups_singleton, List.map_singleton, joinGroups_singleton]
    | cons next groups =>
      have hjoin : joinGroups (group :: next :: groups) = group ++ ':' :: joinGroups (next :: groups) :=
        joinGroups_cons (List.cons_ne_nil _ _)
      have hlower : joinGroups (Ascii.toLower group :: (next :: groups).map Ascii.toLower) =
          Ascii.toLower group ++ ':' :: joinGroups ((next :: groups).map Ascii.toLower) :=
        joinGroups_cons (List.cons_ne_nil _ _)
      rw [hjoin, List.map_cons, hlower, ← ih]
      simp [Ascii.toLower]

/-- A text is read as the address of the words that its normal form spells. -/
lemma ipv6ToBigInt_of_expand {text working : List Char} (hzone : '%' ∉ text)
    (hexpand : expandDottedTail (Ascii.toLower text) = some working)
    (hwords : ipv6Words working = some hexes) (hlength : hexes.length = 8)
    (hvalid : ∀ word ∈ hexes, isHexWord word = true) :
    ipv6ToBigInt text = some (addressOf (hexes.map Ascii.hexNumber)) := by
  have hany : hexes.any (fun word => !isHexWord word) = false := by
    rw [List.any_eq_false]
    intro word hin
    rw [hvalid word hin]
    exact Bool.false_ne_true
  rw [ipv6ToBigInt, if_neg hzone]
  simp only [hexpand, hwords]
  rw [if_neg (by simp [hlength, hany]), addressOf_hexes]

lemma not_mem_joinGroups {c : Char} (hc : c ≠ ':') (h : ∀ group ∈ groups, c ∉ group) :
    c ∉ joinGroups groups := by
  induction groups with
  | nil => exact List.not_mem_nil
  | cons group groups ih =>
    have hgroup := h group List.mem_cons_self
    have hrest := ih fun g hin => h g (List.mem_cons_of_mem _ hin)
    cases groups with
    | nil => rwa [joinGroups_singleton]
    | cons next groups =>
      rw [joinGroups_cons (List.cons_ne_nil _ _)]
      simp [hgroup, hrest, hc]

/-- `ipv6ToBigInt` reads every spelling of an address. -/
theorem ipv6ToBigInt_of_denotes {text : List Char} (h : DenotesIpv6 text n) :
    ipv6ToBigInt text = some n ∧ '%' ∉ text := by
  cases h with
  | @full groups words hgroups hlength =>
    have hzone : '%' ∉ joinGroups groups :=
      not_mem_joinGroups (by decide) fun group hin => (hgroups.plain group hin).2
    refine ⟨?_, hzone⟩
    cases hgroups with
    | nil => cases hlength
    | @hex group rest words hgroup hrest =>
      obtain ⟨hexes, hvalid, rfl, hexpand⟩ := hrest.expand
      obtain ⟨hword, hnumber⟩ := toLower_isHexGroup hgroup
      have hrestLength : hexes.length = 7 := by simpa using hlength
      have hexesNe : hexes ≠ [] := by
        rintro rfl
        cases hrestLength
      have hrestNe : rest ≠ [] := fun hnil =>
        hexesNe (List.map_eq_nil_iff.mp (hrest.nil_iff.mp hnil))
      have hlower := isHexWord_no_dot hword
      have hall : ∀ word ∈ Ascii.toLower group :: hexes, isHexWord word = true := by
        intro word hin
        rcases List.mem_cons.mp hin with rfl | hin
        · exact hword
        · exact hvalid word hin
      have hworking : expandDottedTail (Ascii.toLower (joinGroups (group :: rest))) =
          some (joinGroups (Ascii.toLower group :: hexes)) := by
        have htail := hexpand (Ascii.toLower group) hlower
        rw [joinGroups_cons hrestNe, joinGroups_cons hexesNe, ← htail]
        simp [Ascii.toLower]
      have hsplit := splitOnColons_full fun word hin => isHexWord_plain (hall word hin)
      have hwords : ipv6Words (joinGroups (Ascii.toLower group :: hexes)) =
          some (Ascii.toLower group :: hexes) := by
        rw [ipv6Words, hsplit]
        simp only [halfWords_joinGroups hall]
        rw [if_pos (by rw [List.length_cons, hrestLength])]
      rw [ipv6ToBigInt_of_expand hzone hworking hwords (by rw [List.length_cons, hrestLength]) hall,
        List.map_cons, hnumber]
    | dotted hgroup => cases hlength
  | @compressed left right words hleft hright hlength =>
    have hzone : '%' ∉ joinGroups left ++ ':' :: ':' :: joinGroups right := by
      have hfront := not_mem_joinGroups (by decide) fun group hin => (isHexGroup_plain (hleft group hin)).2.2.2
      have hback := not_mem_joinGroups (by decide) fun group hin => (hright.plain group hin).2
      simp [hfront, hback]
    refine ⟨?_, hzone⟩
    obtain ⟨hexes, hvalid, rfl, hexpand⟩ := hright.expand
    rw [List.length_map] at hlength
    have hlower : ∀ word ∈ left.map Ascii.toLower, isHexWord word = true := by
      intro word hin
      obtain ⟨group, hgroup, rfl⟩ := List.mem_map.mp hin
      exact (toLower_isHexGroup (hleft group hgroup)).1
    have hnumbers : (left.map Ascii.toLower).map Ascii.hexNumber = left.map Ascii.hexNumber := by
      rw [List.map_map]
      exact List.map_congr_left fun group hin => (toLower_isHexGroup (hleft group hin)).2
    have hdots : '.' ∉ joinGroups (left.map Ascii.toLower) ++ [':'] := by
      have hjoin := not_mem_joinGroups (by decide) fun word hin => isHexWord_no_dot (hlower word hin)
      simp [hjoin]
    have hworking : expandDottedTail
        (Ascii.toLower (joinGroups left ++ ':' :: ':' :: joinGroups right)) =
          some (joinGroups (left.map Ascii.toLower) ++ ':' :: ':' :: joinGroups hexes) := by
      have htext : Ascii.toLower (joinGroups left ++ ':' :: ':' :: joinGroups right) =
          joinGroups (left.map Ascii.toLower) ++ [':'] ++ ':' :: Ascii.toLower (joinGroups right) := by
        rw [← toLower_joinGroups]
        simp [Ascii.toLower]
      rw [htext, hexpand _ hdots, List.append_assoc]
      rfl
    have hsplit := splitOnColons_compressed (fun word hin => isHexWord_plain (hlower word hin))
      fun word hin => isHexWord_plain (hvalid word hin)
    have hwords : ipv6Words (joinGroups (left.map Ascii.toLower) ++ ':' :: ':' :: joinGroups hexes) =
        some (left.map Ascii.toLower ++
          List.replicate (8 - left.length - hexes.length) ['0'] ++ hexes) := by
      rw [ipv6Words, hsplit]
      simp only [halfWords_joinGroups hlower, halfWords_joinGroups hvalid, List.length_map]
      rw [if_pos (by omega)]
    rw [ipv6ToBigInt_of_expand hzone hworking hwords ?_ ?_, List.map_append, List.map_append, hnumbers,
      List.map_replicate, List.length_map]
    · rfl
    · simp only [List.length_append, List.length_map, List.length_replicate]
      omega
    · intro word hin
      rcases List.mem_append.mp hin with hin | hin
      · rcases List.mem_append.mp hin with hin | hin
        · exact hlower word hin
        · rw [List.eq_of_mem_replicate hin]
          decide
      · exact hvalid word hin

end Groups

end Bloom
