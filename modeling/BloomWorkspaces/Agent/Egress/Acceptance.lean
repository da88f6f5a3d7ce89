import BloomWorkspaces.Agent.Egress.Denotation

/-!
# What `net.isIP` accepts

The texts of family 4 are the dotted decimals, and those of family 6 are the spellings of a 128-bit
address, with or without a zone.
-/

namespace Bloom

/-- What may follow an IPv6 address. -/
def IsZone (zone : List Char) : Prop :=
  zone = [] ∨ ∃ name, zone = '%' :: name ∧ name ≠ [] ∧
    name.all (fun c => c.isAlphanum || c ∈ ['-', '.', ':']) = true

/-! ### Groups -/

section Groups

variable {groups : List (List Char)} {words : List ℕ} {half text : List Char} {k n : ℕ}

lemma hexNumber_group_lt {group : List Char} (h : isHexGroup group = true) :
    Ascii.hexNumber group < 65536 := by
  simp only [isHexGroup, Bool.and_eq_true, decide_eq_true_eq, List.all_eq_true] at h
  have hlt := Ascii.hexNumber_lt h.2
  have hle : 16 ^ group.length ≤ 16 ^ 4 := Nat.pow_le_pow_right (by decide) h.1.2
  omega

lemma groupsDenote_hex (h : ∀ group ∈ groups, isHexGroup group = true) :
    GroupsDenote groups (groups.map Ascii.hexNumber) := by
  induction groups with
  | nil => exact .nil
  | cons group groups ih =>
    exact .hex (h group List.mem_cons_self) (ih fun g hin => h g (List.mem_cons_of_mem _ hin))

lemma groupsDenote_dotted {front : List (List Char)} {last : List Char}
    (h : ∀ group ∈ front, isHexGroup group = true) (hlast : DenotesIpv4 last n) :
    GroupsDenote (front ++ [last]) (front.map Ascii.hexNumber ++ [n / 65536, n % 65536]) := by
  induction front with
  | nil => exact .dotted hlast
  | cons group front ih =>
    exact .hex (h group List.mem_cons_self) (ih fun g hin => h g (List.mem_cons_of_mem _ hin))

/-- All groups are hexadecimal, or all but the last. -/
lemma GroupsDenote.shape (h : GroupsDenote groups words) :
    ((∀ group ∈ groups, isHexGroup group = true) ∧ words.length = groups.length) ∨
      ∃ front last n, groups = front ++ [last] ∧ (∀ group ∈ front, isHexGroup group = true) ∧
        DenotesIpv4 last n ∧ words.length = groups.length + 1 := by
  induction h with
  | nil => exact Or.inl ⟨fun _ hin => absurd hin List.not_mem_nil, rfl⟩
  | @hex group groups words hgroup _ ih =>
    rcases ih with ⟨hall, hlength⟩ | ⟨front, last, n, rfl, hfront, hlast, hlength⟩
    · refine Or.inl ⟨fun g hin => ?_, by rw [List.length_cons, List.length_cons, hlength]⟩
      rcases List.mem_cons.mp hin with rfl | hin
      · exact hgroup
      · exact hall g hin
    · refine Or.inr ⟨group :: front, last, n, rfl, fun g hin => ?_, hlast, ?_⟩
      · rcases List.mem_cons.mp hin with rfl | hin
        · exact hgroup
        · exact hfront g hin
      · rw [List.length_cons, hlength, List.length_cons]
  | @dotted group n hgroup =>
    exact Or.inr ⟨[], group, n, rfl, fun _ hin => absurd hin List.not_mem_nil, hgroup, rfl⟩

lemma splitOn_joinGroups (h : ∀ group ∈ groups, ':' ∉ group) (hne : groups ≠ []) :
    (joinGroups groups).splitOn ':' = groups :=
  List.splitOn_intercalate ':' h hne

lemma joinGroups_splitOn (text : List Char) : joinGroups (text.splitOn ':') = text :=
  List.intercalate_splitOn ':'

lemma joinGroups_ne_nil (h : ∀ group ∈ groups, group ≠ []) (hne : groups ≠ []) :
    joinGroups groups ≠ [] := by
  obtain ⟨group, rest, rfl⟩ := List.exists_cons_of_ne_nil hne
  obtain ⟨c, tail, hgroup⟩ := List.exists_cons_of_ne_nil (h group List.mem_cons_self)
  cases rest with
  | nil => simp [joinGroups_singleton, hgroup]
  | cons next rest => simp [joinGroups_cons, hgroup]

lemma isIPv4_iff {text : List Char} : isIPv4 text = true ↔ ∃ n, DenotesIpv4 text n := by
  rw [isIPv4, Option.isSome_iff_exists]
  exact exists_congr fun n => ipv4ToNumber_eq_some

/-- A dotted decimal is no hexadecimal group. -/
lemma DenotesIpv4.not_isHexGroup (h : DenotesIpv4 text n) : isHexGroup text = false :=
  Bool.eq_false_iff.mpr fun hhex => (isHexGroup_plain hhex).2.2.1 h.plain.2.1

lemma groupCount_left : groupCount half false = some k ↔
    ∃ groups, half = joinGroups groups ∧ (∀ group ∈ groups, isHexGroup group = true) ∧
      groups.length = k := by
  constructor
  · intro h
    simp only [groupCount, Bool.false_and, Bool.false_eq_true, if_false] at h
    split_ifs at h with hnil hhex
    · cases h
      exact ⟨[], hnil, fun _ hin => absurd hin List.not_mem_nil, rfl⟩
    · cases h
      exact ⟨half.splitOn ':', (joinGroups_splitOn half).symm, List.all_eq_true.mp hhex, rfl⟩
  · rintro ⟨groups, rfl, hhex, rfl⟩
    rcases eq_or_ne groups [] with rfl | hne
    · rfl
    · have hsplit := splitOn_joinGroups (fun g hin => (isHexGroup_plain (hhex g hin)).2.1) hne
      have hjoin := joinGroups_ne_nil (fun g hin => (isHexGroup_plain (hhex g hin)).1) hne
      simp only [groupCount]
      rw [if_neg hjoin, hsplit, if_pos (List.all_eq_true.mpr hhex)]

lemma groupCount_right : groupCount half true = some k ↔
    ∃ groups words, half = joinGroups groups ∧ GroupsDenote groups words ∧ words.length = k := by
  constructor
  · intro h
    simp only [groupCount, Bool.true_and] at h
    split_ifs at h with hnil hhex hdotted
    · cases h
      exact ⟨[], [], hnil, .nil, rfl⟩
    · cases h
      exact ⟨half.splitOn ':', _, (joinGroups_splitOn half).symm,
        groupsDenote_hex (List.all_eq_true.mp hhex), List.length_map _⟩
    · cases h
      rw [Bool.and_eq_true] at hdotted
      obtain ⟨hfront, hlast⟩ := hdotted
      obtain ⟨n, hlast⟩ := isIPv4_iff.mp hlast
      have hne : half.splitOn ':' ≠ [] := List.splitOn_ne_nil ':' half
      have hsplit : (half.splitOn ':').dropLast ++ [(half.splitOn ':').getLastD []] = half.splitOn ':' := by
        rw [List.getLastD_eq_getLast?, List.getLast?_eq_some_getLast hne, Option.getD_some]
        exact List.dropLast_append_getLast hne
      refine ⟨half.splitOn ':', _, (joinGroups_splitOn half).symm,
        hsplit ▸ groupsDenote_dotted (List.all_eq_true.mp hfront) hlast, ?_⟩
      have hpos := List.length_pos_of_ne_nil hne
      simp only [List.length_append, List.length_map, List.length_dropLast, List.length_cons,
        List.length_nil]
      omega
  · rintro ⟨groups, words, rfl, hgroups, rfl⟩
    rcases eq_or_ne groups [] with rfl | hne
    · rw [hgroups.nil_iff.mp rfl]
      rfl
    · have hsplit := splitOn_joinGroups (fun g hin => (hgroups.plain g hin).1.2) hne
      have hjoin := joinGroups_ne_nil (fun g hin => (hgroups.plain g hin).1.1) hne
      simp only [groupCount]
      rw [if_neg hjoin, hsplit]
      rcases hgroups.shape with ⟨hall, hlength⟩ | ⟨front, last, n, rfl, hfront, hlast, hlength⟩
      · rw [if_pos (List.all_eq_true.mpr hall), hlength]
      · have hnot : ¬(front ++ [last]).all isHexGroup = true := by
          simp [hlast.not_isHexGroup]
        have hdotted : (true && (front ++ [last]).dropLast.all isHexGroup &&
            isIPv4 ((front ++ [last]).getLastD [])) = true := by
          rw [List.dropLast_concat, List.all_eq_true.mpr hfront, List.getLastD_eq_getLast?,
            List.getLast?_append_of_ne_nil _ (List.cons_ne_nil _ _), List.getLast?_singleton,
            Option.getD_some, isIPv4_iff.mpr ⟨n, hlast⟩]
          rfl
        rw [if_neg hnot, if_pos hdotted, hlength]

end Groups

/-! ### Addresses -/

section Addresses

variable {text body zone : List Char} {n : ℕ}

lemma isIPv6Body_iff : isIPv6Body text = true ↔ ∃ n, DenotesIpv6 text n := by
  constructor
  · intro h
    have htext := Ascii.intercalate_splitOnColons text
    rw [isIPv6Body] at h
    split at h
    · rename_i whole hsplit
      obtain ⟨groups, words, rfl, hgroups, hlength⟩ := groupCount_right.mp (of_decide_eq_true h)
      rw [hsplit, List.intercalate_singleton] at htext
      exact ⟨addressOf words, htext ▸ .full hgroups hlength⟩
    · rename_i left right hsplit
      split at h
      · rename_i l r hl hr
        obtain ⟨lefts, rfl, hlefts, rfl⟩ := groupCount_left.mp hl
        obtain ⟨rights, words, rfl, hrights, rfl⟩ := groupCount_right.mp hr
        rw [hsplit, List.intercalate_cons_cons, List.intercalate_singleton, List.append_assoc] at htext
        have hdenotes := DenotesIpv6.compressed hlefts hrights (of_decide_eq_true h)
        exact ⟨_, htext ▸ hdenotes⟩
      · cases h
    · cases h
  · rintro ⟨n, h⟩
    cases h with
    | @full groups words hgroups hlength =>
      have hsplit := splitOnColons_full fun g hin => (hgroups.plain g hin).1
      simp only [isIPv6Body, hsplit]
      rw [groupCount_right.mpr ⟨groups, words, rfl, hgroups, hlength⟩]
      rfl
    | @compressed left right words hleft hright hlength =>
      have hsplit := splitOnColons_compressed
        (fun g hin => ⟨(isHexGroup_plain (hleft g hin)).1, (isHexGroup_plain (hleft g hin)).2.1⟩)
        fun g hin => (hright.plain g hin).1
      simp only [isIPv6Body, hsplit]
      rw [groupCount_left.mpr ⟨left, rfl, hleft, rfl⟩,
        groupCount_right.mpr ⟨right, words, rfl, hright, rfl⟩]
      exact decide_eq_true hlength

/-- A zone begins where the first percent sign is. -/
lemma takeWhile_append_zone (hbody : '%' ∉ body) (hzone : IsZone zone) :
    (body ++ zone).takeWhile (· ≠ '%') = body ∧ (body ++ zone).dropWhile (· ≠ '%') = zone := by
  have hall : ∀ c ∈ body, decide (c ≠ '%') = true := by
    intro c hc
    refine decide_eq_true fun hpercent => hbody ?_
    rwa [hpercent] at hc
  have hfirst : zone.takeWhile (· ≠ '%') = [] ∧ zone.dropWhile (· ≠ '%') = zone := by
    rcases hzone with rfl | ⟨name, rfl, -, -⟩
    · exact ⟨rfl, rfl⟩
    · exact ⟨rfl, rfl⟩
  rw [List.takeWhile_append_of_pos hall, List.dropWhile_append_of_pos hall, hfirst.1, hfirst.2,
    List.append_nil]
  exact ⟨rfl, rfl⟩

lemma isIPv6_iff : isIPv6 text = true ↔
    ∃ body zone n, text = body ++ zone ∧ IsZone zone ∧ DenotesIpv6 body n := by
  constructor
  · intro h
    rw [isIPv6, Bool.and_eq_true] at h
    obtain ⟨hbody, hzone⟩ := h
    obtain ⟨n, hn⟩ := isIPv6Body_iff.mp hbody
    refine ⟨_, text.dropWhile (· ≠ '%'), n, List.takeWhile_append_dropWhile.symm, ?_, hn⟩
    split at hzone
    · rename_i hnil
      exact Or.inl hnil
    · rename_i c name hdrop
      have hhead : c = '%' := by
        have hne : text.dropWhile (· ≠ '%') ≠ [] := by
          rw [hdrop]
          exact List.cons_ne_nil _ _
        have hfirst := List.head_dropWhile_not (fun c => decide (c ≠ '%')) hne
        simp only [hdrop, List.head_cons] at hfirst
        simpa using hfirst
      rw [Bool.and_eq_true] at hzone
      exact Or.inr ⟨name, by rw [hdrop, hhead], of_decide_eq_true hzone.1, hzone.2⟩
  · rintro ⟨body, zone, n, rfl, hzone, hbody⟩
    obtain ⟨htake, hdrop⟩ := takeWhile_append_zone (ipv6ToBigInt_of_denotes hbody).2 hzone
    rw [isIPv6, htake, hdrop, isIPv6Body_iff.mpr ⟨n, hbody⟩]
    rcases hzone with rfl | ⟨name, rfl, hname, hall⟩
    · rfl
    · rw [Bool.true_and, Bool.and_eq_true]
      exact ⟨decide_eq_true hname, hall⟩

/-- An IPv6 address has a colon. -/
lemma DenotesIpv6.colon (h : DenotesIpv6 body n) : ':' ∈ body := by
  cases h with
  | @full groups words hgroups hlength =>
    match groups, hgroups with
    | [], hgroups =>
      cases hgroups
      cases hlength
    | [group], hgroups =>
      cases hgroups with
      | hex hgroup hrest =>
        cases hrest
        cases hlength
      | dotted hgroup => cases hlength
    | group :: next :: rest, _ =>
      rw [joinGroups_cons (List.cons_ne_nil _ _)]
      simp
  | compressed hleft hright hlength => simp

theorem isIP_eq_four : isIP text = 4 ↔ ∃ n, DenotesIpv4 text n := by
  rw [← isIPv4_iff, isIP]
  split_ifs with hfour hsix
  · simp [hfour]
  · simp [hfour]
  · simp [hfour]

theorem isIP_eq_six : isIP text = 6 ↔
    ∃ body zone n, text = body ++ zone ∧ IsZone zone ∧ DenotesIpv6 body n := by
  rw [← isIPv6_iff, isIP]
  split_ifs with hfour hsix
  · refine iff_of_false (by decide) fun hsix => ?_
    obtain ⟨n, hn⟩ := isIPv4_iff.mp hfour
    obtain ⟨body, zone, m, rfl, -, hbody⟩ := isIPv6_iff.mp hsix
    exact hn.plain.2.2.1 (List.mem_append_left _ hbody.colon)
  · exact iff_of_true rfl hsix
  · exact iff_of_false (by decide) hsix

/-- The words of an address have 16 bits. -/
lemma GroupsDenote.lt {groups : List (List Char)} {words : List ℕ} (h : GroupsDenote groups words) :
    ∀ word ∈ words, word < 65536 := by
  induction h with
  | nil => exact fun _ hin => absurd hin List.not_mem_nil
  | hex hgroup _ ih =>
    intro word hin
    rcases List.mem_cons.mp hin with rfl | hin
    · exact hexNumber_group_lt hgroup
    · exact ih word hin
  | dotted hgroup =>
    have hlt := hgroup.1
    intro word hin
    rcases List.mem_pair.mp hin with rfl | rfl
    · omega
    · omega

lemma addressOf_lt {words : List ℕ} (h : ∀ word ∈ words, word < 65536) :
    addressOf words < 65536 ^ words.length := by
  induction words using List.reverseRecOn with
  | nil => decide
  | append_singleton words word ih =>
    have hfront := ih fun w hin => h w (List.mem_append_left _ hin)
    have hword := h word (List.mem_append_right _ (List.mem_singleton_self word))
    rw [addressOf, List.foldl_append, List.length_append, List.length_singleton, Nat.pow_succ]
    rw [addressOf] at hfront
    simp only [List.foldl_cons, List.foldl_nil]
    omega

theorem DenotesIpv6.lt (h : DenotesIpv6 body n) : n < 2 ^ 128 := by
  cases h with
  | full hgroups hlength =>
    have hlt := addressOf_lt hgroups.lt
    rw [hlength] at hlt
    exact hlt
  | @compressed left right words hleft hright hlength =>
    have hall : ∀ word ∈ left.map Ascii.hexNumber ++
        List.replicate (8 - left.length - words.length) 0 ++ words, word < 65536 := by
      intro word hin
      rcases List.mem_append.mp hin with hin | hin
      · rcases List.mem_append.mp hin with hin | hin
        · obtain ⟨group, hgroup, rfl⟩ := List.mem_map.mp hin
          exact hexNumber_group_lt (hleft group hgroup)
        · rw [List.eq_of_mem_replicate hin]
          decide
      · exact hright.lt word hin
    have hlt := addressOf_lt hall
    have hlength : (left.map Ascii.hexNumber ++
        List.replicate (8 - left.length - words.length) 0 ++ words).length = 8 := by
      simp only [List.length_append, List.length_map, List.length_replicate]
      omega
    rw [hlength] at hlt
    exact hlt

end Addresses

end Bloom
