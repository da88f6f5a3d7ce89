import BloomWorkspaces.Agent.GuestProtocol
import BloomWorkspaces.Jobs.StructuredJobSpec
import BloomWorkspaces.Library.JsString
import BloomWorkspaces.Library.UriComponent
import Mathlib.Data.List.TakeWhile

/-!
# Cookies

`parseCookies`, and what it reads from the header that a browser writes. An item that has no decoding is
left out, and of the items of one name the last one counts.
-/

namespace Bloom

namespace Cookies

/-- The entries of a map in the order in which their keys came. -/
abbrev Entries := List (JsText × JsText)

/-- `Map.prototype.get` -/
def get (entries : Entries) (name : JsText) : Option JsText :=
  (entries.find? fun entry => entry.1 = name).map (·.2)

/-- `Map.prototype.set` -/
def set (entries : Entries) (name value : JsText) : Entries :=
  if (get entries name).isSome then
    entries.map fun entry => if entry.1 = name then (name, value) else entry
  else entries ++ [(name, value)]

/-- The name and the value of an item; without `=`, or with nothing before it, it is skipped. -/
def parseItem (item : JsText) : Option (JsText × JsText) :=
  let name := item.takeWhile (· ≠ 61)
  if name = [] ∨ (61 : UInt16) ∉ item then none
  else
    (UriComponent.decode (JsString.trim (item.drop (name.length + 1)))).map fun value =>
      (JsString.trim name, value)

def addItem (entries : Entries) (item : JsText) : Entries :=
  match parseItem item with
  | some (name, value) => set entries name value
  | none => entries

def items (header : Option JsText) : List JsText := header.elim [] (·.splitOn 59)

/-- `parseCookies` -/
def parse (header : Option JsText) : Entries := (items header).foldl addItem []

variable {entries : Entries} {name name' value component : JsText}

/-! ### The last item of a name -/

lemma get_cons (entry : JsText × JsText) (entries : Entries) (name : JsText) :
    get (entry :: entries) name = if entry.1 = name then some entry.2 else get entries name := by
  rw [get, List.find?_cons]
  by_cases h : entry.1 = name
  · rw [if_pos h, decide_eq_true h]
    rfl
  · rw [if_neg h, decide_eq_false h]
    rfl

lemma get_append (entries entries' : Entries) (name : JsText) :
    get (entries ++ entries') name = (get entries name).or (get entries' name) := by
  rw [get, List.find?_append, Option.map_or]
  rfl

lemma get_replace (entries : Entries) (name value name' : JsText) :
    get (entries.map fun entry => if entry.1 = name then (name, value) else entry) name' =
      if name = name' then (get entries name).map fun _ => value else get entries name' := by
  induction entries with
  | nil => split_ifs <;> rfl
  | cons entry entries ih =>
    rw [List.map_cons, get_cons, get_cons, get_cons, ih]
    by_cases hentry : entry.1 = name
    · rw [if_pos hentry, if_pos hentry, hentry]
      split_ifs <;> rfl
    · rw [if_neg hentry, if_neg hentry]
      split_ifs with heq hname <;> first | rfl | exact absurd (heq.trans hname.symm) hentry

lemma get_set (entries : Entries) (name value name' : JsText) :
    get (set entries name value) name' = if name = name' then some value else get entries name' := by
  rw [set]
  split_ifs with hsome hname hname
  · obtain ⟨value', hget⟩ := Option.isSome_iff_exists.mp hsome
    rw [get_replace, if_pos hname, hget]
    rfl
  · rw [get_replace, if_neg hname]
  · subst hname
    rw [get_append, Option.not_isSome_iff_eq_none.mp hsome, get_cons, if_pos rfl]
    rfl
  · rw [get_append, get_cons, if_neg hname]
    exact Option.or_none

/-- The value of the last pair of the name. -/
def last (pairs : Entries) (name : JsText) : Option JsText := get pairs.reverse name

lemma get_foldl (list : List JsText) (entries : Entries) (name : JsText) :
    get (list.foldl addItem entries) name = (last (list.filterMap parseItem) name).or (get entries name) := by
  induction list generalizing entries with
  | nil => rfl
  | cons item list ih =>
    rw [List.foldl_cons, ih, addItem]
    cases hitem : parseItem item with
    | none => rw [List.filterMap_cons_none hitem]
    | some pair =>
      rw [List.filterMap_cons_some hitem, last, last, List.reverse_cons, get_append, Option.or_assoc,
        get_cons]
      simp only [get_set]
      split_ifs <;> rfl

/-- Whatever the header is, a name has the value of the last item that can be read. -/
lemma get_parse (header : Option JsText) (name : JsText) :
    get (parse header) name = last ((items header).filterMap parseItem) name := by
  rw [parse, get_foldl]
  exact Option.or_none

/-! ### The header of a browser -/

/-- A name as `Set-Cookie` allows it. -/
def IsName (name : JsText) : Prop :=
  name ≠ [] ∧ ∀ u ∈ name, u ≠ 59 ∧ u ≠ 61 ∧ JsString.isWhiteSpace u = false

-- the units of the name are looked at, not all the units there are
instance decidableIsName (name : JsText) : Decidable (IsName name) :=
  have : Decidable (∀ u ∈ name, u ≠ 59 ∧ u ≠ 61 ∧ JsString.isWhiteSpace u = false) := List.decidableBAll _ _
  inferInstanceAs (Decidable (name ≠ [] ∧ _))

/-- What a browser writes for names and components. -/
def headerText (pairs : Entries) : JsText :=
  [59, 32].intercalate (pairs.map fun pair => pair.1 ++ 61 :: pair.2)

lemma trim_of_visible (h : ∀ u ∈ value, JsString.isWhiteSpace u = false) : JsString.trim value = value :=
  JsString.trim_eq_self (fun u hu => h u (List.mem_of_mem_head? hu)) fun u hu =>
    h u (List.mem_of_getLast? hu)

lemma trim_space (h : ∀ u ∈ value, JsString.isWhiteSpace u = false) : JsString.trim (32 :: value) = value := by
  have hspace : JsString.isWhiteSpace 32 = true := by decide
  have htrim : JsString.trim (32 :: value) = JsString.trim value := by
    rw [JsString.trim, JsString.trim, List.dropWhile_cons, hspace, if_pos rfl]
  rw [htrim, trim_of_visible h]

lemma visible_component (h : UriComponent.encode value = some component) :
    ∀ u ∈ component, JsString.isWhiteSpace u = false := by
  have hall : ∀ n < 127, 33 ≤ n → JsString.isWhiteSpace (UInt16.ofNat n) = false := by decide +kernel
  intro u hu
  obtain ⟨c, hunreserved | rfl, rfl⟩ := UriComponent.exists_of_mem_component h hu
  · obtain ⟨hlow, hhigh⟩ := UriComponent.range_of_unreserved hunreserved
    exact hall _ hhigh hlow
  · decide

lemma parseItem_eq {left : JsText} (hne : left ≠ []) (hleft : (61 : UInt16) ∉ left) :
    parseItem (left ++ 61 :: component) =
      (UriComponent.decode (JsString.trim component)).map fun value => (JsString.trim left, value) := by
  have hall : ∀ u ∈ left, decide (u ≠ 61) = true := by
    intro u hu
    rw [decide_eq_true_iff]
    rintro rfl
    exact hleft hu
  have htake : (left ++ 61 :: component).takeWhile (· ≠ 61) = left := by
    rw [List.takeWhile_append_of_pos hall, List.takeWhile_cons_of_neg (by simp), List.append_nil]
  have hdrop : (left ++ 61 :: component).drop (left.length + 1) = component := by
    rw [List.drop_append, List.drop_of_length_le (Nat.le_succ _), Nat.add_sub_cancel_left]
    rfl
  rw [parseItem, htake, hdrop, if_neg (by simp [hne])]

lemma IsName.not_mem (h : IsName name) : (59 : UInt16) ∉ name ∧ (61 : UInt16) ∉ name :=
  ⟨fun hmem => (h.2 59 hmem).1 rfl, fun hmem => (h.2 61 hmem).2.1 rfl⟩

/-- An item is read with or without the space after the semicolon. -/
lemma parseItem_pair (hname : IsName name) (hvalue : UriComponent.encode value = some component) :
    parseItem (name ++ 61 :: component) = some (name, value) ∧
      parseItem (32 :: (name ++ 61 :: component)) = some (name, value) := by
  have hvisible : ∀ u ∈ name, JsString.isWhiteSpace u = false := fun u hu => (hname.2 u hu).2.2
  have hcomponent := trim_of_visible (visible_component hvalue)
  have hspace : (61 : UInt16) ∉ 32 :: name := by
    rw [List.mem_cons, not_or]
    exact ⟨by decide, hname.not_mem.2⟩
  constructor
  · rw [parseItem_eq hname.1 hname.not_mem.2, hcomponent, UriComponent.decode_encode hvalue,
      trim_of_visible hvisible]
    rfl
  · rw [← List.cons_append, parseItem_eq (List.cons_ne_nil _ _) hspace, hcomponent,
      UriComponent.decode_encode hvalue, trim_space hvisible]
    rfl

lemma intercalate_space (text : JsText) (texts : List JsText) :
    [59, 32].intercalate (text :: texts) = [59].intercalate (text :: texts.map (32 :: ·)) := by
  have hmove : ∀ (text : JsText) (texts : List JsText),
      [59].intercalate ((32 :: text) :: texts) = 32 :: [59].intercalate (text :: texts) := by
    intro text texts
    cases texts with
    | nil => simp [List.intercalate]
    | cons text' texts => rw [List.intercalate_cons_cons, List.intercalate_cons_cons]; rfl
  induction texts generalizing text with
  | nil => simp [List.intercalate]
  | cons text' texts ih =>
    rw [List.intercalate_cons_cons, ih, List.map_cons, List.intercalate_cons_cons, hmove]
    simp

/-- The cookies of a jar as they are written, with the components of their values. -/
def Writes (pair cookie : JsText × JsText) : Prop :=
  pair.1 = cookie.1 ∧ IsName cookie.1 ∧ UriComponent.encode cookie.2 = some pair.2

lemma Writes.not_mem {pair cookie : JsText × JsText} (h : Writes pair cookie) :
    (59 : UInt16) ∉ pair.1 ++ 61 :: pair.2 := by
  obtain ⟨hname, hcookie, hvalue⟩ := h
  intro hmem
  rcases List.mem_append.mp hmem with hin | hin
  · exact hcookie.not_mem.1 (hname ▸ hin)
  · rcases List.mem_cons.mp hin with heq | hin
    · exact absurd heq (by decide)
    · exact UriComponent.not_mem_component (d := ';') (by decide) hvalue hin

lemma not_mem_of_writes {pairs jar : Entries} (h : List.Forall₂ Writes pairs jar) :
    ∀ text ∈ (pairs.map fun pair => pair.1 ++ 61 :: pair.2).map (32 :: ·), (59 : UInt16) ∉ text := by
  induction h with
  | nil => exact fun text htext => absurd htext List.not_mem_nil
  | @cons pair cookie pairs jar hwrites _ ih =>
    intro text htext
    rcases List.mem_cons.mp htext with rfl | hmem
    · rw [List.mem_cons, not_or]
      exact ⟨by decide, hwrites.not_mem⟩
    · exact ih text hmem

lemma filterMap_spaces {pairs jar : Entries} (h : List.Forall₂ Writes pairs jar) :
    ((pairs.map fun pair => pair.1 ++ 61 :: pair.2).map (32 :: ·)).filterMap parseItem = jar := by
  induction h with
  | nil => rfl
  | @cons pair cookie pairs jar hwrites _ ih =>
    obtain ⟨hname, hcookie, hvalue⟩ := hwrites
    rw [List.map_cons, List.map_cons, List.filterMap_cons_some (b := cookie), ih]
    rw [hname]
    exact (parseItem_pair hcookie hvalue).2

/-- A name has the value of the last cookie of the jar that has it. -/
lemma get_parse_headerText {pairs jar : Entries} (h : List.Forall₂ Writes pairs jar) (name : JsText) :
    get (parse (some (headerText pairs))) name = last jar name := by
  rw [get_parse]
  congr 1
  cases h with
  | nil => rfl
  | @cons pair cookie pairs jar hwrites hpairs =>
    have hitems : items (some (headerText (pair :: pairs))) =
        (pair.1 ++ 61 :: pair.2) :: ((pairs.map fun pair => pair.1 ++ 61 :: pair.2).map (32 :: ·)) := by
      rw [items, Option.elim_some, headerText, List.map_cons, intercalate_space]
      refine List.splitOn_intercalate _ (fun text htext => ?_) (List.cons_ne_nil _ _)
      rcases List.mem_cons.mp htext with rfl | hmem
      · exact hwrites.not_mem
      · exact not_mem_of_writes hpairs text hmem
    obtain ⟨hname, hcookie, hvalue⟩ := hwrites
    rw [hitems, List.filterMap_cons_some (b := cookie), filterMap_spaces hpairs]
    rw [hname]
    exact (parseItem_pair hcookie hvalue).1

/-- Any header gives a name the value of the last item of that name that can be read, so that an item that
cannot be read changes nothing; of what a browser writes, every name has the value it was given last. -/
theorem reads_back :
    (∀ header name, get (parse header) name = last ((items header).filterMap parseItem) name) ∧
      ∀ pairs jar, List.Forall₂ Writes pairs jar →
        ∀ name, get (parse (some (headerText pairs))) name = last jar name :=
  ⟨get_parse, fun _ _ hwrites name => get_parse_headerText hwrites name⟩

/-- The components that a browser writes for `writtenJar`. -/
def writtenPairs : Entries := [
  (jsText "session", jsText "a%3Bb"), (jsText "theme", jsText "%C3%A9"), (jsText "session", jsText "c%20d")]

def writtenJar : Entries := [
  (jsText "session", jsText "a;b"), (jsText "theme", jsText "é"), (jsText "session", jsText "c d")]

/-- An item that cannot be read changes nothing, and the later of two values counts. -/
theorem reads_back_session :
    get (parse (some (jsText "session=a; session=%zz; theme"))) (jsText "session") = some (jsText "a") ∧
      get (parse (some (headerText writtenPairs))) (jsText "session") = some (jsText "c d") := by
  have hname : ∀ name ∈ [jsText "session", jsText "theme"], IsName name := by
    decide +kernel
  have hwrites : List.Forall₂ Writes writtenPairs writtenJar := by
    refine .cons ⟨rfl, hname _ (by simp), ?_⟩ (.cons ⟨rfl, hname _ (by simp), ?_⟩
      (.cons ⟨rfl, hname _ (by simp), ?_⟩ .nil))
    all_goals decide +kernel
  constructor
  · rw [reads_back.1]
    decide +kernel
  · rw [reads_back.2 writtenPairs writtenJar hwrites]
    decide +kernel

end Cookies

end Bloom
