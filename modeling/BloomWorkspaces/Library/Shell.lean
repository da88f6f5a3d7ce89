import BloomWorkspaces.Library.Ascii
import Mathlib.Data.List.Basic

/-!
# Command lines

Percent tokens, and the token recognition of the POSIX shell. Where an expansion ends is not looked
for, and the lines of a here-document are not told from commands.
-/

namespace Shell

/-! ### Percent tokens -/

/-- Each `%` with the key after it becomes the value of the key; an unknown key is fatal. -/
def percentExpand (value : Char → Option (List Char)) : List Char → Option (List Char)
  | [] => some []
  | ['%'] => none
  | '%' :: key :: rest =>
    match if key = '%' then some ['%'] else value key with
    | none => none
    | some text => (percentExpand value rest).map (text ++ ·)
  | c :: rest => (percentExpand value rest).map (c :: ·)

/-- A text without `%` is left as it is. -/
lemma percentExpand_eq_self (value : Char → Option (List Char)) {text : List Char} (h : '%' ∉ text) :
    percentExpand value text = some text := by
  induction text with
  | nil => rfl
  | cons c text ih =>
    have hc : c ≠ '%' := fun heq => h (heq ▸ List.mem_cons_self)
    have hrest := ih fun hmem => h (List.mem_cons_of_mem _ hmem)
    rw [percentExpand, hrest]
    · rfl
    · rintro rfl
      exact absurd rfl hc
    · rintro key rest rfl
      exact absurd rfl hc

lemma mem_intercalate {c : Char} {words : List (List Char)} (h : c ∈ [' '].intercalate words) :
    c = ' ' ∨ ∃ word ∈ words, c ∈ word := by
  induction words with
  | nil => cases h
  | cons word rest ih =>
    cases rest with
    | nil =>
      rw [List.intercalate_singleton] at h
      exact Or.inr ⟨word, List.mem_cons_self, h⟩
    | cons next rest =>
      rw [List.intercalate_cons_cons, List.mem_append, List.mem_append] at h
      rcases h with (hword | hspace) | hrest
      · exact Or.inr ⟨word, List.mem_cons_self, hword⟩
      · exact Or.inl (List.mem_singleton.mp hspace)
      · refine (ih hrest).imp_right ?_
        rintro ⟨other, hother, hc⟩
        exact ⟨other, List.mem_cons_of_mem _ hother, hc⟩

/-- So are words without `%` between spaces. -/
lemma percentExpand_intercalate (value : Char → Option (List Char)) {words : List (List Char)}
    (h : ∀ word ∈ words, '%' ∉ word) :
    percentExpand value ([' '].intercalate words) = some ([' '].intercalate words) := by
  refine percentExpand_eq_self value fun hpercent => ?_
  rcases mem_intercalate hpercent with hspace | ⟨word, hword, hmem⟩
  · cases hspace
  · exact h word hword hmem

/-! ### Tokens -/

/-- What a character of a word is to the shell. `special` ones stand for a pattern or a home
directory, and an `expansion` is one of a parameter, of a command or of arithmetic. -/
inductive Piece
  | literal (c : Char)
  | quoted (c : Char)
  | special (c : Char)
  | expansion (c : Char)
  deriving DecidableEq, Repr

inductive Token
  | word (pieces : List Piece)
  | operator (text : List Char)
  deriving DecidableEq, Repr

inductive Mode
  | bare
  | escaped
  | single
  | double
  | doubleEscaped
  | comment
  | expansion
  deriving DecidableEq, Repr

/-- The tokens that are complete, and the one that is being read. -/
structure Scanner where
  done : List Token
  current : Option Token
  mode : Mode
  deriving DecidableEq, Repr

namespace Scanner

def delimit (s : Scanner) : Scanner := { s with done := s.done ++ s.current.toList, current := none }

/-- The word that is being read goes on, or one begins. -/
def append (s : Scanner) (pieces : List Piece) : Scanner :=
  match s.current with
  | some (.word read) => { s with current := some (.word (read ++ pieces)) }
  | _ => { s.delimit with current := some (.word pieces) }

end Scanner

/-- The operators of more than one character. -/
def longOperators : List (List Char) :=
  [['&', '&'], ['|', '|'], [';', ';'], ['<', '<'], ['>', '>'], ['<', '&'], ['>', '&'], ['<', '>'],
    ['<', '<', '-'], ['>', '|']]

def isOperatorStart (c : Char) : Bool := c ∈ ['&', '|', ';', '<', '>', '(', ')', '\n']

def isSpecial (c : Char) : Bool := c ∈ ['*', '?', '[', '~']

namespace Scanner

def inWord (s : Scanner) : Bool :=
  match s.current with
  | some (.word _) => true
  | _ => false

/-- A character that neither is quoted nor belongs to an operator that was begun. -/
def begin (s : Scanner) (c : Char) : Scanner :=
  if c = '\\' then { s with mode := .escaped }
  else if c = '\'' then { s.append [] with mode := .single }
  else if c = '"' then { s.append [] with mode := .double }
  else if c = '$' ∨ c = '`' then { s.append [.expansion c] with mode := .expansion }
  else if isOperatorStart c then { s.delimit with current := some (.operator [c]) }
  else if c = ' ' ∨ c = '\t' then s.delimit
  else if c = '#' ∧ s.inWord = false then { s with mode := .comment }
  else s.append [if isSpecial c then .special c else .literal c]

/-- A character outside quotes. -/
def bare (s : Scanner) (c : Char) : Scanner :=
  match s.current with
  | some (.operator text) =>
    if text ++ [c] ∈ longOperators then { s with current := some (.operator (text ++ [c])) }
    else s.begin c
  | _ => s.begin c

def step (s : Scanner) (c : Char) : Scanner :=
  match s.mode with
  | .bare => s.bare c
  | .escaped =>
    -- a line goes on after an escaped newline
    if c = '\n' then { s with mode := .bare } else { s.append [.quoted c] with mode := .bare }
  | .single => if c = '\'' then { s with mode := .bare } else s.append [.quoted c]
  | .double =>
    if c = '"' then { s with mode := .bare }
    else if c = '\\' then { s with mode := .doubleEscaped }
    else if c = '$' ∨ c = '`' then { s.append [.expansion c] with mode := .expansion }
    else s.append [.quoted c]
  | .doubleEscaped =>
    if c = '\n' then { s with mode := .double }
    else if c ∈ ['$', '`', '"', '\\'] then { s.append [.quoted c] with mode := .double }
    else { s.append [.quoted '\\', .quoted c] with mode := .double }
  | .comment => if c = '\n' then { s with mode := .bare }.bare c else s
  | .expansion => s

/-- A quotation that does not end is an error. -/
def finish (s : Scanner) : Option (List Token) :=
  match s.mode with
  | .single | .double | .doubleEscaped => none
  | .escaped => some (s.append [.quoted '\\']).delimit.done
  | .bare | .comment | .expansion => some s.delimit.done

end Scanner

def tokens (text : List Char) : Option (List Token) := (text.foldl Scanner.step ⟨[], none, .bare⟩).finish

/-! ### Plain words -/

/-- The characters that are only what they are. -/
def isPlain (c : Char) : Bool :=
  !isOperatorStart c && !isSpecial c && c ∉ ['\\', '\'', '"', '$', '`', '#', ' ', '\t']

/-- A word of literal characters. -/
def Token.plain (text : List Char) : Token := .word (text.map .literal)

variable {c : Char} {text : List Char} {words : List (List Char)}

lemma Scanner.begin_plain (s : Scanner) (h : isPlain c = true) : s.begin c = s.append [.literal c] := by
  simp only [isPlain, Bool.and_eq_true, Bool.not_eq_true', decide_eq_true_eq, List.mem_cons,
    List.not_mem_nil, or_false, not_or] at h
  obtain ⟨⟨hoperator, hspecial⟩, hescape, hsingle, hdouble, hdollar, hquote, hcomment, hspace, htab⟩ := h
  simp [Scanner.begin, hoperator, hspecial, hescape, hsingle, hdouble, hdollar, hquote, hcomment,
    hspace, htab]

lemma Scanner.step_word (done : List Token) (read : List Piece) (h : isPlain c = true) :
    Scanner.step ⟨done, some (.word read), .bare⟩ c =
      ⟨done, some (.word (read ++ [.literal c])), .bare⟩ := by
  change Scanner.begin ⟨done, some (.word read), .bare⟩ c = _
  rw [Scanner.begin_plain _ h]
  rfl

lemma Scanner.step_first (done : List Token) (h : isPlain c = true) :
    Scanner.step ⟨done, none, .bare⟩ c = ⟨done, some (.word [.literal c]), .bare⟩ := by
  change Scanner.begin ⟨done, none, .bare⟩ c = _
  rw [Scanner.begin_plain _ h]
  simp [Scanner.append, Scanner.delimit]

lemma Scanner.foldl_word (done : List Token) (read : List Piece) (h : ∀ c ∈ text, isPlain c = true) :
    text.foldl Scanner.step ⟨done, some (.word read), .bare⟩ =
      ⟨done, some (.word (read ++ text.map .literal)), .bare⟩ := by
  induction text generalizing read with
  | nil => simp
  | cons c text ih =>
    rw [List.foldl_cons, Scanner.step_word done read (h c List.mem_cons_self),
      ih _ fun d hd => h d (List.mem_cons_of_mem _ hd)]
    simp

/-- A plain word is read to its end. -/
lemma Scanner.foldl_plain (done : List Token) (hne : text ≠ []) (h : ∀ c ∈ text, isPlain c = true) :
    text.foldl Scanner.step ⟨done, none, .bare⟩ = ⟨done, some (.plain text), .bare⟩ := by
  cases text with
  | nil => exact absurd rfl hne
  | cons c text =>
    rw [List.foldl_cons, Scanner.step_first done (h c List.mem_cons_self),
      Scanner.foldl_word done _ fun d hd => h d (List.mem_cons_of_mem _ hd)]
    rfl

lemma Scanner.step_space (done : List Token) (token : Token) :
    Scanner.step ⟨done, some token, .bare⟩ ' ' = ⟨done ++ [token], none, .bare⟩ := by
  cases token with
  | word pieces => rfl
  | operator text =>
    have hlong : text ++ [' '] ∉ longOperators := by
      intro hmem
      have hall : longOperators.all fun operator => operator.getLast? ≠ some ' ' := by decide
      have hlast := List.all_eq_true.mp hall _ hmem
      simp at hlast
    change (if text ++ [' '] ∈ longOperators then _ else _) = _
    rw [if_neg hlong]
    rfl

/-- Plain words between single spaces are exactly the words that the shell reads. -/
theorem tokens_intercalate (h : ∀ word ∈ words, word ≠ [] ∧ ∀ c ∈ word, isPlain c = true) :
    tokens ([' '].intercalate words) = some (words.map Token.plain) := by
  have hfold : ∀ done : List Token,
      (([' '].intercalate words).foldl Scanner.step ⟨done, none, .bare⟩).finish =
        some (done ++ words.map Token.plain) := by
    induction words with
    | nil =>
      intro done
      rfl
    | cons word rest ih =>
      intro done
      obtain ⟨hne, hplain⟩ := h word List.mem_cons_self
      have hrest := ih fun other hother => h other (List.mem_cons_of_mem _ hother)
      cases rest with
      | nil =>
        rw [List.intercalate_singleton, Scanner.foldl_plain done hne hplain]
        rfl
      | cons next rest =>
        rw [List.intercalate_cons_cons, List.foldl_append, List.foldl_append,
          Scanner.foldl_plain done hne hplain, List.foldl_cons, List.foldl_nil, Scanner.step_space,
          hrest]
        simp
  exact hfold []

end Shell
