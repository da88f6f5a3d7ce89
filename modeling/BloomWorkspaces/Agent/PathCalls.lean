import BloomWorkspaces.Agent.GuestProtocol
import BloomWorkspaces.Agent.GuestWorkspace
import BloomWorkspaces.Guest.WorkspaceTree
import BloomWorkspaces.Library.Routine
import Mathlib.Data.List.Infix

/-!
# System calls by path

`readdir` and `rm` of `node:fs/promises`, on the tree of the machine: its root is `/`, and the target of a
link is its text as it reads from there. Every path is absolute. Where the tree is smaller, a path leads to
the same object or to none.
-/

namespace Bloom

namespace JsText

/-- The name of a directory entry as `readdir` gives it. -/
def ofFileName (name : FileName) : JsText := Utf16.encode (Utf8.toText name)

def toFileName (segment : JsText) : FileName := Utf8.encode (Utf16.toWellFormed segment)

lemma toFileName_encode (name : List Char) : toFileName (Utf16.encode name) = Utf8.encode name := by
  rw [toFileName, Utf16.toWellFormed_of_decode (Utf16.decode_encode name)]

end JsText

/-- `posix.join` -/
def posixJoin (parts : List JsText) : JsText :=
  if parts.filter (· ≠ []) = [] then JsText.dot
  else posixNormalize ([JsText.slash].intercalate (parts.filter (· ≠ [])))

namespace WorkspaceTree

/-! ### Walks -/

/-- The links that one lookup follows at most. -/
def maxLinks : ℕ := 40

/-- `PATH_MAX`, with the byte that ends the path. -/
def maxPathBytes : ℕ := 4096

/-- Walk on from a directory; `onward` is the walk from the root behind a link. A link in the last place
is followed if `follow` says so. -/
def walkFrom (t : WorkspaceTree) (onward : List FileName → Option TreePath) (follow : Bool) :
    TreePath → List FileName → Option TreePath
  | dir, [] => some dir
  | dir, name :: rest =>
    if name = [] ∨ name = dot then t.walkFrom onward follow dir rest
    else if name = dotDot then t.walkFrom onward follow dir.dropLast rest
    else
      match t.node (dir ++ [name]) with
      | none => none
      | some .directory => t.walkFrom onward follow (dir ++ [name]) rest
      | some (.symlink target) =>
        if rest = [] ∧ follow = false then some (dir ++ [name])
        else
          match target with
          | .inside names => onward (names ++ rest)
          | .outside => none
      | some _ => if rest = [] then some (dir ++ [name]) else none

def walk (t : WorkspaceTree) (follow : Bool) : ℕ → TreePath → List FileName → Option TreePath
  | 0 => t.walkFrom (fun _ => none) follow
  | links + 1 => t.walkFrom (t.walk follow links []) follow

/-- The object that a path leads to. -/
def lookup (t : WorkspaceTree) (follow : Bool) (path : JsText) : Option TreePath :=
  if 0 ∈ path ∨ maxPathBytes ≤ Utf16.byteLength path then none
  else t.walk follow maxLinks [] ((path.splitOn JsText.slash).map JsText.toFileName)

def lstat (t : WorkspaceTree) (path : JsText) : Option TreePath := t.lookup false path

def realpath (t : WorkspaceTree) (path : JsText) : Option TreePath := t.lookup true path

/-- `readdir` -/
def list (t : WorkspaceTree) (path : JsText) : Option (List JsText) :=
  match t.realpath path with
  | some dir => if t.node dir = some .directory then some ((t.names dir).map JsText.ofFileName) else none
  | none => none

def withoutSlash (path : JsText) : JsText :=
  if path.getLast? = some JsText.slash then path.dropLast else path

/-- What `rm` with `recursive` sets out to remove, unless it fails at once. The root is busy. For a link
with a slash behind it `rmdir` says that this is no directory, which `rm` takes for success. -/
def rmTarget (t : WorkspaceTree) (path : JsText) : Option (Option TreePath) :=
  match t.lstat path, t.lstat (withoutSlash path) with
  | some _, some target =>
    match t.node target with
    | none => none
    | some n =>
      if target = [] then none
      else if path.getLast? = some JsText.slash ∧ n ≠ .directory then some none
      else some (some target)
  | _, _ => none

/-- Take away some objects, with everything below them. -/
def without (t : WorkspaceTree) (gone : TreePath → Bool) : WorkspaceTree where
  entries := Table.deleteWhere (fun e => e.path.inits.any gone) t.entries
  slot := t.slot
  room := t.room
  nodup := (Table.map_deleteWhere_sublist _ _ _).nodup t.nodup
  plain := by
    intro e he
    exact t.plain e (Table.mem_deleteWhere.mp he).1
  closed := by
    intro e he
    obtain ⟨hold, hkept⟩ := Table.mem_deleteWhere.mp he
    rcases t.closed e hold with hroot | ⟨d, hd, hpath, hnode⟩
    · exact Or.inl hroot
    · refine Or.inr ⟨d, Table.mem_deleteWhere.mpr ⟨hd, ?_⟩, hpath, hnode⟩
      rw [List.any_eq_false] at hkept ⊢
      intro p hp
      refine hkept p ?_
      rw [List.mem_inits] at hp ⊢
      rw [hpath] at hp
      exact hp.trans (List.prefix_append _ _)
  linked := by
    intro e he e' he'
    exact t.linked e (Table.mem_deleteWhere.mp he).1 e' (Table.mem_deleteWhere.mp he').1

/-! ### Smaller trees -/

/-- Everything in the one tree is in the other. -/
def Within (s t : WorkspaceTree) : Prop := ∀ path n, s.node path = some n → t.node path = some n

/-- What was there and is not there any more. -/
def Lost (t s : WorkspaceTree) (path : TreePath) : Prop := (t.node path).isSome ∧ s.node path = none

variable {s t u : WorkspaceTree} {p q dir target : TreePath} {follow : Bool} {path : JsText}

lemma Within.refl (t : WorkspaceTree) : t.Within t := fun _ _ h => h

lemma Within.trans (h : s.Within t) (h' : t.Within u) : s.Within u := fun path n hn => h' path n (h path n hn)

lemma walkFrom_mono {onward onward' : List FileName → Option TreePath} {names : List FileName}
    (h : s.Within t) (honward : ∀ names p, onward names = some p → onward' names = some p)
    (hwalk : s.walkFrom onward follow dir names = some p) :
    t.walkFrom onward' follow dir names = some p := by
  induction names generalizing dir with
  | nil => exact hwalk
  | cons name rest ih =>
    rw [walkFrom] at hwalk ⊢
    by_cases hhere : name = [] ∨ name = dot
    · rw [if_pos hhere] at hwalk ⊢
      exact ih hwalk
    · rw [if_neg hhere] at hwalk ⊢
      by_cases hup : name = dotDot
      · rw [if_pos hup] at hwalk ⊢
        exact ih hwalk
      · rw [if_neg hup] at hwalk ⊢
        cases hnode : s.node (dir ++ [name]) with
        | none =>
          rw [hnode] at hwalk
          cases hwalk
        | some n =>
          rw [hnode] at hwalk
          rw [h _ _ hnode]
          cases n with
          | directory => exact ih hwalk
          | file contents => exact hwalk
          | fifo reader writer => exact hwalk
          | socket => exact hwalk
          | other => exact hwalk
          | symlink target =>
            by_cases hlast : rest = [] ∧ follow = false
            · simp only [if_pos hlast] at hwalk ⊢
              exact hwalk
            · simp only [if_neg hlast] at hwalk ⊢
              cases target with
              | inside names => exact honward _ _ hwalk
              | outside => cases hwalk

lemma walk_mono (h : s.Within t) (links : ℕ) {names : List FileName}
    (hwalk : s.walk follow links dir names = some p) : t.walk follow links dir names = some p := by
  induction links generalizing dir names p with
  | zero => exact walkFrom_mono h (fun _ _ hnone => hnone) hwalk
  | succ links ih => exact walkFrom_mono h (fun _ _ honward => ih honward) hwalk

lemma lookup_mono (h : s.Within t) (hlookup : s.lookup follow path = some p) :
    t.lookup follow path = some p := by
  rw [lookup] at hlookup ⊢
  split_ifs at hlookup ⊢
  exact walk_mono h _ hlookup

lemma rmTarget_eq_some : t.rmTarget path = some (some target) ↔
    (t.lstat path).isSome ∧ t.lstat (withoutSlash path) = some target ∧ target ≠ [] ∧
      ∃ n, t.node target = some n ∧ (path.getLast? = some JsText.slash → n = .directory) := by
  rw [rmTarget]
  cases t.lstat path with
  | none => simp
  | some q =>
    cases t.lstat (withoutSlash path) with
    | none => simp
    | some target' =>
      simp only [Option.isSome_some, Option.some.injEq, true_and]
      cases hnode : t.node target' with
      | none =>
        simp only [reduceCtorEq, false_iff, not_and]
        rintro rfl - ⟨n, hn, -⟩
        rw [hnode] at hn
        cases hn
      | some n =>
        have hn : ∀ m, t.node target' = some m → n = m := by
          intro m hm
          rw [hnode] at hm
          exact Option.some.inj hm
        simp only
        split_ifs with hroot hslash
        · simp only [false_iff, not_and]
          rintro rfl hne
          exact absurd hroot hne
        · simp only [Option.some.injEq, reduceCtorEq, false_iff, not_and, not_exists]
          rintro rfl - m hm hdirectory
          exact hslash.2 ((hn m hm).trans (hdirectory hslash.1))
        · simp only [Option.some.injEq]
          constructor
          · rintro rfl
            exact ⟨rfl, hroot, n, hnode, fun hlast => by_contra fun hne => hslash ⟨hlast, hne⟩⟩
          · exact fun h => h.1

lemma isSome_of_rmTarget (h : t.rmTarget path = some (some target)) : (t.node target).isSome := by
  obtain ⟨-, -, -, n, hnode, -⟩ := rmTarget_eq_some.mp h
  exact Option.isSome_iff_exists.mpr ⟨n, hnode⟩

/-- What `rm` would remove from the smaller tree it would remove from the larger one. -/
lemma rmTarget_mono (h : s.Within t) (hrm : s.rmTarget path = some (some target)) :
    t.rmTarget path = some (some target) := by
  obtain ⟨hsome, hstripped, hroot, n, hnode, hdirectory⟩ := rmTarget_eq_some.mp hrm
  obtain ⟨q, hq⟩ := Option.isSome_iff_exists.mp hsome
  have hfound : t.lstat path = some q := lookup_mono h hq
  refine rmTarget_eq_some.mpr ⟨?_, lookup_mono h hstripped, hroot, n, h _ _ hnode, hdirectory⟩
  rw [hfound]
  rfl

/-! ### Removal -/

lemma node_without (gone : TreePath → Bool) (hp : p ≠ []) :
    (t.without gone).node p = if p.inits.any gone then none else t.node p := by
  ext n
  rw [node_eq_some_iff hp]
  simp only [without, Table.mem_deleteWhere]
  constructor
  · rintro ⟨e, ⟨he, hkept⟩, rfl, rfl⟩
    rw [hkept, if_neg Bool.false_ne_true]
    exact node_of_mem he
  · intro hn
    split_ifs at hn with hgone
    obtain ⟨e, he, rfl, hnode⟩ := (node_eq_some_iff hp).mp hn
    exact ⟨e, ⟨he, by simpa using hgone⟩, rfl, hnode⟩

lemma within_without (t : WorkspaceTree) (gone : TreePath → Bool) : (t.without gone).Within t := by
  intro p n hn
  by_cases hp : p = []
  · rw [hp, node_nil] at hn ⊢
    exact hn
  · rw [node_without gone hp] at hn
    split_ifs at hn
    exact hn

lemma without_nothing (t : WorkspaceTree) : t.without (fun _ => false) = t := by
  have hentries : Table.deleteWhere (fun e => e.path.inits.any fun _ => false) t.entries = t.entries :=
    List.filter_eq_self.mpr fun e _ => by simp
  cases t
  simp only [without, mk.injEq, and_true]
  exact hentries

/-- What is below a lost directory is lost. -/
lemma Lost.below (h : t.Lost s p) (hpq : p <+: q) (hq : (t.node q).isSome) : t.Lost s q := by
  obtain ⟨-, hp⟩ := h
  refine ⟨hq, ?_⟩
  cases hnode : s.node q with
  | none => rfl
  | some n =>
    by_cases hsame : p = q
    · rw [hsame, hnode] at hp
      cases hp
    · have hdirectory := node_prefix hnode hpq hsame
      rw [hp] at hdirectory
      cases hdirectory

lemma Lost.since (h : t.Lost u p) (hbefore : ¬t.Lost s p) : s.Lost u p := by
  refine ⟨?_, h.2⟩
  rw [Option.isSome_iff_ne_none]
  exact fun hnone => hbefore ⟨h.1, hnone⟩

lemma Lost.mono (h : t.Lost s p) (hu : u.Within s) : t.Lost u p := by
  refine ⟨h.1, ?_⟩
  cases hnode : u.node p with
  | none => rfl
  | some n =>
    have hold := h.2
    rw [hu p n hnode] at hold
    cases hold

lemma lost_without {gone : TreePath → Bool} (hroot : gone [] = false) : t.Lost (t.without gone) p ↔
    (t.node p).isSome ∧ ∃ q, q <+: p ∧ gone q = true := by
  have hany : p.inits.any gone = true ↔ ∃ q, q <+: p ∧ gone q = true := by
    simp only [List.any_eq_true, List.mem_inits]
  by_cases hp : p = []
  · subst hp
    simp only [Lost, node_nil, reduceCtorEq, and_false, Option.isSome_some, List.prefix_nil,
      exists_eq_left, hroot, Bool.false_eq_true]
  · rw [Lost, node_without gone hp, ← hany]
    refine and_congr_right fun hsome => ?_
    split_ifs with hgone
    · simp only [hgone]
    · simp only [hgone, Bool.false_eq_true, iff_false]
      exact Option.ne_none_iff_isSome.mpr hsome

lemma lost_self (hp : p ≠ []) (hnode : (t.node p).isSome) : t.Lost (t.without p.isPrefixOf) p := by
  have hnil : p.isPrefixOf [] = false := by
    rw [← Bool.not_eq_true, List.isPrefixOf_iff_prefix]
    exact fun h => hp (List.prefix_nil.mp h)
  exact (lost_without hnil).mpr
    ⟨hnode, p, List.prefix_refl p, List.isPrefixOf_iff_prefix.mpr (List.prefix_refl p)⟩

/-- A tree that has lost an object has nothing of what is below it. -/
lemma Within.without_of_lost (h : s.Within t) (hp : t.Lost s p) : s.Within (t.without p.isPrefixOf) := by
  intro q n hn
  have hold := h q n hn
  by_cases hq : q = []
  · rw [hq, node_nil] at hold ⊢
    exact hold
  · rw [node_without _ hq, if_neg]
    · exact hold
    · simp only [List.any_eq_true, List.mem_inits, List.isPrefixOf_iff_prefix, not_exists, not_and]
      intro r hr hpr
      have hlost := hp.below (hpr.trans hr) (Option.isSome_iff_exists.mpr ⟨n, hold⟩)
      rw [hlost.2] at hn
      cases hn

end WorkspaceTree

/-! ### The calls -/

/-- The reply of the file system to a call. A call of `rm` that fails may have removed some of what is
below its target. -/
inductive PathAnswer
  | done
  | fails (removed : TreePath → Bool)

/-- The error of a call, whatever it is, or one that the agent answers with. -/
inductive PathError
  | io
  | data (error : RuntimeDataError)
  deriving DecidableEq, Repr

abbrev PathRoutine (α : Type) := Routine WorkspaceTree PathAnswer PathError α

/-- What is gone after `rm`. -/
def PathAnswer.gone (answer : PathAnswer) (target path : TreePath) : Bool :=
  match answer with
  | done => target.isPrefixOf path
  | fails removed => target.isPrefixOf path && path ≠ target && removed path

def WorkspaceTree.afterRm (t : WorkspaceTree) (path : JsText) (answer : PathAnswer) : WorkspaceTree :=
  match t.rmTarget path with
  | some (some target) => t.without (answer.gone target)
  | _ => t

namespace NodeFs

/-- `rm` with `recursive` -/
def rm (path : JsText) : PathRoutine Unit :=
  .await (fun answer t => t.afterRm path answer) fun answer t =>
    match answer, t.rmTarget path with
    | .done, some _ => .returns ()
    | _, _ => .throws .io

def readdir (path : JsText) : PathRoutine (List JsText) :=
  .await (fun _ t => t) fun answer t =>
    match answer, t.list path with
    | .done, some names => .returns names
    | _, _ => .throws .io

end NodeFs

namespace WorkspaceTree

variable {s t : WorkspaceTree} {p target : TreePath} {path : JsText}

lemma afterRm_none (h : ∀ target, t.rmTarget path ≠ some (some target)) (answer : PathAnswer) :
    t.afterRm path answer = t := by
  rw [afterRm]
  split
  · rename_i target htarget
    exact absurd htarget (h target)
  · rfl

lemma afterRm_some (h : t.rmTarget path = some (some target)) (answer : PathAnswer) :
    t.afterRm path answer = t.without (answer.gone target) := by
  rw [afterRm, h]

lemma afterRm_within (t : WorkspaceTree) (path : JsText) (answer : PathAnswer) :
    (t.afterRm path answer).Within t := by
  rw [afterRm]
  split
  · exact within_without t _
  · exact Within.refl t

lemma gone_nil (h : target ≠ []) (answer : PathAnswer) : answer.gone target [] = false := by
  have hprefix : target.isPrefixOf [] = false := by
    rw [← Bool.not_eq_true, List.isPrefixOf_iff_prefix]
    exact fun hp => h (List.prefix_nil.mp hp)
  cases answer with
  | done => exact hprefix
  | fails removed => rw [PathAnswer.gone, hprefix, Bool.false_and, Bool.false_and]

/-- All that `rm` removes is at its target or below it, and the target stays where it fails. -/
lemma lost_afterRm {answer : PathAnswer} (h : t.rmTarget path = some (some target))
    (hlost : t.Lost (t.afterRm path answer) p) : target <+: p ∧ (answer ≠ .done → p ≠ target) := by
  rw [afterRm_some h, lost_without (gone_nil (rmTarget_eq_some.mp h).2.2.1 answer)] at hlost
  obtain ⟨-, q, hq, hgone⟩ := hlost
  cases answer with
  | done => exact ⟨(List.isPrefixOf_iff_prefix.mp hgone).trans hq, fun hne => absurd rfl hne⟩
  | fails removed =>
    simp only [PathAnswer.gone, Bool.and_eq_true, decide_eq_true_eq, List.isPrefixOf_iff_prefix] at hgone
    refine ⟨hgone.1.1.trans hq, fun _ hsame => hgone.1.2 ?_⟩
    rw [hsame] at hq
    exact hq.eq_of_length_le hgone.1.1.length_le

/-- A call that succeeds removes its target. -/
lemma lost_target (h : t.rmTarget path = some (some target)) : t.Lost (t.afterRm path .done) target := by
  rw [afterRm_some h]
  exact lost_self (rmTarget_eq_some.mp h).2.2.1 (isSome_of_rmTarget h)

/-- A call that fails at once changes nothing. -/
lemma afterRm_fails (t : WorkspaceTree) (path : JsText) :
    t.afterRm path (.fails fun _ => false) = t := by
  rw [afterRm]
  split
  · rename_i target htarget
    have hgone : (PathAnswer.fails fun _ => false).gone target = fun _ => false := by
      funext p
      rw [PathAnswer.gone, Bool.and_false]
    rw [hgone, without_nothing]
  · rfl

/-- A call that fails may have removed any object below its target. -/
lemma afterRm_below (h : t.rmTarget path = some (some target)) (hp : target <+: p) (hne : p ≠ target) :
    t.afterRm path (.fails p.isPrefixOf) = t.without p.isPrefixOf := by
  rw [afterRm_some h]
  congr 1
  funext q
  rw [Bool.eq_iff_iff]
  simp only [PathAnswer.gone, Bool.and_eq_true, decide_eq_true_eq, List.isPrefixOf_iff_prefix]
  refine ⟨fun hq => hq.2, fun hq => ⟨⟨hp.trans hq, ?_⟩, hq⟩⟩
  rintro rfl
  exact hne (hq.eq_of_length_le hp.length_le)

/-! ### Paths of names -/

section Names

variable {names : List FileName} {onward : List FileName → Option TreePath}

/-- Names that are walked one after the other. -/
def AreSteps (names : List FileName) : Prop := ∀ name ∈ names, name ≠ [] ∧ name ≠ dot ∧ name ≠ dotDot

/-- Where no link is on the way, the names lead to themselves. -/
lemma walkFrom_direct (hsteps : AreSteps names)
    (hlinks : ∀ q, q <+: names → q ≠ names → ∀ link, t.node (dir ++ q) ≠ some (.symlink link))
    (hwalk : t.walkFrom onward false dir names = some p) : p = dir ++ names := by
  induction names generalizing dir with
  | nil =>
    rw [List.append_nil]
    exact (Option.some.inj hwalk).symm
  | cons name rest ih =>
    obtain ⟨hnil, hdot, hdotDot⟩ := hsteps name List.mem_cons_self
    rw [walkFrom, if_neg (not_or.mpr ⟨hnil, hdot⟩), if_neg hdotDot] at hwalk
    have hend : (if rest = [] then some (dir ++ [name]) else none) = some p → p = dir ++ name :: rest := by
      intro hp
      split_ifs at hp with hrest
      rw [hrest]
      exact (Option.some.inj hp).symm
    cases hnode : t.node (dir ++ [name]) with
    | none =>
      rw [hnode] at hwalk
      cases hwalk
    | some n =>
      rw [hnode] at hwalk
      cases n with
      | directory =>
        have hrest := ih (fun name hname => hsteps name (List.mem_cons_of_mem _ hname)) ?_ hwalk
        · rw [hrest, List.append_assoc, List.singleton_append]
        · intro q hq hne link
          rw [List.append_assoc, List.singleton_append]
          exact hlinks (name :: q) (List.cons_prefix_cons.mpr ⟨rfl, hq⟩) (fun h => hne (List.cons.inj h).2) link
      | file contents => exact hend hwalk
      | fifo reader writer => exact hend hwalk
      | socket => exact hend hwalk
      | other => exact hend hwalk
      | symlink link =>
        by_cases hrest : rest = []
        · refine hend ?_
          rw [if_pos hrest]
          exact (if_pos ⟨hrest, rfl⟩).symm.trans hwalk
        · refine absurd hnode (hlinks [name] (List.cons_prefix_cons.mpr ⟨rfl, List.nil_prefix⟩) ?_ link)
          exact fun h => hrest (List.cons.inj h).2.symm

/-- Directories are walked through. -/
lemma walkFrom_directories {follow : Bool} (hsteps : AreSteps names)
    (hdir : t.node (dir ++ names) = some .directory) :
    t.walkFrom onward follow dir names = some (dir ++ names) := by
  induction names generalizing dir with
  | nil =>
    rw [List.append_nil]
    rfl
  | cons name rest ih =>
    obtain ⟨hnil, hdot, hdotDot⟩ := hsteps name List.mem_cons_self
    have hassoc : dir ++ name :: rest = dir ++ [name] ++ rest := by
      rw [List.append_assoc, List.singleton_append]
    rw [hassoc] at hdir ⊢
    rw [walkFrom, if_neg (not_or.mpr ⟨hnil, hdot⟩), if_neg hdotDot, node_of_append hdir]
    exact ih (fun name hname => hsteps name (List.mem_cons_of_mem _ hname)) hdir

end Names

end WorkspaceTree

/-- A text that is one component of a path. -/
def IsName (name : List Char) : Prop := name ≠ [] ∧ name ≠ ['.'] ∧ name ≠ ['.', '.'] ∧ '/' ∉ name

instance (name : List Char) : Decidable (IsName name) := inferInstanceAs (Decidable (_ ∧ _ ∧ _ ∧ _))

def absolutePath (names : List (List Char)) : JsText := Utf16.encode (['/'].intercalate ([] :: names))

section Paths

variable {names parts : List (List Char)}

lemma intercalate_intercalate {α : Type} (sep : List α) {xs : List (List α)} (hne : xs ≠ [])
    (ys : List (List α)) : sep.intercalate (sep.intercalate xs :: ys) = sep.intercalate (xs ++ ys) := by
  by_cases hys : ys = []
  · rw [hys, List.intercalate_singleton, List.append_nil]
  · induction xs with
    | nil => exact absurd rfl hne
    | cons x xs ih =>
      cases xs with
      | nil => rw [List.intercalate_singleton, List.singleton_append]
      | cons x' xs =>
        have hrest := ih (List.cons_ne_nil _ _)
        rw [List.intercalate_cons_of_ne_nil hys] at hrest ⊢
        rw [List.cons_append] at hrest
        rw [List.intercalate_cons_cons, List.cons_append, List.cons_append, List.intercalate_cons_cons,
          ← hrest]
        simp only [List.append_assoc]

lemma absolutePath_eq (names : List (List Char)) :
    absolutePath names = [JsText.slash].intercalate ([] :: names.map Utf16.encode) :=
  Utf16.encode_intercalate (by decide : ('/').val.toNat < 55296) _

lemma splitOn_absolutePath (h : ∀ name ∈ names, IsName name) :
    (absolutePath names).splitOn JsText.slash = [] :: names.map Utf16.encode := by
  have hslash : ('/').val.toNat < 55296 := by decide
  have hpieces : ∀ piece ∈ [] :: names, '/' ∉ piece := by
    intro piece hpiece
    rcases List.mem_cons.mp hpiece with rfl | hname
    · exact List.not_mem_nil
    · exact (h piece hname).2.2.2
  have hsplit := Utf16.splitOn_encode hslash (['/'].intercalate ([] :: names))
  rw [List.splitOn_intercalate '/' hpieces (List.cons_ne_nil _ _)] at hsplit
  exact hsplit

lemma plain_of_names (h : ∀ name ∈ names, IsName name) :
    ∀ segment ∈ names.map Utf16.encode, IsPlainSegment segment := by
  intro segment hsegment
  obtain ⟨name, hname, rfl⟩ := List.mem_map.mp hsegment
  obtain ⟨hnil, hdot, hdotDot, -⟩ := h name hname
  exact isPlainSegment_encode.mpr ⟨hnil, hdot, hdotDot⟩

lemma absolutePath_cons (hne : names ≠ []) : absolutePath names =
    JsText.slash :: [JsText.slash].intercalate (names.map Utf16.encode) := by
  rw [absolutePath_eq, List.intercalate_cons_of_ne_nil fun hnil => hne (List.map_eq_nil_iff.mp hnil)]
  rfl

lemma splitOn_names (hne : names ≠ []) (h : ∀ name ∈ names, IsName name) :
    ([JsText.slash].intercalate (names.map Utf16.encode)).splitOn JsText.slash = names.map Utf16.encode := by
  refine List.splitOn_intercalate JsText.slash ?_ fun hnil => hne (List.map_eq_nil_iff.mp hnil)
  intro segment hsegment
  have hpiece : segment ∈ (absolutePath names).splitOn JsText.slash := by
    rw [splitOn_absolutePath h]
    exact List.mem_cons_of_mem _ hsegment
  exact Ascii.not_mem_of_mem_splitOn hpiece

lemma intercalate_names_ne_nil (hne : names ≠ []) (h : ∀ name ∈ names, IsName name) :
    [JsText.slash].intercalate (names.map Utf16.encode) ≠ [] := by
  intro hnil
  have hsplit := splitOn_names hne h
  rw [hnil] at hsplit
  refine (plain_of_names h [] ?_).1 rfl
  rw [← hsplit]
  decide

lemma getLast?_absolutePath (hne : names ≠ []) (h : ∀ name ∈ names, IsName name) :
    (absolutePath names).getLast? ≠ some JsText.slash := by
  intro hlast
  rw [absolutePath_cons hne, List.getLast?_cons_of_ne_nil (intercalate_names_ne_nil hne h)] at hlast
  have hmem := Ascii.nil_mem_splitOn_of_getLast hlast
  rw [splitOn_names hne h] at hmem
  exact (plain_of_names h [] hmem).1 rfl

lemma withoutSlash_absolutePath (hne : names ≠ []) (h : ∀ name ∈ names, IsName name) :
    WorkspaceTree.withoutSlash (absolutePath names) = absolutePath names := by
  rw [WorkspaceTree.withoutSlash, if_neg (getLast?_absolutePath hne h)]

lemma posixNormalize_absolutePath (hne : names ≠ []) (h : ∀ name ∈ names, IsName name) :
    posixNormalize (absolutePath names) = absolutePath names := by
  have hsegments : normalizeSegments false [] ((absolutePath names).splitOn JsText.slash) =
      names.map Utf16.encode := by
    rw [splitOn_absolutePath h, normalizeSegments, if_pos (Or.inl rfl),
      normalizeSegments_plain (plain_of_names h), List.nil_append]
  have hhead : (absolutePath names).head? = some JsText.slash := by
    rw [absolutePath_cons hne, List.head?_cons]
  have hnonempty : absolutePath names ≠ [] := by
    rw [absolutePath_cons hne]
    exact List.cons_ne_nil _ _
  simp only [posixNormalize, hhead, getLast?_absolutePath hne h, decide_true, decide_false, Bool.not_true,
    hsegments, hnonempty, intercalate_names_ne_nil hne h, if_false, if_true, Bool.false_eq_true,
    List.append_nil]
  exact (absolutePath_cons hne).symm

lemma posixJoin_absolutePath (hne : names ≠ []) (h : ∀ name ∈ names ++ parts, IsName name) :
    posixJoin (absolutePath names :: parts.map Utf16.encode) = absolutePath (names ++ parts) := by
  have hfilter : (absolutePath names :: parts.map Utf16.encode).filter (· ≠ []) =
      absolutePath names :: parts.map Utf16.encode := by
    refine List.filter_eq_self.mpr fun part hpart => decide_eq_true ?_
    rcases List.mem_cons.mp hpart with rfl | hmem
    · exact Utf16.encode_ne_nil (by simp [List.intercalate_cons_of_ne_nil hne])
    · obtain ⟨name, hname, rfl⟩ := List.mem_map.mp hmem
      exact Utf16.encode_ne_nil (h name (List.mem_append_right _ hname)).1
  have hjoin : [JsText.slash].intercalate (absolutePath names :: parts.map Utf16.encode) =
      absolutePath (names ++ parts) := by
    rw [absolutePath_eq, absolutePath_eq, intercalate_intercalate _ (List.cons_ne_nil _ _), List.map_append,
      List.cons_append]
  rw [posixJoin, hfilter, if_neg (List.cons_ne_nil _ _), hjoin, posixNormalize_absolutePath (by simp [hne]) h]

/-- What a path leads to is longer than what its beginning does. -/
lemma absolutePath_prefix (names parts : List (List Char)) :
    ∃ rest, ['/'].intercalate ([] :: (names ++ parts)) = ['/'].intercalate ([] :: names) ++ rest := by
  by_cases hparts : parts = []
  · exact ⟨[], by rw [hparts, List.append_nil, List.append_nil]⟩
  · have hall := intercalate_intercalate ['/'] (List.cons_ne_nil [] names) parts
    rw [List.intercalate_cons_of_ne_nil hparts, List.cons_append, List.append_assoc] at hall
    exact ⟨_, hall.symm⟩

namespace WorkspaceTree

variable {t : WorkspaceTree} {p q : TreePath} {follow : Bool}

lemma areSteps_of_names (h : ∀ name ∈ names, IsName name) : AreSteps (names.map Utf8.encode) := by
  intro bytes hbytes
  obtain ⟨name, hname, rfl⟩ := List.mem_map.mp hbytes
  obtain ⟨hnil, hdot, hdotDot, -⟩ := h name hname
  refine ⟨Utf8.encode_ne_nil hnil, fun hsame => hdot ?_, fun hsame => hdotDot ?_⟩
  · exact Utf8.encode_injective (hsame.trans (by decide : dot = Utf8.encode ['.']))
  · exact Utf8.encode_injective (hsame.trans (by decide : dotDot = Utf8.encode ['.', '.']))

lemma lookup_absolutePath (follow : Bool) (h : ∀ name ∈ names, IsName name) :
    t.lookup follow (absolutePath names) =
      if 0 ∈ absolutePath names ∨ maxPathBytes ≤ Utf16.byteLength (absolutePath names) then none
      else t.walkFrom (t.walk follow 39 []) follow [] (names.map Utf8.encode) := by
  have hfileName : JsText.toFileName ∘ Utf16.encode = Utf8.encode := funext JsText.toFileName_encode
  have hwalk : t.walk follow maxLinks [] ([] :: names.map Utf8.encode) =
      t.walkFrom (t.walk follow 39 []) follow [] (names.map Utf8.encode) := by
    show t.walkFrom (t.walk follow 39 []) follow [] ([] :: names.map Utf8.encode) = _
    rw [walkFrom, if_pos (Or.inl rfl)]
  rw [lookup, splitOn_absolutePath h, List.map_cons, List.map_map, hfileName, ← hwalk]
  rfl

/-- Where no link is on the way, a path of names leads to what stands under them. -/
lemma eq_of_lstat (h : ∀ name ∈ names, IsName name)
    (hlinks : ∀ q, q <+: names.map Utf8.encode → q ≠ names.map Utf8.encode → ∀ link,
      t.node q ≠ some (.symlink link))
    (hfound : t.lstat (absolutePath names) = some p) : p = names.map Utf8.encode := by
  rw [lstat, lookup_absolutePath false h] at hfound
  split_ifs at hfound
  exact walkFrom_direct (areSteps_of_names h) hlinks hfound

/-- The beginning of a path that leads somewhere leads to its directory. -/
lemma realpath_of_lstat (h : ∀ name ∈ names ++ parts, IsName name)
    (hfound : t.lstat (absolutePath (names ++ parts)) = some p)
    (hdir : t.node (names.map Utf8.encode) = some .directory) :
    t.realpath (absolutePath names) = some (names.map Utf8.encode) := by
  have hnames : ∀ name ∈ names, IsName name := fun name hname => h name (List.mem_append_left _ hname)
  obtain ⟨rest, hrest⟩ := absolutePath_prefix names parts
  have htext : absolutePath (names ++ parts) = absolutePath names ++ Utf16.encode rest := by
    rw [absolutePath, hrest, Utf16.encode_append]
    rfl
  have hlength : Utf16.byteLength (absolutePath names) ≤ Utf16.byteLength (absolutePath (names ++ parts)) := by
    rw [absolutePath, absolutePath, Utf16.byteLength_of_decode (Utf16.decode_encode _),
      Utf16.byteLength_of_decode (Utf16.decode_encode _), hrest, Utf8.encode_append, List.length_append]
    exact Nat.le_add_right _ _
  rw [lstat, lookup_absolutePath false h] at hfound
  split_ifs at hfound with hlong
  rw [not_or] at hlong
  rw [realpath, lookup_absolutePath true hnames, if_neg]
  · exact walkFrom_directories (areSteps_of_names hnames) hdir
  · rw [not_or]
    refine ⟨fun hzero => hlong.1 ?_, fun hle => hlong.2 (hle.trans hlength)⟩
    rw [htext]
    exact List.mem_append_left _ hzero

end WorkspaceTree

end Paths

end Bloom
