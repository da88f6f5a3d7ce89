import Mathlib.Data.Nat.Notation
import Mathlib.Order.Defs.Unbundled

/-!
# Programs with a state and errors

A program of `ExceptT ε (StateM σ)` keeps the state that it has reached when it throws. A triple says
what holds of the value and the state where it returns, and of the error and the state where it throws.
`Ends` says how a program ends where only a part of the state matters.
-/

namespace Action

variable {σ ε α β τ : Type}

/-- Run a program from a state. -/
def outcome (x : ExceptT ε (StateM σ) α) (s : σ) : Except ε α × σ := x.run.run s

@[simp] lemma outcome_pure (a : α) (s : σ) :
    outcome (pure a : ExceptT ε (StateM σ) α) s = (.ok a, s) := rfl

@[simp] lemma outcome_throw (e : ε) (s : σ) :
    outcome (throw e : ExceptT ε (StateM σ) α) s = (.error e, s) := rfl

@[simp] lemma outcome_modifyGet (f : σ → α × σ) (s : σ) :
    outcome (modifyGet f : ExceptT ε (StateM σ) α) s = (.ok (f s).1, (f s).2) := rfl

@[simp] lemma outcome_get (s : σ) : outcome (get : ExceptT ε (StateM σ) σ) s = (.ok s, s) := rfl

@[simp] lemma outcome_modify (f : σ → σ) (s : σ) :
    outcome (modify f : ExceptT ε (StateM σ) PUnit) s = (.ok ⟨⟩, f s) := rfl

variable {x : ExceptT ε (StateM σ) α} {f : α → ExceptT ε (StateM σ) β} {s s' : σ}

lemma outcome_bind_ok {a : α} (h : outcome x s = (.ok a, s')) :
    outcome (x >>= f) s = outcome (f a) s' := by
  unfold outcome ExceptT.run StateT.run at h ⊢
  simp only [bind, ExceptT.bind, ExceptT.mk, StateT.bind, ExceptT.bindCont]
  rw [h]

lemma outcome_bind_error {e : ε} (h : outcome x s = (.error e, s')) :
    outcome (x >>= f) s = (.error e, s') := by
  unfold outcome ExceptT.run StateT.run at h ⊢
  simp only [bind, ExceptT.bind, ExceptT.mk, StateT.bind, ExceptT.bindCont]
  rw [h]
  rfl

lemma outcome_tryCatch_ok {h : ε → ExceptT ε (StateM σ) α} {a : α} (hx : outcome x s = (.ok a, s')) :
    outcome (tryCatch x h) s = (.ok a, s') := by
  unfold outcome ExceptT.run StateT.run at hx ⊢
  simp only [tryCatch, tryCatchThe, MonadExceptOf.tryCatch, ExceptT.tryCatch, ExceptT.mk, bind,
    StateT.bind]
  rw [hx]
  rfl

lemma outcome_tryCatch_error {h : ε → ExceptT ε (StateM σ) α} {e : ε}
    (hx : outcome x s = (.error e, s')) : outcome (tryCatch x h) s = outcome (h e) s' := by
  unfold outcome ExceptT.run StateT.run at hx ⊢
  simp only [tryCatch, tryCatchThe, MonadExceptOf.tryCatch, ExceptT.tryCatch, ExceptT.mk, bind,
    StateT.bind]
  rw [hx]

/-! ### Weakest preconditions -/

/-- What is asked of an outcome. -/
def Post (Q : α → σ → Prop) (E : ε → σ → Prop) : Except ε α × σ → Prop
  | (.ok a, s) => Q a s
  | (.error e, s) => E e s

section Post

variable {Q Q' : α → σ → Prop} {R : β → σ → Prop} {E E' : ε → σ → Prop}

@[simp] lemma post_ok (a : α) (s : σ) : Post Q E (.ok a, s) ↔ Q a s := Iff.rfl

@[simp] lemma post_error (e : ε) (s : σ) : Post Q E (.error e, s) ↔ E e s := Iff.rfl

lemma Post.mono {r : Except ε α × σ} (h : Post Q E r) (hQ : ∀ a s, Q a s → Q' a s)
    (hE : ∀ e s, E e s → E' e s) : Post Q' E' r := by
  obtain ⟨a | a, s⟩ := r
  · exact hE a s h
  · exact hQ a s h

lemma Post.cases {r : Except ε α × σ} (h : Post Q E r) :
    (∃ a s, r = (.ok a, s) ∧ Q a s) ∨ ∃ e s, r = (.error e, s) ∧ E e s := by
  obtain ⟨a | a, s⟩ := r
  · exact Or.inr ⟨a, s, rfl, h⟩
  · exact Or.inl ⟨a, s, rfl, h⟩

lemma Post.and {r : Except ε α × σ} (h : Post Q E r) (h' : Post Q' E' r) :
    Post (fun a s => Q a s ∧ Q' a s) (fun e s => E e s ∧ E' e s) r := by
  obtain ⟨a | a, s⟩ := r
  · exact ⟨h, h'⟩
  · exact ⟨h, h'⟩

lemma post_bind :
    Post R E (outcome (x >>= f) s) ↔ Post (fun a s => Post R E (outcome (f a) s)) E (outcome x s) := by
  rcases hrun : outcome x s with ⟨a | a, s'⟩
  · rw [outcome_bind_error hrun]
    rfl
  · rw [outcome_bind_ok hrun]
    rfl

lemma post_tryCatch {h : ε → ExceptT ε (StateM σ) α} :
    Post Q E (outcome (tryCatch x h) s) ↔
      Post Q (fun e s => Post Q E (outcome (h e) s)) (outcome x s) := by
  rcases hrun : outcome x s with ⟨a | a, s'⟩
  · rw [outcome_tryCatch_error hrun]
    rfl
  · rw [outcome_tryCatch_ok hrun]
    rfl

end Post

/-! ### Parts of a state -/

/-- Run a program on a part of the state, and pass its errors on. -/
def zoom {δ : Type} (part : σ → τ) (put : τ → σ → σ) (lift : ε → δ) (x : ExceptT ε (StateM τ) α) :
    ExceptT δ (StateM σ) α :=
  fun s =>
    match outcome x (part s) with
    | (.ok a, t) => (.ok a, put t s)
    | (.error e, t) => (.error (lift e), put t s)

lemma outcome_zoom_error {δ : Type} {part : σ → τ} {put : τ → σ → σ} {lift : ε → δ}
    {x : ExceptT ε (StateM τ) α} {s : σ} {e : ε} {t : τ} (h : outcome x (part s) = (.error e, t)) :
    outcome (zoom part put lift x) s = (.error (lift e), put t s) := by
  have hrun : outcome (zoom part put lift x) s =
      match outcome x (part s) with
      | (.ok a, t) => (.ok a, put t s)
      | (.error e, t) => (.error (lift e), put t s) := rfl
  rw [hrun, h]

lemma outcome_zoom_ok {δ : Type} {part : σ → τ} {put : τ → σ → σ} {lift : ε → δ}
    {x : ExceptT ε (StateM τ) α} {s : σ} {a : α} {t : τ} (h : outcome x (part s) = (.ok a, t)) :
    outcome (zoom part put lift x) s = (.ok a, put t s) := by
  have hrun : outcome (zoom part put lift x) s =
      match outcome x (part s) with
      | (.ok a, t) => (.ok a, put t s)
      | (.error e, t) => (.error (lift e), put t s) := rfl
  rw [hrun, h]

lemma post_zoom {δ : Type} {part : σ → τ} {put : τ → σ → σ} {lift : ε → δ}
    {x : ExceptT ε (StateM τ) α} {s : σ} {Q : α → σ → Prop} {E : δ → σ → Prop} :
    Post Q E (outcome (zoom part put lift x) s) ↔
      Post (fun a t => Q a (put t s)) (fun e t => E (lift e) (put t s)) (outcome x (part s)) := by
  have hrun : outcome (zoom part put lift x) s =
      match outcome x (part s) with
      | (.ok a, t) => (.ok a, put t s)
      | (.error e, t) => (.error (lift e), put t s) := rfl
  rw [hrun]
  rcases outcome x (part s) with ⟨a | a, t⟩ <;> exact Iff.rfl

/-! ### Triples -/

/-- From a state with `P` the program returns with `Q` or throws with `E`. -/
def Triple (P : σ → Prop) (x : ExceptT ε (StateM σ) α) (Q : α → σ → Prop) (E : ε → σ → Prop) : Prop :=
  ∀ s, P s → Post Q E (outcome x s)

namespace Triple

variable {P P' : σ → Prop} {Q Q' : α → σ → Prop} {R : β → σ → Prop} {E E' : ε → σ → Prop}

lemma bind (hx : Triple P x Q E) (hf : ∀ a, Triple (Q a) (f a) R E) : Triple P (x >>= f) R E := by
  intro s hs
  have hpost := hx s hs
  rw [post_bind]
  rcases hrun : outcome x s with ⟨a | a, s'⟩
  · rw [hrun] at hpost
    exact hpost
  · rw [hrun] at hpost
    exact hf a s' hpost

lemma pure {a : α} (h : ∀ s, P s → Q a s) : Triple P (Pure.pure a) Q E := h

lemma throw {e : ε} (h : ∀ s, P s → E e s) : Triple P (MonadExcept.throw e) Q E := h

lemma modifyGet {g : σ → α × σ} (h : ∀ s, P s → Q (g s).1 (g s).2) :
    Triple P (MonadStateOf.modifyGet g) Q E := h

lemma get {Q : σ → σ → Prop} (h : ∀ s, P s → Q s s) :
    Triple P (MonadState.get : ExceptT ε (StateM σ) σ) Q E := h

lemma mono (hx : Triple P x Q E) (hP : ∀ s, P' s → P s) (hQ : ∀ a s, Q a s → Q' a s)
    (hE : ∀ e s, E e s → E' e s) : Triple P' x Q' E' :=
  fun s hs => (hx s (hP s hs)).mono hQ hE

/-- A fact about the state before may be used to prove a triple. -/
lemma of_pre {p : Prop} (hp : ∀ s, P s → p) (h : p → Triple P x Q E) : Triple P x Q E :=
  fun s hs => h (hp s hs) s hs

lemma ok {a : α} (hx : Triple P x Q E) (hs : P s) (h : outcome x s = (.ok a, s')) : Q a s' := by
  have hpost := hx s hs
  rw [h] at hpost
  exact hpost

lemma error {e : ε} (hx : Triple P x Q E) (hs : P s) (h : outcome x s = (.error e, s')) : E e s' := by
  have hpost := hx s hs
  rw [h] at hpost
  exact hpost

end Triple

/-! ### Values and errors from any state -/

/-- From every state the program returns a value with `Q` or throws an error that is `allowed`. -/
def Yields (allowed : ε → Prop) (Q : α → Prop) (x : ExceptT ε (StateM σ) α) : Prop :=
  ∀ s, Post (fun a _ => Q a) (fun e _ => allowed e) (outcome x s)

namespace Yields

variable {allowed allowed' : ε → Prop} {P Q : α → Prop} {R : β → Prop}

lemma pure {a : α} (h : Q a) : Yields allowed Q (Pure.pure a : ExceptT ε (StateM σ) α) := fun _ => h

lemma throw {e : ε} (h : allowed e) :
    Yields allowed Q (MonadExcept.throw e : ExceptT ε (StateM σ) α) := fun _ => h

lemma modifyGet {g : σ → α × σ} (h : ∀ s, Q (g s).1) :
    Yields allowed Q (MonadStateOf.modifyGet g : ExceptT ε (StateM σ) α) := h

/-- What is true of every program. -/
lemma any (x : ExceptT ε (StateM σ) α) : Yields (fun _ => True) (fun _ => True) x := by
  intro s
  rcases outcome x s with ⟨e | a, s'⟩
  · trivial
  · trivial

lemma bind (hx : Yields allowed P x) (hf : ∀ a, P a → Yields allowed R (f a)) :
    Yields allowed R (x >>= f) := by
  intro s
  rw [post_bind]
  exact (hx s).mono (fun a s' ha => hf a ha s') fun _ _ he => he

lemma tryCatch {h : ε → ExceptT ε (StateM σ) α} (hx : Yields allowed' Q x)
    (hh : ∀ e, allowed' e → Yields allowed Q (h e)) : Yields allowed Q (MonadExcept.tryCatch x h) := by
  intro s
  rw [post_tryCatch]
  exact (hx s).mono (fun _ _ ha => ha) fun e s' he => hh e he s'

lemma of_ok {s : σ} {a : α} (hx : Yields allowed Q x) (h : (outcome x s).1 = .ok a) : Q a := by
  have hpost := hx s
  rcases hout : outcome x s with ⟨r, s'⟩
  rw [hout] at hpost h
  obtain rfl : r = .ok a := h
  exact hpost

end Yields

/-! ### Programs that change a view of the state -/

/-- The view of the state changes as `R` says, whether the program returns or throws. -/
def Moves (view : σ → τ) (R : τ → τ → Prop) (x : ExceptT ε (StateM σ) α) : Prop :=
  ∀ s, Post (fun _ s' => R (view s) (view s')) (fun _ s' => R (view s) (view s')) (outcome x s)

namespace Moves

variable {view : σ → τ} {R R' : τ → τ → Prop}

lemma modify {g : σ → σ} (h : ∀ s, R (view s) (view (g s))) :
    Moves view R (modify g : ExceptT ε (StateM σ) PUnit) := h

/-- The state is read, and what follows depends on it. -/
lemma look {f : σ → ExceptT ε (StateM σ) β} (hf : ∀ s, Moves view R (f s)) :
    Moves view R (MonadState.get >>= f) := by
  intro s
  rw [outcome_bind_ok (outcome_get s)]
  exact hf s s

lemma mono (hx : Moves view R x) (hR : ∀ t t', R t t' → R' t t') : Moves view R' x :=
  fun s => (hx s).mono (fun _ _ h => hR _ _ h) fun _ _ h => hR _ _ h

variable [IsPreorder τ R]

lemma pure (a : α) : Moves view R (Pure.pure a : ExceptT ε (StateM σ) α) := fun s => refl_of R (view s)

lemma throw (e : ε) : Moves view R (MonadExcept.throw e : ExceptT ε (StateM σ) α) :=
  fun s => refl_of R (view s)

lemma bind (hx : Moves view R x) (hf : ∀ a, Moves view R (f a)) : Moves view R (x >>= f) := by
  intro s
  rw [post_bind]
  exact (hx s).mono (fun a s' h => (hf a s').mono (fun _ _ h' => trans_of R h h') fun _ _ h' => trans_of R h h')
    fun _ _ h => h

lemma tryCatch {h : ε → ExceptT ε (StateM σ) α} (hx : Moves view R x) (hh : ∀ e, Moves view R (h e)) :
    Moves view R (MonadExcept.tryCatch x h) := by
  intro s
  rw [post_tryCatch]
  exact (hx s).mono (fun _ _ h => h) fun e s' h =>
    (hh e s').mono (fun _ _ h' => trans_of R h h') fun _ _ h' => trans_of R h h'

end Moves

/-! ### Outcomes up to a view of the state -/

/-- From every state that shows `t` the program ends in `r`, in a state that shows `t'`. -/
def Ends (view : σ → τ) (t : τ) (x : ExceptT ε (StateM σ) α) (r : Except ε α) (t' : τ) : Prop :=
  ∀ s, view s = t → ∃ s', outcome x s = (r, s') ∧ view s' = t'

namespace Ends

variable {view : σ → τ} {t t' t'' : τ} {r : Except ε α}

lemma pure (a : α) : Ends view t (Pure.pure a : ExceptT ε (StateM σ) α) (.ok a) t :=
  fun s hs => ⟨s, rfl, hs⟩

lemma throw (e : ε) : Ends view t (MonadExcept.throw e : ExceptT ε (StateM σ) α) (.error e) t :=
  fun s hs => ⟨s, rfl, hs⟩

lemma bind_ok {a : α} {r : Except ε β} (hx : Ends view t x (.ok a) t')
    (hf : Ends view t' (f a) r t'') : Ends view t (x >>= f) r t'' := by
  intro s hs
  obtain ⟨s', hrun, hs'⟩ := hx s hs
  obtain ⟨s'', hrun', hs''⟩ := hf s' hs'
  refine ⟨s'', ?_, hs''⟩
  rw [outcome_bind_ok hrun, hrun']

lemma bind_error {e : ε} (hx : Ends view t x (.error e) t') :
    Ends view t (x >>= f) (.error e) t' := by
  intro s hs
  obtain ⟨s', hrun, hs'⟩ := hx s hs
  exact ⟨s', outcome_bind_error hrun, hs'⟩

lemma tryCatch_ok {a : α} {h : ε → ExceptT ε (StateM σ) α} (hx : Ends view t x (.ok a) t') :
    Ends view t (MonadExcept.tryCatch x h) (.ok a) t' := by
  intro s hs
  obtain ⟨s', hrun, hs'⟩ := hx s hs
  exact ⟨s', outcome_tryCatch_ok hrun, hs'⟩

lemma tryCatch_error {e : ε} {h : ε → ExceptT ε (StateM σ) α} (hx : Ends view t x (.error e) t')
    (hh : Ends view t' (h e) r t'') : Ends view t (MonadExcept.tryCatch x h) r t'' := by
  intro s hs
  obtain ⟨s', hrun, hs'⟩ := hx s hs
  obtain ⟨s'', hrun', hs''⟩ := hh s' hs'
  refine ⟨s'', ?_, hs''⟩
  rw [outcome_tryCatch_error hrun, hrun']

/-- A program ends in one way only. -/
lemma unique {r' : Except ε α} (h : Ends view t x r t') (h' : Ends view t x r' t'')
    (hs : view s = t) : r = r' ∧ t' = t'' := by
  obtain ⟨s', hrun, hview⟩ := h s hs
  obtain ⟨s'', hrun', hview'⟩ := h' s hs
  rw [hrun] at hrun'
  obtain ⟨hr, hstate⟩ := Prod.mk.inj hrun'
  rw [← hview, ← hview', hstate]
  exact ⟨hr, rfl⟩

end Ends

/-! ### Programs that ignore a part of the state -/

/-- The program does the same after the change `g` of the state, and keeps the change. -/
def Ignores (g : σ → σ) (x : ExceptT ε (StateM σ) α) : Prop :=
  ∀ s, outcome x (g s) = ((outcome x s).1, g (outcome x s).2)

namespace Ignores

variable {g : σ → σ}

lemma pure (a : α) : Ignores g (Pure.pure a : ExceptT ε (StateM σ) α) := fun _ => rfl

lemma throw (e : ε) : Ignores g (MonadExcept.throw e : ExceptT ε (StateM σ) α) := fun _ => rfl

lemma modifyGet {h : σ → α × σ} (hh : ∀ s, h (g s) = ((h s).1, g (h s).2)) :
    Ignores g (MonadStateOf.modifyGet h : ExceptT ε (StateM σ) α) := by
  intro s
  exact congrArg (fun r : α × σ => ((.ok r.1, r.2) : Except ε α × σ)) (hh s)

lemma bind (hx : Ignores g x) (hf : ∀ a, Ignores g (f a)) : Ignores g (x >>= f) := by
  intro s
  have hsame := hx s
  rcases hrun : outcome x s with ⟨e | a, s'⟩
  · rw [hrun] at hsame
    rw [outcome_bind_error hsame, outcome_bind_error hrun]
  · rw [hrun] at hsame
    rw [outcome_bind_ok hsame, outcome_bind_ok hrun]
    exact hf a s'

/-- The state is read, and what follows does not depend on what is ignored. -/
lemma look {f : σ → ExceptT ε (StateM σ) β} (hf : ∀ s, Ignores g (f s)) (hsame : ∀ s, f (g s) = f s) :
    Ignores g (MonadState.get >>= f) := by
  intro s
  rw [outcome_bind_ok (outcome_get s), outcome_bind_ok (outcome_get (g s)), hsame]
  exact hf s s

lemma tryCatch {h : ε → ExceptT ε (StateM σ) α} (hx : Ignores g x) (hh : ∀ e, Ignores g (h e)) :
    Ignores g (MonadExcept.tryCatch x h) := by
  intro s
  have hsame := hx s
  rcases hrun : outcome x s with ⟨e | a, s'⟩
  · rw [hrun] at hsame
    rw [outcome_tryCatch_error hsame, outcome_tryCatch_error hrun]
    exact hh e s'
  · rw [hrun] at hsame
    rw [outcome_tryCatch_ok hsame, outcome_tryCatch_ok hrun]

end Ignores

end Action
