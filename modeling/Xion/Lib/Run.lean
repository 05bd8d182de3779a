import Mathlib.Logic.Basic

/-!
# Transactions and runs

A message handler reads and writes a store and may fail. Its effect is a function
`f : σ → Except ε σ`; a failing message leaves the store as it was, since its writes go to a
cache that is discarded (`commit`). A run is a list of messages applied one after another
(`exec`).

`commit_inv` and `exec_inv` are the invariant rules: a property that every successful message keeps
holds after any failed or successful message, and then after any run. `bind_eq_ok` peels a
successful `do` block into its steps (and `bind_eq_error` a failed one), so that a proof never
unfolds a handler twice, and `bind_congr_ok` compares two blocks that differ only after a step
succeeds; a sequence of checks written with `failIf` passes exactly when each check does
(`bind_const_eq_ok`, `failIf_eq_ok`, and `forM_eq_ok` for a loop of checks); `foldlM_inv` is the
invariant rule of a fallible loop, and `foldlM_mem_ok` says that each element passed a step. `exec_inv_of_allowed` is the invariant rule of runs whose
messages a guard allows, and `exec_stable_or` says that a property only a kind of message breaks
survives a run without one.
-/

namespace Run

variable {σ α ε β γ : Type}

/-! ## Sequencing fallible steps -/

/-- A step that `isOk` reports as successful returns a value. -/
theorem exists_ok_of_isOk {x : Except ε β} (h : x.isOk = true) : ∃ b, x = .ok b := by
  cases x with
  | error e => cases h
  | ok b => exact ⟨b, rfl⟩

/-- A step that returns no value fails. -/
theorem exists_error_of_ne_ok {x : Except ε β} (h : ∀ b, x ≠ .ok b) : ∃ e, x = .error e := by
  cases x with
  | error e => exact ⟨e, rfl⟩
  | ok b => exact absurd rfl (h b)

/-- A successful bind is a successful first step followed by a successful second step. -/
theorem bind_eq_ok {x : Except ε β} {f : β → Except ε γ} {c : γ} :
    x >>= f = .ok c ↔ ∃ b, x = .ok b ∧ f b = .ok c := by
  cases x with
  | error e => simp [bind, Except.bind]
  | ok b => simp [bind, Except.bind]

/-- A failed bind is a failed first step, or a successful first step followed by a failed
second step. -/
theorem bind_eq_error {x : Except ε β} {f : β → Except ε γ} {e : ε} :
    x >>= f = .error e ↔ x = .error e ∨ ∃ b, x = .ok b ∧ f b = .error e := by
  cases x <;> simp [bind, Except.bind]

/-- A bind whose first step succeeds is its second step. -/
theorem bind_of_ok {x : Except ε β} {f : β → Except ε γ} {b : β} (h : x = .ok b) :
    x >>= f = f b := by
  subst h
  rfl

@[simp]
theorem pure_eq_ok {b c : β} : (pure b : Except ε β) = .ok c ↔ b = c := by
  simp [pure, Except.pure]

@[simp]
theorem mapError_ok {ε' : Type} (f : ε → ε') (b : β) :
    (Except.ok b : Except ε β).mapError f = .ok b := rfl

@[simp]
theorem mapError_error {ε' : Type} (f : ε → ε') (e : ε) :
    (Except.error e : Except ε β).mapError f = .error (f e) := rfl

/-- Renaming a step's errors does not change what it returns on success. -/
@[simp]
theorem mapError_eq_ok {ε' : Type} {f : ε → ε'} {x : Except ε β} {b : β} :
    x.mapError f = .ok b ↔ x = .ok b := by
  cases x <;> simp

/-- A step fails with a renamed error exactly when it fails with an error of that name. -/
theorem mapError_eq_error {ε' : Type} {f : ε → ε'} {x : Except ε β} {e' : ε'} :
    x.mapError f = .error e' ↔ ∃ e, x = .error e ∧ f e = e' := by
  cases x <;> simp

/-- A bind avoids the error `e` when its first step does and its second step does after every
result of the first. -/
theorem bind_ne_error {x : Except ε β} {f : β → Except ε γ} {e : ε} (hx : x ≠ .error e)
    (hf : ∀ b, x = .ok b → f b ≠ .error e) : x >>= f ≠ .error e := by
  rw [Ne, bind_eq_error]
  rintro (h | ⟨b, hb, h⟩)
  · exact hx h
  · exact hf b hb h

/-- Two continuations that agree after every success of the first step give the same bind. -/
theorem bind_congr_ok {x : Except ε β} {f g : β → Except ε γ} (h : ∀ b, x = .ok b → f b = g b) :
    x >>= f = x >>= g := by
  cases x with
  | error e => rfl
  | ok b => exact h b rfl

/-- A successful bind after a check is a passed check followed by a successful second step. -/
theorem bind_const_eq_ok {x : Except ε Unit} {y : Except ε γ} {c : γ} :
    (x >>= fun _ => y) = .ok c ↔ x = .ok () ∧ y = .ok c := by
  cases x <;> simp [bind, Except.bind]

/-- The value of a successful check is `()`, so a bind through it needs no witness. -/
@[simp]
theorem exists_unit {p : Unit → Prop} : (∃ u, p u) ↔ p () :=
  ⟨fun ⟨(), h⟩ => h, fun h => ⟨(), h⟩⟩

/-- Go's `if cond { return err }`: fail with `e` when `c` holds. -/
def failIf (c : Prop) [Decidable c] (e : ε) : Except ε Unit := if c then .error e else .ok ()

@[simp]
theorem failIf_eq_ok {c : Prop} [Decidable c] {e : ε} : failIf c e = .ok () ↔ ¬c := by
  by_cases h : c <;> simp [failIf, h]

@[simp]
theorem failIf_eq_error {c : Prop} [Decidable c] {e e' : ε} :
    failIf c e = .error e' ↔ c ∧ e = e' := by
  by_cases h : c <;> simp [failIf, h]

/-- A check fails with its own error only. -/
theorem failIf_ne_error {c : Prop} [Decidable c] {e e' : ε} (h : e ≠ e') :
    failIf c e ≠ .error e' :=
  fun hc => h (failIf_eq_error.1 hc).2

/-- A value guarded by a failing condition. -/
theorem ite_error_eq_ok {c : Prop} [Decidable c] {e : ε} {b b' : β} :
    (if c then .error e else .ok b : Except ε β) = .ok b' ↔ ¬c ∧ b' = b := by
  by_cases h : c <;> simp [h, eq_comm]

/-- Go's `v, found := get(k); if !found { return err }`: the value, or `e` when there is none. -/
def ofOption (o : Option β) (e : ε) : Except ε β :=
  match o with
  | some b => .ok b
  | none => .error e

@[simp]
theorem ofOption_some {b : β} {e : ε} : ofOption (some b) e = .ok b := rfl

@[simp]
theorem ofOption_eq_ok {o : Option β} {e : ε} {b : β} : ofOption o e = .ok b ↔ o = some b := by
  cases o <;> simp [ofOption]

/-- Go's `if err := f(); err != nil { return errors.Wrap(e, ...) }`: a failure is reported as
`e`. -/
def wrapError (e : ε) (x : Except ε β) : Except ε β :=
  match x with
  | .ok b => .ok b
  | .error _ => .error e

@[simp]
theorem wrapError_eq_ok {e : ε} {x : Except ε β} {b : β} : wrapError e x = .ok b ↔ x = .ok b := by
  cases x <;> simp [wrapError]

/-! ## Loops -/

/-- A loop of checks passes exactly when every check passes. -/
theorem forM_eq_ok {l : List β} {f : β → Except ε Unit} :
    l.forM f = .ok () ↔ ∀ x ∈ l, f x = .ok () := by
  induction l with
  | nil => exact iff_of_true rfl (fun _ hx => absurd hx List.not_mem_nil)
  | cons x xs ih =>
    rw [List.forall_mem_cons, ← ih]
    exact bind_const_eq_ok

/-- Go's `for i, x := range l` over a body that may fail: the body on each element with its
index, in order, up to the first failure. -/
def forRange (l : List β) (f : β → Nat → Except ε Unit) : Except ε Unit :=
  l.zipIdx.forM fun x => f x.1 x.2

/-- The invariant rule of a fallible fold: a property that every successful step keeps holds at
the end of a successful loop. -/
theorem foldlM_inv {I : σ → Prop} {f : σ → β → Except ε σ} :
    ∀ {l : List β} {s s' : σ}, (∀ t x t', x ∈ l → I t → f t x = .ok t' → I t') → I s →
      l.foldlM f s = .ok s' → I s'
  | [], s, s', _, hs, h => by
    rw [List.foldlM_nil] at h
    cases h
    exact hs
  | x :: xs, s, s', hstep, hs, h => by
    rw [List.foldlM_cons, bind_eq_ok] at h
    obtain ⟨t, ht, hrest⟩ := h
    exact foldlM_inv (fun t y t' hy => hstep t y t' (List.mem_cons_of_mem x hy))
      (hstep s x t List.mem_cons_self hs ht) hrest

/-- Every element of a successful fallible fold passed a step of it. -/
theorem foldlM_mem_ok {f : σ → β → Except ε σ} :
    ∀ {l : List β} {s s' : σ}, l.foldlM f s = .ok s' → ∀ x ∈ l, ∃ t t', f t x = .ok t'
  | [], _, _, _, x, hx => absurd hx List.not_mem_nil
  | y :: ys, s, s', h, x, hx => by
    rw [List.foldlM_cons, bind_eq_ok] at h
    obtain ⟨t, ht, hrest⟩ := h
    rcases List.mem_cons.1 hx with rfl | hx'
    · exact ⟨s, t, ht⟩
    · exact foldlM_mem_ok hrest x hx'

/-- Every element of a successful `mapM` is the image of an element of the input. -/
theorem mem_of_mapM_eq_ok {f : β → Except ε γ} :
    ∀ {l : List β} {l' : List γ}, l.mapM f = .ok l' → ∀ y ∈ l', ∃ x ∈ l, f x = .ok y
  | [], l', h => by
    rw [List.mapM_nil] at h
    cases h
    simp
  | x :: xs, l', h => by
    rw [List.mapM_cons, bind_eq_ok] at h
    obtain ⟨y, hy, h⟩ := h
    obtain ⟨ys, hys, h⟩ := bind_eq_ok.1 h
    cases h
    intro z hz
    rcases List.mem_cons.1 hz with rfl | hz
    · exact ⟨x, List.mem_cons_self, hy⟩
    · obtain ⟨w, hw, hfw⟩ := mem_of_mapM_eq_ok hys z hz
      exact ⟨w, List.mem_cons_of_mem x hw, hfw⟩

/-- Every step of a successful `mapM` succeeds. -/
theorem ok_of_mapM_eq_ok {f : β → Except ε γ} :
    ∀ {l : List β} {l' : List γ}, l.mapM f = .ok l' → ∀ x ∈ l, ∃ y, f x = .ok y
  | [], _, _ => fun _ hx => absurd hx List.not_mem_nil
  | x :: xs, l', h => by
    rw [List.mapM_cons, bind_eq_ok] at h
    obtain ⟨y, hy, h⟩ := h
    obtain ⟨ys, hys, -⟩ := bind_eq_ok.1 h
    intro z hz
    rcases List.mem_cons.1 hz with rfl | hz
    · exact ⟨y, hy⟩
    · exact ok_of_mapM_eq_ok hys z hz

/-- A `mapM` whose every call succeeds returns the images. -/
theorem mapM_eq_ok_of {f : β → Except ε γ} {g : β → γ} :
    ∀ {l : List β}, (∀ x ∈ l, f x = .ok (g x)) → l.mapM f = .ok (l.map g)
  | [], _ => rfl
  | x :: xs, h => by
    rw [List.mapM_cons, h x List.mem_cons_self, bind_of_ok rfl,
      mapM_eq_ok_of fun y hy => h y (List.mem_cons_of_mem x hy), bind_of_ok rfl]
    rfl

/-- A `mapM` fails with the error of its first call that fails. -/
theorem mapM_eq_error_of {f : β → Except ε γ} {g : β → γ} {x : β} {e : ε} (l₂ : List β)
    (hx : f x = .error e) : ∀ {l₁ : List β}, (∀ y ∈ l₁, f y = .ok (g y)) →
      (l₁ ++ x :: l₂).mapM f = .error e
  | [], _ => by
    rw [List.nil_append, List.mapM_cons, hx]
    rfl
  | y :: ys, h => by
    rw [List.cons_append, List.mapM_cons, h y List.mem_cons_self, bind_of_ok rfl,
      mapM_eq_error_of l₂ hx fun z hz => h z (List.mem_cons_of_mem y hz)]
    rfl

/-! ## Transactions -/

/-- The state after a message: the handler's new state when it succeeds, and the old state when
it fails. -/
def commit (f : σ → Except ε σ) (s : σ) : σ :=
  match f s with
  | .ok s' => s'
  | .error _ => s

/-- The state after a message is the old one or one that the handler returned. -/
theorem commit_cases (f : σ → Except ε σ) (s : σ) :
    commit f s = s ∨ f s = .ok (commit f s) := by
  unfold commit
  cases f s with
  | ok s' => exact .inr rfl
  | error e => exact .inl rfl

/-- A property that every successful message keeps holds after any message. -/
theorem commit_inv {I : σ → Prop} {f : σ → Except ε σ} {s : σ} (hs : I s)
    (h : ∀ s', f s = .ok s' → I s') : I (commit f s) := by
  rcases commit_cases f s with he | he
  · rw [he]
    exact hs
  · exact h _ he

/-- A relation that every successful message establishes between its old and new state, and
that holds between a state and itself, holds across any message. -/
theorem commit_rel {R : σ → σ → Prop} {f : σ → Except ε σ} {s : σ} (hrefl : R s s)
    (h : ∀ s', f s = .ok s' → R s s') : R s (commit f s) :=
  commit_inv (I := R s) hrefl h

/-! ## Runs -/

/-- The state after delivering the messages `ms` in order from `s`. -/
def exec (step : σ → α → σ) (s : σ) (ms : List α) : σ := ms.foldl step s

@[simp]
theorem exec_nil (step : σ → α → σ) (s : σ) : exec step s [] = s := rfl

@[simp]
theorem exec_cons (step : σ → α → σ) (s : σ) (m : α) (ms : List α) :
    exec step s (m :: ms) = exec step (step s m) ms := rfl

/-- An invariant of every step holds after every run. -/
theorem exec_inv {I : σ → Prop} {step : σ → α → σ} (hstep : ∀ s m, I s → I (step s m)) :
    ∀ {s : σ} (ms : List α), I s → I (exec step s ms)
  | _, [], hs => hs
  | _, m :: ms, hs => exec_inv hstep ms (hstep _ m hs)

/-- Every message of the run is one that `G` allows in the state it is delivered in. -/
def Allowed (G : σ → α → Prop) (step : σ → α → σ) : σ → List α → Prop
  | _, [] => True
  | s, m :: ms => G s m ∧ Allowed G step (step s m) ms

/-- A run that `G` allows and whose messages all satisfy `H` is one that both allow. -/
theorem Allowed.and_forall {G : σ → α → Prop} {H : α → Prop} {step : σ → α → σ} :
    ∀ {s : σ} {ms : List α}, Allowed G step s ms → (∀ m ∈ ms, H m) →
      Allowed (fun s m => G s m ∧ H m) step s ms
  | _, [], _, _ => trivial
  | _, m :: _, ⟨hm, hms⟩, hH =>
    ⟨⟨hm, hH m List.mem_cons_self⟩, hms.and_forall fun m' hm' => hH m' (List.mem_cons_of_mem m hm')⟩

/-- An invariant that every allowed step keeps holds after every allowed run. -/
theorem exec_inv_of_allowed {I : σ → Prop} {G : σ → α → Prop} {step : σ → α → σ}
    (hstep : ∀ s m, I s → G s m → I (step s m)) :
    ∀ {s : σ} (ms : List α), Allowed G step s ms → I s → I (exec step s ms)
  | _, [], _, hs => hs
  | s, m :: ms, ⟨hm, hms⟩, hs => exec_inv_of_allowed hstep ms hms (hstep s m hs hm)

/-- A property that each step keeps unless the message is of the kind `Q` still holds after a run
that delivers no message of that kind. -/
theorem exec_stable_or {P : σ → Prop} {Q : α → Prop} {step : σ → α → σ}
    (hstep : ∀ s m, P s → P (step s m) ∨ Q m) :
    ∀ {s : σ} (ms : List α), P s → P (exec step s ms) ∨ ∃ m ∈ ms, Q m
  | _, [], hs => .inl hs
  | s, m :: ms, hs => by
    rcases hstep s m hs with hm | hq
    · rcases exec_stable_or hstep ms hm with h | ⟨m', hm', hq⟩
      · exact .inl h
      · exact .inr ⟨m', List.mem_cons_of_mem m hm', hq⟩
    · exact .inr ⟨m, List.mem_cons_self, hq⟩

/-- `exec_stable_or` over the runs whose messages a guard allows. -/
theorem exec_stable_or_of_allowed {P : σ → Prop} {Q : α → Prop} {G : σ → α → Prop}
    {step : σ → α → σ} (hstep : ∀ s m, P s → G s m → P (step s m) ∨ Q m) :
    ∀ {s : σ} (ms : List α), Allowed G step s ms → P s → P (exec step s ms) ∨ ∃ m ∈ ms, Q m
  | _, [], _, hs => .inl hs
  | s, m :: ms, ⟨hm, hms⟩, hs => by
    rcases hstep s m hs hm with hm' | hq
    · rcases exec_stable_or_of_allowed hstep ms hms hm' with h | ⟨m', hm', hq⟩
      · exact .inl h
      · exact .inr ⟨m', List.mem_cons_of_mem m hm', hq⟩
    · exact .inr ⟨m, List.mem_cons_self, hq⟩

/-- A reflexive and transitive relation that every step establishes holds between the start and
the end of every run. -/
theorem exec_rel {R : σ → σ → Prop} {step : σ → α → σ} (hrefl : ∀ s, R s s)
    (htrans : ∀ s₁ s₂ s₃, R s₁ s₂ → R s₂ s₃ → R s₁ s₃) (hstep : ∀ s m, R s (step s m)) :
    ∀ (s : σ) (ms : List α), R s (exec step s ms)
  | s, [] => hrefl s
  | s, m :: ms => htrans _ _ _ (hstep s m) (exec_rel hrefl htrans hstep (step s m) ms)

end Run
