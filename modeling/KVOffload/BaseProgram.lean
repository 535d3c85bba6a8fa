import Mathlib.Order.Defs.Unbundled
import Mathlib.Tactic.TypeStar
import Mathlib.Tactic.Basic

/-! Imperative programs over one mutable state that may raise. A raise keeps every write made
before it, so the state is returned next to the outcome and not inside it. `wp` is the weakest
precondition of a program for a postcondition on return and one on raise; its rules rewrite a
program into the condition on its start state, one construct at a time. `Moves` says the same of a
preorder on states: what every step of a program respects, the program respects. `run` and `Along` are the
same for sequences of operations: what one step keeps, a whole run keeps. -/

namespace KVOffload.Base

/-- A program over states `σ` that returns an `α` or raises an `ε`. -/
def Eff (σ ε α : Type) : Type := σ → Except ε α × σ

namespace Eff

variable {σ τ ε α β ι : Type}

def andThen (m : Eff σ ε α) (k : α → Eff σ ε β) : Eff σ ε β := fun s =>
  match m s with
  | (.ok a, s') => k a s'
  | (.error e, s') => (.error e, s')

instance : Monad (Eff σ ε) where
  pure a := fun s => (.ok a, s)
  bind := andThen

def raise (e : ε) : Eff σ ε α := fun s => (.error e, s)

def read : Eff σ ε σ := fun s => (.ok s, s)

def modify (f : σ → σ) : Eff σ ε Unit := fun s => (.ok (), f s)

/-- `try: m` with `except e: handler e`; the writes of `m` stay. -/
def attempt (m : Eff σ ε α) (handler : ε → Eff σ ε α) : Eff σ ε α := fun s =>
  match m s with
  | (.ok a, s') => (.ok a, s')
  | (.error e, s') => handler e s'

def forEach : List ι → (ι → Eff σ ε Unit) → Eff σ ε Unit
  | [], _ => pure ()
  | x :: rest, body => do
      body x
      forEach rest body

/-- A program on a component of the state, run inside the whole state. -/
def zoom (view : τ → σ) (put : τ → σ → τ) (m : Eff σ ε α) : Eff τ ε α := fun t =>
  ((m (view t)).1, put t (m (view t)).2)

/-- The start states from which `m` returns into `Q` or raises into `E`. -/
def wp (m : Eff σ ε α) (Q : α → σ → Prop) (E : ε → σ → Prop) (s : σ) : Prop :=
  match m s with
  | (.ok a, s') => Q a s'
  | (.error e, s') => E e s'

section Rules

variable {Q Q' : α → σ → Prop} {E E' : ε → σ → Prop} {s : σ}

@[simp] theorem wp_pure (a : α) : wp (pure a : Eff σ ε α) Q E s ↔ Q a s := Iff.rfl

@[simp] theorem wp_read {Q : σ → σ → Prop} : wp (read : Eff σ ε σ) Q E s ↔ Q s s := Iff.rfl

@[simp] theorem wp_modify (f : σ → σ) {Q : Unit → σ → Prop} :
    wp (modify f : Eff σ ε Unit) Q E s ↔ Q () (f s) := Iff.rfl

@[simp] theorem wp_bind (m : Eff σ ε β) (k : β → Eff σ ε α) :
    wp (m >>= k) Q E s ↔ wp m (fun b s' => wp (k b) Q E s') E s := by
  change wp (andThen m k) Q E s ↔ _
  unfold wp andThen
  rcases m s with ⟨_ | _, s'⟩ <;> rfl

@[simp] theorem wp_map (f : β → α) (m : Eff σ ε β) : wp (f <$> m) Q E s ↔ wp m (fun b s' => Q (f b) s') E s :=
  wp_bind m (fun b => pure (f b))

@[simp] theorem wp_attempt (m : Eff σ ε α) (handler : ε → Eff σ ε α) :
    wp (attempt m handler) Q E s ↔ wp m Q (fun e s' => wp (handler e) Q E s') s := by
  unfold wp attempt
  rcases m s with ⟨_ | _, s'⟩ <;> rfl

@[simp] theorem wp_zoom (view : τ → σ) (put : τ → σ → τ) (m : Eff σ ε α) {Q : α → τ → Prop}
    {E : ε → τ → Prop} {t : τ} :
    wp (zoom view put m) Q E t ↔
      wp m (fun a s' => Q a (put t s')) (fun e s' => E e (put t s')) (view t) := by
  unfold wp zoom
  rcases m (view t) with ⟨_ | _, s'⟩ <;> rfl

theorem wp_ite (c : Prop) [Decidable c] (m n : Eff σ ε α) :
    wp (if c then m else n) Q E s ↔ (c → wp m Q E s) ∧ (¬c → wp n Q E s) := by
  by_cases h : c <;> simp [h]

theorem wp_mono {m : Eff σ ε α} (h : wp m Q E s) (hQ : ∀ a s', Q a s' → Q' a s')
    (hE : ∀ e s', E e s' → E' e s') : wp m Q' E' s := by
  unfold wp at *
  rcases hm : m s with ⟨_ | _, s'⟩ <;> rw [hm] at h
  · exact hE _ _ h
  · exact hQ _ _ h

theorem wp_and {m : Eff σ ε α} (h : wp m Q E s) (h' : wp m Q' E' s) :
    wp m (fun a s' => Q a s' ∧ Q' a s') (fun e s' => E e s' ∧ E' e s') s := by
  unfold wp at *
  rcases hm : m s with ⟨_ | _, s'⟩ <;> rw [hm] at h h'
  · exact ⟨h, h'⟩
  · exact ⟨h, h'⟩

theorem wp_run {m : Eff σ ε α} (h : wp m Q E s) : wp m (fun a s' => m s = (.ok a, s') ∧ Q a s') E s := by
  unfold wp at *
  rcases hm : m s with ⟨_ | _, s'⟩ <;> rw [hm] at h
  · exact h
  · exact ⟨rfl, h⟩

theorem wp_of_eq {m m' : Eff σ ε α} (h : m s = m' s) (hwp : wp m' Q E s) : wp m Q E s := by
  unfold wp at *
  rwa [h]

theorem wp_of_ok {m : Eff σ ε α} {a : α} {s' : σ} (h : m s = (.ok a, s')) (hQ : Q a s') : wp m Q E s := by
  unfold wp
  rwa [h]

theorem of_wp {m : Eff σ ε α} (h : wp m Q E s) {a : α} {s' : σ} (hm : m s = (.ok a, s')) : Q a s' := by
  unfold wp at h
  rwa [hm] at h

theorem exists_of_wp {m : Eff σ ε α} (h : wp m Q (fun _ _ => False) s) : ∃ a s', m s = (.ok a, s') ∧ Q a s' := by
  unfold wp at h
  rcases hm : m s with ⟨_ | a, s'⟩ <;> rw [hm] at h
  · exact h.elim
  · exact ⟨a, s', rfl, h⟩

theorem exists_of_toOption {m : Eff σ ε α} {p : α → Bool} (h : (m s).1.toOption.any p = true) :
    ∃ a s', m s = (.ok a, s') ∧ p a = true := by
  rcases hm : m s with ⟨_ | a, s'⟩ <;> rw [hm] at h
  · cases h
  · exact ⟨a, s', rfl, h⟩

/-- The loop rule for an invariant that speaks about the elements already handled. -/
theorem wp_forEach_done {I : List ι → σ → Prop} {xs : List ι} {body : ι → Eff σ ε Unit} (hs : I [] s)
    (hbody : ∀ done x rest, xs = done ++ x :: rest → ∀ s, I done s → wp (body x) (fun _ => I (done ++ [x])) E s) :
    wp (forEach xs body) (fun _ => I xs) E s := by
  suffices hloop : ∀ rest done s, xs = done ++ rest → I done s → wp (forEach rest body) (fun _ => I xs) E s from
    hloop xs [] s rfl hs
  intro rest
  induction rest with
  | nil =>
      intro done s hsplit hdone
      rw [List.append_nil] at hsplit
      rw [hsplit]
      exact hdone
  | cons x rest ih =>
      intro done s hsplit hdone
      rw [forEach, wp_bind]
      refine wp_mono (hbody done x rest hsplit s hdone) (fun _ s' hs' => ?_) (fun _ _ h => h)
      exact ih (done ++ [x]) s' (by rw [hsplit, List.append_assoc]; rfl) hs'

/-- The invariant rule for loops. -/
theorem wp_forEach {I : σ → Prop} {xs : List ι} {body : ι → Eff σ ε Unit} (hs : I s)
    (hbody : ∀ x ∈ xs, ∀ s, I s → wp (body x) (fun _ => I) E s) :
    wp (forEach xs body) (fun _ => I) E s := by
  refine wp_forEach_done (I := fun _ => I) hs fun done x rest hsplit s' hs' => hbody x ?_ s' hs'
  rw [hsplit]
  exact List.mem_append_right done List.mem_cons_self

end Rules

/-- A condition on the final state alone, however the program ends. -/
theorem wp_result {R : Except ε α × σ → Prop} {m : Eff σ ε α} {s : σ} :
    wp m (fun a s' => R (.ok a, s')) (fun e s' => R (.error e, s')) s ↔ R (m s) := by
  unfold wp
  rcases m s with ⟨_ | _, s'⟩ <;> exact Iff.rfl

theorem wp_final {P : σ → Prop} {m : Eff σ ε α} {s : σ} : wp m (fun _ => P) (fun _ => P) s ↔ P (m s).2 := by
  unfold wp
  rcases m s with ⟨_ | _, s'⟩ <;> rfl

/-- However `m` ends, it takes the state along `R`. -/
def Moves (R : σ → σ → Prop) (m : Eff σ ε α) : Prop := ∀ s, R s (m s).2

section Moves

variable {R : σ → σ → Prop}

theorem moves_ite {c : Prop} [Decidable c] {m n : Eff σ ε α} (hm : Moves R m) (hn : Moves R n) :
    Moves R (if c then m else n) := by
  by_cases h : c
  · rwa [if_pos h]
  · rwa [if_neg h]

theorem Moves.zoom {R' : τ → τ → Prop} {view : τ → σ} {put : τ → σ → τ} {m : Eff σ ε α} (hm : Moves R m)
    (hput : ∀ t s', R (view t) s' → R' t (put t s')) : Moves R' (zoom view put m) := by
  intro t
  exact hput t _ (hm (view t))

theorem Moves.wp_and {m : Eff σ ε α} {Q : α → σ → Prop} {E : ε → σ → Prop} {s : σ} (hm : Moves R m) (h : wp m Q E s) :
    wp m (fun a s' => Q a s' ∧ R s s') (fun e s' => E e s' ∧ R s s') s :=
  Eff.wp_and h (wp_final.mpr (hm s))

variable [IsPreorder σ R]

theorem Moves.of_eq {m : Eff σ ε α} (h : ∀ s, (m s).2 = s) : Moves R m := by
  intro s
  rw [h]
  exact refl s

theorem moves_pure (a : α) : Moves R (pure a : Eff σ ε α) := .of_eq fun _ => rfl

theorem moves_raise (e : ε) : Moves R (raise e : Eff σ ε α) := .of_eq fun _ => rfl

theorem moves_read : Moves R (read : Eff σ ε σ) := .of_eq fun _ => rfl

theorem Moves.bind {m : Eff σ ε β} {k : β → Eff σ ε α} (hm : Moves R m) (hk : ∀ b, Moves R (k b)) :
    Moves R (m >>= k) := by
  intro s
  have hstart := hm s
  change R s (andThen m k s).2
  unfold andThen
  rcases hrun : m s with ⟨_ | b, s'⟩ <;> rw [hrun] at hstart
  · exact hstart
  · exact IsTrans.trans _ _ _ hstart (hk b s')

theorem Moves.map {m : Eff σ ε β} (f : β → α) (hm : Moves R m) : Moves R (f <$> m) :=
  hm.bind fun b => moves_pure (f b)

theorem Moves.attempt {m : Eff σ ε α} {handler : ε → Eff σ ε α} (hm : Moves R m) (hhandler : ∀ e, Moves R (handler e)) :
    Moves R (attempt m handler) := by
  intro s
  have hstart := hm s
  unfold Eff.attempt
  rcases hrun : m s with ⟨e | _, s'⟩ <;> rw [hrun] at hstart
  · exact IsTrans.trans _ _ _ hstart (hhandler e s')
  · exact hstart

theorem moves_forEach {xs : List ι} {body : ι → Eff σ ε Unit} (hbody : ∀ x, Moves R (body x)) :
    Moves R (forEach xs body) := by
  induction xs with
  | nil => exact moves_pure ()
  | cons x rest ih => exact (hbody x).bind fun _ => ih

end Moves

end Eff

/-- A traversal whose steps all succeed. -/
theorem mapM_eq_ok {ε α β : Type} {f : α → Except ε β} {g : α → β} {xs : List α} (h : ∀ x ∈ xs, f x = .ok (g x)) :
    xs.mapM f = .ok (xs.map g) := by
  induction xs with
  | nil => rfl
  | cons x rest ih =>
      rw [List.mapM_cons, h x List.mem_cons_self, ih fun y hy => h y (List.mem_cons_of_mem x hy)]
      rfl

section Runs

variable {σ ω : Type} {step : σ → ω → σ}

def run (step : σ → ω → σ) (s : σ) (ops : List ω) : σ := ops.foldl step s

/-- Every operation of the run meets `P` in the state it starts from. -/
def Along (step : σ → ω → σ) (P : σ → ω → Prop) : σ → List ω → Prop
  | _, [] => True
  | s, op :: rest => P s op ∧ Along step P (step s op) rest

instance Along.decidable (step : σ → ω → σ) (P : σ → ω → Prop) [∀ s op, Decidable (P s op)] :
    ∀ (ops : List ω) (s : σ), Decidable (Along step P s ops)
  | [], _ => inferInstanceAs (Decidable True)
  | _ :: rest, s => @instDecidableAnd _ _ _ (Along.decidable step P rest (step s _))

@[simp] theorem run_nil (s : σ) : run step s [] = s := rfl

@[simp] theorem run_cons (s : σ) (op : ω) (rest : List ω) :
    run step s (op :: rest) = run step (step s op) rest := rfl

theorem run_append (s : σ) (ops rest : List ω) : run step s (ops ++ rest) = run step (run step s ops) rest :=
  List.foldl_append

theorem along_append {P : σ → ω → Prop} {s : σ} {ops rest : List ω} :
    Along step P s (ops ++ rest) ↔ Along step P s ops ∧ Along step P (run step s ops) rest := by
  induction ops generalizing s with
  | nil => simp [Along]
  | cons op ops ih => rw [List.cons_append, Along, Along, ih, run_cons, and_assoc]

theorem along_of_forall_mem {P : ω → Prop} {ops : List ω} (h : ∀ op ∈ ops, P op) (s : σ) :
    Along step (fun _ op => P op) s ops := by
  induction ops generalizing s with
  | nil => exact True.intro
  | cons op rest ih => exact ⟨h op List.mem_cons_self, ih (fun x hx => h x (List.mem_cons_of_mem op hx)) _⟩

/-- What every step that meets `P` keeps holds at the end of every run whose steps all meet `P`. -/
theorem run_invariant {I : σ → Prop} {P : σ → ω → Prop}
    (hstep : ∀ s op, I s → P s op → I (step s op)) {s : σ} (hs : I s) {ops : List ω}
    (hops : Along step P s ops) : I (run step s ops) := by
  induction ops generalizing s with
  | nil => exact hs
  | cons op rest ih => exact ih (hstep s op hs hops.1) hops.2

/-- A condition on steps that follows from `P` wherever `I` holds, for an `I` that such steps keep. -/
theorem along_imp {I : σ → Prop} {P Q : σ → ω → Prop} (hstep : ∀ s op, I s → P s op → Q s op ∧ I (step s op)) {s : σ}
    (hs : I s) {ops : List ω} (hops : Along step P s ops) : Along step Q s ops := by
  induction ops generalizing s with
  | nil => exact True.intro
  | cons op rest ih => exact ⟨(hstep s op hs hops.1).1, ih (hstep s op hs hops.1).2 hops.2⟩

/-- What holds after every prefix of a run holds at its start and after each of its steps. -/
theorem forall_prefix_iff {I : σ → Prop} {s : σ} {ops : List ω} :
    (∀ done, done <+: ops → I (run step s done)) ↔ I s ∧ Along step (fun s op => I (step s op)) s ops := by
  induction ops generalizing s with
  | nil => simp [Along]
  | cons op rest ih =>
      rw [Along, ← ih]
      constructor
      · intro h
        exact ⟨h [] List.nil_prefix, fun done hdone => h (op :: done) (List.cons_prefix_cons.mpr ⟨rfl, hdone⟩)⟩
      · rintro ⟨hstart, hrest⟩ done hdone
        rcases List.prefix_cons_iff.mp hdone with rfl | ⟨done', rfl, hdone'⟩
        · exact hstart
        · exact hrest done' hdone'

/-- Two conditions on steps that agree wherever `I` holds, and of which one keeps `I`, hold along the
same runs. -/
theorem along_iff {I : σ → Prop} {P Q : σ → ω → Prop} {ops : List ω}
    (hiff : ∀ op ∈ ops, ∀ s, I s → (P s op ↔ Q s op)) (hstep : ∀ op ∈ ops, ∀ s, I s → Q s op → I (step s op)) {s : σ}
    (hs : I s) : Along step P s ops ↔ Along step Q s ops := by
  induction ops generalizing s with
  | nil => exact Iff.rfl
  | cons op rest ih =>
      rw [Along, Along, hiff op List.mem_cons_self s hs]
      apply and_congr_right
      intro hop
      apply ih
      · exact fun x hx => hiff x (List.mem_cons_of_mem op hx)
      · exact fun x hx => hstep x (List.mem_cons_of_mem op hx)
      · exact hstep op List.mem_cons_self s hs hop

end Runs

end KVOffload.Base
