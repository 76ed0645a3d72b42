import Mathlib.Logic.Basic
import Mathlib.Tactic.Ring

/-!
# Proc: computations over an environment

A `Proc` runs against an environment `σ` (a device, an oracle, a clock): it
returns a value or halts with a reason, and leaves an environment behind in
both cases. Three judgements cover what the users of this module prove:

* `Keeps F m`: the computation never loses the fact `F` of its environment;
* `Ensures Bad halts m Q`: unless the environment it leaves is `Bad`, the
  computation returns a value with `Q` or halts for a reason in `halts`;
* `Oblivious m`: what the computation returns does not depend on the
  environment.

`Bad` is meant for facts that are never lost ("some answer was wrong"), so
that a judgement about a whole computation only has to look at the end.

Loops are `iterate`: a body that says whether to go on, run at most `n`
times. Each judgement has a rule for them, and what returning bodies do is
chained by `iterate_chain`.
-/

/-- A computation over `σ` that returns an `α` or halts with an `ε`. -/
def Proc (σ ε α : Type) : Type := σ → Except (ε × σ) (α × σ)

namespace Proc

variable {σ ε α β : Type}

instance : Monad (Proc σ ε) where
  pure a := fun s => .ok (a, s)
  bind m f := fun s =>
    match m s with
    | .ok (a, s') => f a s'
    | .error e => .error e

/-- Stop here, for the reason given. -/
def halt (e : ε) : Proc σ ε α := fun s => .error (e, s)

/-- One exchange with the environment. -/
def act (f : σ → α × σ) : Proc σ ε α := fun s => .ok (f s)

/-- Run the body until it says to stop, `n` times at most; past that, halt
with `e`. -/
def iterate (e : ε) (body : α → Proc σ ε (α × Bool)) : Nat → α → Proc σ ε α
  | 0, _ => halt e
  | n + 1, a => do
    let (a, more) ← body a
    if more then iterate e body n a else pure a

/-- The environment an outcome leaves behind. -/
def left : Except (ε × σ) (α × σ) → σ
  | .ok (_, s) => s
  | .error (_, s) => s

theorem act_apply (f : σ → α × σ) (s : σ) : (act f : Proc σ ε α) s = .ok (f s) := rfl

theorem bind_ok {m : Proc σ ε α} {f : α → Proc σ ε β} {s s' : σ} {a : α}
    (h : m s = .ok (a, s')) : (m >>= f) s = f a s' := by
  show (match m s with | .ok (a, s') => f a s' | .error e => .error e) = _
  rw [h]

theorem bind_error {m : Proc σ ε α} {f : α → Proc σ ε β} {s : σ} {e : ε × σ}
    (h : m s = .error e) : (m >>= f) s = .error e := by
  show (match m s with | .ok (a, s') => f a s' | .error e => .error e) = _
  rw [h]

instance : LawfulMonad (Proc σ ε) := by
  refine LawfulMonad.mk' _ ?_ ?_ ?_
  · intro α m
    funext s
    show (m >>= fun a => pure a) s = m s
    cases hm : m s with
    | ok r =>
      rw [bind_ok hm]
      rfl
    | error e => rw [bind_error hm]
  · intro α β a f
    rfl
  · intro α β γ m f g
    funext s
    cases hm : m s with
    | ok r =>
      have hmf : (m >>= f) s = f r.1 r.2 := bind_ok hm
      show (match (m >>= f) s with | .ok (a, s') => g a s' | .error e => .error e) = _
      rw [hmf, bind_ok hm]
      rfl
    | error e => rw [bind_error (bind_error hm), bind_error hm]

/-- What a sequence returned went through an intermediate value. -/
theorem of_bind_ok {m : Proc σ ε α} {f : α → Proc σ ε β} {s t : σ} {b : β}
    (h : (m >>= f) s = .ok (b, t)) :
    ∃ a s', m s = .ok (a, s') ∧ f a s' = .ok (b, t) := by
  cases hm : m s with
  | ok r =>
    obtain ⟨a, s'⟩ := r
    rw [bind_ok hm] at h
    exact ⟨a, s', rfl, h⟩
  | error e =>
    rw [bind_error hm] at h
    cases h

/-- A sequence that halted did so in one of its parts. -/
theorem of_bind_error {m : Proc σ ε α} {f : α → Proc σ ε β} {s : σ} {e : ε × σ}
    (h : (m >>= f) s = .error e) :
    m s = .error e ∨ ∃ a s', m s = .ok (a, s') ∧ f a s' = .error e := by
  cases hm : m s with
  | ok r =>
    obtain ⟨a, s'⟩ := r
    rw [bind_ok hm] at h
    exact .inr ⟨a, s', rfl, h⟩
  | error e' =>
    rw [bind_error hm] at h
    cases h
    exact .inl rfl

theorem of_pure_ok {a b : α} {s t : σ} (h : (pure a : Proc σ ε α) s = .ok (b, t)) :
    a = b ∧ s = t := by
  cases h
  exact ⟨rfl, rfl⟩

theorem iterate_succ (e : ε) (body : α → Proc σ ε (α × Bool)) (n : Nat) (a : α) :
    iterate e body (n + 1) a
      = body a >>= fun r => if r.2 then iterate e body n r.1 else pure r.1 := rfl

/-- A loop that returned went through its passes one after the other: what
each pass relates, and what is closed under composition, holds across. -/
theorem iterate_chain {R : α → α → Prop} {e : ε} {body : α → Proc σ ε (α × Bool)}
    (htrans : ∀ a b c, R a b → R b c → R a c)
    (hbody : ∀ a b more s t, body a s = .ok ((b, more), t) → R a b) :
    ∀ {n : Nat} {a b : α} {s t : σ}, iterate e body n a s = .ok (b, t) → R a b := by
  intro n
  induction n with
  | zero => intro a b s t h; cases h
  | succ n ih =>
    intro a b s t h
    rw [iterate_succ] at h
    obtain ⟨⟨c, more⟩, s', hc, hrest⟩ := of_bind_ok h
    have hac := hbody a c more s s' hc
    cases more with
    | true => exact htrans a c b hac (ih hrest)
    | false =>
      obtain ⟨rfl, -⟩ := of_pure_ok hrest
      exact hac

/-- What a loop returned it returns with more passes too. -/
theorem iterate_le {e : ε} {body : α → Proc σ ε (α × Bool)} {n m : Nat} {a : α} {s : σ}
    {r : α × σ} (h : iterate e body n a s = .ok r) (hle : n ≤ m) :
    iterate e body m a s = .ok r := by
  induction n generalizing a m s with
  | zero => cases h
  | succ n ih =>
    obtain ⟨m, rfl⟩ := Nat.exists_eq_add_of_le' (Nat.le_trans (Nat.succ_pos n) hle)
    rw [iterate_succ] at h ⊢
    obtain ⟨⟨c, more⟩, s', hbody, hrest⟩ := of_bind_ok h
    rw [bind_ok hbody]
    cases more with
    | true => exact ih hrest (by omega)
    | false => exact hrest

/-- **Partial correctness of loops**: what the passes that go on keep holds
before the last pass, and so does what the last pass makes of it behind it. -/
theorem iterate_ok {I Q : α → Prop} {e : ε} {body : α → Proc σ ε (α × Bool)}
    (hmore : ∀ a b s t, I a → body a s = .ok ((b, true), t) → I b)
    (hstop : ∀ a b s t, I a → body a s = .ok ((b, false), t) → Q b) :
    ∀ {n : Nat} {a b : α} {s t : σ}, I a → iterate e body n a s = .ok (b, t) → Q b := by
  intro n
  induction n with
  | zero => intro a b s t _ h; cases h
  | succ n ih =>
    intro a b s t ha h
    rw [iterate_succ] at h
    obtain ⟨⟨c, more⟩, s', hc, hrest⟩ := of_bind_ok h
    cases more with
    | true => exact ih (hmore a c s s' ha hc) hrest
    | false =>
      obtain ⟨rfl, -⟩ := of_pure_ok hrest
      exact hstop a c s s' ha hc

/-- A loop that starts on `a` comes to a pass on `b`. -/
inductive Visits (body : α → Proc σ ε (α × Bool)) (a : α) (s : σ) : α → σ → Prop
  | start : Visits body a s a s
  | pass {b c : α} {t u : σ} : Visits body a s b t → body b t = .ok ((c, true), u) →
      Visits body a s c u

/-- A body that returns more makes the loop come at least to the same passes. -/
theorem Visits.mono {body body' : α → Proc σ ε (α × Bool)} {a b : α} {s t : σ}
    (h : Visits body a s b t) (hbody : ∀ a s r, body a s = .ok r → body' a s = .ok r) :
    Visits body' a s b t := by
  induction h with
  | start => exact .start
  | pass _ hpass ih => exact .pass ih (hbody _ _ _ hpass)

/-- What the passes that go on keep holds before every pass. -/
theorem Visits.invariant {I : α → Prop} {body : α → Proc σ ε (α × Bool)} {a b : α} {s t : σ}
    (h : Visits body a s b t) (ha : I a)
    (hmore : ∀ a b s t, I a → body a s = .ok ((b, true), t) → I b) : I b := by
  induction h with
  | start => exact ha
  | pass _ hpass ih => exact hmore _ _ _ _ ih hpass

/-- **Simulation of loops**: where a pass of one loop can be matched by a
pass of the other, so can a run. -/
theorem iterate_simulates {τ : Type} {R : α → β → Prop} {e : ε} {body : α → Proc σ ε (α × Bool)}
    {body' : β → Proc τ ε (β × Bool)}
    (h : ∀ a b s s' r t, R a b → body a s = .ok (r, s') →
      ∃ r' t', body' b t = .ok (r', t') ∧ R r.1 r'.1 ∧ r'.2 = r.2) :
    ∀ {n : Nat} {a a' : α} {b : β} {s s' : σ} (t : τ), R a b →
      iterate e body n a s = .ok (a', s') →
      ∃ b' t', iterate e body' n b t = .ok (b', t') ∧ R a' b' := by
  intro n
  induction n with
  | zero => intro a a' b s s' t _ hrun; cases hrun
  | succ n ih =>
    intro a a' b s s' t hR hrun
    rw [iterate_succ] at hrun
    obtain ⟨⟨c, more⟩, s₁, hbody, hrest⟩ := of_bind_ok hrun
    obtain ⟨⟨c', more'⟩, t₁, hbody', hR', hmore⟩ := h a b s s₁ _ t hR hbody
    dsimp only at hmore hR' hrest
    subst hmore
    rw [iterate_succ, bind_ok hbody']
    cases more' with
    | true => exact ih t₁ hR' hrest
    | false =>
      obtain ⟨rfl, -⟩ := of_pure_ok hrest
      exact ⟨c', t₁, rfl, hR'⟩

/-! ## Facts of the environment that are never lost -/

/-- The computation keeps `F` of its environment, whatever the outcome. -/
def Keeps (F : σ → Prop) (m : Proc σ ε α) : Prop := ∀ s, F s → F (left (m s))

section Keeps

variable {F : σ → Prop}

theorem Keeps.pure (a : α) : Keeps F (pure a : Proc σ ε α) := fun _ h => h

theorem Keeps.halt (e : ε) : Keeps F (halt e : Proc σ ε α) := fun _ h => h

theorem Keeps.act {f : σ → α × σ} (h : ∀ s, F s → F (f s).2) :
    Keeps F (act f : Proc σ ε α) := h

theorem Keeps.bind {m : Proc σ ε α} {f : α → Proc σ ε β}
    (hm : Keeps F m) (hf : ∀ a, Keeps F (f a)) : Keeps F (m >>= f) := by
  intro s hs
  have h := hm s hs
  cases hr : m s with
  | ok r =>
    obtain ⟨a, s'⟩ := r
    rw [hr] at h
    rw [bind_ok hr]
    exact hf a s' h
  | error e =>
    rw [hr] at h
    rw [bind_error hr]
    exact h

theorem Keeps.iterate {e : ε} {body : α → Proc σ ε (α × Bool)}
    (h : ∀ a, Keeps F (body a)) (n : Nat) (a : α) : Keeps F (Proc.iterate e body n a) := by
  induction n generalizing a with
  | zero => exact Keeps.halt e
  | succ n ih =>
    rw [iterate_succ]
    refine Keeps.bind (h a) fun r => ?_
    split
    · exact ih r.1
    · exact Keeps.pure r.1

end Keeps

/-! ## Outcomes, as long as the environment stays good -/

/-- Unless it leaves a `Bad` environment, the computation returns a value
with `Q` or halts for one of the reasons `halts`. -/
def Ensures (Bad : σ → Prop) (halts : ε → Prop) (m : Proc σ ε α) (Q : α → Prop) : Prop :=
  ∀ s, ¬ Bad (left (m s)) →
    match m s with
    | .ok (a, _) => Q a
    | .error (e, _) => halts e

section Ensures

variable {Bad : σ → Prop} {halts : ε → Prop}

theorem Ensures.pure {a : α} {Q : α → Prop} (h : Q a) :
    Ensures Bad halts (pure a : Proc σ ε α) Q := fun _ _ => h

theorem Ensures.halt {e : ε} {Q : α → Prop} (h : halts e) :
    Ensures Bad halts (halt e : Proc σ ε α) Q := fun _ _ => h

theorem Ensures.act {f : σ → α × σ} {Q : α → Prop} (h : ∀ s, ¬ Bad (f s).2 → Q (f s).1) :
    Ensures Bad halts (act f : Proc σ ε α) Q := h

theorem Ensures.mono {m : Proc σ ε α} {Q R : α → Prop}
    (h : Ensures Bad halts m Q) (hqr : ∀ a, Q a → R a) : Ensures Bad halts m R := by
  intro s hs
  have h' := h s hs
  cases hr : m s with
  | ok r => rw [hr] at h'; exact hqr _ h'
  | error e => rw [hr] at h'; exact h'

/-- Every returned value has `P`, so the good ones do. -/
theorem Ensures.and_ok {m : Proc σ ε α} {P Q : α → Prop} (h : Ensures Bad halts m Q)
    (hok : ∀ s a t, m s = .ok (a, t) → P a) : Ensures Bad halts m fun a => Q a ∧ P a := by
  intro s hs
  have h' := h s hs
  cases hr : m s with
  | ok r => rw [hr] at h'; exact ⟨h', hok s r.1 r.2 hr⟩
  | error e => rw [hr] at h'; exact h'

/-- What is ensured of a run that returned. -/
theorem Ensures.of_ok {m : Proc σ ε α} {Q : α → Prop} (h : Ensures Bad halts m Q) {s t : σ} {a : α}
    (hr : m s = .ok (a, t)) (ht : ¬ Bad t) : Q a := by
  have h' := h s (by rw [hr]; exact ht)
  rw [hr] at h'
  exact h'

/-- What is ensured of a run that halted. -/
theorem Ensures.of_error {m : Proc σ ε α} {Q : α → Prop} (h : Ensures Bad halts m Q) {s t : σ}
    {e : ε} (hr : m s = .error (e, t)) (ht : ¬ Bad t) : halts e := by
  have h' := h s (by rw [hr]; exact ht)
  rw [hr] at h'
  exact h'

/-- The sequencing rule. What follows must keep `Bad`, so that a good end
speaks for the middle too. -/
theorem Ensures.bind {m : Proc σ ε α} {f : α → Proc σ ε β} {Q : α → Prop} {R : β → Prop}
    (hm : Ensures Bad halts m Q) (hk : ∀ a, Keeps Bad (f a))
    (hf : ∀ a, Q a → Ensures Bad halts (f a) R) : Ensures Bad halts (m >>= f) R := by
  intro s hs
  have h := hm s
  cases hr : m s with
  | ok r =>
    obtain ⟨a, s'⟩ := r
    rw [hr] at h
    rw [bind_ok hr] at hs ⊢
    exact hf a (h fun hb => hs (hk a s' hb)) s' hs
  | error e =>
    rw [hr] at h
    rw [bind_error hr] at hs ⊢
    exact h hs

/-- **The loop rule**: the invariant says how many passes may follow. A pass
that goes on keeps it with fewer, a pass that stops meets the postcondition.
There are passes enough, or running out of them is accepted. -/
theorem Ensures.iterate_down {e : ε} {body : α → Proc σ ε (α × Bool)} {I : Nat → α → Prop}
    {Q : α → Prop} (hk : ∀ a, Keeps Bad (body a))
    (hbody : ∀ k a, I k a → Ensures Bad halts (body a) fun r =>
      if r.2 then ∃ m, m < k ∧ I m r.1 else Q r.1) :
    ∀ (n k : Nat) (a : α), I k a → k < n ∨ halts e →
      Ensures Bad halts (Proc.iterate e body n a) Q := by
  intro n
  induction n with
  | zero =>
    intro k a _ hn
    rcases hn with hn | he
    · omega
    · exact Ensures.halt he
  | succ n ih =>
    intro k a ha hn
    rw [iterate_succ]
    apply Ensures.bind (hbody k a ha)
    · intro r
      split
      · exact Keeps.iterate hk n r.1
      · exact Keeps.pure r.1
    · intro r hr
      split
      · rename_i hmore
        rw [if_pos hmore] at hr
        obtain ⟨m, hm, hI⟩ := hr
        exact ih m r.1 hI (hn.imp (fun hlt => by omega) id)
      · rename_i hmore
        rw [if_neg hmore] at hr
        exact Ensures.pure hr

/-- The same with a variant, where it is a function of what the pass is given. -/
theorem Ensures.iterate {e : ε} {body : α → Proc σ ε (α × Bool)} {I Q : α → Prop}
    (μ : α → Nat) (hk : ∀ a, Keeps Bad (body a))
    (hbody : ∀ a, I a → Ensures Bad halts (body a) fun r =>
      if r.2 then I r.1 ∧ μ r.1 < μ a else Q r.1) (n : Nat) (a : α) (ha : I a)
    (hn : μ a < n ∨ halts e) : Ensures Bad halts (Proc.iterate e body n a) Q := by
  refine Ensures.iterate_down (I := fun k a => I a ∧ μ a = k) hk ?_ n (μ a) a ⟨ha, rfl⟩ hn
  rintro k a ⟨ha, rfl⟩
  refine (hbody a ha).mono fun r hr => ?_
  split
  · rename_i hmore
    rw [if_pos hmore] at hr
    exact ⟨μ r.1, hr.2, hr.1, rfl⟩
  · rename_i hmore
    rw [if_neg hmore] at hr
    exact hr

/-- The same without a count, where running out of passes is accepted. -/
theorem Ensures.iterate_partial {e : ε} {body : α → Proc σ ε (α × Bool)} {I Q : α → Prop}
    (he : halts e) (hk : ∀ a, Keeps Bad (body a))
    (hbody : ∀ a, I a → Ensures Bad halts (body a) fun r => if r.2 then I r.1 else Q r.1) :
    ∀ (n : Nat) (a : α), I a → Ensures Bad halts (Proc.iterate e body n a) Q := by
  intro n
  induction n with
  | zero => intro a _; exact Ensures.halt he
  | succ n ih =>
    intro a ha
    rw [iterate_succ]
    refine Ensures.bind (hbody a ha) (fun r => ?_) fun r hr => ?_
    · split
      · exact Keeps.iterate hk n r.1
      · exact Keeps.pure r.1
    · split
      · rename_i hmore
        rw [if_pos hmore] at hr
        exact ih r.1 hr
      · rename_i hmore
        rw [if_neg hmore] at hr
        exact Ensures.pure hr

/-- Where nothing is `Bad` and no reason is accepted, the value is returned. -/
theorem Ensures.returns {m : Proc σ ε α} {Q : α → Prop}
    (h : Ensures (fun _ => False) (fun _ => False) m Q) (s : σ) :
    ∃ a s', m s = .ok (a, s') ∧ Q a := by
  have h' := h s id
  cases hr : m s with
  | ok r => rw [hr] at h'; exact ⟨r.1, r.2, rfl, h'⟩
  | error e => rw [hr] at h'; exact h'.elim

end Ensures

/-! ## Computations that do not depend on their environment -/

/-- An outcome without the environment. -/
def value : Except (ε × σ) (α × σ) → Except ε α
  | .ok (a, _) => .ok a
  | .error (e, _) => .error e

/-- Any two environments make the computation return the same. -/
def Oblivious (m : Proc σ ε α) : Prop := ∀ s s', value (m s) = value (m s')

theorem value_ok {r : Except (ε × σ) (α × σ)} {a : α} : value r = .ok a ↔ ∃ s, r = .ok (a, s) := by
  constructor
  · intro h
    rcases r with ⟨e, s⟩ | ⟨b, s⟩
    · cases h
    · cases h
      exact ⟨s, rfl⟩
  · rintro ⟨s, rfl⟩
    rfl

theorem value_error {r : Except (ε × σ) (α × σ)} {e : ε} :
    value r = .error e ↔ ∃ s, r = .error (e, s) := by
  constructor
  · intro h
    rcases r with ⟨e', s⟩ | ⟨b, s⟩
    · cases h
      exact ⟨s, rfl⟩
    · cases h
  · rintro ⟨s, rfl⟩
    rfl

/-- What is returned from one environment is returned from any other. -/
theorem Oblivious.ok {m : Proc σ ε α} (h : Oblivious m) {s t : σ} {a : α} (hm : m s = .ok (a, t))
    (s' : σ) : ∃ t', m s' = .ok (a, t') := by
  have hv := h s s'
  rw [hm] at hv
  exact value_ok.mp hv.symm

theorem Oblivious.pure (a : α) : Oblivious (pure a : Proc σ ε α) := fun _ _ => rfl

theorem Oblivious.halt (e : ε) : Oblivious (halt e : Proc σ ε α) := fun _ _ => rfl

theorem Oblivious.act {f : σ → α × σ} (h : ∀ s s', (f s).1 = (f s').1) :
    Oblivious (act f : Proc σ ε α) := by
  intro s s'
  show Except.ok (f s).1 = Except.ok (f s').1
  rw [h s s']

theorem Oblivious.bind {m : Proc σ ε α} {f : α → Proc σ ε β} (hm : Oblivious m)
    (hf : ∀ a, Oblivious (f a)) : Oblivious (m >>= f) := by
  intro s s'
  have hv := hm s s'
  cases hr : m s with
  | ok r =>
    obtain ⟨t', hr'⟩ := hm.ok hr s'
    rw [bind_ok hr, bind_ok hr']
    exact hf r.1 r.2 t'
  | error e =>
    rw [hr] at hv
    obtain ⟨t', hr'⟩ := value_error.mp hv.symm
    rw [bind_error hr, bind_error hr']
    rfl

theorem Oblivious.iterate {e : ε} {body : α → Proc σ ε (α × Bool)}
    (h : ∀ a, Oblivious (body a)) (n : Nat) (a : α) : Oblivious (Proc.iterate e body n a) := by
  induction n generalizing a with
  | zero => exact Oblivious.halt e
  | succ n ih =>
    rw [iterate_succ]
    refine Oblivious.bind (h a) fun r => ?_
    split
    · exact ih r.1
    · exact Oblivious.pure r.1

/-! ## Runs on concrete inputs -/

/-- A test on what was returned that comes out true. -/
def passes (test : α → σ → Bool) : Except (ε × σ) (α × σ) → Bool
  | .ok (a, s) => test a s
  | .error _ => false

theorem of_passes {test : α → σ → Bool} {r : Except (ε × σ) (α × σ)} (h : passes test r = true) :
    ∃ a s, r = .ok (a, s) ∧ test a s = true := by
  rcases r with e | ⟨a, s⟩
  · cases h
  · exact ⟨a, s, rfl, h⟩

end Proc
