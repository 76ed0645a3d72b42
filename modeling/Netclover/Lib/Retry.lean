import Mathlib.Logic.Basic

/-!
# Retry: a bounded number of attempts with a reset in between

A client tries something at most `n` times, resets the device after every
attempt that failed, and gives up as soon as a reset fails as well. `Retries`
says which logs such a client can write; the rules below read off a log how
many attempts it has, what lies between two of them, and how the client came
out.
-/

namespace Retry

/-- An entry of the log: what was asked of the device, and whether the device
did it. -/
inductive Event (α β : Type) where
  | attempt (request : α) (ok : Bool)
  | reset (request : β) (ok : Bool)
  deriving DecidableEq

namespace Event

variable {α β : Type}

def isAttempt : Event α β → Bool
  | attempt _ _ => true
  | reset _ _ => false

/-- An attempt that failed. -/
def isMiss : Event α β → Bool
  | attempt _ ok => !ok
  | reset _ _ => false

end Event

inductive Outcome where
  | done
  | stuck
  | exhausted
  deriving DecidableEq

variable {α β : Type}

/-- The logs of a client that has `n` attempts left: every attempt asks for
an `A`, every reset for an `R`. -/
inductive Retries (A : α → Prop) (R : β → Prop) : Nat → List (Event α β) → Outcome → Prop
  | exhausted : Retries A R 0 [] .exhausted
  | done {n : Nat} {a : α} : A a → Retries A R (n + 1) [.attempt a true] .done
  | stuck {n : Nat} {a : α} {b : β} : A a → R b →
      Retries A R (n + 1) [.attempt a false, .reset b false] .stuck
  | again {n : Nat} {a : α} {b : β} {log : List (Event α β)} {o : Outcome} : A a → R b →
      Retries A R n log o → Retries A R (n + 1) (.attempt a false :: .reset b true :: log) o

namespace Retries

variable {A : α → Prop} {R : β → Prop} {n : Nat} {log : List (Event α β)} {o : Outcome}

/-! ## What was asked for -/

theorem attempt_mem (h : Retries A R n log o) {a : α} {ok : Bool}
    (hmem : Event.attempt a ok ∈ log) : A a := by
  induction h with
  | exhausted => cases hmem
  | done ha =>
    obtain ⟨rfl, -⟩ : _ = _ ∧ ok = true := by simpa using hmem
    exact ha
  | stuck ha _ =>
    obtain ⟨rfl, -⟩ : _ = _ ∧ ok = false := by simpa using hmem
    exact ha
  | @again n a₀ b₀ log o ha _ _ ih =>
    have hmem : (a = a₀ ∧ ok = false) ∨ Event.attempt a ok ∈ log := by simpa using hmem
    rcases hmem with ⟨rfl, -⟩ | hmem
    · exact ha
    · exact ih hmem

theorem reset_mem (h : Retries A R n log o) {b : β} {ok : Bool}
    (hmem : Event.reset b ok ∈ log) : R b := by
  induction h with
  | exhausted => cases hmem
  | done _ => simp at hmem
  | stuck _ hb =>
    obtain ⟨rfl, -⟩ : _ = _ ∧ ok = false := by simpa using hmem
    exact hb
  | @again n a₀ b₀ log o _ hb _ ih =>
    have hmem : (b = b₀ ∧ ok = true) ∨ Event.reset b ok ∈ log := by simpa using hmem
    rcases hmem with ⟨rfl, -⟩ | hmem
    · exact hb
    · exact ih hmem

/-! ## How many attempts there are -/

theorem attempts_le (h : Retries A R n log o) : log.countP Event.isAttempt ≤ n := by
  induction h with
  | exhausted => exact Nat.le_refl 0
  | done _ => exact Nat.succ_le_succ (Nat.zero_le _)
  | stuck _ _ => exact Nat.succ_le_succ (Nat.zero_le _)
  | again _ _ _ ih => simpa [List.countP_cons, Event.isAttempt] using ih

theorem attempts_pos (h : Retries A R n log o) (hn : 0 < n) :
    1 ≤ log.countP Event.isAttempt := by
  cases h with
  | exhausted => cases hn
  | done _ => simp [Event.isAttempt]
  | stuck _ _ => simp [Event.isAttempt]
  | again _ _ _ => simp [Event.isAttempt]

/-- A log begins with an attempt. -/
theorem head (h : Retries A R n log o) {e : Event α β} {rest : List (Event α β)}
    (hlog : log = e :: rest) : e.isAttempt = true := by
  cases h with
  | exhausted => cases hlog
  | done _ => cases hlog; rfl
  | stuck _ _ => cases hlog; rfl
  | again _ _ _ => cases hlog; rfl

/-- Without a reset in it, a log of at least one attempt is one attempt that
succeeded. -/
theorem no_reset (h : Retries A R n log o) (hn : 0 < n) (hreset : ∀ b ok, Event.reset b ok ∉ log) :
    ∃ a, A a ∧ log = [.attempt a true] := by
  cases h with
  | exhausted => cases hn
  | done ha => exact ⟨_, ha, rfl⟩
  | @stuck n a b _ _ => exact (hreset b false (by simp)).elim
  | @again n a b log o _ _ _ => exact (hreset b true (by simp)).elim

/-! ## What lies between two attempts -/

/-- Between an attempt and the next one there is one reset, and the device did
it. -/
theorem between (h : Retries A R n log o) {before mid after : List (Event α β)} {a a' : α}
    {ok ok' : Bool} (hlog : log = before ++ .attempt a ok :: (mid ++ .attempt a' ok' :: after))
    (hmid : ∀ e ∈ mid, e.isAttempt = false) : ∃ b, R b ∧ mid = [.reset b true] := by
  induction h generalizing before with
  | exhausted => simp at hlog
  | done _ =>
    have hlen := congrArg List.length hlog
    simp at hlen
    omega
  | stuck _ _ =>
    cases before with
    | nil =>
      cases mid with
      | nil => simp at hlog
      | cons e mid => simp at hlog
    | cons e before =>
      have hlen := congrArg List.length hlog
      simp at hlen
      omega
  | @again n a₀ b₀ log o _ hb hrest ih =>
    cases before with
    | nil =>
      cases mid with
      | nil => simp at hlog
      | cons e mid =>
        obtain ⟨-, rfl, htail⟩ : _ ∧ e = .reset b₀ true ∧
            log = mid ++ .attempt a' ok' :: after := by
          simpa [eq_comm] using hlog
        cases mid with
        | nil => exact ⟨b₀, hb, rfl⟩
        | cons e mid =>
          -- the log goes on with an attempt
          have hattempt := hrest.head htail
          rw [hmid e (by simp)] at hattempt
          cases hattempt
    | cons e before =>
      cases before with
      | nil => simp at hlog
      | cons e' before =>
        simp only [List.cons_append, List.cons.injEq] at hlog
        exact ih hlog.2.2

/-! ## How the client came out -/

theorem done_iff (h : Retries A R n log o) : o = .done ↔ ∃ a, Event.attempt a true ∈ log := by
  induction h with
  | exhausted => simp
  | done _ => simp
  | stuck _ _ => simp
  | again _ _ _ ih => simp [ih]

theorem stuck_iff (h : Retries A R n log o) : o = .stuck ↔ ∃ b, Event.reset b false ∈ log := by
  induction h with
  | exhausted => simp
  | done _ => simp
  | stuck _ _ => simp
  | again _ _ _ ih => simp [ih]

/-- The attempts are used up if all of them failed and every reset was done. -/
theorem exhausted_iff (h : Retries A R n log o) : o = .exhausted ↔
    log.countP Event.isMiss = n ∧ ∀ b, Event.reset b false ∉ log := by
  induction h with
  | exhausted => simp
  | done _ => simp [Event.isMiss]
  | stuck _ _ => simp
  | again _ _ _ ih => simp [ih, Event.isMiss]

/-- The client is done if its last attempt was. -/
theorem last_attempt (h : Retries A R n log o) {before after : List (Event α β)} {a : α} {ok : Bool}
    (hlog : log = before ++ .attempt a ok :: after) (hafter : ∀ e ∈ after, e.isAttempt = false) :
    o = .done ↔ ok = true := by
  induction h generalizing before with
  | exhausted => simp at hlog
  | done _ =>
    cases before with
    | nil =>
      obtain ⟨⟨-, rfl⟩, -⟩ : (_ ∧ true = ok) ∧ _ := by simpa using hlog
      exact ⟨fun _ => rfl, fun _ => rfl⟩
    | cons e before => simp at hlog
  | stuck _ _ =>
    cases before with
    | nil =>
      obtain ⟨⟨-, rfl⟩, -⟩ : (_ ∧ false = ok) ∧ _ := by simpa using hlog
      simp
    | cons e before =>
      cases before with
      | nil => simp at hlog
      | cons e' before => simp at hlog
  | @again n a₀ b₀ log o _ _ hrest ih =>
    cases before with
    | nil =>
      obtain ⟨⟨-, rfl⟩, rfl⟩ : (_ ∧ false = ok) ∧ .reset b₀ true :: log = after := by
        simpa using hlog
      -- no attempt is left
      cases hrest with
      | exhausted => simp
      | done _ => simp [Event.isAttempt] at hafter
      | stuck _ _ => simp [Event.isAttempt] at hafter
      | again _ _ _ => simp [Event.isAttempt] at hafter
    | cons e before =>
      cases before with
      | nil => simp at hlog
      | cons e' before =>
        simp only [List.cons_append, List.cons.injEq] at hlog
        exact ih hlog.2.2

end Retries

end Retry
