import Netclover.Lib.I386

/-!
# I386: ports

What `in` and `out` reach: a `Bus` answers the reads and takes the writes, and
may change the world with either, or reset the processor before it gets there
(`Resets`, and `Comes` where that is one way to end). A routine that polls a port changes nothing of
the processor but `al` and the flags (`Polled`). Code and handlers that know of
one part of the world leave the rest alone (`Asm.right`), and code that does not
store keeps what its handlers keep of the memory (`KeepsMem`).
-/

namespace I386

/-- The devices behind the ports. -/
structure Bus (σ : Type) where
  inb : UInt16 → σ → UInt8 × σ
  outb : UInt16 → UInt8 → σ → σ
  /-- The world, if a device resets the processor before an access of the port. -/
  reset : UInt16 → σ → Option σ

/-- A bus that knows of one part of the world. -/
def Bus.left {σ τ : Type} (bus : Bus σ) : Bus (σ × τ) where
  inb port w := ((bus.inb port w.1).1, (bus.inb port w.1).2, w.2)
  outb port v w := (bus.outb port v w.1, w.2)
  reset port w := (bus.reset port w.1).map (·, w.2)

namespace Asm

variable {σ : Type} (bus : Bus σ) (port : UInt16)

/-- `in al, port`. -/
def inAl : Asm σ Unit := fun x =>
  match bus.reset port x.2 with
  | some s => .error (.reset, x.1, s)
  | none => .ok ((), x.1.setByte .al (bus.inb port x.2).1, (bus.inb port x.2).2)

/-- `out port, al`. -/
def outAl : Asm σ Unit := fun x =>
  match bus.reset port x.2 with
  | some s => .error (.reset, x.1, s)
  | none => .ok ((), x.1, bus.outb port (x.1.byte .al) x.2)

@[simp] def testbImm (b : ByteReg) (v : UInt8) : Asm σ Unit := upd fun c =>
  c.setFlags (c.byte b &&& v == 0) false

section

variable {bus port} {β : Type} {c : Cpu} {s : σ} {k : Unit → Asm σ β}

theorem inAl_bind (h : bus.reset port s = none) : (inAl bus port >>= k) (c, s)
    = k () (c.setByte .al (bus.inb port s).1, (bus.inb port s).2) := by
  apply Proc.bind_ok
  rw [inAl, h]

theorem outAl_bind (h : bus.reset port s = none) : (outAl bus port >>= k) (c, s)
    = k () (c, bus.outb port (c.byte .al) s) := by
  apply Proc.bind_ok
  rw [outAl, h]

namespace Runs

variable {Q : β → Cpu → σ → Prop}

theorem inAl (hup : bus.reset port s = none)
    (h : Runs (k ()) (c.setByte .al (bus.inb port s).1) (bus.inb port s).2 Q) :
    Runs (Asm.inAl bus port >>= k) c s Q := by
  rw [Runs, inAl_bind hup]
  exact h

theorem outAl (hup : bus.reset port s = none)
    (h : Runs (k ()) c (bus.outb port (c.byte .al) s) Q) :
    Runs (Asm.outAl bus port >>= k) c s Q := by
  rw [Runs, outAl_bind hup]
  exact h

end Runs

end

/-! ## Resets -/

/-- The processor is reset before the code returns, with `E` of the world. -/
def Resets {α : Type} (m : Asm σ α) (c : Cpu) (s : σ) (E : σ → Prop) : Prop :=
  ∃ c' s', m (c, s) = .error (.reset, c', s') ∧ E s'

namespace Resets

variable {bus port} {α β : Type} {c : Cpu} {s : σ} {E : σ → Prop}

theorem mono {F : σ → Prop} {m : Asm σ α} (h : Resets m c s E) (hEF : ∀ s', E s' → F s') :
    Resets m c s F := by
  obtain ⟨c', s', hm, he⟩ := h
  exact ⟨c', s', hm, hEF s' he⟩

theorem bind {m : Asm σ α} {k : α → Asm σ β} (h : Resets m c s E) : Resets (m >>= k) c s E := by
  obtain ⟨c', s', hm, he⟩ := h
  exact ⟨c', s', Proc.bind_error hm, he⟩

/-- Behind code that returns. -/
theorem after {m : Asm σ α} {k : α → Asm σ β}
    (h : Runs m c s fun a c' s' => Resets (k a) c' s' E) : Resets (m >>= k) c s E := by
  obtain ⟨a, c₁, s₁, hm, c', s', hk, he⟩ := h
  exact ⟨c', s', (Proc.bind_ok hm).trans hk, he⟩

theorem inAl {s' : σ} (hdown : bus.reset port s = some s') (h : E s') :
    Resets (Asm.inAl bus port) c s E := by
  refine ⟨c, s', ?_, h⟩
  rw [Asm.inAl, hdown]

theorem callw {next : Bytes} {routine : Asm σ Unit} (h : Resets routine (c.pushWord next) s E) :
    Resets (Asm.callw next routine) c s E := by
  obtain ⟨c', s', hm, he⟩ := h
  refine ⟨c', s', ?_, he⟩
  rw [Asm.callw, upd_bind]
  exact Proc.bind_error hm

end Resets

/-- The code returns with `Q`, or the processor is reset before, with `E` of the
world. -/
def Comes {β : Type} (m : Asm σ β) (c : Cpu) (s : σ) (Q : β → Cpu → σ → Prop) (E : σ → Prop) :
    Prop := Runs m c s Q ∨ Resets m c s E

namespace Comes

variable {bus port} {α β : Type} {c c' : Cpu} {s : σ} {Q : β → Cpu → σ → Prop} {E : σ → Prop}

theorem mono {P : β → Cpu → σ → Prop} {D : σ → Prop} {m : Asm σ β} (h : Comes m c s P D)
    (hPQ : ∀ b c' s', P b c' s' → Q b c' s') (hDE : ∀ s', D s' → E s') : Comes m c s Q E :=
  h.imp (·.mono hPQ) (·.mono hDE)

theorem bind {m : Asm σ α} {k : α → Asm σ β}
    (h : Comes m c s (fun a c' s' => Comes (k a) c' s' Q E) E) : Comes (m >>= k) c s Q E := by
  rcases h with ⟨a, c₁, s₁, hm, hruns | hresets⟩ | hresets
  · exact .inl (.bind ⟨a, c₁, s₁, hm, hruns⟩)
  · exact .inr (.after ⟨a, c₁, s₁, hm, hresets⟩)
  · exact .inr hresets.bind

/-- Behind code that returns. -/
theorem after {m : Asm σ α} {k : α → Asm σ β}
    (h : Runs m c s fun a c' s' => Comes (k a) c' s' Q E) : Comes (m >>= k) c s Q E :=
  bind (.inl h)

theorem upd {f : Cpu → Cpu} {k : Unit → Asm σ β} (h : Comes (k ()) (f c) s Q E) :
    Comes (Asm.upd f >>= k) c s Q E := h

theorem flag {p : Cpu → Bool} {k : Bool → Asm σ β} (h : Comes (k (p c)) c s Q E) :
    Comes (Asm.flag p >>= k) c s Q E := h

theorem of_eq {m m' : Asm σ β} {s' : σ} (heq : m (c, s) = m' (c', s'))
    (h : Comes m' c' s' Q E) : Comes m c s Q E := by
  rw [Comes, Runs, Resets, heq]
  exact h

theorem inAl {k : Unit → Asm σ β} (hup : bus.reset port s = none)
    (h : Comes (k ()) (c.setByte .al (bus.inb port s).1) (bus.inb port s).2 Q E) :
    Comes (Asm.inAl bus port >>= k) c s Q E := of_eq (inAl_bind hup) h

theorem outAl {k : Unit → Asm σ β} (hup : bus.reset port s = none)
    (h : Comes (k ()) c (bus.outb port (c.byte .al) s) Q E) :
    Comes (Asm.outAl bus port >>= k) c s Q E := of_eq (outAl_bind hup) h

theorem popw {r : Reg} {l h : UInt8} {rest : List UInt8} {k : Unit → Asm σ β}
    (hstack : c.stack = l :: h :: rest)
    (hk : Comes (k ()) ({ c with stack := rest, sp := c.sp + 2 }.set r { c.regs r with h, l }) s
      Q E) : Comes (Asm.popw r >>= k) c s Q E := by
  refine of_eq (tryUpd_bind ?_ k) hk
  simp only [Cpu.popWord, hstack]
  rfl

theorem callw {next : Bytes} {routine : Asm σ Unit} {Q : Unit → Cpu → σ → Prop}
    (h : Comes routine (c.pushWord next) s
      (fun _ c' s' => c'.ip = .join ⟨0, 0, 0, 0⟩ next ∧ Q () c' s') E) :
    Comes (Asm.callw next routine) c s Q E := h.imp .callw .callw

end Comes

end Asm

/-- The processor is the same but for `al`, the flags and where it is. -/
def Cpu.Polled (c c' : Cpu) : Prop :=
  ∃ al zf cf ip, c' = { (c.setByte .al al).setFlags zf cf with ip }

namespace Cpu.Polled

variable {c c' c'' : Cpu}

theorem refl (c : Cpu) : c.Polled c := by
  refine ⟨c.byte .al, c.zf, c.cf, c.ip, ?_⟩
  show c = { c with regs := Function.update c.regs .ax (c.regs .ax) }
  rw [Function.update_eq_self]

theorem trans (h : c.Polled c') (h' : c'.Polled c'') : c.Polled c'' := by
  obtain ⟨al, zf, cf, ip, rfl⟩ := h
  obtain ⟨al', zf', cf', ip', rfl⟩ := h'
  exact ⟨al', zf', cf', ip', by simp⟩

theorem setByte (c : Cpu) (v : UInt8) : c.Polled (c.setByte .al v) :=
  ⟨v, c.zf, c.cf, c.ip, rfl⟩

theorem setFlags (c : Cpu) (zf cf : Bool) : c.Polled (c.setFlags zf cf) := by
  refine ⟨c.byte .al, zf, cf, c.ip, ?_⟩
  show _ = { c with regs := Function.update c.regs .ax (c.regs .ax), zf, cf }
  rw [Function.update_eq_self]
  rfl

theorem stack (h : c.Polled c') : c'.stack = c.stack := by
  obtain ⟨al, zf, cf, ip, rfl⟩ := h
  rfl

/-- Behind a call of a routine that polls. -/
theorem returned {next : Bytes} (h : (c.pushWord next).Polled c') : c.Polled { c' with
    stack := c.stack, sp := c'.sp + 2, ip := ⟨0, 0, next.h, next.l⟩ } := by
  obtain ⟨al, zf, cf, ip, rfl⟩ := h
  refine ⟨al, zf, cf, ⟨0, 0, next.h, next.l⟩, ?_⟩
  have hsp : c.sp - 2 + 2 = c.sp := UInt16.sub_add_cancel _ _
  show ({ c with regs := _, zf, cf, ip := _, sp := c.sp - 2 + 2 } : Cpu) = _
  rw [hsp]
  rfl

/-- Where `ax` is put on the stack before and taken off again behind. -/
theorem popped (h : (c.pushWord (c.regs .ax)).Polled c') :
    c.Polled ({ c' with stack := c.stack, sp := c'.sp + 2 }.set .ax
      { c'.regs .ax with h := (c.regs .ax).h, l := (c.regs .ax).l }) := by
  obtain ⟨al, zf, cf, ip, rfl⟩ := h
  refine ⟨c.byte .al, zf, cf, ip, ?_⟩
  have hsp : c.sp - 2 + 2 = c.sp := UInt16.sub_add_cancel _ _
  show ({ c with regs := _, zf, cf, ip, sp := c.sp - 2 + 2 } : Cpu) = _
  rw [hsp]
  simp

end Cpu.Polled

/-! ## A part of the world -/

/-- A handler that knows of the right part. -/
def Handler.right {σ : Type} (τ : Type) (handler : Handler σ) : Handler (τ × σ) := fun c w =>
  ((handler c w.2).1, w.1, (handler c w.2).2)

namespace Asm

variable {σ τ α β : Type}

/-- Code that knows of the right part. -/
def right (τ : Type) (m : Asm σ α) : Asm (τ × σ) α := fun x =>
  match m (x.1, x.2.2) with
  | .ok (a, c, s) => .ok (a, c, x.2.1, s)
  | .error (e, c, s) => .error (e, c, x.2.1, s)

theorem Runs.right {m : Asm σ α} {c : Cpu} {s : σ} {t : τ} {Q : α → Cpu → σ → Prop}
    (h : Runs m c s Q) :
    Runs (Asm.right τ m) c (t, s) fun a c' w => w.1 = t ∧ Q a c' w.2 := by
  obtain ⟨a, c', s', hm, hq⟩ := h
  refine ⟨a, c', (t, s'), ?_, rfl, hq⟩
  rw [Asm.right, hm]

end Asm

/-! ## The memory -/

/-- What holds of the memory and the world before holds behind, whatever the
registers. -/
def Asm.KeepsMem {σ α : Type} (F : (Nat → UInt8) → σ → Prop) (m : Asm σ α) : Prop :=
  Proc.Keeps (fun x => F x.1.mem x.2) m

namespace Asm.KeepsMem

variable {σ α β : Type} {F : (Nat → UInt8) → σ → Prop}

theorem pure (a : α) : KeepsMem F (Pure.pure a : Asm σ α) := Proc.Keeps.pure a

theorem bind {m : Asm σ α} {k : α → Asm σ β} (hm : KeepsMem F m) (hk : ∀ a, KeepsMem F (k a)) :
    KeepsMem F (m >>= k) := Proc.Keeps.bind hm hk

theorem upd {f : Cpu → Cpu} (hf : ∀ c, (f c).mem = c.mem) : KeepsMem F (Asm.upd f) := by
  intro x hx
  show F (f x.1).mem x.2
  rw [hf]
  exact hx

theorem tryUpd {e : Fault} {f : Cpu → Option Cpu} (hf : ∀ c c', f c = some c' → c'.mem = c.mem) :
    KeepsMem F (Asm.tryUpd e f) := by
  intro x hx
  rw [Asm.tryUpd]
  cases hfx : f x.1 with
  | none => exact hx
  | some c' =>
    show F c'.mem x.2
    rw [hf _ _ hfx]
    exact hx

theorem flag (p : Cpu → Bool) : KeepsMem F (Asm.flag p) := fun _ hx => hx

theorem int {handler : Handler σ}
    (h : ∀ c s, F c.mem s → F (handler c s).1.mem (handler c s).2) :
    KeepsMem F (Asm.int handler) := fun x hx => h x.1 x.2 hx

theorem popWord {f : Bytes × Cpu → Cpu} {c c' : Cpu} (h : c.popWord.map f = some c')
    (hf : ∀ x, (f x).mem = x.2.mem) : c'.mem = c.mem := by
  obtain ⟨x, hx, rfl⟩ := Option.map_eq_some_iff.mp h
  rw [hf]
  rw [Cpu.popWord] at hx
  split at hx
  · cases hx
    rfl
  · cases hx

theorem popw (r : Reg) : KeepsMem F (Asm.popw r) :=
  tryUpd fun _ _ h => popWord h fun _ => rfl

theorem retw : KeepsMem F Asm.retw := tryUpd fun _ _ h => popWord h fun _ => rfl

theorem popa : KeepsMem F Asm.popa := by
  apply tryUpd
  intro c c' h
  rw [Cpu.popa] at h
  split at h
  · cases h
    rfl
  · cases h

theorem callw {next : Bytes} {m : Asm σ Unit} (hm : KeepsMem F m) :
    KeepsMem F (Asm.callw next m) := by
  refine bind (upd fun _ => rfl) fun _ => bind hm fun _ => tryUpd ?_
  intro c c' h
  split at h
  · cases h
    rfl
  · cases h

theorem iterate {e : Fault} {body : α → Asm σ (α × Bool)} (h : ∀ a, KeepsMem F (body a)) (n : Nat)
    (a : α) : KeepsMem F (Proc.iterate e body n a) := Proc.Keeps.iterate h n a

end Asm.KeepsMem

end I386
