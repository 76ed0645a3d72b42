import Mathlib.Logic.Basic

/-!
# The 8259 interrupt controller

What a controller makes of a byte written to its data port depends on how many
initialisation words it still waits for. Behind the last of them the data port
is the interrupt mask. A PC has two controllers, each with two ports of its
own, so their sequences may be interleaved (`Pair.outs_master`,
`Pair.outs_slave`).
-/

namespace I8259

/-- The word the data port takes next. -/
inductive Phase where
  | icw2 | icw3 | icw4 | ready
  deriving DecidableEq, Repr

structure Pic where
  base : UInt8
  mask : UInt8
  cascade : UInt8
  mode : UInt8
  single : Bool
  needs4 : Bool
  phase : Phase
  deriving DecidableEq, Repr

/-- A byte for one of the two ports of a controller. -/
inductive Write where
  | command (v : UInt8)
  | data (v : UInt8)
  deriving DecidableEq, Repr

namespace Pic

variable (p : Pic)

/-- What comes behind the third word, or where it would be. -/
def behind3 : Phase := if p.needs4 then .icw4 else .ready

/-- Bit 4 of a command makes it the first initialisation word. It clears the
mask. The other commands concern the interrupts in service. -/
def command (v : UInt8) : Pic :=
  if v &&& 0x10 = 0 then p
  else
    { p with
      mask := 0
      mode := if v &&& 0x01 = 0 then 0 else p.mode
      single := v &&& 0x02 ≠ 0
      needs4 := v &&& 0x01 ≠ 0
      phase := .icw2 }

def data (v : UInt8) : Pic :=
  match p.phase with
  | .icw2 => { p with base := v &&& 0xF8, phase := if p.single then p.behind3 else .icw3 }
  | .icw3 => { p with cascade := v, phase := p.behind3 }
  | .icw4 => { p with mode := v, phase := .ready }
  | .ready => { p with mask := v }

def write : Write → Pic
  | .command v => p.command v
  | .data v => p.data v

def writes (ws : List Write) : Pic := ws.foldl write p

/-- **The initialisation sequence** of a controller that is not alone and gets
all four words: whatever it was in the middle of, it ends with the vector base
it was given, and the byte behind the words is the mask. -/
theorem writes_init (icw1 : UInt8) (hinit : icw1 &&& 0x10 ≠ 0) (hneeds : icw1 &&& 0x01 ≠ 0)
    (hsingle : icw1 &&& 0x02 = 0) (icw2 icw3 icw4 mask : UInt8) :
    p.writes [.command icw1, .data icw2, .data icw3, .data icw4, .data mask]
      = ⟨icw2 &&& 0xF8, mask, icw3, icw4, false, true, .ready⟩ := by
  simp [writes, write, command, data, behind3, hinit, hneeds, hsingle]

end Pic

/-! ## Two controllers -/

structure Pair where
  master : Pic
  slave : Pic
  deriving DecidableEq, Repr

/-- The write that a byte on a port is for the master. -/
def toMaster (out : UInt16 × UInt8) : Option Write :=
  if out.1 = 0x20 then some (.command out.2) else if out.1 = 0x21 then some (.data out.2) else none

def toSlave (out : UInt16 × UInt8) : Option Write :=
  if out.1 = 0xA0 then some (.command out.2) else if out.1 = 0xA1 then some (.data out.2) else none

namespace Pair

variable (s : Pair)

def outb (out : UInt16 × UInt8) : Pair where
  master := (toMaster out).elim s.master s.master.write
  slave := (toSlave out).elim s.slave s.slave.write

/-- The data ports read the masks. The other two ports show the interrupts
that wait, which is no part of this. -/
def inb (port : UInt16) : UInt8 :=
  if port = 0x21 then s.master.mask else if port = 0xA1 then s.slave.mask else 0

def outs (writes : List (UInt16 × UInt8)) : Pair := writes.foldl outb s

/-- **Each controller sees its own writes**, in their order. -/
theorem outs_master (writes : List (UInt16 × UInt8)) :
    (s.outs writes).master = s.master.writes (writes.filterMap toMaster) := by
  induction writes generalizing s with
  | nil => rfl
  | cons out writes ih =>
    rw [show s.outs (out :: writes) = (s.outb out).outs writes from rfl, ih, outb]
    cases hout : toMaster out with
    | none => rw [List.filterMap_cons_none hout, Option.elim_none]
    | some w =>
      rw [List.filterMap_cons_some hout, Option.elim_some]
      rfl

theorem outs_slave (writes : List (UInt16 × UInt8)) :
    (s.outs writes).slave = s.slave.writes (writes.filterMap toSlave) := by
  induction writes generalizing s with
  | nil => rfl
  | cons out writes ih =>
    rw [show s.outs (out :: writes) = (s.outb out).outs writes from rfl, ih, outb]
    cases hout : toSlave out with
    | none => rw [List.filterMap_cons_none hout, Option.elim_none]
    | some w =>
      rw [List.filterMap_cons_some hout, Option.elim_some]
      rfl

end Pair

end I8259
