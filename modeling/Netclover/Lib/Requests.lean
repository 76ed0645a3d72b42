import Mathlib.Data.Fin.Tuple.Basic
import Mathlib.Logic.Function.Basic
import Netclover.Lib.I8259

/-!
# The 8259: requests and service

The other half of a controller: the lines of the devices, the requests they
leave, and the interrupts in service. A request is a rising edge of a line
that has not fallen again. The processor is offered the request of highest
priority that is not masked, unless one of its own or of higher priority is in
service. To acknowledge it puts it in service, and the end-of-interrupt command
takes out of service what has the highest priority there. Where the request
has gone in the meantime, the last line is answered for it, and nothing is put
in service.

A PC has two controllers, and the requests of the second are a request on line
2 of the first (`Cascade`). Priorities are fixed, and interrupts are edges: the
rotations, the specific commands and the other modes are left out.
-/

namespace I8259

/-! ## Sets of lines -/

/-- Lines 0 to 7, or some of them. -/
abbrev Lines : Type := Fin 8 → Bool

namespace Lines

/-- The line of highest priority. -/
def highest (l : Lines) : Option (Fin 8) := Fin.find? l

def none : Lines := fun _ => false

def set (l : Lines) (i : Fin 8) (on : Bool) : Lines := Function.update l i on

/-- Without the line of highest priority. -/
def clearHighest (l : Lines) : Lines := (highest l).elim l (l.set · false)

/-- No line but `i`. -/
def AtMost (i : Fin 8) (l : Lines) : Prop := ∀ j, l j = true → j = i

@[simp] theorem set_self (l : Lines) (i : Fin 8) (on : Bool) : l.set i on i = on :=
  Function.update_self ..

theorem set_of_ne {l : Lines} {i j : Fin 8} {on : Bool} (h : j ≠ i) : l.set i on j = l j :=
  Function.update_of_ne h ..

theorem eq_none_iff {l : Lines} : l = none ↔ ∀ i, l i = false := funext_iff

theorem highest_eq_some {l : Lines} {i : Fin 8} :
    l.highest = some i ↔ l i = true ∧ ∀ j < i, l j = false := Fin.find?_eq_some_iff

theorem highest_none : none.highest = .none := Fin.find?_eq_none_iff.mpr fun _ => rfl

@[simp] theorem clearHighest_none : none.clearHighest = none := by
  rw [clearHighest, highest_none]
  rfl

theorem atMost_none (i : Fin 8) : AtMost i none := fun _ h => absurd h Bool.false_ne_true

theorem atMost_set_none (i : Fin 8) (on : Bool) : AtMost i (none.set i on) := by
  intro j hj
  by_contra hne
  rw [set_of_ne hne] at hj
  exact absurd hj Bool.false_ne_true

/-- Of at most one line none is left. -/
theorem AtMost.clearHighest {i : Fin 8} {l : Lines} (h : l.AtMost i) : l.clearHighest = none := by
  rw [eq_none_iff]
  intro j
  rw [Lines.clearHighest]
  cases hhighest : l.highest with
  | none => exact Fin.find?_eq_none_iff.mp hhighest j
  | some k =>
    obtain rfl := h k (highest_eq_some.mp hhighest).1
    rw [Option.elim_some]
    by_cases hj : j = k
    · rw [hj, set_self]
    · rw [set_of_ne hj]
      exact Bool.eq_false_iff.mpr fun hon => hj (h j hon)

end Lines

/-! ## One controller -/

structure Chip where
  pic : Pic
  /-- What the devices put on the lines. -/
  level : Lines
  /-- The edges that have not been acknowledged. -/
  latch : Lines
  inService : Lines

/-- The end-of-interrupt command that names no line. -/
def Write.isEoi : Write → Bool
  | .command v => v &&& 0xF8 == 0x20
  | .data _ => false

/-- The first initialisation word. -/
def Write.isInit : Write → Bool
  | .command v => v &&& 0x10 != 0
  | .data _ => false

namespace Chip

variable (c : Chip)

def masked : Lines := fun i => c.pic.mask.toNat.testBit i

def requests : Lines := fun i => c.latch i && c.level i && !c.masked i

/-- What the processor is offered. -/
def offered : Option (Fin 8) :=
  c.requests.highest.filter fun i => !(List.finRange 8).any fun j => c.inService j && decide (j ≤ i)

/-- The output of the controller. -/
def int : Bool := c.offered.isSome

/-- Put a request in service. -/
def serve (i : Fin 8) : Chip :=
  { c with
    latch := c.latch.set i false
    -- bit 1 of the mode ends the service at once
    inService := if c.pic.mode &&& 0x02 = 0 then c.inService.set i true else c.inService }

/-- The line that is answered for, and the controller behind it. -/
def acknowledge : Fin 8 × Chip :=
  match c.offered with
  | some i => (i, c.serve i)
  | none => (7, c)

/-- A device drives a line. -/
def drive (i : Fin 8) (on : Bool) : Chip :=
  { c with
    level := c.level.set i on
    latch := if on && !c.level i then c.latch.set i true else c.latch }

/-- The initialisation forgets the edges. -/
def write (w : Write) : Chip where
  pic := c.pic.write w
  level := c.level
  latch := if w.isInit then Lines.none else c.latch
  inService := if w.isEoi then c.inService.clearHighest else c.inService

/-! What is offered, acknowledged and driven. -/

variable {c} {i j : Fin 8} {on : Bool}

theorem requests_of_offered (h : c.offered = some i) : c.requests i = true :=
  (Lines.highest_eq_some.mp (Option.filter_eq_some_iff.mp h).1).1

/-- With nothing in service every request is heard. -/
theorem offered_of_idle (h : c.inService = Lines.none) : c.offered = c.requests.highest := by
  rw [offered, h]
  cases c.requests.highest with
  | none => rfl
  | some i =>
    rw [Option.filter_some, if_pos]
    simp [Lines.none]

theorem int_of_idle (h : c.inService = Lines.none) (hi : c.requests i = true) : c.int = true := by
  rw [int, offered_of_idle h]
  exact Fin.isSome_find?_iff.mpr ⟨i, hi⟩

theorem acknowledge_atMost (h : c.inService = Lines.none) :
    c.acknowledge.2.inService.AtMost c.acknowledge.1 := by
  rw [acknowledge]
  cases c.offered with
  | none =>
    dsimp only
    rw [h]
    exact Lines.atMost_none _
  | some i =>
    dsimp only [serve]
    rw [h]
    split
    · exact Lines.atMost_set_none i true
    · exact Lines.atMost_none i

theorem acknowledge_latch (h : j ≠ c.acknowledge.1) : c.acknowledge.2.latch j = c.latch j := by
  rw [acknowledge] at h ⊢
  cases hoffered : c.offered with
  | none => rfl
  | some i =>
    rw [hoffered] at h
    exact Lines.set_of_ne h

@[simp] theorem acknowledge_pic : c.acknowledge.2.pic = c.pic := by
  rw [acknowledge]
  cases c.offered <;> rfl

@[simp] theorem acknowledge_level : c.acknowledge.2.level = c.level := by
  rw [acknowledge]
  cases c.offered <;> rfl

@[simp] theorem drive_pic : (c.drive i on).pic = c.pic := rfl

@[simp] theorem drive_inService : (c.drive i on).inService = c.inService := rfl

@[simp] theorem drive_level : (c.drive i on).level = c.level.set i on := rfl

theorem drive_latch_of_ne (h : j ≠ i) : (c.drive i on).latch j = c.latch j := by
  rw [drive]
  dsimp only
  split
  · exact Lines.set_of_ne h
  · rfl

/-- Of the requests behind the one in service none is offered. -/
theorem int_acknowledge (hmode : c.pic.mode &&& 0x02 = 0) : c.acknowledge.2.int = false := by
  rw [acknowledge]
  cases hoffered : c.offered with
  | none => rw [int, hoffered, Option.isSome_none]
  | some i =>
    have hhighest := Lines.highest_eq_some.mp (Option.filter_eq_some_iff.mp hoffered).1
    rw [int, Option.isSome_eq_false_iff, Option.isNone_iff_eq_none, offered,
      Option.filter_eq_none_iff]
    intro j hj
    have hrequest := (Lines.highest_eq_some.mp hj).1
    have hbehind : i ≤ j := by
      by_contra hlt
      have hearlier := hhighest.2 j (Fin.not_le.mp hlt)
      have hne : j ≠ i := fun e => hlt (Fin.le_of_eq e.symm)
      have hsame : (c.serve i).requests j = c.requests j := by
        show ((c.latch.set i false) j && _ && _) = _
        rw [Lines.set_of_ne hne]
        rfl
      rw [hsame, hearlier] at hrequest
      exact Bool.false_ne_true hrequest
    have hserved : (c.serve i).inService i = true := by
      rw [serve, if_pos hmode]
      exact Lines.set_self ..
    rw [Bool.not_eq_true, Bool.not_eq_false', List.any_eq_true]
    exact ⟨i, List.mem_finRange i, by rw [hserved, decide_eq_true hbehind]; rfl⟩

/-- Without edges there is nothing to offer. -/
theorem int_of_latch_none (h : c.latch = Lines.none) : c.int = false := by
  rw [int, Option.isSome_eq_false_iff, Option.isNone_iff_eq_none]
  cases hoffered : c.offered with
  | none => rfl
  | some i =>
    have hrequest := requests_of_offered hoffered
    rw [requests, h] at hrequest
    exact absurd hrequest Bool.false_ne_true

/-- A line that rises leaves a request. -/
theorem drive_rise (h : c.level i = false) : (c.drive i true).latch i = true := by
  rw [drive, h]
  exact Lines.set_self ..

end Chip

/-! ## Two controllers -/

/-- A request line of a PC. -/
inductive Line where
  | master (i : Fin 8)
  | slave (i : Fin 8)
  deriving DecidableEq, Repr

/-- The line of the keyboard, and that of the slave. -/
def keyboardLine : Line := .master 1

def slaveLine : Line := .master 2

structure Cascade where
  master : Chip
  slave : Chip

namespace Cascade

variable (s : Cascade)

def pair : Pair := ⟨s.master.pic, s.slave.pic⟩

/-- The output of the slave is line 2 of the master. -/
def settle : Cascade := { s with master := s.master.drive 2 s.slave.int }

def drive (l : Line) (on : Bool) : Cascade :=
  match l with
  | .master i => { s with master := s.master.drive i on }
  | .slave i => ({ s with slave := s.slave.drive i on } : Cascade).settle

def outb (out : UInt16 × UInt8) : Cascade :=
  ({ master := (toMaster out).elim s.master s.master.write
     slave := (toSlave out).elim s.slave s.slave.write } : Cascade).settle

/-- What the processor is told of. -/
def int : Bool := s.master.int

/-- The edge of a line has not been acknowledged. -/
def latched : Line → Bool
  | .master i => s.master.latch i
  | .slave i => s.slave.latch i

/-- The master has a slave on this line, and the slave knows it is meant. -/
def cascaded (i : Fin 8) : Bool :=
  s.master.pic.cascade.toNat.testBit i && s.slave.pic.cascade.toNat == i

/-- The line that the processor gets an answer for, and the controllers behind
it. -/
def inta : Line × Cascade :=
  if s.cascaded s.master.acknowledge.1 then
    (.slave s.slave.acknowledge.1,
      ({ master := s.master.acknowledge.2, slave := s.slave.acknowledge.2 } : Cascade).settle)
  else (.master s.master.acknowledge.1,
    ({ s with master := s.master.acknowledge.2 } : Cascade).settle)

/-- The answer. -/
def vector : Line → UInt8
  | .master i => s.master.pic.base + UInt8.ofNat i
  | .slave i => s.slave.pic.base + UInt8.ofNat i

/-! ## What is in service -/

/-- What is in service at the master and at the slave. -/
def service : Lines × Lines := (s.master.inService, s.slave.inService)

def Quiet : Prop := s.service = (Lines.none, Lines.none)

/-- A byte on a port ends a service or does not. -/
def endService (service : Lines × Lines) (out : UInt16 × UInt8) : Lines × Lines :=
  (if (toMaster out).any Write.isEoi then service.1.clearHighest else service.1,
    if (toSlave out).any Write.isEoi then service.2.clearHighest else service.2)

/-- Nothing is in service but what the interrupt of one line puts there. -/
def Serving : Line → Prop
  | .master i => s.master.inService.AtMost i ∧ s.slave.inService = Lines.none
  | .slave i => s.master.inService.AtMost 2 ∧ s.slave.inService.AtMost i

variable {s} {l : Line} {on : Bool} {out : UInt16 × UInt8} {i : Fin 8}

theorem pair_outb : (s.outb out).pair = s.pair.outb out := by
  rw [outb, Pair.outb]
  cases toMaster out <;> cases toSlave out <;> rfl

theorem service_outb : (s.outb out).service = endService s.service out := by
  rw [outb, endService]
  cases toMaster out <;> cases toSlave out <;> rfl

@[simp] theorem pair_drive : (s.drive l on).pair = s.pair := by
  cases l <;> rfl

@[simp] theorem service_drive : (s.drive l on).service = s.service := by
  cases l <;> rfl

@[simp] theorem pair_inta : s.inta.2.pair = s.pair := by
  rw [inta]
  split
  · exact congrArg₂ Pair.mk Chip.acknowledge_pic Chip.acknowledge_pic
  · exact congrArg₂ Pair.mk Chip.acknowledge_pic rfl

/-- With nothing in service, the answer is all that is. -/
theorem Quiet.inta (h : s.Quiet) (hslave : ∀ i, s.cascaded i = true → i = 2) :
    s.inta.2.Serving s.inta.1 := by
  obtain ⟨hm, hs⟩ := Prod.mk.inj h
  have hmaster := Chip.acknowledge_atMost hm
  rw [Cascade.inta]
  split
  · rename_i hcascaded
    rw [hslave _ hcascaded] at hmaster
    exact ⟨hmaster, Chip.acknowledge_atMost hs⟩
  · exact ⟨hmaster, hs⟩

/-! The lines of the master, but for that of the slave. -/

theorem level_settle (hi : i ≠ 2) : s.settle.master.level i = s.master.level i :=
  Lines.set_of_ne hi

theorem latch_settle (hi : i ≠ 2) : s.settle.master.latch i = s.master.latch i :=
  Chip.drive_latch_of_ne hi

theorem level_drive_self : (s.drive (.master i) on).master.level i = on :=
  Lines.set_self s.master.level i on

theorem level_drive (hi : i ≠ 2) (hl : l ≠ .master i) :
    (s.drive l on).master.level i = s.master.level i := by
  cases l with
  | master j => exact Lines.set_of_ne fun e => hl (congrArg Line.master e.symm)
  | slave j => exact level_settle hi

theorem latch_drive (hi : i ≠ 2) (hl : l ≠ .master i) :
    (s.drive l on).master.latch i = s.master.latch i := by
  cases l with
  | master j => exact Chip.drive_latch_of_ne fun e => hl (congrArg Line.master e.symm)
  | slave j => exact latch_settle hi

theorem level_outb (hi : i ≠ 2) : (s.outb out).master.level i = s.master.level i := by
  rw [outb, level_settle hi]
  cases toMaster out <;> rfl

theorem latch_outb (hi : i ≠ 2) : (s.outb out).master.latch i
    = if (toMaster out).any Write.isInit then false else s.master.latch i := by
  rw [outb, latch_settle hi]
  cases toMaster out with
  | none => rfl
  | some w =>
    show (if w.isInit = true then Lines.none else s.master.latch) i = _
    rw [Option.any_some]
    split <;> rfl

theorem level_inta (hi : i ≠ 2) : s.inta.2.master.level i = s.master.level i := by
  rw [Cascade.inta]
  split
  · exact (level_settle hi).trans (congrFun Chip.acknowledge_level i)
  · exact (level_settle hi).trans (congrFun Chip.acknowledge_level i)

/-- A master line keeps its latch, but for the one that is answered for and
that of the slave. -/
theorem latch_inta {i : Fin 8} (hi : i ≠ 2) (hslave : ∀ i, s.cascaded i = true → i = 2)
    (h : s.inta.1 ≠ .master i) : s.inta.2.master.latch i = s.master.latch i := by
  have hother : i ≠ s.master.acknowledge.1 := by
    rintro rfl
    apply h
    rw [Cascade.inta, if_neg fun hcascaded => hi (hslave _ hcascaded)]
  rw [Cascade.inta]
  split
  · exact (latch_settle hi).trans (Chip.acknowledge_latch hother)
  · exact (latch_settle hi).trans (Chip.acknowledge_latch hother)

/-- A line of the master that is answered for, and is not the last, has a
request. -/
theorem requests_of_inta (h : s.inta.1 = .master i) (hi : i ≠ 7) :
    s.master.requests i = true := by
  have hline : s.master.acknowledge.1 = i := by
    rw [Cascade.inta] at h
    split at h
    · cases h
    · exact Line.master.inj h
  rw [Chip.acknowledge] at hline
  cases hoffered : s.master.offered with
  | none =>
    rw [hoffered] at hline
    exact absurd hline.symm hi
  | some j =>
    rw [hoffered] at hline
    obtain rfl : j = i := hline
    exact Chip.requests_of_offered hoffered

/-- It is not one any more. -/
theorem latch_of_inta (h : s.inta.1 = .master i) (hi : i ≠ 7) (hi' : i ≠ 2) :
    s.inta.2.master.latch i = false := by
  have hserved : s.master.acknowledge.1 = i → s.master.acknowledge.2.latch i = false := by
    intro hline
    rw [Chip.acknowledge] at hline ⊢
    cases hoffered : s.master.offered with
    | none =>
      rw [hoffered] at hline
      exact absurd hline.symm hi
    | some j =>
      rw [hoffered] at hline
      obtain rfl : j = i := hline
      exact Lines.set_self ..
  rw [Cascade.inta] at h ⊢
  split at h
  · cases h
  · rename_i hcascaded
    rw [if_neg hcascaded]
    exact (latch_settle hi').trans (hserved (Line.master.inj h))

/-! ## The line of the slave -/

/-- Line 2 of the master is what the slave puts out, and a request of the slave
is one of the master. -/
structure Linked (s : Cascade) : Prop where
  level : s.master.level 2 = s.slave.int
  latch : s.slave.int = true → s.master.latch 2 = true

theorem linked_settle (h : s.slave.int = true → s.master.level 2 = true → s.master.latch 2 = true) :
    s.settle.Linked where
  level := Lines.set_self s.master.level 2 s.slave.int
  latch hint := by
    have hint : s.slave.int = true := hint
    show (s.master.drive 2 s.slave.int).latch 2 = true
    rw [hint, Chip.drive]
    dsimp only
    by_cases hlevel : s.master.level 2 = true
    · rw [hlevel]
      exact h hint hlevel
    · rw [Bool.eq_false_iff.mpr hlevel]
      exact Lines.set_self ..

theorem Linked.drive (h : s.Linked) (hl : l ≠ .master 2) : (s.drive l on).Linked := by
  cases l with
  | master i =>
    have hne : (2 : Fin 8) ≠ i := fun e => hl (congrArg Line.master e.symm)
    exact ⟨(Lines.set_of_ne hne).trans h.level,
      fun hint => (Chip.drive_latch_of_ne hne).trans (h.latch hint)⟩
  | slave i => exact linked_settle fun _ hlevel => h.latch (h.level.symm.trans hlevel)

/-- A write that initialises no controller, or one that initialises the
slave. -/
theorem linked_outb
    (h : (toSlave out).any Write.isInit = true ∨
      (toMaster out).any Write.isInit = false ∧ s.Linked) :
    (s.outb out).Linked := by
  rw [outb]
  apply linked_settle
  intro hint hlevel
  rcases h with hinit | ⟨hnot, hlinked⟩
  · cases hw : toSlave out with
    | none =>
      rw [hw] at hinit
      exact absurd hinit Bool.false_ne_true
    | some w =>
      rw [hw] at hint hinit
      have hinit : w.isInit = true := hinit
      exact absurd hint (Bool.eq_false_iff.mp (Chip.int_of_latch_none (if_pos hinit)))
  · cases hw : toMaster out with
    | none =>
      rw [hw] at hlevel
      exact hlinked.latch (hlinked.level.symm.trans hlevel)
    | some w =>
      rw [hw] at hlevel hnot
      have hkept : (s.master.write w).latch = s.master.latch :=
        if_neg (Bool.eq_false_iff.mp hnot)
      show (s.master.write w).latch 2 = true
      rw [hkept]
      exact hlinked.latch (hlinked.level.symm.trans hlevel)

theorem Linked.inta (h : s.Linked) (hmode : s.slave.pic.mode &&& 0x02 = 0)
    (hcascaded : s.cascaded 2 = true) : s.inta.2.Linked := by
  rw [Cascade.inta]
  split
  · apply linked_settle
    intro hint
    exact absurd hint (Bool.eq_false_iff.mp (Chip.int_acknowledge hmode))
  · rename_i hnot
    have hne : (2 : Fin 8) ≠ s.master.acknowledge.1 := fun e => hnot (e ▸ hcascaded)
    apply linked_settle
    intro hint _
    exact (Chip.acknowledge_latch hne).trans (h.latch hint)

end Cascade

end I8259
