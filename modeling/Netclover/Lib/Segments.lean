import Netclover.Lib.CLayout

/-!
# Segment descriptors

What eight bytes of a global descriptor table say, which entry a selector
names, and what the processor asks of an entry before it runs code from it or
keeps its stack in it.
-/

namespace Segments

open CLayout

/-- A descriptor, taken apart. -/
structure Descriptor where
  base : Nat
  limit : Nat
  access : UInt8
  /-- From the upper bit on: whether the limit counts pages, whether the segment
  is one of 32 bits, whether it is one of 64, and one bit to no purpose. -/
  flags : Nat
  deriving DecidableEq, Repr

/-- The base is in three parts, the limit in two. -/
def Descriptor.read (mem : Nat → UInt8) (a : Nat) : Descriptor where
  base := load mem (a + 2) 2 + 2 ^ 16 * load mem (a + 4) 1 + 2 ^ 24 * load mem (a + 7) 1
  limit := load mem a 2 + 2 ^ 16 * (load mem (a + 6) 1 % 16)
  access := UInt8.ofNat (load mem (a + 5) 1)
  flags := load mem (a + 6) 1 / 16

namespace Descriptor

theorem read_congr {mem mem' : Nat → UInt8} {a b : Nat}
    (h : ∀ i < 8, mem (a + i) = mem' (b + i)) : read mem a = read mem' b := by
  have hload : ∀ k n, k + n ≤ 8 → load mem (a + k) n = load mem' (b + k) n := by
    intro k n
    induction n generalizing k with
    | zero => exact fun _ => rfl
    | succ n ih =>
      intro hk
      have hrest := ih (k + 1) (by omega)
      rw [load, load, h k (by omega), Nat.add_assoc, Nat.add_assoc, hrest]
  have hlow := hload 0 2 (by decide)
  rw [Nat.add_zero, Nat.add_zero] at hlow
  rw [read, read, hlow, hload 2 2 (by decide), hload 4 1 (by decide), hload 5 1 (by decide),
    hload 6 1 (by decide), hload 7 1 (by decide)]

variable (d : Descriptor)

def present : Bool := d.access &&& 0x80 != 0

def privilege : UInt8 := d.access >>> 5 &&& 3

/-- It describes code or data, not something of the system. -/
def ordinary : Bool := d.access &&& 0x10 != 0

def executable : Bool := d.access &&& 0x08 != 0

/-- Code that can be read, or data that can be written. -/
def readWrite : Bool := d.access &&& 0x02 != 0

/-- The last byte of the segment. -/
def last : Nat := if 8 ≤ d.flags then d.limit * 4096 + 4095 else d.limit

/-- The width of code from here; there are 64 bits in long mode only. -/
def bits (longMode : Bool) : Nat :=
  if longMode && d.flags / 2 % 2 == 1 then 64 else if d.flags / 4 % 2 == 1 then 32 else 16

/-- Code of a privilege level can be run from here. -/
def Runs (level : UInt8) : Prop :=
  d.present = true ∧ d.ordinary = true ∧ d.executable = true ∧ d.privilege = level

/-- Code of a privilege level can have its stack and its data here. -/
def Holds (level : UInt8) : Prop :=
  d.present = true ∧ d.ordinary = true ∧ d.executable = false ∧ d.readWrite = true ∧
    d.privilege = level

/-- All addresses of 32 bits. -/
def Flat : Prop := d.base = 0 ∧ d.last = 2 ^ 32 - 1

/-- The descriptor when the processor has loaded it into a segment register. -/
def accessed : Descriptor := { d with access := d.access ||| 1 }

instance (level : UInt8) : Decidable (d.Runs level) := inferInstanceAs (Decidable (_ ∧ _))

instance (level : UInt8) : Decidable (d.Holds level) := inferInstanceAs (Decidable (_ ∧ _))

instance : Decidable d.Flat := inferInstanceAs (Decidable (_ ∧ _))

end Descriptor

/-- What the descriptor table register holds. -/
structure Gdtr where
  limit : Nat
  base : Nat

/-- The entry a selector names, if the table has it; the first one is none. -/
def Gdtr.descriptor (gdtr : Gdtr) (mem : Nat → UInt8) (selector : UInt16) : Option Descriptor :=
  let offset := selector.toNat / 8 * 8
  if 0 < offset ∧ offset + 7 ≤ gdtr.limit then some (.read mem (gdtr.base + offset)) else none

/-! ## The mark of use -/

/-- The memory when a segment register has been loaded: the processor marks the
entry. -/
def Gdtr.mark (gdtr : Gdtr) (selector : UInt16) (mem : Nat → UInt8) : Nat → UInt8 :=
  let a := gdtr.base + selector.toNat / 8 * 8 + 5
  Function.update mem a (mem a ||| 1)

section

variable (gdtr : Gdtr) (selector : UInt16) (mem : Nat → UInt8)

theorem Gdtr.mark_of_ne {a : Nat} (h : a ≠ gdtr.base + selector.toNat / 8 * 8 + 5) :
    gdtr.mark selector mem a = mem a := Function.update_of_ne h ..

/-- The entry says the same as before, and that it has been used. -/
theorem Gdtr.read_mark {n : Nat} (h : selector.toNat / 8 = n) :
    Descriptor.read (gdtr.mark selector mem) (gdtr.base + 8 * n)
      = (Descriptor.read mem (gdtr.base + 8 * n)).accessed := by
  have hentry : gdtr.base + selector.toNat / 8 * 8 = gdtr.base + 8 * n := by omega
  generalize gdtr.base + 8 * n = entry at hentry ⊢
  have hbyte : gdtr.mark selector mem (entry + 5) = mem (entry + 5) ||| 1 := by
    rw [← hentry]
    exact Function.update_self ..
  have haccess : UInt8.ofNat (load (gdtr.mark selector mem) (entry + 5) 1)
      = UInt8.ofNat (load mem (entry + 5) 1) ||| 1 := by
    rw [load_one, load_one, hbyte, UInt8.ofNat_toNat, UInt8.ofNat_toNat]
  have hpart : ∀ b n, b + n ≤ entry + 5 ∨ entry + 5 < b →
      load (gdtr.mark selector mem) b n = load mem b n := by
    intro b n hapart
    exact load_congr fun c hc hc' => gdtr.mark_of_ne selector mem (by omega)
  rw [Descriptor.read, haccess, hpart _ 2 (by omega), hpart _ 1 (by omega), hpart _ 1 (by omega),
    hpart _ 2 (by omega), hpart _ 1 (by omega)]
  rfl

/-- Another entry says what it said. -/
theorem Gdtr.read_mark_of_ne {n : Nat} (h : selector.toNat / 8 ≠ n) :
    Descriptor.read (gdtr.mark selector mem) (gdtr.base + 8 * n)
      = .read mem (gdtr.base + 8 * n) :=
  Descriptor.read_congr fun i hi => gdtr.mark_of_ne selector mem (by omega)

end

end Segments
