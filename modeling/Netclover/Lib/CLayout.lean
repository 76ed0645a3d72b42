import Mathlib.Logic.Function.Basic
import Mathlib.Tactic.Ring

/-!
# C structures in memory

How a C compiler lays a structure out under a System V ABI: each member at the
next offset its alignment allows, and the structure as aligned as its most
aligned member. Members are stored and loaded byte by byte, the least
significant byte first.
-/

namespace CLayout

/-! ## Layouts -/

/-- Size and alignment of a type. -/
structure CType where
  size : Nat
  align : Nat
  deriving DecidableEq, Repr

def alignUp (n a : Nat) : Nat := (n + a - 1) / a * a

/-- The offsets of the members, from offset `n` on. -/
def offsetsFrom : Nat → List CType → List Nat
  | _, [] => []
  | n, f :: fs => alignUp n f.align :: offsetsFrom (alignUp n f.align + f.size) fs

/-- Where the last member ends. -/
def endFrom : Nat → List CType → Nat
  | n, [] => n
  | n, f :: fs => endFrom (alignUp n f.align + f.size) fs

/-- The offset of member `i`. -/
def offset (members : List CType) (i : Nat) : Nat := (offsetsFrom 0 members).getD i 0

/-- The structure with these members, padded to its alignment. -/
def struct (members : List CType) : CType :=
  let align := members.foldl (fun a f => max a f.align) 1
  ⟨alignUp (endFrom 0 members) align, align⟩

/-! ## Loads and stores -/

/-- The `n` bytes at `a`, as a number. -/
def load (mem : Nat → UInt8) (a : Nat) : Nat → Nat
  | 0 => 0
  | n + 1 => (mem a).toNat + 256 * load mem (a + 1) n

/-- Store a number in the `n` bytes at `a`. -/
def store (a : Nat) : Nat → Nat → (Nat → UInt8) → Nat → UInt8
  | 0, _, mem => mem
  | n + 1, v, mem => store (a + 1) n (v / 256) (Function.update mem a (UInt8.ofNat v))

section
variable (mem : Nat → UInt8)

@[simp] theorem load_one (a : Nat) : load mem a 1 = (mem a).toNat := by
  simp [load]

theorem load_lt (a n : Nat) : load mem a n < 256 ^ n := by
  induction n generalizing a with
  | zero => exact Nat.one_pos
  | succ n ih =>
    have hbyte := (mem a).toNat_lt
    have hrest := ih (a + 1)
    rw [load, Nat.pow_succ]
    omega

/-- A load in two parts. -/
theorem load_add (a m n : Nat) : load mem a (m + n) = load mem a m + 256 ^ m * load mem (a + m) n := by
  induction m generalizing a with
  | zero => simp [load]
  | succ m ih =>
    rw [Nat.succ_add, load, load, ih (a + 1), show a + 1 + m = a + (m + 1) by omega, Nat.pow_succ]
    ring

/-- A load sees the bytes it loads and no others. -/
theorem load_congr {mem mem' : Nat → UInt8} {a n : Nat}
    (h : ∀ b, a ≤ b → b < a + n → mem b = mem' b) : load mem a n = load mem' a n := by
  induction n generalizing a with
  | zero => rfl
  | succ n ih =>
    rw [load, load, h a (Nat.le_refl a) (by omega), ih]
    intro b hb hb'
    exact h b (by omega) (by omega)

/-- The bytes of a number, loaded. -/
theorem load_digits {a n v : Nat} (h : ∀ i < n, mem (a + i) = UInt8.ofNat (v / 256 ^ i)) :
    load mem a n = v % 256 ^ n := by
  induction n generalizing a v with
  | zero => rw [load, Nat.pow_zero, Nat.mod_one]
  | succ n ih =>
    have hfirst : mem a = UInt8.ofNat v := by simpa using h 0 (by omega)
    have hrest : load mem (a + 1) n = v / 256 % 256 ^ n := by
      refine ih fun i hi => ?_
      rw [Nat.div_div_eq_div_mul, ← Nat.pow_succ', ← h (i + 1) (by omega)]
      congr 1
      omega
    have hbyte : (UInt8.ofNat v).toNat = v % 256 := UInt8.toNat_ofNat'
    have hpow : 256 ^ (n + 1) = 256 * 256 ^ n := Nat.pow_succ'
    rw [load, hfirst, hrest, hbyte, hpow, Nat.mod_mul]

theorem store_of_not_mem {a n v b : Nat} (h : b < a ∨ a + n ≤ b) : store a n v mem b = mem b := by
  induction n generalizing a v mem with
  | zero => rfl
  | succ n ih =>
    rw [store, ih _ (by omega), Function.update_of_ne (by omega)]

/-- **A stored number is loaded back.** -/
theorem load_store {a n v : Nat} (hv : v < 256 ^ n) : load (store a n v mem) a n = v := by
  induction n generalizing a v mem with
  | zero =>
    rw [Nat.pow_zero] at hv
    rw [load]
    omega
  | succ n ih =>
    have hfirst : store (a + 1) n (v / 256) (Function.update mem a (UInt8.ofNat v)) a
        = UInt8.ofNat v := by
      rw [store_of_not_mem _ (by omega), Function.update_self]
    have hrest : v / 256 < 256 ^ n := Nat.div_lt_of_lt_mul (by rw [← Nat.pow_succ']; exact hv)
    rw [load, store, hfirst, ih _ hrest, UInt8.toNat_ofNat']
    omega

/-- Stores elsewhere do not matter. -/
theorem load_store_of_disjoint {a n v b m : Nat} (h : b + m ≤ a ∨ a + n ≤ b) :
    load (store a n v mem) b m = load mem b m := by
  apply load_congr
  intro c hc hc'
  exact store_of_not_mem mem (by omega)

end

end CLayout
