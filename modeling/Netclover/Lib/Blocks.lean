import Mathlib.Data.List.Basic
import Mathlib.Tactic.Ring

/-!
# Blocks: byte streams made of equal blocks

A `Block n` is `n` bytes. A sequence of blocks, laid end to end, is a byte
stream (`concat`); `concat_slice` reads a slice of the stream out of the one
block that holds it, and `slices` says what a sequence of reads delivers.
-/

/-- A buffer of exactly `n` bytes. -/
def Block (n : Nat) : Type := {bs : List UInt8 // bs.length = n}

namespace Block

variable {n : Nat}

instance : DecidableEq (Block n) := inferInstanceAs (DecidableEq {bs : List UInt8 // bs.length = n})

def bytes (b : Block n) : List UInt8 := b.val

@[simp] theorem length_bytes (b : Block n) : b.bytes.length = n := b.property

/-- The `n` bytes of a memory, from its address 0 on. -/
def ofMem (n : Nat) (mem : Nat → UInt8) : Block n := ⟨(List.range n).map mem, by simp⟩

/-- A block that starts with the given bytes, zeros after them. -/
def pad (n : Nat) (bs : List UInt8) : Block n :=
  ⟨(bs ++ List.replicate n 0).take n, by simp⟩

/-! ## Streams -/

/-- The first `k` blocks, end to end. -/
def concat (blk : Nat → Block n) (k : Nat) : List UInt8 :=
  (List.range k).flatMap fun j => (blk j).bytes

variable {blk : Nat → Block n}

@[simp] theorem concat_zero : concat blk 0 = [] := rfl

theorem concat_succ (k : Nat) : concat blk (k + 1) = concat blk k ++ (blk k).bytes := by
  simp [concat, List.range_succ]

@[simp] theorem length_concat (k : Nat) : (concat blk k).length = k * n := by
  induction k with
  | zero => simp
  | succ k ih => rw [concat_succ, List.length_append, ih, length_bytes, Nat.succ_mul]

theorem concat_add (j k : Nat) :
    concat blk (j + k) = concat blk j ++ concat (fun i => blk (j + i)) k := by
  induction k with
  | zero => simp
  | succ k ih => rw [← Nat.add_assoc, concat_succ, ih, concat_succ, List.append_assoc]

/-- The stream around block `j`. -/
theorem concat_split {j k : Nat} (h : j < k) :
    concat blk k = concat blk j ++ ((blk j).bytes
      ++ concat (fun i => blk (j + 1 + i)) (k - (j + 1))) := by
  conv_lhs => rw [show k = j + 1 + (k - (j + 1)) by omega]
  rw [concat_add, concat_succ, List.append_assoc]

/-- **Slices**: a slice that stays inside one block is read from that block. -/
theorem concat_slice {k p t : Nat} (hp : p < k * n) (ht : p % n + t ≤ n) :
    ((concat blk k).drop p).take t = ((blk (p / n)).bytes.drop (p % n)).take t := by
  have hj : p / n < k := Nat.div_lt_of_lt_mul (by rwa [Nat.mul_comm])
  have hlen : (concat blk (p / n)).length ≤ p := by
    rw [length_concat]
    exact Nat.div_mul_le_self p n
  have hoff : p - (concat blk (p / n)).length = p % n := by
    rw [length_concat, Nat.mod_eq_sub_div_mul]
  rw [concat_split hj, List.drop_append, List.drop_of_length_le hlen, List.nil_append, hoff,
    List.drop_append_of_le_length (by rw [length_bytes]; omega), List.take_append_of_le_length]
  rw [List.length_drop, length_bytes]
  omega

/-! ## From one place to the next -/

/-- The next place is in the same block. -/
theorem succ_div_mod_lt {j n : Nat} (h : j % n + 1 < n) :
    (j + 1) / n = j / n ∧ (j + 1) % n = j % n + 1 := by
  have hdiv := Nat.div_add_mod j n
  have hj : j + 1 = j % n + 1 + n * (j / n) := by omega
  constructor
  · rw [hj, Nat.add_mul_div_left _ _ (by omega), Nat.div_eq_of_lt h, Nat.zero_add]
  · rw [hj, Nat.add_mul_mod_self_left, Nat.mod_eq_of_lt h]

/-- The next place is the first of the next block. -/
theorem succ_div_mod_eq {j n : Nat} (h : j % n + 1 = n) :
    (j + 1) / n = j / n + 1 ∧ (j + 1) % n = 0 := by
  have hdiv := Nat.div_add_mod j n
  have hj : j + 1 = n * (j / n + 1) := by rw [Nat.mul_add]; omega
  constructor
  · rw [hj, Nat.mul_div_cancel_left _ (by omega)]
  · rw [hj, Nat.mul_mod_right]

/-- Place `i` of block `k`. -/
theorem mul_add_div_mod {k i n : Nat} (h : i < n) : (k * n + i) / n = k ∧ (k * n + i) % n = i := by
  constructor
  · rw [Nat.mul_comm, Nat.mul_add_div (by omega), Nat.div_eq_of_lt h, Nat.add_zero]
  · rw [Nat.mul_comm, Nat.mul_add_mod, Nat.mod_eq_of_lt h]

end Block

/-! ## Reads of a stream -/

/-- What reads of `ns` elements each deliver of what is left of a file. -/
def slices {α : Type} (file : List α) : List Nat → List (List α)
  | [] => []
  | n :: ns => file.take n :: slices (file.drop n) ns

/-- **Reads compose**: however a file is cut up, the pieces are its prefix. -/
theorem slices_flatten {α : Type} (file : List α) (ns : List Nat) :
    (slices file ns).flatten = file.take ns.sum := by
  induction ns generalizing file with
  | nil => simp [slices]
  | cons n ns ih => rw [slices, List.flatten_cons, ih, List.sum_cons, List.take_add]

/-- Reading `n` from position `p` moves to `p + n`, or to the end. -/
theorem drop_min_length {α : Type} (file : List α) (p n : Nat) :
    file.drop (p + min n (file.length - p)) = (file.drop p).drop n := by
  rw [List.drop_drop]
  rcases Nat.le_total n (file.length - p) with h | h
  · rw [Nat.min_eq_left h]
  · rw [Nat.min_eq_right h, List.drop_of_length_le (by omega), List.drop_of_length_le (by omega)]
