import Netclover.Fat12.Packing
import Netclover.Stage2.Mount

/-!
# `FAT_NextCluster` on a packed table

The driver cuts an entry out of the 16-bit word its first byte begins, with a
mask or a shift. On a packed table this gives the value that was packed
(`fatNextCluster_pack`), and the word is inside the table, also for the last of
an odd number of entries.
-/

namespace Netclover.Stage2

variable {v : Volume} {env : Env}

/-- The offsets from `fat` of the bytes that `FAT_NextCluster` loads. -/
def lookupOffsets (currentCluster : UInt32) : List Nat :=
  let fatIndex := currentCluster * 3 / 2
  [fatIndex.toNat, fatIndex.toNat + 1]

/-- **It loads nothing else**: where the two bytes agree, so do the results. -/
theorem fatNextCluster_congr {v' : Volume} {env' : Env} {cluster : UInt32}
    (h : ∀ o ∈ lookupOffsets cluster, fatByte v' env' o = fatByte v env o) :
    fatNextCluster v' env' cluster = fatNextCluster v env cluster := by
  have hlow := h _ (List.mem_cons_self ..)
  have hhigh := h _ (List.mem_cons_of_mem _ (List.mem_cons_self ..))
  simp only [fatNextCluster, hlow, hhigh]

/-- The bytes from `fat` on are those of the table. -/
def TableAt (v : Volume) (env : Env) (table : List UInt8) : Prop :=
  ∀ o, o < table.length → fatByte v env o = table.getD o 0

theorem tableAt_append {table rest : List UInt8} (h : v.fat = table ++ rest) :
    TableAt v env table := by
  intro o ho
  have hget : v.fat.getD o (env.mem o) = table.getD o (env.mem o) := by
    rw [h, List.getD_append _ _ _ _ ho]
  rw [fatByte, hget, List.getD_eq_getElem _ _ ho, List.getD_eq_getElem _ _ ho]

theorem mem_lookupOffsets {i o : Nat} (hi : i < 2 ^ 30)
    (ho : o ∈ lookupOffsets (UInt32.ofNat i)) : o = i * 3 / 2 ∨ o = i * 3 / 2 + 1 := by
  have hindex : (UInt32.ofNat i * 3 / 2).toNat = i * 3 / 2 := by
    rw [UInt32.toNat_div, UInt32.toNat_mul, UInt32.toNat_ofNat_of_lt' (Nat.lt_trans hi (by decide))]
    show i * 3 % 2 ^ 32 / 2 = i * 3 / 2
    omega
  simp only [lookupOffsets, hindex, List.mem_cons, List.not_mem_nil, or_false] at ho
  exact ho

/-- **`FAT_NextCluster`** unpacks a packed table: it returns the value that was
packed, and the bytes it loads are the table's. -/
theorem fatNextCluster_pack {spare : BitVec 4} {values : List (BitVec 12)}
    (htable : TableAt v env (Fat12.pack spare values)) {i : Nat} (hi : i < values.length)
    (hi' : i < 2 ^ 30) :
    (fatNextCluster v env (UInt32.ofNat i)).toNat = (values[i]).toNat ∧
    (∀ o ∈ lookupOffsets (UInt32.ofNat i), o < (Fat12.pack spare values).length) ∧
    ∀ v' env', (∀ o ∈ lookupOffsets (UInt32.ofNat i), fatByte v' env' o = fatByte v env o) →
      fatNextCluster v' env' (UInt32.ofNat i) = fatNextCluster v env (UInt32.ofNat i) := by
  have hlast : i * 3 / 2 + 1 < (Fat12.pack spare values).length :=
    Fat12.offset_lt_length_pack hi
  have hinside : ∀ o ∈ lookupOffsets (UInt32.ofNat i),
      o < (Fat12.pack spare values).length := by
    intro o ho
    rcases mem_lookupOffsets hi' ho with rfl | rfl
    · exact Nat.lt_of_succ_lt hlast
    · exact hlast
  have hcluster : (UInt32.ofNat i).toNat = i :=
    UInt32.toNat_ofNat_of_lt' (Nat.lt_trans hi' (by decide))
  refine ⟨?_, hinside, fun v' env' h => fatNextCluster_congr h⟩
  -- as if the table were all that was read
  have hsame : fatNextCluster { v with fat := Fat12.pack spare values } env (UInt32.ofNat i)
      = fatNextCluster v env (UInt32.ofNat i) := by
    refine fatNextCluster_congr fun o ho => ?_
    rw [htable o (hinside o ho)]
    exact tableAt_append (List.append_nil _).symm o (hinside o ho)
  rw [← hsame, toNat_fatNextCluster (by rw [hcluster]; exact hlast) (by rw [hcluster]; exact hi'),
    hcluster, Fat12.entry_pack hi]

/-- The last of three entries, in the five bytes of their table. -/
theorem fatNextCluster_pack_last :
    (fatNextCluster { sampleMounted.vol with fat := Fat12.pack 0 [0xFF0, 0xFFF, 0x123] } sampleEnv
      (UInt32.ofNat 2)).toNat = ([0xFF0, 0xFFF, 0x123] : List (BitVec 12))[2].toNat ∧
    (∀ o ∈ lookupOffsets (UInt32.ofNat 2), o < (Fat12.pack 0 [0xFF0, 0xFFF, 0x123]).length) ∧
    ∀ v' env', (∀ o ∈ lookupOffsets (UInt32.ofNat 2), fatByte v' env' o = fatByte
        { sampleMounted.vol with fat := Fat12.pack 0 [0xFF0, 0xFFF, 0x123] } sampleEnv o) →
      fatNextCluster v' env' (UInt32.ofNat 2) = fatNextCluster
        { sampleMounted.vol with fat := Fat12.pack 0 [0xFF0, 0xFFF, 0x123] } sampleEnv
        (UInt32.ofNat 2) :=
  fatNextCluster_pack (tableAt_append (List.append_nil _).symm) (by decide) (by decide)

end Netclover.Stage2
