import Netclover.Stage2.Bounds

/-!
# Reading a file along its chain

`FileAt` ties the five fields of a file handle to the chain of the file: the
buffer holds the sector of the chain that the position lies in, until the end
of the chain has been seen and the size says so. `readFile_ensures` is the
contract of `FAT_Read` on such a handle; `fatReads_ensures` runs it over any
sequence of calls.
-/

namespace Netclover.Stage2

open Proc Libc Fat12

variable {σ : Type} {M : Machine σ} {env : Env}

/-! ## The handle and the chain -/

/-- The number of bytes the clusters of a chain hold. -/
def chainBytes (v : Volume) (cs : List Nat) : Nat := cs.length * v.layout.sectorsPerCluster * 512

/-- The handle stands on sector `j` of the chain. -/
structure AtSector (v : Volume) (cs : List Nat) (j : Nat) (fd : FatFileData) : Prop where
  inside : j < cs.length * v.layout.sectorsPerCluster
  cluster : fd.currentCluster.toNat = cs.getD (j / v.layout.sectorsPerCluster) 0
  sector : fd.currentSectorInCluster.toNat = j % v.layout.sectorsPerCluster

/-- What stays true of a file handle: it is not the root's, and no directory. -/
structure RegularFile (fd : FatFileData) : Prop where
  handle : fd.pub.handle ≠ rootDirectoryHandle
  isDirectory : fd.pub.isDirectory = false

/-- The handle is at position `p`, inside the chain, with the sector around
it in the buffer. -/
structure OnChain (img : Image) (v : Volume) (cs : List Nat) (p : Nat) (fd : FatFileData) :
    Prop extends AtSector v cs (p / 512) fd, RegularFile fd where
  position : fd.pub.position.toNat = p
  buffer : fd.buffer = chainSector img v.layout cs (p / 512)

/-- The handle has seen the end of the chain, at position `p`. -/
structure Ended (p : Nat) (fd : FatFileData) : Prop extends RegularFile fd where
  position : fd.pub.position.toNat = p
  size : fd.pub.size = fd.pub.position

/-- The handle of a file whose directory entry gives the size `size`, at
position `p`. -/
def FileAt (img : Image) (v : Volume) (cs : List Nat) (size p : Nat) (fd : FatFileData) : Prop :=
  p ≤ size ∧ (OnChain img v cs p fd ∧ fd.pub.size.toNat = size ∨
    Ended p fd ∧ p = chainBytes v cs)

section Reading

variable {img : Image} {Bad : σ → Prop} {halts : Stop → Prop} {v : Volume} {cs : List Nat}
  {first : Nat}

@[simp] theorem length_contents (img : Image) (v : Volume) (cs : List Nat) :
    (contents img v.layout cs).length = chainBytes v cs := by
  rw [contents, Block.length_concat, chainBytes]

/-- Positions on a chain are far from wrapping. -/
theorem chainBytes_lt (hcs : Chain v.fat first cs) : chainBytes v cs < 2 ^ 30 := by
  have h₁ := hcs.length_le
  have h₂ : v.layout.sectorsPerCluster < 256 := v.sectorsPerCluster.toNat_lt
  have h₃ : cs.length * v.layout.sectorsPerCluster ≤ 0xFEE * 255 :=
    Nat.mul_le_mul h₁ (by omega)
  rw [chainBytes]
  omega

/-! ## On to the next sector -/

/-- The walk to the next sector follows the chain, and leaves it only after
the last one. -/
theorem nextSector_at (env : Env) (hv : v.Mounted) (hcs : Chain v.fat first cs) {j : Nat}
    {fd : FatFileData} (h : AtSector v cs j fd) :
    (j + 1 < cs.length * v.layout.sectorsPerCluster → AtSector v cs (j + 1) (nextSector v env fd)) ∧
    (j + 1 = cs.length * v.layout.sectorsPerCluster →
      0xFF8 ≤ (nextSector v env fd).currentCluster.toNat) := by
  have hspc : 1 ≤ v.layout.sectorsPerCluster := UInt8.le_iff_toNat_le.mp hv.sectorsPerCluster
  have hspc' : v.layout.sectorsPerCluster < 256 := v.sectorsPerCluster.toNat_lt
  have hmod := Nat.mod_lt j hspc
  have hdiv : j / v.layout.sectorsPerCluster < cs.length :=
    Nat.div_lt_of_lt_mul (by rw [Nat.mul_comm]; exact h.inside)
  have hcluster := hcs.getD_data hdiv
  have htable := hcs.inTable _ (getD_mem hdiv)
  have hsucc : (fd.currentSectorInCluster + 1).toNat = j % v.layout.sectorsPerCluster + 1 := by
    rw [UInt32.toNat_add, h.sector]
    show (_ + 1) % _ = _
    omega
  have hge : fd.currentSectorInCluster + 1 ≥ v.sectorsPerCluster.toUInt32 ↔
      v.layout.sectorsPerCluster ≤ j % v.layout.sectorsPerCluster + 1 := by
    rw [ge_iff_le, UInt32.le_iff_toNat_le, hsucc, UInt8.toNat_toUInt32]
    rfl
  have hentry : (fatNextCluster v env fd.currentCluster).toNat
      = entry v.fat (cs.getD (j / v.layout.sectorsPerCluster) 0) := by
    rw [toNat_fatNextCluster (by rw [h.cluster]; exact htable) (by rw [h.cluster]; omega),
      h.cluster]
  rw [nextSector]
  by_cases hlast : v.layout.sectorsPerCluster ≤ j % v.layout.sectorsPerCluster + 1
  · -- the last sector of its cluster: on to the cluster the FAT names
    rw [if_pos (hge.mpr hlast)]
    obtain ⟨hd, hm⟩ := Block.succ_div_mod_eq (j := j) (n := v.layout.sectorsPerCluster) (by omega)
    constructor
    · intro hj
      have hnext : j / v.layout.sectorsPerCluster + 1 < cs.length := by
        rw [← hd]
        exact Nat.div_lt_of_lt_mul (by rw [Nat.mul_comm]; exact hj)
      exact ⟨hj, by rw [hd, ← hcs.linked _ hnext]; exact hentry, by rw [hm]; rfl⟩
    · intro hj
      have hend : j / v.layout.sectorsPerCluster = cs.length - 1 := by
        have hlen : (j + 1) / v.layout.sectorsPerCluster = cs.length := by
          rw [hj, Nat.mul_div_cancel _ hspc]
        rw [← hlen, hd, Nat.add_sub_cancel]
      rw [hend] at hentry
      show 0xFF8 ≤ (fatNextCluster v env fd.currentCluster).toNat
      rw [hentry]
      exact hcs.ends
  · -- the next sector of the same cluster
    rw [if_neg (fun e => hlast (hge.mp e))]
    obtain ⟨hd, hm⟩ := Block.succ_div_mod_lt (j := j) (n := v.layout.sectorsPerCluster) (by omega)
    constructor
    · intro hj
      exact ⟨hj, by rw [hd]; exact h.cluster, by rw [hm]; exact hsucc⟩
    · intro hj
      have : (j + 1) % v.layout.sectorsPerCluster = 0 := by rw [hj, Nat.mul_mod_left]
      omega

/-- What the step to the next sector does to a read of any file or directory
but the root, behind sector `j` of its chain. -/
structure Walked (img : Image) (v : Volume) (cs : List Nat) (j : Nat) (st : ReadState)
    (r : ReadState × Bool) : Prop where
  byteCount : r.1.byteCount = st.byteCount
  out : r.1.out = st.out
  more : r.2 = true → AtSector v cs (j + 1) r.1.fd ∧
    r.1.fd.buffer = chainSector img v.layout cs (j + 1) ∧ r.1.fd.pub = st.fd.pub
  stop : r.2 = false → j + 1 = cs.length * v.layout.sectorsPerCluster ∧
    r.1.fd.pub = { st.fd.pub with size := st.fd.pub.position }

/-- What it does to a read of a file that has just emptied the buffer of
sector `j`. -/
structure Advanced (img : Image) (v : Volume) (cs : List Nat) (j : Nat) (st : ReadState)
    (r : ReadState × Bool) : Prop where
  byteCount : r.1.byteCount = st.byteCount
  out : r.1.out = st.out
  more : r.2 = true → OnChain img v cs ((j + 1) * 512) r.1.fd ∧ r.1.fd.pub.size = st.fd.pub.size
  stop : r.2 = false → (j + 1) * 512 = chainBytes v cs ∧ Ended ((j + 1) * 512) r.1.fd

variable (hM : Serves M img Bad) (hbar : ∀ m b, M.loadingBar m b = none → halts .divideError)
  (hv : v.Mounted) (hcs : Chain v.fat first cs)
include hM hbar hv hcs

/-- **`FAT_Read`'s step to the next sector**: the next one of the chain, or
the end of the chain. -/
theorem readNext_walks {j : Nat} {st : ReadState} (hat : AtSector v cs j st.fd)
    (hhandle : st.fd.pub.handle ≠ rootDirectoryHandle) :
    Ensures Bad halts (readNext M v env st) (Walked img v cs j st) := by
  have hnext := nextSector_at env hv hcs hat
  have hpub := nextSector_pub v env st.fd
  generalize hfd : nextSector v env st.fd = fd at hnext hpub
  have hin := hat.inside
  simp only [readNext, if_neg hhandle, hfd]
  by_cases hlast : j + 1 = cs.length * v.layout.sectorsPerCluster
  · -- the walk has left the chain
    have hend : fd.currentCluster ≥ 0xFF8 := UInt32.le_iff_toNat_le.mpr (hnext.2 hlast)
    rw [if_pos hend]
    refine Ensures.pure ⟨rfl, rfl, by simp, fun _ => ⟨hlast, ?_⟩⟩
    dsimp only
    rw [hpub]
  · have hat' := hnext.1 (by omega)
    have hdiv : (j + 1) / v.layout.sectorsPerCluster < cs.length :=
      Nat.div_lt_of_lt_mul (by rw [Nat.mul_comm]; exact hat'.inside)
    have hdata := hcs.getD_data hdiv
    have hspc : 1 ≤ v.layout.sectorsPerCluster := UInt8.le_iff_toNat_le.mp hv.sectorsPerCluster
    have hspc' : v.layout.sectorsPerCluster < 256 := v.sectorsPerCluster.toNat_lt
    have hmod := Nat.mod_lt (j + 1) hspc
    have hnot : ¬ fd.currentCluster ≥ 0xFF8 := by
      rw [ge_iff_le, UInt32.le_iff_toNat_le, hat'.cluster]
      show ¬ 0xFF8 ≤ _
      omega
    have hlba : (fatClusterToLba v fd.currentCluster + fd.currentSectorInCluster).toNat
        = v.layout.clusterLba (cs.getD ((j + 1) / v.layout.sectorsPerCluster) 0)
          ((j + 1) % v.layout.sectorsPerCluster) := by
      rw [hv.toNat_clusterToLba (by rw [hat'.cluster]; exact hdata.1)
        (by rw [hat'.cluster]; exact hdata.2) (by rw [hat'.sector]; omega), hat'.cluster,
        hat'.sector]
    rw [if_neg hnot]
    refine Ensures.bind (diskReadSectors_ensures hM _ 1 _) (fun r => ?_) ?_
    · split
      · exact Keeps.pure _
      · split
        · exact Keeps.halt _
        · exact Keeps.pure _
    · rintro r rfl
      rw [hlba, imageSectors_one]
      simp only [ne_eq, not_true_eq_false, if_false]
      split
      · rename_i hnone
        exact Ensures.halt (hbar _ _ hnone)
      · exact Ensures.pure ⟨rfl, rfl,
          fun _ => ⟨⟨hat'.inside, hat'.cluster, hat'.sector⟩, rfl, hpub⟩, by simp⟩

/-- The same for the handle of a file. -/
theorem readNext_ensures {j : Nat} {st : ReadState} (hat : AtSector v cs j st.fd)
    (hreg : RegularFile st.fd) (hp : st.fd.pub.position.toNat = (j + 1) * 512) :
    Ensures Bad halts (readNext M v env st) (Advanced img v cs j st) := by
  refine (readNext_walks hM hbar hv hcs hat hreg.handle).mono fun r hr => ?_
  have hdiv : (j + 1) * 512 / 512 = j + 1 := Nat.mul_div_cancel _ (by decide)
  refine ⟨hr.byteCount, hr.out, fun hmore => ?_, fun hstop => ?_⟩
  · obtain ⟨hat', hbuffer, hpub⟩ := hr.more hmore
    refine ⟨⟨?_, ⟨?_, ?_⟩, ?_, ?_⟩, by rw [hpub]⟩
    · rw [hdiv]
      exact hat'
    · rw [hpub]
      exact hreg.handle
    · rw [hpub]
      exact hreg.isDirectory
    · rw [hpub, hp]
    · rw [hdiv]
      exact hbuffer
  · obtain ⟨hlast, hpub⟩ := hr.stop hstop
    refine ⟨by rw [chainBytes, hlast], ⟨⟨?_, ?_⟩, ?_, ?_⟩⟩
    · rw [hpub]
      exact hreg.handle
    · rw [hpub]
      exact hreg.isDirectory
    · rw [hpub]
      exact hp
    · rw [hpub]

/-! ## The loop -/

omit hM hbar hv hcs in
/-- The slice of the file that the buffer holds. -/
theorem OnChain.slice {p t : Nat} {fd : FatFileData} (h : OnChain img v cs p fd)
    (ht : p % 512 + t ≤ 512) :
    (fd.buffer.bytes.drop (p % 512)).take t = ((contents img v.layout cs).drop p).take t := by
  have hp : p < cs.length * v.layout.sectorsPerCluster * 512 := by
    have := h.inside
    omega
  rw [contents, Block.concat_slice hp ht, h.buffer]

/-- The invariant of the loop of `FAT_Read`, for `n` bytes from position `p`
on: what has been stored is the file's, and the handle stands behind it. -/
structure Reading (img : Image) (v : Volume) (cs : List Nat) (size p n : Nat) (st : ReadState) :
    Prop where
  count : st.out.length + st.byteCount.toNat = n
  out : st.out = ((contents img v.layout cs).drop p).take st.out.length
  file : OnChain img v cs (p + st.out.length) st.fd
  size : st.fd.pub.size.toNat = size

/-- What the loop ends with. -/
structure HasRead (img : Image) (v : Volume) (cs : List Nat) (size p n : Nat) (st : ReadState) :
    Prop where
  out : st.out = ((contents img v.layout cs).drop p).take n
  file : FileAt img v cs size (p + st.out.length) st.fd

omit hM hbar hv in
/-- The copy of a pass takes a slice of the file. -/
theorem Reading.take {size p n : Nat} (hn : p + n ≤ size) (hsize : size < 2 ^ 31) {st : ReadState}
    (h : Reading img v cs size p n st) :
    ∃ st' emptied t, readTake st = some (st', emptied) ∧
      t = min st.byteCount.toNat (512 - (p + st.out.length) % 512) ∧
      st'.byteCount.toNat = st.byteCount.toNat - t ∧
      st'.out.length = st.out.length + t ∧
      st'.out = ((contents img v.layout cs).drop p).take st'.out.length ∧
      st'.fd = { st.fd with pub.position := st'.fd.pub.position } ∧
      st'.fd.pub.position.toNat = p + st'.out.length ∧
      (emptied = true ↔ t = 512 - (p + st.out.length) % 512) := by
  have hcount := h.count
  have hinside := h.file.inside
  have htotal := chainBytes_lt hcs
  have hlen := length_contents img v cs
  have hposition := h.file.position
  obtain ⟨st', emptied, t, htake, ht, hcount', hout', hfd', hposition', hemptied⟩ :=
    readTake_eq st (by omega)
  rw [hposition] at ht hout' hposition' hemptied
  rw [Nat.mod_eq_of_lt (by rw [chainBytes] at htotal; omega)] at hposition'
  have hslice := h.file.slice (t := t) (by omega)
  have hbytes : st'.out = ((contents img v.layout cs).drop p).take (st.out.length + t) := by
    rw [hout', hslice, List.take_add, List.drop_drop, ← h.out]
  have hlength : st'.out.length = st.out.length + t := by
    rw [hbytes, List.length_take, List.length_drop, hlen, chainBytes]
    omega
  exact ⟨st', emptied, t, htake, ht, hcount', hlength, by rw [hlength, ← hbytes], hfd',
    by rw [hposition', hlength, Nat.add_assoc], hemptied⟩

omit hM hbar hv in
/-- Where the copy leaves the handle: at the sector it was at. -/
theorem Reading.taken {size p n : Nat} (hn : p + n ≤ size) (hsize : size < 2 ^ 31)
    {st st' : ReadState} {emptied : Bool} (h : Reading img v cs size p n st)
    (htake : readTake st = some (st', emptied)) :
    RegularFile st'.fd ∧ AtSector v cs ((p + st.out.length) / 512) st'.fd ∧
      st'.fd.buffer = chainSector img v.layout cs ((p + st.out.length) / 512) ∧
      st'.fd.pub.size.toNat = size := by
  obtain ⟨st₁, emptied₁, t, htake₁, -, -, -, -, hfd, -, -⟩ := h.take hcs hn hsize
  rw [htake] at htake₁
  cases htake₁
  rw [hfd]
  exact ⟨⟨h.file.handle, h.file.isDirectory⟩, ⟨h.file.inside, h.file.cluster, h.file.sector⟩,
    h.file.buffer, h.size⟩

omit hM hbar hv in
/-- A copy that leaves something of the sector in the buffer. -/
theorem Reading.kept {size p n : Nat} (hn : p + n ≤ size) (hsize : size < 2 ^ 31)
    {st st' : ReadState} (h : Reading img v cs size p n st) (hpos : 0 < st.byteCount.toNat)
    (htake : readTake st = some (st', false)) :
    Reading img v cs size p n st' ∧ st'.byteCount.toNat < st.byteCount.toNat := by
  have hcount := h.count
  obtain ⟨hreg, hsector, hbuffer, hsize'⟩ := h.taken hcs hn hsize htake
  obtain ⟨st₁, emptied₁, t, htake₁, ht, hcount', hlength, hbytes, -, hposition, hemptied⟩ :=
    h.take hcs hn hsize
  rw [htake] at htake₁
  cases htake₁
  have hmore : t ≠ 512 - (p + st.out.length) % 512 := by simpa using hemptied
  have hdiv : (p + st'.out.length) / 512 = (p + st.out.length) / 512 := by omega
  rw [← hdiv] at hsector hbuffer
  exact ⟨⟨by omega, hbytes, ⟨hsector, hreg, hposition, hbuffer⟩, hsize'⟩, by omega⟩

/-- A copy that empties the buffer, and the step to the next sector. -/
theorem Reading.next_ensures {size p n : Nat} (hn : p + n ≤ size) (hsize : size < 2 ^ 31)
    {st st' : ReadState} (h : Reading img v cs size p n st) (hpos : 0 < st.byteCount.toNat)
    (htake : readTake st = some (st', true)) :
    Ensures Bad halts (readNext M v env st') fun r =>
      if r.2 then Reading img v cs size p n r.1 ∧ r.1.byteCount.toNat < st.byteCount.toNat
      else HasRead img v cs size p n r.1 := by
  have hcount := h.count
  have hlen := length_contents img v cs
  obtain ⟨hreg, hsector, -, hsize'⟩ := h.taken hcs hn hsize htake
  obtain ⟨st₁, emptied₁, t, htake₁, ht, hcount', hlength, hbytes, -, hposition, hemptied⟩ :=
    h.take hcs hn hsize
  rw [htake] at htake₁
  cases htake₁
  have hfull : t = 512 - (p + st.out.length) % 512 := hemptied.mp rfl
  have hjump : ((p + st.out.length) / 512 + 1) * 512 = p + st'.out.length := by omega
  refine (readNext_ensures hM hbar hv hcs hsector hreg
    (by rw [hposition, hjump])).mono fun r hr => ?_
  have hmore := hr.more
  have hstop := hr.stop
  rw [hjump] at hmore hstop
  split
  · rename_i hgo
    obtain ⟨hfile, hsz⟩ := hmore hgo
    refine ⟨⟨?_, ?_, ?_, ?_⟩, ?_⟩
    · rw [hr.out, hr.byteCount]
      omega
    · rw [hr.out]
      exact hbytes
    · rw [hr.out]
      exact hfile
    · rw [hsz, hsize']
    · rw [hr.byteCount]
      omega
  · -- the chain has ended, and with it the file
    rename_i hgo
    obtain ⟨hend, hended⟩ := hstop (by simpa using hgo)
    refine ⟨?_, by rw [hr.out]; omega, ?_⟩
    · rw [hr.out, hbytes, List.take_of_length_le (by rw [List.length_drop, hlen]; omega),
        List.take_of_length_le (by rw [List.length_drop, hlen]; omega)]
    · rw [hr.out]
      exact .inr ⟨hended, hend⟩

/-- **One pass** takes a slice of the file and keeps the handle in step. -/
theorem readPass_ensures {size p n : Nat} (hn : p + n ≤ size) (hsize : size < 2 ^ 31)
    {st : ReadState} (h : Reading img v cs size p n st) :
    Ensures Bad halts (readPass M v env st) fun r =>
      if r.2 then Reading img v cs size p n r.1 ∧ r.1.byteCount.toNat < st.byteCount.toNat
      else HasRead img v cs size p n r.1 := by
  by_cases hpos : st.byteCount > 0
  · have hpos' : 0 < st.byteCount.toNat := hpos
    obtain ⟨st', emptied, t, htake, -⟩ := h.take hcs hn hsize
    simp only [readPass, if_pos hpos, htake]
    cases emptied with
    | false => exact Ensures.pure (h.kept hcs hn hsize hpos' htake)
    | true => exact h.next_ensures hM hbar hv hcs hn hsize hpos' htake
  · have hcount := h.count
    have hzero : st.byteCount.toNat = 0 := by
      have : ¬ 0 < st.byteCount.toNat := hpos
      omega
    simp only [readPass, if_neg hpos]
    refine Ensures.pure ?_
    rw [if_neg (by simp)]
    refine ⟨?_, ?_, .inl ⟨h.file, h.size⟩⟩
    · rw [h.out]
      congr 1
      omega
    · show p + st.out.length ≤ size
      omega

omit hM hbar hv hcs in
/-- What a read of a file may take, of `byteCount` bytes asked for. -/
theorem toNat_readClamp {fd : FatFileData} {byteCount : UInt32} {size p : Nat}
    (hreg : RegularFile fd) (hp : fd.pub.position.toNat = p) (hs : fd.pub.size.toNat = size)
    (hle : p ≤ size) (hsize : size < 2 ^ 31) (hb : byteCount.toNat < 2 ^ 31) :
    (readClamp fd byteCount).toNat = min byteCount.toNat (size - p) := by
  have hsub : (fd.pub.size - fd.pub.position).toNat = size - p := by
    rw [UInt32.toNat_sub_of_le _ _ (by rw [UInt32.le_iff_toNat_le]; omega), hp, hs]
  rw [readClamp, if_pos (by simp [hreg.isDirectory]), toNat_minInt hb (by omega), hsub]

omit hM hbar hv hcs in
/-- Past the end of the chain nothing is left to take. -/
theorem Ended.readClamp {fd : FatFileData} {byteCount : UInt32} {p : Nat} (h : Ended p fd)
    (hp : p < 2 ^ 31) (hb : byteCount.toNat < 2 ^ 31) : Stage2.readClamp fd byteCount = 0 := by
  have hclamp := toNat_readClamp h.toRegularFile h.position (by rw [h.size, h.position])
    (Nat.le_refl p) hp hb
  rw [Nat.sub_self, Nat.min_zero] at hclamp
  exact UInt32.toNat_inj.mp hclamp

/-- **`FAT_Read` on the handle of a file**: as much of the file as there is
from the position on, and the position behind it. -/
theorem readFile_ensures {fd : FatFileData} {byteCount : UInt32} {size p : Nat}
    (h : FileAt img v cs size p fd) (hsize : size < 2 ^ 31) (hb : byteCount.toNat < 2 ^ 31) :
    Ensures Bad halts (readFile M v env fd byteCount) fun st =>
      st.out = (((contents img v.layout cs).take size).drop p).take byteCount.toNat ∧
        FileAt img v cs size (p + st.out.length) st.fd := by
  have hdrop : ((contents img v.layout cs).take size).drop p
      = ((contents img v.layout cs).drop p).take (size - p) := List.drop_take
  rw [hdrop, List.take_take]
  obtain ⟨hle, ⟨hfile, hfs⟩ | ⟨hended, hend⟩⟩ := h
  · have hclamp := toNat_readClamp hfile.toRegularFile hfile.position hfs hle hsize hb
    have hinv : Reading img v cs size p (min byteCount.toNat (size - p))
        ⟨fd, readClamp fd byteCount, 0, []⟩ :=
      ⟨by simpa using hclamp, by simp, by simpa using hfile, hfs⟩
    refine Ensures.mono (Q := HasRead img v cs size p (min byteCount.toNat (size - p))) ?_
      fun st hst => ⟨hst.out, hst.file⟩
    exact Ensures.iterate (I := Reading img v cs size p (min byteCount.toNat (size - p)))
      (fun st => st.byteCount.toNat)
      (fun st => readPass_keeps hM.keeps v st)
      (fun st hst => readPass_ensures hM hbar hv hcs (by omega) hsize hst) _ _ hinv
      (.inl (Nat.lt_succ_self _))
  · -- the end has been met before: nothing is left to take
    rw [readFile, hended.readClamp (by omega) hb]
    refine Ensures.pure (Q := fun st : ReadState => _) ⟨?_, hle, ?_⟩
    · dsimp only
      rw [List.drop_of_length_le (by rw [length_contents]; omega)]
      simp
    · exact .inr ⟨by simpa using hended, by simpa using hend⟩

/-! ## Open files -/

/-- `p` is an open file of size `size` with the clusters `cs`, at position
`pos`. -/
structure OpenAt (img : Image) (v : Volume) (cs : List Nat) (size : Nat) (p : FilePtr) (pos : Nat)
    (d : Driver) : Prop where
  vol : d.vol = v
  numbered : d.Numbered p
  file : FileAt img v cs size pos (d.file p)

omit hM hbar hv hcs in
theorem OpenAt.position {p : FilePtr} {size pos : Nat} {d : Driver}
    (h : OpenAt img v cs size p pos d) : (d.file p).pub.position.toNat = pos := by
  obtain ⟨-, ⟨hfile, -⟩ | ⟨hended, -⟩⟩ := h.file
  · exact hfile.position
  · exact hended.position

omit hM hbar in
theorem AtSector.start {fd : FatFileData} (hcluster : fd.currentCluster.toNat = first)
    (hsector : fd.currentSectorInCluster = 0) : AtSector v cs 0 fd := by
  have hspc : 1 ≤ v.layout.sectorsPerCluster := UInt8.le_iff_toNat_le.mp hv.sectorsPerCluster
  refine ⟨Nat.mul_pos hcs.nonempty hspc, ?_, ?_⟩
  · rw [Nat.zero_div, hcluster, hcs.head]
  · rw [Nat.zero_mod, hsector]
    rfl

omit hM hbar hv in
theorem chainSector_zero :
    chainSector img v.layout cs 0 = img (v.layout.clusterLba first 0) := by
  rw [chainSector, Nat.zero_div, Nat.zero_mod, hcs.head]

omit hM hbar in
theorem OnChain.start {fd : FatFileData} (hreg : RegularFile fd)
    (hcluster : fd.currentCluster.toNat = first) (hsector : fd.currentSectorInCluster = 0)
    (hposition : fd.pub.position = 0) (hbuffer : fd.buffer = img (v.layout.clusterLba first 0)) :
    OnChain img v cs 0 fd := by
  refine ⟨?_, hreg, ?_, ?_⟩
  · rw [Nat.zero_div]
    exact .start hv hcs hcluster hsector
  · rw [hposition]
    rfl
  · rw [Nat.zero_div, chainSector_zero hcs, hbuffer]

omit hM hbar in
/-- Where the first sector of the chain lies. -/
theorem toNat_clusterToLba_first {cluster : UInt32} (hfirst : cluster.toNat = first) :
    (fatClusterToLba v cluster).toNat = v.layout.clusterLba first 0 := by
  have hdata := hcs.getD_data hcs.nonempty
  rw [hcs.head, ← hfirst] at hdata
  have h := hv.toNat_clusterToLba hdata.1 hdata.2 (by decide : (0 : UInt32).toNat < 256)
  rw [← hfirst]
  simpa using h

omit hbar in
/-- **`FAT_OpenEntry`** puts the handle on the first sector of the chain. -/
theorem fatOpenEntry_ensures {d : Driver} (hvol : d.vol = v) {entry : DirectoryEntry}
    (hdir : entry.isDirectory = false) (hfirst : entry.firstCluster.toNat = first) :
    Ensures Bad halts (fatOpenEntry M d entry) fun r =>
      (r.2 = none → freeHandle d = none) ∧
        ∀ p, r.2 = some p → OpenAt img v cs entry.size.toNat p 0 r.1 := by
  unfold fatOpenEntry
  split
  · rename_i hfull
    exact Ensures.pure (by simp [hfull])
  · rename_i i hi
    refine Ensures.bind (diskReadSectors_ensures hM _ 1 _) (fun r => ?_) ?_
    · dsimp only
      split
      · exact Keeps.pure _
      · exact Keeps.pure _
    · rintro r rfl
      rw [hvol, toNat_clusterToLba_first hv hcs hfirst, imageSectors_one]
      dsimp only
      rw [if_neg (by simp)]
      refine Ensures.pure ⟨fun hnone => (by cases hnone), fun p hp => ?_⟩
      cases hp
      refine ⟨hvol, ?_, Nat.zero_le _, .inl ⟨?_, ?_⟩⟩
      · rw [Driver.Numbered, Driver.file_setFile_self, handleFile_slot]
      · rw [Driver.file_setFile_self]
        refine OnChain.start hv hcs ⟨?_, hdir⟩ hfirst rfl rfl rfl
        show (i.val : Int) ≠ -1
        omega
      · rw [Driver.file_setFile_self]

/-- **`FAT_Read`** delivers the next bytes of an open file. -/
theorem fatRead_ensures {d : Driver} {p : FilePtr} {byteCount : UInt32} {size pos : Nat}
    (h : OpenAt img v cs size p pos d) (hsize : size < 2 ^ 31) (hb : byteCount.toNat < 2 ^ 31) :
    Ensures Bad halts (fatRead M env d (some p) byteCount) fun r =>
      r.2 = (((contents img v.layout cs).take size).drop pos).take byteCount.toNat ∧
        OpenAt img v cs size p (pos + r.2.length) r.1 := by
  rw [fatRead_eq h.numbered, h.vol]
  have hsame : ∀ s st t, readFile M v env (d.file p) byteCount s = .ok (st, t) →
      SameFile (d.file p) st.fd := fun s st t => readFile_same
  refine Ensures.bind ((readFile_ensures hM hbar hv hcs h.file hsize hb).and_ok hsame)
    (fun _ => Keeps.pure _) fun st hst => ?_
  obtain ⟨⟨hout, hfile⟩, hst⟩ := hst
  refine Ensures.pure ⟨hout, ?_, h.numbered.setFile hst.handle, ?_⟩
  · rw [Driver.setFile_vol, h.vol]
  · rw [Driver.file_setFile_self]
    exact hfile

end Reading

/-! ## Sequences of reads -/

/-- `FAT_Read` calls on one handle, one after the other: what each of them
delivers. -/
def fatReads (M : Machine σ) (file : Option FilePtr) :
    List (Env × UInt32) → Driver → Proc σ Stop (Driver × List (List UInt8))
  | [], d => pure (d, [])
  | (env, byteCount) :: calls, d => do
    let (d, out) ← fatRead M env d file byteCount
    let (d, outs) ← fatReads M file calls d
    return (d, out :: outs)

theorem fatReads_keeps {F : σ → Prop} (hM : M.Keeps F) (file : Option FilePtr)
    (calls : List (Env × UInt32)) (d : Driver) : Proc.Keeps F (fatReads M file calls d) := by
  induction calls generalizing d with
  | nil => exact Keeps.pure _
  | cons call calls ih =>
    exact Keeps.bind (fatRead_keeps hM d file call.2) fun r =>
      Keeps.bind (ih r.1) fun _ => Keeps.pure _

/-- **Reads compose**: a sequence of calls delivers the file in slices, and
leaves the handle behind the last one. -/
theorem fatReads_ensures {img : Image} {Bad : σ → Prop} {halts : Stop → Prop} {v : Volume}
    {cs : List Nat} {first : Nat} (hM : Serves M img Bad)
    (hbar : ∀ m b, M.loadingBar m b = none → halts .divideError) (hv : v.Mounted)
    (hcs : Chain v.fat first cs) {p : FilePtr} {size : Nat} (hsize : size < 2 ^ 31)
    (calls : List (Env × UInt32)) (hcalls : ∀ c ∈ calls, c.2.toNat < 2 ^ 31) {d : Driver}
    {pos : Nat} (h : OpenAt img v cs size p pos d) :
    Ensures Bad halts (fatReads M (some p) calls d) fun r =>
      r.2 = slices (((contents img v.layout cs).take size).drop pos) (calls.map (·.2.toNat)) ∧
        OpenAt img v cs size p (pos + r.2.flatten.length) r.1 := by
  induction calls generalizing d pos with
  | nil => exact Ensures.pure ⟨rfl, by simpa using h⟩
  | cons call calls ih =>
    obtain ⟨env, byteCount⟩ := call
    have hb := hcalls _ (List.mem_cons_self)
    refine Ensures.bind (fatRead_ensures hM hbar hv hcs h hsize hb) (fun r => ?_) ?_
    · refine Keeps.bind ?_ fun _ => Keeps.pure _
      exact fatReads_keeps hM.keeps _ _ _
    rintro ⟨d₁, out⟩ ⟨hout, h₁⟩
    dsimp only at hout h₁
    have ih' := ih (fun c hc => hcalls c (List.mem_cons_of_mem _ hc)) h₁
    refine Ensures.bind ih' (fun _ => Keeps.pure _) ?_
    rintro ⟨d₂, outs⟩ ⟨houts, h₂⟩
    dsimp only at houts h₂
    have hrest : (((contents img v.layout cs).take size).drop pos).drop byteCount.toNat
        = ((contents img v.layout cs).take size).drop (pos + out.length) := by
      have hlen : out.length
          = min byteCount.toNat (((contents img v.layout cs).take size).length - pos) := by
        rw [hout, List.length_take, List.length_drop]
      rw [hlen, drop_min_length]
    refine Ensures.pure ⟨?_, ?_⟩
    · rw [List.map_cons, slices, hrest, ← hout, ← houts]
    · simpa [Nat.add_assoc] using h₂

end Netclover.Stage2
