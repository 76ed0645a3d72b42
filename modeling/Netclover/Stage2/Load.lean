import Netclover.Stage2.Chain

/-!
# Loading a file (`cmain`)

The read loop of `cmain`: a file is read 64 KiB at a time, and each piece is
copied behind the last one. The `n`-th call of the driver finds the memory
`envs n`.
-/

namespace Netclover.Stage2

open Proc Libc Fat12

variable {σ : Type} {M : Machine σ}

/-! ## The read loop of `cmain` -/

def memoryLoadSize : UInt32 := 0x10000

def memoryKernelAddr : Nat := 0x100000

/-- The local variables of the loop, and the memory it copies to. -/
structure LoadState where
  driver : Driver
  memBuffer : Nat
  memory : Nat → UInt8
  calls : Nat

/-- One evaluation of the loop condition, and the body if it holds. -/
def loadPass (M : Machine σ) (envs : Nat → Env) (kernelfd : Option FilePtr) (st : LoadState) :
    Proc σ Stop (LoadState × Bool) := do
  let (driver, read) ← fatRead M (envs st.calls) st.driver kernelfd memoryLoadSize
  let st := { st with driver, calls := st.calls + 1 }
  if read = [] then return (st, false)
  else return ({ st with
    memory := memcpy st.memory st.memBuffer read
    memBuffer := st.memBuffer + read.length }, true)

def loadLoop (M : Machine σ) (envs : Nat → Env) (fuel : Nat) (kernelfd : Option FilePtr)
    (st : LoadState) : Proc σ Stop LoadState :=
  Proc.iterate .unfinished (loadPass M envs kernelfd) fuel st

theorem loadPass_keeps {F : σ → Prop} (hM : M.Keeps F) (envs : Nat → Env)
    (kernelfd : Option FilePtr) (st : LoadState) : Proc.Keeps F (loadPass M envs kernelfd st) := by
  refine Keeps.bind (fatRead_keeps hM _ _ _) fun r => ?_
  dsimp only
  split
  · exact Keeps.pure _
  · exact Keeps.pure _

/-! ## The loop copies the file -/

section

variable {img : Image} {Bad : σ → Prop} {halts : Stop → Prop} {v : Volume} {cs : List Nat}
  {first size : Nat} {p : FilePtr}

/-- The invariant of the loop: the first `pos` bytes of the file are behind
`base`, and the handle stands behind them. -/
structure Loading (img : Image) (v : Volume) (cs : List Nat) (size : Nat) (p : FilePtr)
    (memory : Nat → UInt8) (base : Nat) (st : LoadState) : Prop where
  behind : base ≤ st.memBuffer
  within : st.memBuffer - base ≤ ((contents img v.layout cs).take size).length
  file : OpenAt img v cs size p (st.memBuffer - base) st.driver
  memory : st.memory
    = memcpy memory base (((contents img v.layout cs).take size).take (st.memBuffer - base))

/-- The next slice of the file goes behind what has been copied. -/
theorem Loading.append {memory : Nat → UInt8} {base n : Nat} {st : LoadState} {driver : Driver}
    {read : List UInt8} (h : Loading img v cs size p memory base st)
    (hread : read
      = (((contents img v.layout cs).take size).drop (st.memBuffer - base)).take n)
    (hopen : OpenAt img v cs size p (st.memBuffer - base + read.length) driver) (calls : Nat) :
    Loading img v cs size p memory base
      ⟨driver, st.memBuffer + read.length, memcpy st.memory st.memBuffer read, calls⟩ := by
  generalize hfile : (contents img v.layout cs).take size = file at *
  have hbehind := h.behind
  have hwithin := h.within
  have hmemory := h.memory
  rw [hfile] at hwithin hmemory
  have hlen : read.length = min n (file.length - (st.memBuffer - base)) := by
    rw [hread, List.length_take, List.length_drop]
  have hend : st.memBuffer + read.length - base = st.memBuffer - base + read.length := by omega
  refine ⟨?_, ?_, ?_, ?_⟩
  · dsimp only
    omega
  · rw [hfile]
    dsimp only
    omega
  · rw [hend]
    exact hopen
  · rw [hfile]
    dsimp only
    -- two copies behind each other are one copy of what they are joined to
    have hcopied : (file.take (st.memBuffer - base)).length = st.memBuffer - base :=
      List.length_take_of_le hwithin
    have hjoin : file.take (st.memBuffer - base + read.length)
        = file.take (st.memBuffer - base) ++ read := by
      rw [List.take_add]
      congr 1
      rw [hread, List.length_take, ← List.take_eq_take_min]
    rw [hend, hjoin, ← memcpy_append, hcopied, hmemory]
    congr 1
    omega

variable (hM : Serves M img Bad) (hbar : ∀ m b, M.loadingBar m b = none → halts .divideError)
  (hv : v.Mounted) (hcs : Chain v.fat first cs) (hsize : size < 2 ^ 31)
include hM hbar hv hcs hsize

theorem loadPass_ensures {envs : Nat → Env} {memory : Nat → UInt8} {base : Nat} {st : LoadState}
    (h : Loading img v cs size p memory base st) :
    Ensures Bad halts (loadPass M envs (some p) st) fun r =>
      Loading img v cs size p memory base r.1 ∧
        if r.2 then r.1.memBuffer - base = min (st.memBuffer - base + 0x10000)
          ((contents img v.layout cs).take size).length ∧ st.memBuffer < r.1.memBuffer
        else r.1.memBuffer - base = ((contents img v.layout cs).take size).length := by
  have hbehind := h.behind
  have hwithin := h.within
  refine Ensures.bind (fatRead_ensures hM hbar hv hcs h.file hsize (by decide)) (fun r => ?_) ?_
  · dsimp only
    split
    · exact Keeps.pure _
    · exact Keeps.pure _
  rintro ⟨driver, read⟩ ⟨hread, hopen⟩
  dsimp only at hread hopen
  have hload : memoryLoadSize.toNat = 0x10000 := rfl
  rw [hload] at hread
  have hlen : read.length
      = min 0x10000 (((contents img v.layout cs).take size).length - (st.memBuffer - base)) := by
    rw [hread, List.length_take, List.length_drop]
  by_cases hnil : read = []
  · -- a call that reads nothing has the whole file behind it
    dsimp only
    rw [if_pos hnil]
    rw [hnil, List.length_nil] at hlen
    rw [hnil] at hopen
    refine Ensures.pure ⟨⟨hbehind, hwithin, hopen, h.memory⟩, ?_⟩
    rw [if_neg (by simp)]
    dsimp only
    omega
  · dsimp only
    rw [if_neg hnil]
    have hpos : 0 < read.length := List.length_pos_iff.mpr hnil
    refine Ensures.pure ⟨h.append hread hopen _, ?_⟩
    rw [if_pos rfl]
    dsimp only
    omega

/-- **The loop of `cmain`** ends with the file behind the load address. -/
theorem loadLoop_ensures {envs : Nat → Env} {memory : Nat → UInt8} {fuel base calls : Nat}
    {d : Driver} (h : OpenAt img v cs size p 0 d)
    (hfuel : (((contents img v.layout cs).take size).length + 65535) / 65536 < fuel ∨
      halts .unfinished) :
    Ensures Bad halts (loadLoop M envs fuel (some p) ⟨d, base, memory, calls⟩) fun st =>
      st.memory = memcpy memory base ((contents img v.layout cs).take size) ∧
        st.memBuffer = base + ((contents img v.layout cs).take size).length ∧
        st.driver.Numbered p := by
  have hinv : Loading img v cs size p memory base ⟨d, base, memory, calls⟩ :=
    ⟨Nat.le_refl _, by simp, by simpa using h, by simp⟩
  refine Ensures.iterate (I := Loading img v cs size p memory base)
    (fun st => (((contents img v.layout cs).take size).length - (st.memBuffer - base) + 65535)
      / 65536) (fun st => loadPass_keeps hM.keeps _ _ st) (fun st hst => ?_) fuel _ hinv ?_
  · refine (loadPass_ensures hM hbar hv hcs hsize hst).mono fun r hr => ?_
    obtain ⟨hr, hmore⟩ := hr
    have hbehind := hst.behind
    have hwithin := hst.within
    split
    · rename_i hgo
      rw [if_pos hgo] at hmore
      refine ⟨hr, ?_⟩
      omega
    · rename_i hgo
      rw [if_neg hgo] at hmore
      have hbase := hr.behind
      refine ⟨?_, by omega, hr.file.numbered⟩
      rw [hr.memory, hmore, List.take_length]
  · simpa using hfuel

end

/-- **Reading a file.** On a disk that holds the image, for a regular file
that `FAT_OpenEntry` has opened and whose clusters are `cs`: any sequence of
`FAT_Read` calls delivers the file in slices, whatever each call asks for;
the call after it delivers the next slice; and the loop of `cmain` copies the
file to consecutive addresses. -/
theorem fatRead_delivers_file {M : Machine σ} {img : Image} (hM : M.Holds img)
    (hbar : ∀ m b, M.loadingBar m b ≠ none) {d : Driver} (hvol : d.vol = Volume.mount img)
    (h512 : d.vol.bytesPerSector = 512) (hspc : 1 ≤ d.vol.sectorsPerCluster)
    {entry : DirectoryEntry} (hdir : entry.isDirectory = false) (hsize : entry.size.toNat < 2 ^ 31)
    {cs : List Nat} (hcs : Chain d.vol.fat entry.firstCluster.toNat cs)
    {s s' : σ} {d' : Driver} {p : FilePtr}
    (hopen : fatOpenEntry M d entry s = .ok ((d', some p), s')) :
    let file := (contents img d.vol.layout cs).take entry.size.toNat
    file.length = min entry.size.toNat (cs.length * d.vol.sectorsPerCluster.toNat * 512) ∧
    (∀ calls : List (Env × UInt32), (∀ c ∈ calls, c.2.toNat < 2 ^ 31) →
      ∃ d₁ outs s₁, fatReads M (some p) calls d' s' = .ok ((d₁, outs), s₁) ∧
        outs = slices file (calls.map (·.2.toNat)) ∧
        outs.flatten = file.take (calls.map (·.2.toNat)).sum ∧
        (d₁.file p).pub.position.toNat = outs.flatten.length ∧
        ∀ env byteCount, byteCount.toNat < 2 ^ 31 →
          ∃ d₂ out s₂, fatRead M env d₁ (some p) byteCount s₁ = .ok ((d₂, out), s₂) ∧
            out = (file.drop (d₁.file p).pub.position.toNat).take byteCount.toNat ∧
            out.length = min byteCount.toNat (file.length - (d₁.file p).pub.position.toNat) ∧
            (d₂.file p).pub.position.toNat = (d₁.file p).pub.position.toNat + out.length) ∧
    ∀ envs memory calls fuel, (file.length + 65535) / 65536 < fuel →
      ∃ st s₁, loadLoop M envs fuel (some p) ⟨d', memoryKernelAddr, memory, calls⟩ s' = .ok (st, s₁) ∧
        st.memory = memcpy memory memoryKernelAddr file ∧
        st.memBuffer = memoryKernelAddr + file.length := by
  have hv : d.vol.Mounted := by
    rw [hvol] at h512 hspc ⊢
    exact Volume.mount_mounted h512 hspc
  have hserves := hM.serves
  have hbar' : ∀ m b, M.loadingBar m b = none → False := fun m b h => hbar m b h
  have hentry : Ensures (fun _ => False) (fun _ => False) (fatOpenEntry M d entry) _ :=
    fatOpenEntry_ensures hserves hv hcs rfl hdir rfl
  have hstart : OpenAt img d.vol cs entry.size.toNat p 0 d' := (hentry.of_ok hopen id).2 p rfl
  refine ⟨?_, fun calls hcalls => ?_, fun envs memory calls fuel hfuel => ?_⟩
  · rw [List.length_take, length_contents]
    rfl
  · obtain ⟨⟨d₁, outs⟩, s₁, hrun, houts, h₁⟩ :=
      (fatReads_ensures hserves hbar' hv hcs hsize calls hcalls hstart).returns s'
    rw [List.drop_zero] at houts
    rw [Nat.zero_add] at h₁
    dsimp only at houts h₁
    refine ⟨d₁, outs, s₁, hrun, houts, ?_, h₁.position, fun env byteCount hb => ?_⟩
    · rw [houts, slices_flatten]
    · obtain ⟨⟨d₂, out⟩, s₂, hread, hout, h₂⟩ :=
        (fatRead_ensures hserves hbar' hv hcs h₁ hsize hb).returns s₁
      dsimp only at hout h₂
      rw [h₁.position]
      refine ⟨d₂, out, s₂, hread, hout, ?_, h₂.position⟩
      rw [hout, List.length_take, List.length_drop]
  · obtain ⟨st, s₁, hrun, hmemory, hend, -⟩ :=
      (loadLoop_ensures hserves hbar' hv hcs hsize hstart (.inl hfuel)).returns s'
    exact ⟨st, s₁, hrun, hmemory, hend⟩

/-- The two clusters of `KERNEL.BIN`, read 600 bytes at a time. -/
theorem fatRead_delivers_sample :
    ∃ d p, fatOpenEntry sampleMachine sampleMounted sampleKernelEntry () = .ok ((d, some p), ()) ∧
      ∃ d₁ outs, fatReads sampleMachine (some p) [(sampleEnv, 600), (sampleEnv, 600)] d ()
          = .ok ((d₁, outs), ()) ∧
        outs.flatten = List.replicate 512 3 ++ List.replicate 512 4 := by
  obtain ⟨d, p, hopen⟩ : ∃ d p, fatOpenEntry sampleMachine sampleMounted sampleKernelEntry ()
      = .ok ((d, some p), ()) := ⟨_, _, rfl⟩
  have h := fatRead_delivers_file (imageMachine_holds sampleImage fun _ _ => some 0)
    (fun _ _ => by simp [imageMachine]) rfl (by decide +kernel) (by decide +kernel)
    (by decide +kernel) (by decide +kernel) sample_chain hopen
  obtain ⟨d₁, outs, s₁, hrun, -, hflat, -⟩ := h.2.1 [(sampleEnv, 600), (sampleEnv, 600)] (by decide)
  refine ⟨d, p, hopen, d₁, outs, hrun, ?_⟩
  rw [hflat]
  decide +kernel

end Netclover.Stage2
