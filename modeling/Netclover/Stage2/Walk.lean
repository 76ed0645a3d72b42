import Netclover.Lib.Orbit
import Netclover.Stage2.Initialize
import Netclover.Stage2.Bounds

/-!
# The walk of `FAT_Read`

A file other than the root directory stands at a place, a sector of a cluster,
and each sector that `FAT_Read` empties moves it on by `nextPlace`, whatever
the FAT says. A walk that comes to an end mark does so after fewer than
`0xFF8 * 256` sectors (`EndsIn.le`). `Takes` is all that a pass of the loop
does to a file.
-/

namespace Netclover.Stage2

open Proc Libc Orbit

variable {σ : Type} {M : Machine σ} {env : Env} {v : Volume}

/-! ## Places -/

structure Place where
  cluster : UInt32
  sector : UInt32
  deriving DecidableEq

def FatFileData.place (fd : FatFileData) : Place := ⟨fd.currentCluster, fd.currentSectorInCluster⟩

/-- Where the next sector is: in the cluster, or in the one that the FAT
names. -/
def nextPlace (v : Volume) (env : Env) (p : Place) : Place :=
  if p.sector + 1 ≥ v.sectorsPerCluster.toUInt32 then ⟨fatNextCluster v env p.cluster, 0⟩
  else ⟨p.cluster, p.sector + 1⟩

/-- The end-of-chain mark. -/
def Place.IsEnd (p : Place) : Prop := p.cluster ≥ 0xFF8

/-- Behind this place come `n` more, and then the end mark. -/
abbrev EndsIn (v : Volume) (env : Env) (p : Place) (n : Nat) : Prop :=
  Leaves (nextPlace v env) Place.IsEnd p n

def ChainEnds (v : Volume) (env : Env) (p : Place) : Prop := ∃ n, EndsIn v env p n

theorem place_nextSector (fd : FatFileData) :
    (nextSector v env fd).place = nextPlace v env fd.place := by
  by_cases hlast : fd.currentSectorInCluster + 1 ≥ v.sectorsPerCluster.toUInt32
  · simp only [nextSector, FatFileData.place, if_pos hlast]
    exact (if_pos hlast).symm
  · simp only [nextSector, FatFileData.place, if_neg hlast]
    exact (if_neg hlast).symm

theorem nextPlace_sector_lt (p : Place) : (nextPlace v env p).sector.toNat < 256 := by
  have hspc := v.sectorsPerCluster.toNat_lt
  rw [nextPlace]
  split
  · exact Nat.zero_lt_succ 255
  · rename_i hin
    rw [ge_iff_le, UInt32.not_le, UInt32.lt_iff_toNat_lt, UInt8.toNat_toUInt32] at hin
    exact Nat.lt_trans hin hspc

/-- The places in these many clusters of these many sectors. -/
def placesBelow (clusters sectors : Nat) : Finset Place :=
  (Finset.range clusters ×ˢ Finset.range sectors).image fun x =>
    ⟨UInt32.ofNat x.1, UInt32.ofNat x.2⟩

theorem mem_placesBelow {clusters sectors : Nat} {p : Place} (hc : p.cluster.toNat < clusters)
    (hs : p.sector.toNat < sectors) : p ∈ placesBelow clusters sectors := by
  refine Finset.mem_image.mpr ⟨(p.cluster.toNat, p.sector.toNat), ?_, ?_⟩
  · exact Finset.mem_product.mpr ⟨Finset.mem_range.mpr hc, Finset.mem_range.mpr hs⟩
  · rw [UInt32.ofNat_toNat, UInt32.ofNat_toNat]

theorem card_placesBelow_le (clusters sectors : Nat) :
    (placesBelow clusters sectors).card ≤ clusters * sectors := by
  calc (placesBelow clusters sectors).card
      ≤ (Finset.range clusters ×ˢ Finset.range sectors).card := Finset.card_image_le
    _ = clusters * sectors := by rw [Finset.card_product, Finset.card_range, Finset.card_range]

/-- A walk through these many clusters does not come to a place a second time
before it ends. -/
theorem EndsIn.le_mul {p : Place} {n clusters : Nat} (h : EndsIn v env p n)
    (hc : ∀ k < n, ((nextPlace v env)^[k + 1] p).cluster.toNat < clusters) :
    n ≤ clusters * 256 := by
  refine Nat.le_trans (h.le_card fun k hk => ?_) (card_placesBelow_le clusters 256)
  apply mem_placesBelow (hc k hk)
  rw [Function.iterate_succ_apply']
  exact nextPlace_sector_lt _

/-- **A chain that ends** does so in fewer sectors than there are places. -/
theorem EndsIn.le {p : Place} {n : Nat} (h : EndsIn v env p n) : n ≤ 0xFF8 * 256 :=
  h.le_mul fun k hk => UInt32.lt_iff_toNat_lt.mp (UInt32.not_le.mp (h.inside k hk))

/-- One place on, if that is no end mark. -/
theorem chainEnds_nextPlace {p : Place} (h : ChainEnds v env (nextPlace v env p)) :
    ChainEnds v env p := by
  by_cases hend : (nextPlace v env p).IsEnd
  · exact ⟨0, Leaves.zero_iff.mpr hend⟩
  · obtain ⟨n, hn⟩ := h
    exact ⟨n + 1, Leaves.succ_iff.mpr ⟨hend, hn⟩⟩

/-! ## A pass of the loop -/

/-- Where a pass leaves the file, by what it took: in the middle of a sector,
at the next sector of the root directory, at an end mark, or at the next place
of the chain. -/
inductive Moves (v : Volume) (env : Env) (fd fd' : FatFileData) : Bool → Bool → Prop
  | stay : fd'.place = fd.place → fd'.pub.size = fd.pub.size → Moves v env fd fd' false true
  | root {more : Bool} : fd.pub.handle = rootDirectoryHandle → fd'.pub.size = fd.pub.size →
      Moves v env fd fd' true more
  | last : fd.pub.handle ≠ rootDirectoryHandle → (nextPlace v env fd.place).IsEnd →
      fd'.pub.size = fd'.pub.position → Moves v env fd fd' true false
  | next {more : Bool} : fd.pub.handle ≠ rootDirectoryHandle → ¬ (nextPlace v env fd.place).IsEnd →
      fd'.place = nextPlace v env fd.place → fd'.pub.size = fd.pub.size →
      Moves v env fd fd' true more

/-- A pass takes `t` bytes. -/
structure Takes (v : Volume) (env : Env) (st st' : ReadState) (more : Bool) (t : Nat) : Prop where
  count : t = min st.byteCount.toNat (512 - st.fd.pub.position.toNat % 512)
  byteCount : st'.byteCount.toNat = st.byteCount.toNat - t
  length : st'.out.length = st.out.length + t
  position : st'.fd.pub.position.toNat = (st.fd.pub.position.toNat + t) % 2 ^ 32
  same : SameFile st.fd st'.fd
  moves : Moves v env st.fd st'.fd (t == 512 - st.fd.pub.position.toNat % 512) more

theorem Moves.congr {fd fd₁ fd' : FatFileData} {emptied more : Bool}
    (h : Moves v env fd₁ fd' emptied more) (hplace : fd₁.place = fd.place)
    (hhandle : fd₁.pub.handle = fd.pub.handle) (hsize : fd₁.pub.size = fd.pub.size) :
    Moves v env fd fd' emptied more := by
  cases h with
  | stay hp hs => exact .stay (hp.trans hplace) (hs.trans hsize)
  | root hh hs => exact .root (hhandle ▸ hh) (hs.trans hsize)
  | last hh he hs => exact .last (hhandle ▸ hh) (hplace ▸ he) hs
  | next hh he hp hs =>
    exact .next (hhandle ▸ hh) (hplace ▸ he) (hplace ▸ hp) (hs.trans hsize)

theorem readTake_place {st st' : ReadState} {emptied : Bool}
    (h : readTake st = some (st', emptied)) : st'.fd.place = st.fd.place := by
  simp only [readTake] at h
  split at h
  · cases h
    simp only [FatFileData.place]
  · cases h

theorem readNext_moves {st st' : ReadState} {more : Bool} {s t : σ}
    (h : readNext M v env st s = .ok ((st', more), t)) : Moves v env st.fd st'.fd true more := by
  by_cases hroot : st.fd.pub.handle = rootDirectoryHandle
  · obtain ⟨buffer, more, t, hrun⟩ := @readNext_root σ M env v st s hroot
    rw [hrun] at h
    cases h
    exact .root hroot rfl
  · have hpub := nextSector_pub v env st.fd
    rcases UInt32.lt_or_le (nextSector v env st.fd).currentCluster 0xFF8 with hin | hend
    · have hinside : ¬ (nextPlace v env st.fd.place).IsEnd := by
        rw [← place_nextSector]
        exact UInt32.not_le.mpr hin
      have hanswered : ∀ buffer, Moves v env st.fd (st.answered v env buffer).fd true more :=
        fun _ => .next hroot hinside (place_nextSector st.fd) (congrArg FatFile.size hpub)
      rw [readNext_answered hroot hin rfl] at h
      split at h
      · cases h
        exact hanswered _
      · generalize M.loadingBar _ _ = bar at h
        cases bar with
        | none => cases h
        | some column =>
          cases h
          exact hanswered _
    · rw [readNext_end hroot hend] at h
      cases h
      refine .last hroot ?_ ?_
      · rw [← place_nextSector]
        exact hend
      · exact (congrArg FatFile.position hpub).symm

/-- **A pass that reads**, and returns. -/
theorem readPass_takes {st st' : ReadState} {more : Bool} {s u : σ}
    (hb : st.byteCount.toNat < 2 ^ 31) (hpos : st.byteCount ≠ 0)
    (h : readPass M v env st s = .ok ((st', more), u)) : ∃ t, Takes v env st st' more t := by
  obtain ⟨st₁, emptied, t, htake, ht, hbyteCount, hout, hfd, hposition, hemptied⟩ :=
    readTake_eq st hb
  have hlength : st₁.out.length = st.out.length + t := by
    rw [hout, List.length_append, List.length_take, List.length_drop, Block.length_bytes]
    omega
  have hplace := readTake_place htake
  have hsize : st₁.fd.pub.size = st.fd.pub.size := by rw [hfd]
  have hsame := readTake_same htake
  have hflag : (t == 512 - st.fd.pub.position.toNat % 512) = emptied := by
    rw [Bool.eq_iff_iff, beq_iff_eq, hemptied]
  refine ⟨t, ?_⟩
  rcases readPass_ok h with ⟨hzero, -, -⟩ | ⟨st₂, emptied₂, -, htake₂, hrest⟩
  · exact (hpos hzero).elim
  rw [htake] at htake₂
  cases htake₂
  rcases hrest with ⟨rfl, rfl, rfl⟩ | ⟨rfl, hnext⟩
  · refine ⟨ht, hbyteCount, hlength, hposition, hsame, ?_⟩
    rw [hflag]
    exact .stay hplace hsize
  · have hstep := readNext_ok hnext
    refine ⟨ht, ?_, ?_, ?_, hsame.trans (readNext_same hnext), ?_⟩
    · rw [hstep.byteCount]
      exact hbyteCount
    · rw [hstep.out]
      exact hlength
    · rw [hstep.position]
      exact hposition
    · rw [hflag]
      exact (readNext_moves hnext).congr hplace hsame.handle hsize

/-- A pass that returned found nothing left to read, or took some. -/
theorem Bounded.passes {total : Nat} {st st' : ReadState} {more : Bool} {s u : σ}
    (h : Bounded total st) (hrun : readPass M v env st s = .ok ((st', more), u)) :
    (st.byteCount = 0 ∧ st' = st ∧ more = false) ∨
      (st.byteCount ≠ 0 ∧ ∃ t, Takes v env st st' more t) := by
  have hcount := h.count
  have hlt := h.lt
  by_cases hzero : st.byteCount = 0
  · rcases readPass_ok hrun with ⟨-, hst, hmore⟩ | ⟨_, _, hpos, -⟩
    · exact .inl ⟨hzero, hst, hmore⟩
    · rw [hzero] at hpos
      exact absurd hpos (Nat.lt_irrefl 0)
  · exact .inr ⟨hzero, readPass_takes (by omega) hzero hrun⟩

/-! ## Disks whose reads succeed -/

section Succeeds

variable (hM : M.Succeeds)
include hM

theorem nextRead_succeeds (v : Volume) (env : Env) (fd : FatFileData) (s : σ) :
    ∃ buffer t, nextRead M v env fd s = ((0, buffer), t) := by
  rcases hread : nextRead M v env fd s with ⟨⟨status, buffer⟩, t⟩
  have hstatus : (nextRead M v env fd s).1.1 = 0 := hM _ _ _ _
  rw [hread] at hstatus
  obtain rfl : status = 0 := hstatus
  exact ⟨buffer, t, rfl⟩

/-- A step to the next sector stops at an end mark only. -/
theorem readNext_stops {st st' : ReadState} {s u : σ}
    (h : readNext M v env st s = .ok ((st', false), u)) :
    st.fd.pub.handle ≠ rootDirectoryHandle ∧ (nextPlace v env st.fd.place).IsEnd := by
  by_cases hroot : st.fd.pub.handle = rootDirectoryHandle
  · have hstatus := hM (st.fd.currentCluster + 1) 1 st.fd.buffer s
    rw [readNext, if_pos hroot] at h
    obtain ⟨⟨status, buffer⟩, t, hread, h⟩ := of_bind_ok h
    have hfst : (M.readSectors (st.fd.currentCluster + 1) 1 st.fd.buffer s).1.1 = status :=
      congrArg (fun r => r.1.1) (Except.ok.inj hread)
    rw [hstatus] at hfst
    subst hfst
    cases h
  · refine ⟨hroot, ?_⟩
    rw [← place_nextSector]
    rcases UInt32.lt_or_le (nextSector v env st.fd).currentCluster 0xFF8 with hin | hend
    · obtain ⟨buffer, t, hread⟩ := nextRead_succeeds hM v env st.fd s
      rw [readNext_answered hroot hin hread, if_neg (by simp)] at h
      generalize M.loadingBar _ _ = bar at h
      cases bar with
      | none => cases h
      | some column => cases h
    · exact hend

/-- It always returns if the bar does not fault. -/
theorem readNext_returns (hbar : ∀ m b, M.loadingBar m b ≠ none) (st : ReadState) (s : σ) :
    ∃ r t, readNext M v env st s = .ok (r, t) := by
  by_cases hroot : st.fd.pub.handle = rootDirectoryHandle
  · obtain ⟨buffer, more, t, hrun⟩ := @readNext_root σ M env v st s hroot
    exact ⟨_, t, hrun⟩
  · rcases UInt32.lt_or_le (nextSector v env st.fd).currentCluster 0xFF8 with hin | hend
    · obtain ⟨buffer, t, hread⟩ := nextRead_succeeds hM v env st.fd s
      rw [readNext_answered hroot hin hread, if_neg (by simp)]
      cases hcolumn : M.loadingBar (st.answered v env buffer).maxSector st.byteCount with
      | none => exact (hbar _ _ hcolumn).elim
      | some column => exact ⟨_, _, rfl⟩
    · exact ⟨_, _, readNext_end hroot hend⟩

/-- **A pass stops** where nothing is left to read, or at an end mark. -/
theorem readPass_stops {st st' : ReadState} {s u : σ}
    (h : readPass M v env st s = .ok ((st', false), u)) :
    st.byteCount = 0 ∧ st' = st ∨
      st.fd.pub.handle ≠ rootDirectoryHandle ∧ (nextPlace v env st.fd.place).IsEnd := by
  rcases readPass_ok h with ⟨hzero, hst, -⟩ | ⟨st₁, emptied, -, htake, hrest⟩
  · exact .inl ⟨hzero, hst⟩
  · rcases hrest with ⟨-, -, hmore⟩ | ⟨-, hnext⟩
    · cases hmore
    · have hhandle := (readTake_same htake).handle
      obtain ⟨hroot, hend⟩ := readNext_stops hM hnext
      rw [hhandle] at hroot
      rw [readTake_place htake] at hend
      exact .inr ⟨hroot, hend⟩

/-- **`FAT_Read` returns** if `int` can hold what it is to read, and the bar
does not fault. -/
theorem readFile_returns (hbar : ∀ m b, M.loadingBar m b ≠ none) {fd : FatFileData} {n : UInt32}
    (h : (readClamp fd n).toNat < 2 ^ 31) (s : σ) :
    ∃ st t, readFile M v env fd n s = .ok (st, t) := by
  have hloop : ∀ (k : Nat) (st : ReadState) (s : σ), Bounded (readClamp fd n).toNat st →
      st.byteCount.toNat < k → ∃ st' t, iterate .unfinished (readPass M v env) k st s
        = .ok (st', t) := by
    intro k
    induction k with
    | zero => exact fun st s _ hk => absurd hk (Nat.not_lt_zero _)
    | succ k ih =>
      intro st s hst hk
      have hcount := hst.count
      have hlt := hst.lt
      rw [iterate_succ]
      by_cases hzero : st.byteCount = 0
      · have hstop : readPass M v env st s = .ok ((st, false), s) := by
          rw [readPass, if_neg (by rw [hzero]; decide)]
          rfl
        exact ⟨st, s, bind_ok hstop⟩
      · have hpos : 0 < st.byteCount.toNat := by
          rcases Nat.eq_zero_or_pos st.byteCount.toNat with hnone | hpos
          · exact (hzero (UInt32.toNat_inj.mp hnone)).elim
          · exact hpos
        have hpass : ∃ st' more t, readPass M v env st s = .ok ((st', more), t) := by
          obtain ⟨st₁, emptied, htake, -⟩ := hst.take
          rw [readPass, if_pos (by exact hpos), htake]
          cases emptied with
          | true =>
            obtain ⟨⟨st', more⟩, t, hrun⟩ := readNext_returns hM hbar st₁ s
            exact ⟨st', more, t, hrun⟩
          | false => exact ⟨st₁, true, s, rfl⟩
        obtain ⟨st', more, t, hrun⟩ := hpass
        rw [bind_ok hrun]
        cases more with
        | false => exact ⟨st', t, rfl⟩
        | true =>
          obtain ⟨taken, htakes⟩ := readPass_takes (by omega) hzero hrun
          have hless := htakes.byteCount
          have htaken := htakes.count
          exact ih st' t (hst.pass hrun) (by omega)
  exact hloop _ _ s (.start h) (Nat.lt_succ_self _)

end Succeeds

end Netclover.Stage2
