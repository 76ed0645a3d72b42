import Netclover.Stage2.Bounds

/-!
# The loading bar

`FAT_Read` draws the bar after each sector it reads along a chain, and divides
by `maxSector`, which it sets at the first of them to the whole sectors that
are then still wanted. There may be none: `ShortTail` says when, and
`fatRead_barSafe_iff` that the bar is drawn within its row in all other calls.
-/

namespace Netclover.Stage2

open Proc Libc

variable {σ : Type} {M : Machine σ} {env : Env}

/-! ## What is drawn -/

def Machine.withBar (M : Machine σ) (bar : UInt32 → UInt32 → Option UInt32) : Machine σ :=
  { M with loadingBar := bar }

/-- The call comes to the loading bar with these values: a bar that fails for
them, and for them alone, stops it. -/
def Draws (M : Machine σ) (env : Env) (d : Driver) (p : FilePtr) (n : UInt32) (s : σ)
    (maxSector byteCount : UInt32) : Prop :=
  ∃ t, fatRead (M.withBar fun m b => if m = maxSector ∧ b = byteCount then none else some 0) env d
    (some p) n s = .error (.divideError, t)

/-- Whenever the call draws, it does not divide by zero, and the mark stays on
its row. -/
def BarSafe (M : Machine σ) (env : Env) (d : Driver) (p : FilePtr) (n : UInt32) (s : σ) : Prop :=
  ∀ maxSector byteCount, Draws M env d p n s maxSector byteCount →
    maxSector ≠ 0 ∧ ∃ tval, loadingBar maxSector byteCount = some tval ∧ tval.toNat ≤ 79

/-- The values the loop draws with once `maxSector` is not zero: no more
sectors are wanted than at the start, and no product wraps. -/
structure Drawable (maxSector byteCount : UInt32) : Prop where
  positive : 0 < maxSector.toNat
  small : maxSector.toNat ≤ 2 ^ 22
  wanted : byteCount.toNat / 512 ≤ maxSector.toNat

theorem Drawable.loadingBar {m b : UInt32} (h : Drawable m b) :
    m ≠ 0 ∧ ∃ tval, Stage2.loadingBar m b = some tval ∧ tval.toNat ≤ 79 := by
  have hpos := h.positive
  have hsmall := h.small
  have hwanted := h.wanted
  have hne : m ≠ 0 := by
    rw [ne_eq, ← UInt32.toNat_inj]
    show ¬ m.toNat = 0
    omega
  refine ⟨hne, _, if_neg hne, ?_⟩
  have hdiv : (b / 512).toNat = b.toNat / 512 := UInt32.toNat_div b 512
  have hsub : (m - b / 512).toNat = m.toNat - b.toNat / 512 := by
    rw [UInt32.toNat_sub_of_le _ _ (by rw [UInt32.le_iff_toNat_le, hdiv]; exact hwanted), hdiv]
  have hmul : (79 * (m - b / 512)).toNat = 79 * (m.toNat - b.toNat / 512) := by
    rw [UInt32.toNat_mul, hsub]
    show 79 * _ % _ = _
    omega
  rw [UInt32.toNat_div, hmul]
  apply Nat.div_le_of_le_mul
  rw [Nat.mul_comm m.toNat]
  exact Nat.mul_le_mul_left 79 (Nat.sub_le _ _)

/-- Fewer bytes can be drawn too. -/
theorem Drawable.mono {m b b' : UInt32} (h : Drawable m b) (hle : b'.toNat ≤ b.toNat) :
    Drawable m b' :=
  ⟨h.positive, h.small, Nat.le_trans (Nat.div_le_div_right hle) h.wanted⟩

/-- What is wanted at the first end of a sector can be drawn, unless it is
less than a sector. -/
theorem Drawable.first {b : UInt32} (h : 512 ≤ b.toNat) (hlt : b.toNat < 2 ^ 31) :
    Drawable (b / 512) b := by
  have hdiv : (b / 512).toNat = b.toNat / 512 := UInt32.toNat_div b 512
  constructor <;> omega

/-- The call reads up to the end of the sector in the buffer and less than a
sector more, and that sector is there and can be read. -/
structure ShortTail (M : Machine σ) (v : Volume) (env : Env) (fd : FatFileData) (n : UInt32)
    (s : σ) : Prop where
  emptied : 512 - fd.pub.position.toNat % 512 ≤ (readClamp fd n).toNat
  short : (readClamp fd n).toNat < 512 - fd.pub.position.toNat % 512 + 512
  inChain : (nextSector v env fd).currentCluster < 0xFF8
  read : (M.readSectors (fatClusterToLba v (nextSector v env fd).currentCluster
    + (nextSector v env fd).currentSectorInCluster) 1 fd.buffer s).1.1 = 0

/-! ## The loop, once the bar is set -/

/-- The bar is set for what is still wanted, or nothing is wanted. -/
def BarSet (st : ReadState) : Prop := Drawable st.maxSector st.byteCount ∨ st.byteCount = 0

theorem readTake_barSet {st st' : ReadState} {emptied : Bool}
    (h : readTake st = some (st', emptied)) :
    st'.maxSector = st.maxSector ∧ st'.byteCount.toNat ≤ st.byteCount.toNat := by
  constructor
  · simp only [readTake] at h
    split at h
    · cases h
      rfl
    · cases h
  · rcases Nat.lt_or_ge st.byteCount.toNat (2 ^ 31) with hlt | hge
    · obtain ⟨st₁, emptied₁, t, htake, -, hbyteCount, -⟩ := readTake_eq st hlt
      rw [h] at htake
      cases htake
      omega
    · rw [readTake_none hge] at h
      cases h

section

variable {bar : UInt32 → UInt32 → Option UInt32} (hbar : ∀ m b, Drawable m b → bar m b ≠ none)
include hbar

theorem readNext_barSet {v : Volume} {st : ReadState} (h : Drawable st.maxSector st.byteCount) :
    Ensures (fun _ => False) (· ≠ .divideError) (readNext (M.withBar bar) v env st)
      fun r => BarSet r.1 := by
  have hne : st.maxSector ≠ 0 := h.loadingBar.1
  unfold readNext
  split
  · refine Ensures.bind (Q := fun _ => True) (Ensures.act fun _ _ => trivial)
      (fun _ => Keeps.pure _) fun r _ => ?_
    exact Ensures.pure (.inl h)
  · dsimp only
    split
    · exact Ensures.pure (.inl h)
    · refine Ensures.bind (Q := fun _ => True) (Ensures.act fun _ _ => trivial)
        (fun _ _ hf => hf.elim) fun r _ => ?_
      split
      · exact Ensures.pure (.inl h)
      · split
        · rename_i hnone
          exact (hbar _ _ h hnone).elim
        · exact Ensures.pure (.inl h)

theorem readPass_barSet {v : Volume} {st : ReadState} (h : BarSet st) :
    Ensures (fun _ => False) (· ≠ .divideError) (readPass (M.withBar bar) v env st)
      fun r => if r.2 then BarSet r.1 else True := by
  unfold readPass
  split
  · rename_i hpos
    have hdrawable : Drawable st.maxSector st.byteCount := by
      rcases h with h | hzero
      · exact h
      · rw [hzero] at hpos
        exact absurd hpos (by decide)
    cases htake : readTake st with
    | none => exact Ensures.halt (by decide)
    | some r =>
      obtain ⟨st₁, emptied⟩ := r
      obtain ⟨hmax, hle⟩ := readTake_barSet htake
      have hdrawable₁ : Drawable st₁.maxSector st₁.byteCount := by
        rw [hmax]
        exact hdrawable.mono hle
      cases emptied with
      | true =>
        refine (readNext_barSet hbar hdrawable₁).mono fun r hr => ?_
        split
        · exact hr
        · trivial
      | false => exact Ensures.pure (.inl hdrawable₁)
  · exact Ensures.pure (by simp)

/-! ## The first pass -/

omit hbar in
/-- No fault, and the bar is set if the loop goes on. -/
def SetsBar (r : Except (Stop × σ) ((ReadState × Bool) × σ)) : Prop :=
  (∀ t, r ≠ .error (.divideError, t)) ∧ ∀ st t, r = .ok ((st, true), t) → BarSet st

omit hbar in
theorem SetsBar.done (st : ReadState) (t : σ) : SetsBar (.ok ((st, false), t)) := by
  constructor
  · intro t h
    cases h
  · intro st t h
    cases h

omit hbar in
theorem SetsBar.outOfBounds (t : σ) : SetsBar (.error (.outOfBounds, t)) := by
  constructor
  · intro t h
    cases h
  · intro st t h
    cases h

omit hbar in
theorem SetsBar.more {st : ReadState} (h : BarSet st) (t : σ) : SetsBar (.ok ((st, true), t)) := by
  constructor
  · intro t h
    cases h
  · intro st t heq
    cases heq
    exact h

/-- The first pass, where it comes to the end of the sector. -/
theorem readNext_first {v : Volume} {st : ReadState} {s : σ}
    (hhandle : st.fd.pub.handle ≠ rootDirectoryHandle) (hmax : st.maxSector = 0)
    (hlt : st.byteCount.toNat < 2 ^ 31)
    (hlong : 512 ≤ st.byteCount.toNat ∨ (nextSector v env st.fd).currentCluster ≥ 0xFF8 ∨
      (nextRead M v env st.fd s).1.1 ≠ 0) :
    SetsBar (readNext (M.withBar bar) v env st s) := by
  rcases UInt32.lt_or_le (nextSector v env st.fd).currentCluster 0xFF8 with hin | hend
  · cases hread : nextRead M v env st.fd s with
    | mk r t₁ =>
      obtain ⟨status, buffer⟩ := r
      rw [readNext_answered (M := M.withBar bar) hhandle hin hread]
      by_cases hstatus : status = 0
      · have hsector : 512 ≤ st.byteCount.toNat := by
          rcases hlong with h | h | h
          · exact h
          · exact absurd hin (UInt32.not_lt.mpr h)
          · rw [hread] at h
            exact absurd hstatus h
        have hdrawable : Drawable (st.answered v env buffer).maxSector st.byteCount := by
          rw [answered_maxSector hmax]
          exact Drawable.first hsector hlt
        have hset : (M.withBar bar).loadingBar _ _ ≠ none := hbar _ _ hdrawable
        rw [if_neg (by simpa using hstatus)]
        generalize (M.withBar bar).loadingBar _ _ = tval at hset
        cases tval with
        | none => exact (hset rfl).elim
        | some tval => exact .more (.inl hdrawable) t₁
      · rw [if_pos hstatus]
        exact .done _ t₁
  · rw [readNext_end hhandle hend]
    exact .done _ s

theorem readPass_first {v : Volume} {fd : FatFileData} {n : UInt32} {s : σ}
    (hhandle : fd.pub.handle ≠ rootDirectoryHandle) (hlong : ¬ ShortTail M v env fd n s) :
    SetsBar (readPass (M.withBar bar) v env ⟨fd, readClamp fd n, 0, []⟩ s) := by
  rw [readPass]
  split
  · rcases Nat.lt_or_ge (readClamp fd n).toNat (2 ^ 31) with hlt | hge
    · obtain ⟨st, emptied, k, htake, hk, hbyteCount, -, hfd, -, hemptied⟩ :=
        readTake_eq ⟨fd, readClamp fd n, 0, []⟩ hlt
      dsimp only at hk hbyteCount hemptied
      have hmax := (readTake_barSet htake).1
      rw [htake]
      cases emptied with
      | false =>
        -- all that was wanted came out of the buffer
        have hzero : st.byteCount = 0 := by
          rw [← UInt32.toNat_inj, hbyteCount]
          have : ¬ k = 512 - fd.pub.position.toNat % 512 := by simpa using hemptied
          show _ = 0
          omega
        exact .more (.inr hzero) s
      | true =>
        have hfull : k = 512 - fd.pub.position.toNat % 512 := hemptied.mp rfl
        refine readNext_first hbar (by rw [hfd]; exact hhandle) hmax (by omega) ?_
        rw [hfd, nextSector_setPub, nextRead_setPub]
        by_contra hnot
        simp only [not_or, not_le, ge_iff_le, ne_eq, not_not] at hnot
        exact hlong ⟨by omega, by omega, UInt32.not_le.mp hnot.2.1, hnot.2.2⟩
    · rw [readTake_none (by exact hge)]
      exact .outOfBounds s
  · exact .done _ s

/-- **The loop** never comes to the bar with nothing to draw, unless the call
is left with a short tail. -/
theorem readFile_bar {v : Volume} {fd : FatFileData} {n : UInt32} {s t : σ}
    (hhandle : fd.pub.handle ≠ rootDirectoryHandle) (hlong : ¬ ShortTail M v env fd n s) :
    readFile (M.withBar bar) v env fd n s ≠ .error (.divideError, t) := by
  intro hrun
  have hfirst := readPass_first (M := M) hbar hhandle hlong
  rw [readFile, iterate_succ] at hrun
  rcases of_bind_error hrun with hpass | ⟨⟨st, more⟩, s', hpass, hgo⟩
  · exact hfirst.1 t hpass
  · cases more with
    | true =>
      have hrest : Ensures (fun _ => False) (· ≠ .divideError)
          (iterate .unfinished (readPass (M.withBar bar) v env) (readClamp fd n).toNat st)
          fun _ => True :=
        Ensures.iterate_partial (I := BarSet) (by decide) (fun _ _ hf => hf.elim)
          (fun _ ha => readPass_barSet hbar ha) _ _ (hfirst.2 st s' hpass)
      exact hrest.of_error hgo id rfl
    | false => cases hgo

end

/-! ## Calls -/

theorem Driver.Numbered.slot_handle {d : Driver} {i : Fin maxFileHandles}
    (h : d.Numbered (.slot i)) : (d.openedFiles i).pub.handle ≠ rootDirectoryHandle := by
  intro hroot
  rw [Driver.Numbered, Driver.file, hroot, handleFile_root] at h
  cases h

theorem readNext_divides {bar : UInt32 → UInt32 → Option UInt32} {v : Volume} {st : ReadState}
    {s : σ} (hhandle : st.fd.pub.handle ≠ rootDirectoryHandle) (hmax : st.maxSector = 0)
    (hzero : st.byteCount / 512 = 0) (hbar : bar 0 st.byteCount = none)
    (hin : (nextSector v env st.fd).currentCluster < 0xFF8)
    (hstatus : (nextRead M v env st.fd s).1.1 = 0) :
    ∃ t, readNext (M.withBar bar) v env st s = .error (.divideError, t) := by
  cases hread : nextRead M v env st.fd s with
  | mk r t =>
    obtain ⟨status, buffer⟩ := r
    have hnone : (M.withBar bar).loadingBar 0 st.byteCount = none := hbar
    rw [hread] at hstatus
    rw [readNext_answered (M := M.withBar bar) hhandle hin hread, if_neg (by simpa using hstatus),
      answered_maxSector hmax, hzero, hnone]
    exact ⟨t, rfl⟩

/-- A call with a short tail comes to the bar with `maxSector` zero. -/
theorem draws_of_shortTail {d : Driver} {i : Fin maxFileHandles} {n : UInt32} {s : σ}
    (hp : d.Numbered (.slot i)) (h : ShortTail M d.vol env (d.openedFiles i) n s) :
    ∃ byteCount, Draws M env d (.slot i) n s 0 byteCount := by
  have hhandle := hp.slot_handle
  have hemptied := h.emptied
  have hshort := h.short
  obtain ⟨st, emptied, k, htake, hk, hbyteCount, -, hfd, -, hiff⟩ :=
    readTake_eq ⟨d.openedFiles i, readClamp (d.openedFiles i) n, 0, []⟩ (by dsimp only; omega)
  dsimp only at hk hbyteCount hiff
  obtain rfl : emptied = true := hiff.mpr (by omega)
  have hpos : readClamp (d.openedFiles i) n > 0 := by
    show 0 < (readClamp (d.openedFiles i) n).toNat
    omega
  have hzero : st.byteCount / 512 = 0 := by
    rw [← UInt32.toNat_inj, UInt32.toNat_div]
    show st.byteCount.toNat / 512 = 0
    omega
  have hnext : ∃ t, readNext (M.withBar fun m b => if m = 0 ∧ b = st.byteCount then none else some 0)
      d.vol env st s = .error (.divideError, t) :=
    readNext_divides (by rw [hfd]; exact hhandle) (readTake_barSet htake).1 hzero
      (if_pos ⟨rfl, rfl⟩) (by rw [hfd, nextSector_setPub]; exact h.inChain)
      (by rw [hfd, nextRead_setPub]; exact h.read)
  obtain ⟨t, hnext⟩ := hnext
  refine ⟨st.byteCount, t, ?_⟩
  rw [fatRead_eq hp, readFile, iterate_succ]
  apply bind_error
  apply bind_error
  rw [readPass, if_pos (by exact hpos), Driver.file, htake]
  exact hnext

/-- **The loading bar**: it is drawn within its row by every call on an open
file or directory other than the root, but by those with a short tail. -/
theorem fatRead_barSafe_iff {entry : DirectoryEntry} {i : Fin maxFileHandles} {d : Driver}
    (h : Reached M entry i d) (env : Env) (n : UInt32) (s : σ) :
    BarSafe M env d (.slot i) n s ↔ ¬ ShortTail M d.vol env (d.openedFiles i) n s := by
  have hp := h.numbered
  constructor
  · intro hsafe hshort
    obtain ⟨byteCount, hdraws⟩ := draws_of_shortTail hp hshort
    exact (hsafe 0 byteCount hdraws).1 rfl
  · rintro hlong maxSector byteCount ⟨t, hdraws⟩
    by_contra hbad
    -- a bar that fails for no drawable values does not stop the call
    have hbar : ∀ m b, Drawable m b →
        (if m = maxSector ∧ b = byteCount then none else some 0 : Option UInt32) ≠ none := by
      rintro m b hdrawable
      split
      · rename_i hsame
        obtain ⟨rfl, rfl⟩ := hsame
        exact (hbad hdrawable.loadingBar).elim
      · simp
    rw [fatRead_eq hp] at hdraws
    rcases of_bind_error hdraws with hfile | ⟨st, s', -, hpure⟩
    · exact readFile_bar hbar hp.slot_handle hlong hfile
    · cases hpure

/-! ## The small volume -/

/-- Reading the whole kernel, of two sectors, is safe. -/
theorem fatRead_barSafe_sample :
    Reached (imageMachine sampleImage loadingBar) sampleKernelEntry firstSlot
      (sampleOpened sampleKernelEntry) ∧
    BarSafe (imageMachine sampleImage loadingBar) sampleEnv (sampleOpened sampleKernelEntry)
      (.slot firstSlot) 1024 () := by
  have hd := sample_reached loadingBar sampleKernelEntry
  refine ⟨hd, (fatRead_barSafe_iff hd sampleEnv 1024 ()).mpr fun hshort => ?_⟩
  exact absurd hshort.short (by decide +kernel)

/-- **The defect.** The first 600 bytes of the kernel are a sector and 88
bytes: `FAT_Read` divides by zero behind the second sector. -/
theorem fatRead_divides_by_zero :
    Reached (imageMachine sampleImage loadingBar) sampleKernelEntry firstSlot
      (sampleOpened sampleKernelEntry) ∧
    ¬ BarSafe (imageMachine sampleImage loadingBar) sampleEnv (sampleOpened sampleKernelEntry)
      (.slot firstSlot) 600 () := by
  have hd := sample_reached loadingBar sampleKernelEntry
  have hshort : ShortTail (imageMachine sampleImage loadingBar) (sampleOpened sampleKernelEntry).vol
      sampleEnv ((sampleOpened sampleKernelEntry).openedFiles firstSlot) 600 () :=
    ⟨by decide +kernel, by decide +kernel, by decide +kernel, by decide +kernel⟩
  obtain ⟨byteCount, hdraws⟩ := draws_of_shortTail hd.numbered hshort
  exact ⟨hd, fun hsafe => (hsafe 0 byteCount hdraws).1 rfl⟩

end Netclover.Stage2
