import Netclover.Stage2.LiveEntries
import Netclover.Stage2.Walk

/-!
# Whether a search ends

`FAT_FindFile` reads entries until `FAT_ReadEntry` returns less than one. A
directory of known size comes to that, and so does one of size 0 whose chain
has an end mark: `Left` counts the bytes up to there. A chain that goes in a
circle has none, and the root directory is not a chain, so that a search of
these ends at a match or never (`fatFindFile_returns_iff`).
-/

namespace Netclover.Stage2

open Proc Libc Orbit

variable {σ : Type} {M : Machine σ} {env : Env} {v : Volume}

/-! ## What is left of a file -/

/-- The size is known, or there is a chain and it ends. -/
def HasEnd (v : Volume) (env : Env) (fd : FatFileData) : Prop :=
  ¬ Endless fd ∨ fd.pub.handle ≠ rootDirectoryHandle ∧ ChainEnds v env fd.place

/-- There are `m` bytes up to the end: by the size, or by the chain, on which
the position does not wrap before. -/
inductive Left (v : Volume) (env : Env) (fd : FatFileData) (m : Nat) : Prop
  | known : ¬ Endless fd → fd.pub.size.toNat = fd.pub.position.toNat + m → Left v env fd m
  | chain {n : Nat} : Endless fd → fd.pub.handle ≠ rootDirectoryHandle → EndsIn v env fd.place n →
      m + fd.pub.position.toNat % 512 = 512 * (n + 1) → fd.pub.position.toNat + m < 2 ^ 32 →
      Left v env fd m

/-- Where there is an end, the bytes up to it can be counted. -/
def Counted (v : Volume) (env : Env) (fd : FatFileData) : Prop :=
  HasEnd v env fd → ∃ m, Left v env fd m

section Pass

variable {st st' : ReadState} {more : Bool} {total m t : Nat} {s u : σ}

/-- At the end of a file nothing is left. -/
theorem left_zero {fd : FatFileData} (h : fd.pub.size = fd.pub.position)
    (hpos : 0 < fd.pub.position.toNat) : Left v env fd 0 := by
  refine .known ?_ (by rw [h, Nat.add_zero])
  rintro ⟨-, hzero⟩
  rw [← h, hzero] at hpos
  exact Nat.lt_irrefl 0 hpos

/-- A pass that takes bytes leaves so many fewer. -/
theorem Takes.left (h : Takes v env st st' more t) (hb : Bounded total st) (hpos : st.byteCount ≠ 0)
    (hleft : Left v env st.fd m) : ∃ m', Left v env st'.fd m' ∧ m' + t ≤ m := by
  have hcount := h.count
  have hposition := h.position
  have hdir := h.same.isDirectory
  have hhandle := h.same.handle
  have htaken : 0 < t := by
    have hne : st.byteCount.toNat ≠ 0 := fun h => hpos (UInt32.toNat_inj.mp h)
    omega
  have hmoves := h.moves
  generalize hemptied : (t == 512 - st.fd.pub.position.toNat % 512) = emptied at hmoves
  cases hleft with
  | known hend hsize =>
    have hroom : st.byteCount.toNat ≤ m := by
      rcases hb.room with hendless | ⟨hle, -⟩
      · exact (hend hendless).elim
      · rw [UInt32.toNat_sub_of_le _ _ (UInt32.le_iff_toNat_le.mpr (by omega))] at hle
        omega
    have hlt := st.fd.pub.size.toNat_lt
    have hnext : st'.fd.pub.position.toNat = st.fd.pub.position.toNat + t := by omega
    have hkept : st'.fd.pub.size = st.fd.pub.size →
        ∃ m', Left v env st'.fd m' ∧ m' + t ≤ m := by
      intro hsame
      refine ⟨m - t, .known ?_ ?_, by omega⟩
      · rintro ⟨hdir', hzero⟩
        exact hend ⟨hdir ▸ hdir', hsame ▸ hzero⟩
      · rw [hsame, hsize, hnext]
        omega
    cases hmoves with
    | stay _ hsame => exact hkept hsame
    | root _ hsame => exact hkept hsame
    | next _ _ _ hsame => exact hkept hsame
    | last _ _ hset => exact ⟨0, left_zero hset (by omega), by omega⟩
  | @chain n hend hroot hleaves hbytes hwrap =>
    have hnext : st'.fd.pub.position.toNat = st.fd.pub.position.toNat + t := by omega
    have hendless : st'.fd.pub.size = st.fd.pub.size → Endless st'.fd :=
      fun hsame => ⟨hdir.trans hend.1, hsame.trans hend.2⟩
    have hroot' : st'.fd.pub.handle ≠ rootDirectoryHandle := hhandle ▸ hroot
    cases hmoves with
    | stay hplace hsame =>
      have hin : t ≠ 512 - st.fd.pub.position.toNat % 512 := by simpa using hemptied
      exact ⟨m - t, .chain (hendless hsame) hroot' (hplace ▸ hleaves) (by omega) (by omega),
        by omega⟩
    | root hh _ => exact (hroot hh).elim
    | last _ _ hset => exact ⟨0, left_zero hset (by omega), by omega⟩
    | next _ hin hplace hsame =>
      have hedge : t = 512 - st.fd.pub.position.toNat % 512 := by simpa using hemptied
      cases n with
      | zero => exact (hin (Leaves.zero_iff.mp hleaves)).elim
      | succ n =>
        have hrest := (Leaves.succ_iff.mp hleaves).2
        rw [← hplace] at hrest
        exact ⟨m - t, .chain (hendless hsame) hroot' hrest (by omega) (by omega), by omega⟩

/-- And an end behind it is an end of the file before. -/
theorem Takes.hasEnd (h : Takes v env st st' more t) (hend : HasEnd v env st'.fd) :
    HasEnd v env st.fd := by
  have hhandle := h.same.handle
  by_cases hendless : Endless st.fd
  · have hchain : st'.fd.pub.size = st.fd.pub.size →
        st'.fd.pub.handle ≠ rootDirectoryHandle ∧ ChainEnds v env st'.fd.place := by
      intro hsame
      exact hend.resolve_left fun hnot =>
        hnot ⟨h.same.isDirectory.trans hendless.1, hsame.trans hendless.2⟩
    have hmoves := h.moves
    generalize (t == 512 - st.fd.pub.position.toNat % 512) = emptied at hmoves
    cases hmoves with
    | stay hplace hsame =>
      obtain ⟨hroot, hends⟩ := hchain hsame
      exact .inr ⟨hhandle ▸ hroot, hplace ▸ hends⟩
    | root hh hsame => exact ((hchain hsame).1 (hhandle.trans hh)).elim
    | last hh hmark _ => exact .inr ⟨hh, 0, Leaves.zero_iff.mpr hmark⟩
    | next hh _ hplace hsame =>
      exact .inr ⟨hh, chainEnds_nextPlace (hplace ▸ (hchain hsame).2)⟩
  · exact .inl hendless

end Pass

section Read

variable {fd : FatFileData} {n : UInt32} {st : ReadState} {m : Nat} {s u : σ}

/-- **`FAT_Read`** leaves as many bytes fewer as it stores. -/
theorem readFile_left (h : readFile M v env fd n s = .ok (st, u)) (hleft : Left v env fd m) :
    ∃ m', Left v env st.fd m' ∧ m' + st.out.length ≤ m := by
  refine iterate_ok (I := fun a => Bounded (readClamp fd n).toNat a ∧
    ∃ m', Left v env a.fd m' ∧ m' + a.out.length ≤ m)
    (Q := fun a => ∃ m', Left v env a.fd m' ∧ m' + a.out.length ≤ m) ?_ ?_
    ⟨.start (readFile_lt h), m, hleft, Nat.le_refl m⟩ h
  · rintro a b s t ⟨hb, k, hk, hle⟩ hrun
    rcases hb.passes hrun with ⟨-, -, hmore⟩ | ⟨hpos, taken, htakes⟩
    · cases hmore
    · obtain ⟨k', hk', hle'⟩ := htakes.left hb hpos hk
      have hlength := htakes.length
      exact ⟨hb.pass hrun, k', hk', by omega⟩
  · rintro a b s t ⟨hb, k, hk, hle⟩ hrun
    rcases hb.passes hrun with ⟨-, rfl, -⟩ | ⟨hpos, taken, htakes⟩
    · exact ⟨k, hk, hle⟩
    · obtain ⟨k', hk', hle'⟩ := htakes.left hb hpos hk
      have hlength := htakes.length
      exact ⟨k', hk', by omega⟩

theorem readFile_hasEnd (h : readFile M v env fd n s = .ok (st, u)) (hend : HasEnd v env st.fd) :
    HasEnd v env fd := by
  refine iterate_ok (I := fun a => Bounded (readClamp fd n).toNat a ∧
    (HasEnd v env a.fd → HasEnd v env fd)) (Q := fun a => HasEnd v env a.fd → HasEnd v env fd) ?_ ?_
    ⟨.start (readFile_lt h), id⟩ h hend
  · rintro a b s t ⟨hb, hback⟩ hrun
    rcases hb.passes hrun with ⟨-, -, hmore⟩ | ⟨-, taken, htakes⟩
    · cases hmore
    · exact ⟨hb.pass hrun, fun hend => hback (htakes.hasEnd hend)⟩
  · rintro a b s t ⟨hb, hback⟩ hrun
    rcases hb.passes hrun with ⟨-, rfl, -⟩ | ⟨-, taken, htakes⟩
    · exact hback
    · exact fun hend => hback (htakes.hasEnd hend)

/-- At its start a file has wrapped nowhere. -/
theorem Counted.start (hzero : fd.pub.position = 0) : Counted v env fd := by
  have hposition : fd.pub.position.toNat = 0 := congrArg UInt32.toNat hzero
  intro hend
  by_cases hendless : Endless fd
  · obtain ⟨hroot, n, hn⟩ := hend.resolve_left (not_not_intro hendless)
    have hle := hn.le
    exact ⟨512 * (n + 1), .chain hendless hroot hn (by omega) (by omega)⟩
  · exact ⟨fd.pub.size.toNat, .known hendless (by omega)⟩

theorem Counted.read (h : Counted v env fd) (hrun : readFile M v env fd n s = .ok (st, u)) :
    Counted v env st.fd := by
  intro hend
  obtain ⟨m, hm⟩ := h (readFile_hasEnd hrun hend)
  obtain ⟨m', hm', -⟩ := readFile_left hrun hm
  exact ⟨m', hm'⟩

/-- Where there is no end, a read stores all that is asked for. -/
theorem readFile_full (hM : M.Succeeds) (hend : ¬ HasEnd v env fd)
    (h : readFile M v env fd n s = .ok (st, u)) : st.out.length = n.toNat := by
  have hendless : Endless fd := not_not.mp fun hnot => hend (.inl hnot)
  have hclamp := readClamp_of_endless hendless n
  have hstart := Bounded.start (readFile_lt h)
  rw [hclamp] at hstart
  rw [readFile, hclamp] at h
  refine iterate_ok (I := fun a => Bounded n.toNat a ∧ ¬ HasEnd v env a.fd)
    (Q := fun a => a.out.length = n.toNat) ?_ ?_ ⟨hstart, hend⟩ h
  · rintro a b s t ⟨hb, hnone⟩ hrun
    rcases hb.passes hrun with ⟨-, -, hmore⟩ | ⟨-, taken, htakes⟩
    · cases hmore
    · exact ⟨hb.pass hrun, fun hend => hnone (htakes.hasEnd hend)⟩
  · rintro a b s t ⟨hb, hnone⟩ hrun
    rcases readPass_stops hM hrun with ⟨hzero, rfl⟩ | ⟨hroot, hmark⟩
    · have hcount := hb.count
      rw [hzero] at hcount
      exact hcount
    · exact (hnone (.inr ⟨hroot, 0, Leaves.zero_iff.mpr hmark⟩)).elim

end Read

/-! ## Handles -/

/-- A handle that `FAT_Open` can reach: the root directory, rewound, or a file
as `FAT_OpenEntry` leaves it; after any reads, and whatever leaves it alone. -/
inductive OpenHandle (M : Machine σ) (env : Env) : FilePtr → Driver → Prop
  | rewound {d : Driver} : d.Numbered .root → (d.file .root).pub.position = 0 →
      OpenHandle M env .root d
  | opened {d d' : Driver} {entry : DirectoryEntry} {p : FilePtr} {s t : σ} :
      fatOpenEntry M d entry s = .ok ((d', some p), t) → OpenHandle M env p d'
  | read {d d' : Driver} {p : FilePtr} {n : UInt32} {out : List UInt8} {s t : σ} :
      OpenHandle M env p d → fatRead M env d (some p) n s = .ok ((d', out), t) →
      OpenHandle M env p d'
  | other {d d' : Driver} {p : FilePtr} : OpenHandle M env p d → d'.file p = d.file p →
      d'.vol = d.vol → OpenHandle M env p d'

/-- **Every handle** carries its number, and the bytes up to its end, if it
has one, can be counted. -/
theorem OpenHandle.counted {p : FilePtr} {d : Driver} (h : OpenHandle M env p d) :
    d.Numbered p ∧ Counted d.vol env (d.file p) := by
  induction h with
  | rewound hnum hzero => exact ⟨hnum, .start hzero⟩
  | opened hopen =>
    obtain ⟨i, buffer, rfl, -, -, rfl⟩ := fatOpenEntry_some hopen
    rw [Driver.Numbered, Driver.file_setFile_self, Driver.setFile_vol]
    exact ⟨handleFile_slot i, .start rfl⟩
  | read _ hread ih =>
    obtain ⟨hnum, hcounted⟩ := ih
    obtain ⟨st, hst, rfl, -⟩ := fatRead_ok hnum hread
    rw [Driver.file_setFile_self, Driver.setFile_vol]
    exact ⟨hnum.setFile (readFile_same hst).handle, hcounted.read hst⟩
  | other _ hfile hvol ih =>
    rw [Driver.Numbered, hfile, hvol]
    exact ih

/-! ## The search -/

section Search

variable {d d₁ : Driver} {p : FilePtr} {m : Nat} {s s₁ : σ} {name : List UInt8}

/-- What an entry leaves of the file it was read from. -/
theorem fatReadEntry_some {e : DirectoryEntry} (hp : d.Numbered p)
    (h : fatReadEntry M env d (some p) s = .ok ((d₁, some e), s₁)) :
    ∃ st, readFile M d.vol env (d.file p) 32 s = .ok (st, s₁) ∧ d₁ = d.setFile p st.fd ∧
      st.out.length = 32 := by
  obtain ⟨⟨d', out⟩, s', hread, hentry⟩ := of_bind_ok h
  obtain ⟨st, hst, rfl, rfl⟩ := fatRead_ok hp hread
  obtain ⟨hpair, rfl⟩ := of_pure_ok hentry
  obtain ⟨rfl, hsome⟩ := Prod.mk.inj hpair
  by_cases hlength : st.out.length = 32
  · exact ⟨st, hst, rfl, hlength⟩
  · rw [dif_neg hlength] at hsome
    cases hsome

theorem fatFindFile_none_of_read {fuel : Nat}
    (h : fatReadEntry M env d (some p) s = .ok ((d₁, none), s₁)) :
    fatFindFile M env (fuel + 1) d (some p) name s = .ok ((d₁, none), s₁) :=
  ReadsEntries.nil.miss h (by simp) (Nat.succ_pos fuel)

/-- **With an end in sight** the search returns: each entry takes it 32 bytes
nearer. -/
theorem fatFindFile_returns (hM : M.Succeeds) (hbar : ∀ m b, M.loadingBar m b ≠ none)
    (hp : d.Numbered p) (hmeasured : Measured (d.file p)) (hleft : Left d.vol env (d.file p) m)
    (name : List UInt8) (s : σ) :
    ∃ fuel r t, fatFindFile M env fuel d (some p) name s = .ok (r, t) := by
  induction m using Nat.strong_induction_on generalizing d s with
  | _ m ih =>
    obtain ⟨st, t, hst⟩ := @readFile_returns σ M env d.vol hM hbar _ 32
      (readClamp_lt_iff.mpr ⟨hmeasured, by decide⟩ : (readClamp (d.file p) 32).toNat < 2 ^ 31) s
    have hread : fatReadEntry M env d (some p) s = .ok ((d.setFile p st.fd,
        if h : st.out.length = 32 then some ⟨st.out, h⟩ else none), t) := by
      rw [fatReadEntry, fatRead_eq hp, bind_assoc, bind_ok hst]
      rfl
    by_cases hlength : st.out.length = 32
    · rw [dif_pos hlength] at hread
      have hpass := findPass_some hread (fatName name)
      by_cases hkey : fatName name = DirectoryEntry.name ⟨st.out, hlength⟩
      · rw [if_pos hkey] at hpass
        exact ⟨1, _, t, bind_ok hpass⟩
      · rw [if_neg hkey] at hpass
        obtain ⟨m', hm', hle⟩ := readFile_left hst hleft
        have hp' : (d.setFile p st.fd).Numbered p := hp.setFile (readFile_same hst).handle
        have hmeasured' : Measured ((d.setFile p st.fd).file p) := by
          rw [Driver.file_setFile_self]
          exact (readFile_bounded hst).2
        have hleft' : Left (d.setFile p st.fd).vol env ((d.setFile p st.fd).file p) m' := by
          rw [Driver.file_setFile_self, Driver.setFile_vol]
          exact hm'
        obtain ⟨fuel, r, u, hrest⟩ := ih m' (by omega) hp' hmeasured' hleft' t
        refine ⟨fuel + 1, r, u, ?_⟩
        rw [fatFindFile, iterate_succ, bind_ok hpass]
        exact hrest
    · rw [dif_neg hlength] at hread
      exact ⟨1, _, t, fatFindFile_none_of_read hread⟩

/-- **Without an end** it never returns that there is no such entry. -/
theorem fatFindFile_ne_none (hM : M.Succeeds) (hp : d.Numbered p)
    (hend : ¬ HasEnd d.vol env (d.file p)) (fuel : Nat) {d' : Driver} {t : σ} :
    fatFindFile M env fuel d (some p) name s ≠ .ok ((d', none), t) := by
  induction fuel generalizing d s with
  | zero => exact fun h => nomatch h
  | succ fuel ih =>
    intro h
    rcases fatFindFile_ok h with ⟨-, hread⟩ | ⟨e, d₁, s₁, hread, hhit | ⟨-, hrest⟩⟩
    · obtain ⟨⟨d₃, out⟩, s₃, hread', hout⟩ := of_bind_ok hread
      obtain ⟨st, hst, -, rfl⟩ := fatRead_ok hp hread'
      obtain ⟨hpair, -⟩ := of_pure_ok hout
      have hfull := readFile_full hM hend hst
      rw [dif_pos (by exact hfull)] at hpair
      cases hpair
    · cases hhit.2.1
    · obtain ⟨st, hst, rfl, -⟩ := fatReadEntry_some hp hread
      refine ih ?_ ?_ hrest
      · exact hp.setFile (readFile_same hst).handle
      · rw [Driver.file_setFile_self, Driver.setFile_vol]
        exact fun hback => hend (readFile_hasEnd hst hback)

/-- **When `FAT_FindFile` returns**: on any handle that `FAT_Open` can reach,
with disk reads succeeding and the bar aside, if and only if `int` can hold
what is left of the directory, and it has an end or one of its entries has the
key. -/
theorem fatFindFile_returns_iff (hM : M.Succeeds) (hbar : ∀ m b, M.loadingBar m b ≠ none)
    (h : OpenHandle M env p d) (name : List UInt8) (s : σ) :
    (∃ fuel r t, fatFindFile M env fuel d (some p) name s = .ok (r, t)) ↔
      Measured (d.file p) ∧ (HasEnd d.vol env (d.file p) ∨
        ∃ es e d' t, ReadsEntries M env (some p) d s (es ++ [e]) d' t ∧ e.name = fatName name) := by
  obtain ⟨hp, hcounted⟩ := h.counted
  constructor
  · rintro ⟨fuel, ⟨d', found⟩, t, hfind⟩
    constructor
    · cases fuel with
      | zero => cases hfind
      | succ fuel =>
        rw [fatFindFile, iterate_succ] at hfind
        obtain ⟨r, s₁, hpass, -⟩ := of_bind_ok hfind
        obtain ⟨r', s₂, hentry, -⟩ := of_bind_ok hpass
        obtain ⟨⟨d₁, out⟩, s₃, hread, -⟩ := of_bind_ok hentry
        obtain ⟨st, hst, -, -⟩ := fatRead_ok hp hread
        exact (readClamp_lt_iff.mp (readFile_lt hst)).1
    · cases found with
      | some e =>
        obtain ⟨before, hreads, hkey, -⟩ := fatFindFile_some hfind
        exact .inr ⟨before, e, d', t, hreads, hkey⟩
      | none =>
        by_contra hnot
        exact fatFindFile_ne_none hM hp (fun hend => hnot (.inl hend)) fuel hfind
  · rintro ⟨hmeasured, hend | ⟨es, e, d', t, hreads, hkey⟩⟩
    · obtain ⟨m, hm⟩ := hcounted hend
      exact fatFindFile_returns hM hbar hp hmeasured hm name s
    · obtain ⟨before, e', d₁, t₁, hmatch⟩ := hreads.firstMatch (by simp) hkey
      obtain ⟨d₂, t₂, hfind⟩ := hmatch.found
      exact ⟨_, _, _, hfind⟩

end Search

/-- What `FAT_Open` returns is such a handle, from whatever it starts on. -/
theorem openLoop_openHandle {fuel n : Nat} {name : Block 256} {d d' : Driver}
    {current : Option FilePtr} {p : FilePtr} {path : List UInt8} {s t : σ}
    (h : ∀ q, current = some q → OpenHandle M env q d)
    (hrun : openLoop M env fuel n name d current path s = .ok ((d', some p), t)) :
    OpenHandle M env p d' := by
  induction n generalizing name d current path s with
  | zero =>
    rcases openLoop_ok hrun with ⟨-, rfl, hcurrent⟩ | ⟨_, _, _, _, _, _, _, hn, -⟩
    · exact h p hcurrent.symm
    · cases hn
  | succ n ih =>
    rcases openLoop_ok hrun with ⟨-, rfl, hcurrent⟩ | ⟨m, name', d₁, entry, s₁, d₂, s₂, hn, -, -, -,
      -, hend⟩
    · exact h p hcurrent.symm
    · cases hn
      rcases hend with ⟨-, hnone⟩ | ⟨e, d₃, current', path', s₃, -, hopen, hrest⟩
      · cases hnone
      · refine ih (fun q hq => ?_) hrest
        rw [hq] at hopen
        exact .opened hopen

theorem fatOpen_openHandle {fuel : Nat} {d d' : Driver} {p : FilePtr} {path : List UInt8} {s t : σ}
    (h : OpenHandle M env .root d) (hrun : fatOpen M env fuel d path s = .ok ((d', some p), t)) :
    OpenHandle M env p d' := by
  refine openLoop_openHandle (fun q hq => ?_) hrun
  cases hq
  exact h

/-! ## Bytes that are not there -/

section Avoids

variable {b : UInt8}

/-- The byte is nowhere on the disk. -/
def Machine.Avoids (M : Machine σ) (b : UInt8) : Prop :=
  ∀ lba n buf s, b ∉ (M.readSectors lba n buf s).1.2.bytes

theorem readNext_avoids (hM : M.Avoids b) {st st' : ReadState} {more : Bool} {s u : σ}
    (hst : b ∉ st.fd.buffer.bytes) (h : readNext M v env st s = .ok ((st', more), u)) :
    b ∉ st'.fd.buffer.bytes := by
  by_cases hroot : st.fd.pub.handle = rootDirectoryHandle
  · rw [readNext, if_pos hroot] at h
    obtain ⟨⟨status, buffer⟩, t, hread, h⟩ := of_bind_ok h
    have havoids := hM (st.fd.currentCluster + 1) 1 st.fd.buffer s
    rw [show (M.readSectors (st.fd.currentCluster + 1) 1 st.fd.buffer s).1.2 = buffer from
      congrArg (fun r => r.1.2) (Except.ok.inj hread)] at havoids
    cases h
    exact havoids
  · rcases UInt32.lt_or_le (nextSector v env st.fd).currentCluster 0xFF8 with hin | hend
    · rcases hread : nextRead M v env st.fd s with ⟨⟨status, buffer⟩, t⟩
      have havoids : b ∉ (nextRead M v env st.fd s).1.2.bytes := hM _ _ _ _
      rw [hread] at havoids
      rw [readNext_answered hroot hin hread] at h
      split at h
      · cases h
        exact havoids
      · generalize M.loadingBar _ _ = bar at h
        cases bar with
        | none => cases h
        | some column =>
          cases h
          exact havoids
    · rw [readNext_end hroot hend] at h
      cases h
      rw [← nextSector_buffer v env st.fd] at hst
      exact hst

theorem readTake_avoids {st st' : ReadState} {emptied : Bool} (hbuffer : b ∉ st.fd.buffer.bytes)
    (hout : b ∉ st.out) (h : readTake st = some (st', emptied)) :
    b ∉ st'.fd.buffer.bytes ∧ b ∉ st'.out := by
  simp only [readTake] at h
  split at h
  · cases h
    refine ⟨hbuffer, fun hmem => ?_⟩
    rcases List.mem_append.mp hmem with hold | hnew
    · exact hout hold
    · exact hbuffer (List.mem_of_mem_drop (List.mem_of_mem_take hnew))
  · cases h

theorem readPass_avoids (hM : M.Avoids b) {st st' : ReadState} {more : Bool} {s u : σ}
    (hst : b ∉ st.fd.buffer.bytes ∧ b ∉ st.out)
    (h : readPass M v env st s = .ok ((st', more), u)) :
    b ∉ st'.fd.buffer.bytes ∧ b ∉ st'.out := by
  rcases readPass_ok h with ⟨-, rfl, -⟩ | ⟨st₁, emptied, -, htake, hrest⟩
  · exact hst
  · obtain ⟨hbuffer, hout⟩ := readTake_avoids hst.1 hst.2 htake
    rcases hrest with ⟨-, rfl, -⟩ | ⟨-, hnext⟩
    · exact ⟨hbuffer, hout⟩
    · rw [(readNext_ok hnext).out]
      exact ⟨readNext_avoids hM hbuffer hnext, hout⟩

/-- It is in no entry that is read. -/
theorem ReadsEntries.avoids (hM : M.Avoids b) {p : FilePtr} {d d' : Driver} {s t : σ}
    {es : List DirectoryEntry} (h : ReadsEntries M env (some p) d s es d' t) (hp : d.Numbered p)
    (hbuffer : b ∉ (d.file p).buffer.bytes) : ∀ e ∈ es, b ∉ e.bytes := by
  induction h with
  | nil => simp
  | @cons d d₁ _ s s₁ _ e es hread _ ih =>
    obtain ⟨⟨d₂, out⟩, s₂, hfat, hentry⟩ := of_bind_ok hread
    obtain ⟨st, hst, rfl, rfl⟩ := fatRead_ok hp hfat
    obtain ⟨hpair, rfl⟩ := of_pure_ok hentry
    obtain ⟨rfl, hsome⟩ := Prod.mk.inj hpair
    obtain ⟨hkept, hout⟩ := iterate_ok (I := fun a => b ∉ a.fd.buffer.bytes ∧ b ∉ a.out)
      (fun _ _ _ _ => readPass_avoids hM) (fun _ _ _ _ => readPass_avoids hM)
      ⟨hbuffer, List.not_mem_nil⟩ hst
    by_cases hlength : st.out.length = 32
    · rw [dif_pos hlength] at hsome
      cases hsome
      intro e' he'
      rcases List.mem_cons.mp he' with rfl | htail
      · exact hout
      · refine ih ?_ ?_ e' htail
        · exact hp.setFile (readFile_same hst).handle
        · rw [Driver.file_setFile_self]
          exact hkept
    · rw [dif_neg hlength] at hsome
      cases hsome

end Avoids

/-! ## The small volume with a circle -/

/-- The small volume with a directory whose first cluster comes behind itself
in the FAT. -/
def sampleCircle : Fat12.Image
  | 0 => sampleBoot
  | 1 => Block.pad 512 [0xF0, 0xFF, 0xFF, 0x02]
  | 2 => Block.pad 512 sampleDirectory.bytes
  | _ => Block.pad 512 []

theorem sampleCircle_avoids (bar : UInt32 → UInt32 → Option UInt32) :
    (imageMachine sampleCircle bar).Avoids 0x58 := by
  have hsector : ∀ lba, (0x58 : UInt8) ∉ (sampleCircle lba).bytes := by
    intro lba
    match lba with
    | 0 => decide +kernel
    | 1 => decide +kernel
    | 2 => decide +kernel
    | _ + 3 =>
      show (0x58 : UInt8) ∉ (Block.pad 512 []).bytes
      decide +kernel
  have hconcat : ∀ lba n, (0x58 : UInt8) ∉ Block.concat (fun i => sampleCircle (lba + i)) n := by
    intro lba n
    induction n with
    | zero => simp
    | succ n ih =>
      rw [Block.concat_succ]
      intro hmem
      rcases List.mem_append.mp hmem with hold | hnew
      · exact ih hold
      · exact hsector _ hnew
  exact fun lba n _ _ => hconcat lba.toNat n

/-- The root directory has an end. -/
theorem fatFindFile_returns_iff_sample : ∃ fuel r t,
    fatFindFile sampleMachine sampleEnv fuel sampleMounted (some .root) [0x58] () = .ok (r, t) := by
  have hsize : (sampleMounted.file .root).pub.size ≠ 0 := by decide +kernel
  refine (fatFindFile_returns_iff (fun _ _ _ _ => rfl)
    (fun _ _ => by simp [sampleMachine, imageMachine])
    (.rewound (by rw [Driver.Numbered]; decide +kernel) (by decide +kernel)) [0x58] ()).mpr ?_
  refine ⟨.inr ?_, .inl (.inl fun hendless => hsize hendless.2)⟩
  decide +kernel

/-- A directory of size 0 whose first cluster comes behind itself has no end. -/
theorem not_hasEnd_of_fixed {fd : FatFileData} (hend : Endless fd) (hin : ¬ fd.place.IsEnd)
    (hfixed : nextPlace v env fd.place = fd.place) : ¬ HasEnd v env fd := by
  rintro (hnot | ⟨-, n, hn⟩)
  · exact hnot hend
  · have hmark := hn.out
    rw [Function.iterate_fixed hfixed] at hmark
    exact hin hmark

/-- **The defect.** `FAT_FindFile` looks for a file in a directory whose chain
goes in a circle, and never returns. -/
theorem fatFindFile_circles : ¬ ∀ (M : Machine Unit) (env : Env) (d₀ d d' : Driver) (p : FilePtr)
    (fuel : Nat) (path name : List UInt8), M.Succeeds → (∀ m b, M.loadingBar m b ≠ none) →
    fatInitialize M env d₀ () = .ok ((d, 0), ()) →
    fatOpen M env fuel d path () = .ok ((d', some p), ()) →
    (d'.file p).pub.isDirectory = true →
    ∃ fuel r t, fatFindFile M env fuel d' (some p) name () = .ok (r, t) := by
  intro h
  have hM : (imageMachine sampleCircle fun _ _ => some 0).Succeeds := fun _ _ _ _ => rfl
  obtain ⟨⟨⟩, hinit⟩ : ∃ t, fatInitialize (imageMachine sampleCircle fun _ _ => some 0) sampleEnv
      sampleDriver () = .ok ((sampleDriver.mount sampleCircle, 0), t) :=
    fatInitialize_eq (imageMachine_holds sampleCircle fun _ _ => some 0) (by decide +kernel)
      (by decide +kernel) (by decide +kernel)
  have hrun : passes (fun r _ => r.2.any fun p =>
        decide (handleFile (r.1.file p).pub.handle = some p) &&
        decide (0x58 ∉ (r.1.file p).buffer.bytes) &&
        decide ((r.1.file p).pub.isDirectory = true) && decide ((r.1.file p).pub.size = 0) &&
        decide ((r.1.file p).place = ⟨2, 0⟩) &&
        decide (nextPlace r.1.vol sampleEnv ⟨2, 0⟩ = ⟨2, 0⟩))
      (fatOpen (imageMachine sampleCircle fun _ _ => some 0) sampleEnv 2
        (sampleDriver.mount sampleCircle) [0x44] ()) = true := by decide +kernel
  obtain ⟨⟨d', r⟩, ⟨⟩, hopen, htest⟩ := of_passes hrun
  cases r with
  | none => cases htest
  | some p =>
    simp only [Option.any_some, Bool.and_eq_true, decide_eq_true_eq] at htest
    obtain ⟨⟨⟨⟨⟨hp, hbuffer⟩, hdir⟩, hsize⟩, hplace⟩, hfixed⟩ := htest
    have hend : ¬ HasEnd d'.vol sampleEnv (d'.file p) := by
      refine not_hasEnd_of_fixed ⟨hdir, hsize⟩ ?_ ?_
      · rw [hplace, Place.IsEnd]
        decide
      · rw [hplace]
        exact hfixed
    obtain ⟨fuel, ⟨d'', found⟩, t, hfind⟩ := h _ _ _ _ _ _ _ _ [0x58] hM (fun _ _ => nofun) hinit
      hopen hdir
    cases found with
    | none => exact fatFindFile_ne_none hM hp hend fuel hfind
    | some e =>
      obtain ⟨before, hreads, hkey, -⟩ := fatFindFile_some hfind
      have havoids := hreads.avoids (sampleCircle_avoids _) hp hbuffer e (by simp)
      have hname : (0x58 : UInt8) ∈ e.name := by
        rw [hkey]
        decide +kernel
      exact havoids (List.mem_of_mem_take hname)

end Netclover.Stage2
