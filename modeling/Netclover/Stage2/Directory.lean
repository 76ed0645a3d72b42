import Netclover.Stage2.RootDir

/-!
# Searching a directory

`FAT_FindFile` sees a directory through `FAT_ReadEntry` alone, so what it finds
follows from what that delivers. A directory is a stream of entries
(`EntryStream`); the root directory is one, read sector by sector up to its
size, and so is a subdirectory of unknown size, read along its chain up to the
end mark. `FindsFirst` says what a search does with either.
-/

namespace Netclover.Stage2

open Proc Libc Fat12

variable {σ : Type} {M : Machine σ} {env : Env} {file : Option FilePtr}

/-! ## Streams of entries -/

/-- `FAT_ReadEntry` calls one after the other, and the entries they deliver. -/
inductive ReadsEntries (M : Machine σ) (env : Env) (file : Option FilePtr) :
    Driver → σ → List DirectoryEntry → Driver → σ → Prop
  | nil {d : Driver} {s : σ} : ReadsEntries M env file d s [] d s
  | cons {d d₁ d' : Driver} {s s₁ t : σ} {e : DirectoryEntry} {es : List DirectoryEntry} :
      fatReadEntry M env d file s = .ok ((d₁, some e), s₁) →
      ReadsEntries M env file d₁ s₁ es d' t → ReadsEntries M env file d s (e :: es) d' t

/-- What `FAT_FindFile` does with a directory of these entries. It reads them
in order up to the first with the key, and returns that one; without one it
reads them all, meets the end, and returns false. -/
structure FindsFirst (M : Machine σ) (env : Env) (d : Driver) (file : Option FilePtr)
    (es : List DirectoryEntry) : Prop where
  hit : ∀ name fuel s before e after, es.length < fuel → es = before ++ e :: after →
    e.name = fatName name → (∀ e' ∈ before, e'.name ≠ fatName name) →
    ∃ d' t, fatFindFile M env fuel d file name s = .ok ((d', some e), t) ∧
      ReadsEntries M env file d s (before ++ [e]) d' t
  miss : ∀ name fuel s, es.length < fuel → (∀ e ∈ es, e.name ≠ fatName name) →
    ∃ d₁ t₁ d' t, ReadsEntries M env file d s es d₁ t₁ ∧
      fatReadEntry M env d₁ file t₁ = .ok ((d', none), t) ∧
      fatFindFile M env fuel d file name s = .ok ((d', none), t)

/-- The entries up to an end, from any state of the disk. -/
def EndsAfter (M : Machine σ) (env : Env) (d : Driver) (file : Option FilePtr)
    (es : List DirectoryEntry) : Prop :=
  ∀ s, ∃ d₁ t₁ d' t, ReadsEntries M env file d s es d₁ t₁ ∧
    fatReadEntry M env d₁ file t₁ = .ok ((d', none), t)

section

variable {d d₁ d' : Driver} {s t t₁ : σ} {name : List UInt8}

theorem findPass_some {e : DirectoryEntry} (h : fatReadEntry M env d file s = .ok ((d₁, some e), t))
    (key : List UInt8) : findPass M env file key (d, none) s
      = .ok (if key = e.name then ((d₁, some e), false) else ((d₁, none), true), t) := by
  rw [findPass, bind_ok h]
  dsimp only
  split
  · rfl
  · rfl

/-- The first entry with the key ends the search. -/
theorem ReadsEntries.hit {before after : List DirectoryEntry} {e : DirectoryEntry}
    (h : ReadsEntries M env file d s (before ++ e :: after) d₁ t₁) (hkey : e.name = fatName name)
    (hfirst : ∀ e' ∈ before, e'.name ≠ fatName name) {fuel : Nat} (hfuel : before.length < fuel) :
    ∃ d' t, fatFindFile M env fuel d file name s = .ok ((d', some e), t) ∧
      ReadsEntries M env file d s (before ++ [e]) d' t := by
  obtain ⟨fuel, rfl⟩ := Nat.exists_eq_succ_of_ne_zero (Nat.ne_zero_of_lt hfuel)
  induction before generalizing d s fuel with
  | nil =>
    cases h with
    | cons hread _ =>
      refine ⟨_, _, ?_, .cons hread .nil⟩
      rw [fatFindFile, iterate_succ, bind_ok (findPass_some hread _), if_pos hkey.symm]
      rfl
  | cons e' before ih =>
    cases h with
    | cons hread hrest =>
      have hne := hfirst e' List.mem_cons_self
      rw [List.length_cons] at hfuel
      obtain ⟨fuel, rfl⟩ := Nat.exists_eq_succ_of_ne_zero (n := fuel) (by omega)
      obtain ⟨d', t, hfind, hreads⟩ := ih hrest
        (fun e'' he => hfirst e'' (List.mem_cons_of_mem _ he)) fuel (by omega)
      refine ⟨d', t, ?_, .cons hread hreads⟩
      rw [fatFindFile, iterate_succ, bind_ok (findPass_some hread _), if_neg hne.symm]
      exact hfind

/-- Without one, the end of the directory does. -/
theorem ReadsEntries.miss {es : List DirectoryEntry} (h : ReadsEntries M env file d s es d₁ t₁)
    (hend : fatReadEntry M env d₁ file t₁ = .ok ((d', none), t))
    (hnone : ∀ e ∈ es, e.name ≠ fatName name) {fuel : Nat} (hfuel : es.length < fuel) :
    fatFindFile M env fuel d file name s = .ok ((d', none), t) := by
  induction h generalizing fuel with
  | nil =>
    obtain ⟨fuel, rfl⟩ := Nat.exists_eq_succ_of_ne_zero (Nat.ne_zero_of_lt hfuel)
    rw [fatFindFile, iterate_succ, findPass, bind_assoc, bind_ok hend]
    rfl
  | @cons _ _ _ _ _ _ e es hread _ ih =>
    obtain ⟨fuel, rfl⟩ := Nat.exists_eq_succ_of_ne_zero (Nat.ne_zero_of_lt hfuel)
    have hne := hnone e List.mem_cons_self
    rw [List.length_cons] at hfuel
    rw [fatFindFile, iterate_succ, bind_ok (findPass_some hread _), if_neg hne.symm]
    exact ih hend (fun e' he => hnone e' (List.mem_cons_of_mem _ he)) (by omega)

end

/-- **The search** of a directory: one pass an entry. -/
theorem EndsAfter.findsFirst {d : Driver} {es : List DirectoryEntry}
    (h : EndsAfter M env d file es) : FindsFirst M env d file es := by
  constructor
  · intro name fuel s before e after hfuel hes hkey hfirst
    obtain ⟨d₁, t₁, d', t, hreads, -⟩ := h s
    subst hes
    rw [List.length_append] at hfuel
    exact hreads.hit hkey hfirst (by omega)
  · intro name fuel s hfuel hnone
    obtain ⟨d₁, t₁, d', t, hreads, hend⟩ := h s
    exact ⟨d₁, t₁, d', t, hreads, hend, hreads.miss hend hnone hfuel⟩

/-- A directory that is in a state `At k` in front of its entry `k`, up to
entry `n`, which is not there. -/
structure EntryStream (M : Machine σ) (env : Env) (file : Option FilePtr) (n : Nat)
    (entry : Nat → DirectoryEntry) (At : Nat → Driver → Prop) : Prop where
  next : ∀ k d s, k < n → At k d → ∃ d' t,
    fatReadEntry M env d file s = .ok ((d', some (entry k)), t) ∧ At (k + 1) d'
  last : ∀ d s, At n d → ∃ d' t, fatReadEntry M env d file s = .ok ((d', none), t)

/-- The entries of a stream come one after the other. -/
theorem EntryStream.endsAfter {n : Nat} {entry : Nat → DirectoryEntry} {At : Nat → Driver → Prop}
    (h : EntryStream M env file n entry At) {d : Driver} (hd : At 0 d) :
    EndsAfter M env d file ((List.range n).map entry) := by
  have hreads : ∀ k i d s, i + k = n → At i d → ∃ d₁ t₁,
      ReadsEntries M env file d s ((List.range' i k).map entry) d₁ t₁ ∧ At n d₁ := by
    intro k
    induction k with
    | zero =>
      intro i d s hi hd
      rw [Nat.add_zero] at hi
      subst hi
      exact ⟨d, s, .nil, hd⟩
    | succ k ih =>
      intro i d s hi hd
      obtain ⟨d', t, hread, hd'⟩ := h.next i d s (by omega) hd
      obtain ⟨d₁, t₁, hrest, hd₁⟩ := ih (i + 1) d' t (by omega) hd'
      exact ⟨d₁, t₁, .cons hread hrest, hd₁⟩
  intro s
  obtain ⟨d₁, t₁, hall, hd₁⟩ := hreads n 0 d s (Nat.zero_add n) hd
  obtain ⟨d', t, hend⟩ := h.last d₁ t₁ hd₁
  rw [List.range_eq_range']
  exact ⟨d₁, t₁, d', t, hall, hend⟩

/-! ## The root directory -/

def Volume.rootEntries (v : Volume) (img : Image) : List DirectoryEntry :=
  (List.range v.dirEntryCount.toNat).map (v.rootEntry img)

theorem rootStream {img : Image} (hM : M.Holds img) {d : Driver} (hd : d.vol.dirEntryCount ≠ 0) :
    EntryStream M env (some .root) d.vol.dirEntryCount.toNat (d.vol.rootEntry img)
      fun k d' => d' = d.atRecord img k := by
  constructor
  · rintro k d' s hk rfl
    have hlt := d.vol.dirEntryCount.toNat_lt
    have hrecord : d.vol.HasRecord k := ⟨by omega, .inr hk⟩
    obtain ⟨r, t, hread, rfl⟩ := (fatReadEntry_root_ensures hM.serves hrecord).returns s
    exact ⟨_, t, hread, rfl⟩
  · rintro d' s rfl
    rw [fatReadEntry_root_end hd]
    exact ⟨_, s, rfl⟩

/-! ## A subdirectory -/

/-- Record `k` of a directory along a chain. -/
def Volume.chainEntry (v : Volume) (img : Image) (cs : List Nat) (k : Nat) : DirectoryEntry :=
  ⟨((chainSector img v.layout cs (k / 16)).bytes.drop (32 * (k % 16))).take 32, by
    rw [List.length_take, List.length_drop, Block.length_bytes]
    omega⟩

/-- How many records the clusters of a chain hold. -/
def chainRecords (v : Volume) (cs : List Nat) : Nat :=
  cs.length * v.layout.sectorsPerCluster * 16

def Volume.chainEntries (v : Volume) (img : Image) (cs : List Nat) : List DirectoryEntry :=
  (List.range (chainRecords v cs)).map (v.chainEntry img cs)

/-- The handle of a directory in front of record `k`: its size is unknown, or
the end of the chain has been seen. -/
structure DirectoryAt (img : Image) (v : Volume) (cs : List Nat) (k : Nat) (fd : FatFileData) :
    Prop where
  handle : fd.pub.handle ≠ rootDirectoryHandle
  isDirectory : fd.pub.isDirectory = true
  position : fd.pub.position.toNat = 32 * k
  place : (k < chainRecords v cs ∧ AtSector v cs (k / 16) fd ∧
      fd.buffer = chainSector img v.layout cs (k / 16) ∧ fd.pub.size = 0) ∨
    (k = chainRecords v cs ∧ fd.pub.size = fd.pub.position)

/-- In front of a record that is there, its sector is in the buffer. -/
theorem DirectoryAt.inside {img : Image} {v : Volume} {cs : List Nat} {k : Nat} {fd : FatFileData}
    (h : DirectoryAt img v cs k fd) (hk : k < chainRecords v cs) :
    AtSector v cs (k / 16) fd ∧ fd.buffer = chainSector img v.layout cs (k / 16) ∧
      fd.pub.size = 0 := by
  rcases h.place with ⟨-, hplace⟩ | ⟨hend, -⟩
  · exact hplace
  · omega

section

variable {img : Image} {Bad : σ → Prop} {halts : Stop → Prop} {v : Volume} {cs : List Nat}
  {first : Nat} (hM : Serves M img Bad)
  (hbar : ∀ m b, M.loadingBar m b = none → halts .divideError) (hv : v.Mounted)
  (hcs : Chain v.fat first cs)
include hM hbar hv hcs

/-- The step behind the last record of a sector: to the first of the next one,
or to the end of the chain. -/
theorem readNext_directory_ensures {k : Nat} (hedge : k % 16 = 15) {st : ReadState}
    (hat : AtSector v cs (k / 16) st.fd) (hhandle : st.fd.pub.handle ≠ rootDirectoryHandle)
    (hdir : st.fd.pub.isDirectory = true) (hposition : st.fd.pub.position.toNat = 32 * (k + 1))
    (hsize : st.fd.pub.size = 0) :
    Ensures Bad halts (readNext M v env st) fun r => r.1.byteCount = st.byteCount ∧
      r.1.out = st.out ∧ DirectoryAt img v cs (k + 1) r.1.fd := by
  have hrecords : chainRecords v cs = cs.length * v.layout.sectorsPerCluster * 16 := rfl
  have hsector : (k + 1) / 16 = k / 16 + 1 := by omega
  refine (readNext_walks hM hbar hv hcs hat hhandle).mono fun r hr => ?_
  refine ⟨hr.byteCount, hr.out, ?_⟩
  cases hmore : r.2 with
  | true =>
    obtain ⟨hat', hbuffer, hpub⟩ := hr.more hmore
    have hinside := hat'.inside
    have hplace : AtSector v cs ((k + 1) / 16) r.1.fd ∧
        r.1.fd.buffer = chainSector img v.layout cs ((k + 1) / 16) := by
      rw [hsector]
      exact ⟨hat', hbuffer⟩
    constructor
    · rw [hpub]
      exact hhandle
    · rw [hpub]
      exact hdir
    · rw [hpub]
      exact hposition
    · rw [hpub]
      exact .inl ⟨by omega, hplace.1, hplace.2, hsize⟩
  | false =>
    -- the end of the chain: the size is set to the position
    obtain ⟨hlast, hpub⟩ := hr.stop hmore
    constructor
    · rw [hpub]
      exact hhandle
    · rw [hpub]
      exact hdir
    · rw [hpub]
      exact hposition
    · rw [hpub]
      exact .inr ⟨by omega, rfl⟩

/-- The pass that takes the record, and steps to the next sector or to the end
of the chain if the record was the last of its sector. -/
theorem readPass_directory_ensures {k : Nat} (hk : k < chainRecords v cs) {st : ReadState}
    (h : DirectoryAt img v cs k st.fd) (hb : st.byteCount.toNat = 32) (hout : st.out = []) :
    Ensures Bad halts (readPass M v env st) fun r => r.1.byteCount = 0 ∧
      r.1.out = (v.chainEntry img cs k).bytes ∧ DirectoryAt img v cs (k + 1) r.1.fd := by
  have htotal := chainBytes_lt hcs
  rw [chainBytes] at htotal
  have hrecords : chainRecords v cs = cs.length * v.layout.sectorsPerCluster * 16 := rfl
  obtain ⟨hat, hbuffer, hsize⟩ := h.inside hk
  obtain ⟨st', emptied, htake, hdone, hrecord, hfd, hemptied⟩ :=
    readTake_record h.position hb hout
  rw [hbuffer] at hrecord
  have hnext : st'.fd.pub.position.toNat = 32 * (k + 1) := by
    rw [hfd]
    show (UInt32.ofNat (32 * (k + 1))).toNat = _
    rw [UInt32.toNat_ofNat', Nat.mod_eq_of_lt (by omega)]
  have hat' : AtSector v cs (k / 16) st'.fd := by
    rw [hfd]
    exact ⟨hat.inside, hat.cluster, hat.sector⟩
  have hhandle : st'.fd.pub.handle ≠ rootDirectoryHandle := by
    rw [hfd]
    exact h.handle
  have hdir : st'.fd.pub.isDirectory = true := by
    rw [hfd]
    exact h.isDirectory
  have hsize' : st'.fd.pub.size = 0 := by
    rw [hfd]
    exact hsize
  rw [readPass, if_pos (by show 0 < st.byteCount.toNat; omega), htake]
  cases emptied with
  | false =>
    have hmid : (k + 1) / 16 = k / 16 := by
      have : k % 16 ≠ 15 := by simpa using hemptied
      omega
    have hbuffer' : st'.fd.buffer = chainSector img v.layout cs ((k + 1) / 16) := by
      rw [hfd, hmid]
      exact hbuffer
    rw [← hmid] at hat'
    exact Ensures.pure ⟨hdone, hrecord, hhandle, hdir, hnext,
      .inl ⟨by omega, hat', hbuffer', hsize'⟩⟩
  | true =>
    refine (readNext_directory_ensures hM hbar hv hcs (hemptied.mp rfl) hat' hhandle hdir hnext
      hsize').mono fun r hr => ?_
    obtain ⟨hcount, hout', hfd'⟩ := hr
    exact ⟨hcount.trans hdone, hout'.trans hrecord, hfd'⟩

/-- **`FAT_ReadEntry` on a subdirectory** stores the next record and stands in
front of the one behind it. -/
theorem readFile_directory_ensures {k : Nat} (hk : k < chainRecords v cs) {fd : FatFileData}
    (h : DirectoryAt img v cs k fd) :
    Ensures Bad halts (readFile M v env fd 32) fun st =>
      st.out = (v.chainEntry img cs k).bytes ∧ DirectoryAt img v cs (k + 1) st.fd := by
  have hclamp : readClamp fd 32 = 32 :=
    readClamp_of_endless ⟨h.isDirectory, (h.inside hk).2.2⟩ 32
  refine readFile_of_readPass hM.keeps (by rw [hclamp]; decide) ?_
  exact readPass_directory_ensures hM hbar hv hcs hk h (by rw [hclamp]; rfl) rfl

omit hM hbar in
/-- Behind the last record of a chain it takes nothing. -/
theorem readFile_directory_end {fd : FatFileData} (h : DirectoryAt img v cs (chainRecords v cs) fd) :
    readFile M v env fd 32 = pure ⟨fd, 0, 0, []⟩ := by
  have hspc : 1 ≤ v.layout.sectorsPerCluster := UInt8.le_iff_toNat_le.mp hv.sectorsPerCluster
  have hpos : 1 ≤ cs.length * v.layout.sectorsPerCluster := Nat.mul_pos hcs.nonempty hspc
  have hrecords : chainRecords v cs = cs.length * v.layout.sectorsPerCluster * 16 := rfl
  have hposition := h.position
  have hsize : fd.pub.size = fd.pub.position := by
    rcases h.place with ⟨hlt, -⟩ | ⟨-, hsize⟩
    · omega
    · exact hsize
  have hend : ¬ Endless fd := by
    rintro ⟨-, hzero⟩
    rw [hsize] at hzero
    rw [hzero] at hposition
    have : (0 : UInt32).toNat = 0 := rfl
    omega
  have hclamp : readClamp fd 32 = 0 := by
    rw [readClamp_of_not_endless hend, hsize, UInt32.sub_self]
    decide
  rw [readFile, hclamp]
  rfl

/-! ## Its entries -/

/-- The driver with a directory behind `p` in front of record `k`. -/
structure OpenDirectory (img : Image) (v : Volume) (cs : List Nat) (p : FilePtr) (k : Nat)
    (d : Driver) : Prop where
  vol : d.vol = v
  numbered : d.Numbered p
  file : DirectoryAt img v cs k (d.file p)

/-- **`FAT_ReadEntry`** delivers the next record of a subdirectory. -/
theorem fatReadEntry_directory_ensures {p : FilePtr} {k : Nat} (hk : k < chainRecords v cs)
    {d : Driver} (h : OpenDirectory img v cs p k d) :
    Ensures Bad halts (fatReadEntry M env d (some p)) fun r =>
      r.2 = some (v.chainEntry img cs k) ∧ OpenDirectory img v cs p (k + 1) r.1 := by
  have hsame : ∀ s st t, readFile M v env (d.file p) 32 s = .ok (st, t) →
      SameFile (d.file p) st.fd := fun s st t => readFile_same
  rw [fatReadEntry, fatRead_eq h.numbered, h.vol, bind_assoc]
  refine Ensures.bind ((readFile_directory_ensures hM hbar hv hcs hk h.file).and_ok hsame)
    (fun _ => Keeps.pure _) fun st hst => ?_
  obtain ⟨⟨hout, hfile⟩, hst⟩ := hst
  refine Ensures.pure ⟨?_, ?_, h.numbered.setFile hst.handle, ?_⟩
  · have hlen : st.out.length = 32 := by rw [hout, Block.length_bytes]
    dsimp only
    rw [dif_pos hlen]
    simp only [hout]
    rfl
  · dsimp only
    rw [Driver.setFile_vol, h.vol]
  · dsimp only
    rw [Driver.file_setFile_self]
    exact hfile

end

section

variable {img : Image} {v : Volume} {cs : List Nat} {first : Nat} (hM : M.Holds img)
  (hv : v.Mounted) (hcs : Chain v.fat first cs)
include hM hv hcs

theorem directoryStream (hbar : ∀ m b, M.loadingBar m b ≠ none) (p : FilePtr) :
    EntryStream M env (some p) (chainRecords v cs) (v.chainEntry img cs)
      (OpenDirectory img v cs p) := by
  constructor
  · intro k d s hk hd
    obtain ⟨⟨d', entry⟩, t, hread, hentry, hd'⟩ := (fatReadEntry_directory_ensures hM.serves
      (fun m b hnone => hbar m b hnone) hv hcs hk hd).returns s
    dsimp only at hentry hd'
    subst hentry
    exact ⟨d', t, hread, hd'⟩
  · intro d s hd
    refine ⟨d, s, ?_⟩
    rw [fatReadEntry, fatRead_eq hd.numbered, hd.vol, readFile_directory_end hv hcs hd.file]
    show Except.ok ((d.setFile p (d.file p), none), s) = _
    rw [Driver.setFile_file]

/-- **`FAT_OpenEntry`** puts the handle in front of the first record. -/
theorem openDirectory_start {d₀ d : Driver} {entry : DirectoryEntry} {p : FilePtr} {s₀ s : σ}
    (hvol : d₀.vol = v) (hfirst : entry.firstCluster.toNat = first)
    (hdir : entry.isDirectory = true) (hsize : entry.size = 0)
    (hopen : fatOpenEntry M d₀ entry s₀ = .ok ((d, some p), s)) :
    OpenDirectory img v cs p 0 d := by
  have hspc : 1 ≤ v.layout.sectorsPerCluster := UInt8.le_iff_toNat_le.mp hv.sectorsPerCluster
  have hpos : 1 ≤ cs.length * v.layout.sectorsPerCluster := Nat.mul_pos hcs.nonempty hspc
  have hrecords : chainRecords v cs = cs.length * v.layout.sectorsPerCluster * 16 := rfl
  obtain ⟨i, buffer, rfl, -, hread, rfl⟩ := fatOpenEntry_some hopen
  rw [hM.read, hvol, toNat_clusterToLba_first hv hcs hfirst, imageSectors_one] at hread
  cases hread
  refine ⟨?_, ?_, ?_⟩
  · rw [Driver.setFile_vol, hvol]
  · rw [Driver.Numbered, Driver.file_setFile_self, handleFile_slot]
  · rw [Driver.file_setFile_self]
    refine ⟨?_, hdir, rfl, .inl ⟨by omega, ?_, ?_, hsize⟩⟩
    · show (i.val : Int) ≠ -1
      omega
    · rw [Nat.zero_div]
      exact .start hv hcs hfirst rfl
    · rw [Nat.zero_div, chainSector_zero hcs]

end

/-- **Directory search** is complete and in order, in the root directory as
`FAT_Initialize` leaves it, and in a subdirectory of size 0 as `FAT_OpenEntry`
leaves it. -/
theorem fatFindFile_findsFirst {img : Image} (hM : M.Holds img)
    (hbar : ∀ m b, M.loadingBar m b ≠ none) :
    (∀ env₀ d₀ s₀ d s, fatInitialize M env₀ d₀ s₀ = .ok ((d, 0), s) → 1 ≤ d.vol.dirEntryCount →
      ∀ env, FindsFirst M env d (some .root) (d.vol.rootEntries img)) ∧
    ∀ d₀ entry s₀ d p s cs, d₀.vol.Mounted →
      Chain d₀.vol.fat entry.firstCluster.toNat cs → entry.isDirectory = true → entry.size = 0 →
      fatOpenEntry M d₀ entry s₀ = .ok ((d, some p), s) →
      ∀ env, FindsFirst M env d (some p) (d₀.vol.chainEntries img cs) := by
  constructor
  · intro env₀ d₀ s₀ d s hinit hcount env
    obtain ⟨-, hroot, -⟩ := fatInitialize_mount hM.serves hinit id
    have hne : d.vol.dirEntryCount ≠ 0 := by
      intro hzero
      rw [hzero] at hcount
      exact absurd hcount (by decide)
    have hstart : d = d.atRecord img 0 := by
      rw [Driver.atRecord, Volume.rootAt_zero, ← hroot]
      rfl
    exact ((rootStream hM hne).endsAfter hstart).findsFirst
  · intro d₀ entry s₀ d p s cs hv hcs hdir hsize hopen env
    have hstart := openDirectory_start hM hv hcs rfl rfl hdir hsize hopen
    exact ((directoryStream hM hv hcs hbar p).endsAfter hstart).findsFirst

/-! ## Small directories -/

theorem sampleTree_chain : Chain (Volume.mount sampleTree).fat
    sampleDirectory.firstCluster.toNat [2, 3] := by
  have hfat : (Volume.mount sampleTree).fat = (Volume.mount sampleImage).fat := by decide +kernel
  have hfirst : sampleDirectory.firstCluster = sampleKernelEntry.firstCluster := by decide +kernel
  rw [hfat, hfirst]
  exact sample_chain

/-- Both directories of the small volume. -/
theorem fatFindFile_findsFirst_sample :
    FindsFirst (imageMachine sampleTree fun _ _ => some 0) sampleEnv (sampleDriver.mount sampleTree)
      (some .root) ((Volume.mount sampleTree).rootEntries sampleTree) ∧
    ∃ d p, fatOpenEntry (imageMachine sampleTree fun _ _ => some 0) (sampleDriver.mount sampleTree)
        sampleDirectory () = .ok ((d, some p), ()) ∧
      FindsFirst (imageMachine sampleTree fun _ _ => some 0) sampleEnv d (some p)
        ((Volume.mount sampleTree).chainEntries sampleTree [2, 3]) := by
  have hM := imageMachine_holds sampleTree fun _ _ => some 0
  have h := fatFindFile_findsFirst hM (by simp [imageMachine])
  have hv : (Volume.mount sampleTree).Mounted :=
    Volume.mount_mounted (by decide +kernel) (by decide +kernel)
  have hinit : ∃ t, fatInitialize (imageMachine sampleTree fun _ _ => some 0) sampleEnv sampleDriver
      () = .ok ((sampleDriver.mount sampleTree, 0), t) :=
    fatInitialize_eq hM (by decide +kernel) (by decide +kernel) (by decide +kernel)
  obtain ⟨t, hinit⟩ := hinit
  have hopen : passes (fun r _ => r.2.isSome) (fatOpenEntry (imageMachine sampleTree fun _ _ => some 0)
      (sampleDriver.mount sampleTree) sampleDirectory ()) = true := by decide +kernel
  obtain ⟨⟨d, r⟩, s, hopen, hr⟩ := of_passes hopen
  obtain ⟨p, rfl⟩ := Option.isSome_iff_exists.mp hr
  exact ⟨h.1 _ _ _ _ _ hinit (by decide +kernel) sampleEnv, d, p, hopen,
    h.2 _ _ _ _ _ _ _ hv sampleTree_chain (by decide +kernel) (by decide +kernel) hopen sampleEnv⟩

/-- A volume whose clusters have no sectors, and whose first data sector holds
a record. -/
def sampleFlat : Image
  | 0 => Block.pad 512 (sampleBoot.bytes.set 13 0)
  | 1 => sampleTable
  | _ => Block.pad 512 sampleSmallEntry.bytes

/-- **Clusters without sectors.** `FAT_Initialize` accepts such a volume, and
the directories on it have no entries; `FAT_Read` takes every cluster for one
sector, and `FAT_FindFile` finds a record there. -/
theorem fatFindFile_finds_outside :
    fatInitialize (imageMachine sampleFlat fun _ _ => some 0) sampleEnv sampleDriver ()
      = .ok ((sampleDriver.mount sampleFlat, 0), ()) ∧
    (Volume.mount sampleFlat).bytesPerSector = 512 ∧
    Chain (Volume.mount sampleFlat).fat sampleDirectory.firstCluster.toNat [2, 3] ∧
    sampleDirectory.isDirectory = true ∧ sampleDirectory.size = 0 ∧
    ∃ d p, fatOpenEntry (imageMachine sampleFlat fun _ _ => some 0) (sampleDriver.mount sampleFlat)
        sampleDirectory () = .ok ((d, some p), ()) ∧
      ¬ FindsFirst (imageMachine sampleFlat fun _ _ => some 0) sampleEnv d (some p)
        ((Volume.mount sampleFlat).chainEntries sampleFlat [2, 3]) := by
  have hM := imageMachine_holds sampleFlat fun _ _ => some 0
  have hfat : (Volume.mount sampleFlat).fat = (Volume.mount sampleTree).fat := by decide +kernel
  have hinit : ∃ t, fatInitialize (imageMachine sampleFlat fun _ _ => some 0) sampleEnv sampleDriver
      () = .ok ((sampleDriver.mount sampleFlat, 0), t) :=
    fatInitialize_eq hM (by decide +kernel) (by decide +kernel) (by decide +kernel)
  obtain ⟨t, hinit⟩ := hinit
  have hrun : passes (fun r _ => r.2.isSome && passes (fun found _ => found.2.isSome)
        (fatFindFile (imageMachine sampleFlat fun _ _ => some 0) sampleEnv 1 r.1 r.2
          [0x62, 0x2E, 0x62, 0x69, 0x6E] ()))
      (fatOpenEntry (imageMachine sampleFlat fun _ _ => some 0) (sampleDriver.mount sampleFlat)
        sampleDirectory ()) = true := by decide +kernel
  obtain ⟨⟨d, r⟩, s, hopen, htest⟩ := of_passes hrun
  obtain ⟨hr, hfind⟩ := (Bool.and_eq_true _ _).mp htest
  obtain ⟨p, rfl⟩ := Option.isSome_iff_exists.mp hr
  obtain ⟨⟨d', found⟩, s', hfind, hfound⟩ := of_passes hfind
  refine ⟨hinit, by decide +kernel, by rw [hfat]; exact sampleTree_chain, by decide +kernel,
    by decide +kernel, d, p, hopen, fun h => ?_⟩
  have hempty : (Volume.mount sampleFlat).chainEntries sampleFlat [2, 3] = [] := by decide +kernel
  rw [hempty] at h
  obtain ⟨-, -, d'', t', -, -, hmiss⟩ := h.miss [0x62, 0x2E, 0x62, 0x69, 0x6E] 1 () (by decide)
    (by simp)
  rw [hfind] at hmiss
  cases hmiss
  cases hfound

end Netclover.Stage2
