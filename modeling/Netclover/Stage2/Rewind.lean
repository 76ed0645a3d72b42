import Netclover.Stage2.Names
import Netclover.Stage2.RootDir

/-!
# Rewinding the root directory

`FAT_Close` puts the position and the cluster of the root directory back, and
leaves the sector that was read last in its buffer. A lookup after that finds
what it finds after `FAT_Initialize` as long as that sector is still the first
one. `InFirstSector` is the invariant, `RewindSafe` the condition on the calls
that keeps it, and `fatOpen_after_history` what follows for `FAT_Open`.
-/

namespace Netclover.Stage2

open Proc Libc Fat12

variable {σ : Type} {M : Machine σ} {env : Env}

/-! ## `FAT_Open` of one component -/

/-- A path of one component, with or without its slash. -/
def OneComponent (path comp : List UInt8) : Prop :=
  comp ≠ [] ∧ 0x2F ∉ comp ∧ (path = comp ∨ path = 0x2F :: comp)

theorem OneComponent.strip {path comp : List UInt8} (h : OneComponent path comp) :
    (if path.head? = some 0x2F then path.tail else path) = comp := by
  obtain ⟨hne, hslash, rfl | rfl⟩ := h
  · rw [if_neg]
    intro hhead
    cases path with
    | nil => exact hne rfl
    | cons c path =>
      obtain rfl : c = 0x2F := by simpa using hhead
      exact hslash List.mem_cons_self
  · exact if_pos rfl

/-- Look a component up in the root directory, close that, open what was
found. -/
def openComponent (M : Machine σ) (env : Env) (fuel : Nat) (d : Driver) (comp : List UInt8) :
    Proc σ Stop (Driver × Option FilePtr) :=
  match copyName env.stack comp comp.length with
  | none => Proc.halt .outOfBounds
  | some name => do
    let r ← fatFindFile M env fuel d (some .root) (cstring name)
    let d ← fatClose r.1 (some .root)
    match r.2 with
    | none => return (d, none)
    | some entry => fatOpenEntry M d entry

/-- `FAT_Open` of one component does just that. -/
theorem fatOpen_component {path comp : List UInt8} (h : OneComponent path comp) (fuel : Nat)
    (d : Driver) : fatOpen M env fuel d path = openComponent M env fuel d comp := by
  obtain ⟨c, rest, hcomp⟩ := List.exists_cons_of_ne_nil h.1
  rw [openComponent, fatOpen, h.strip, show comp.length = rest.length + 1 by rw [hcomp]; rfl, openLoop,
    if_neg h.1, strchr_eq_none h.2.1]
  dsimp only [Option.getD_none, Option.isSome_none, Bool.false_and]
  rw [show rest.length + 1 = comp.length by rw [hcomp]; rfl]
  cases copyName env.stack comp comp.length with
  | none => rfl
  | some name =>
    dsimp only
    congr 1
    funext r
    congr 1
    funext d
    obtain ⟨d₁, entry⟩ := r
    cases entry with
    | none => rfl
    | some entry =>
      dsimp only
      rw [if_neg (by simp), List.drop_of_length_le (by omega)]
      calc (fatOpenEntry M d entry >>= fun r => openLoop M env fuel rest.length name r.1 r.2 [])
          = fatOpenEntry M d entry >>= pure := bind_congr fun r => openLoop_nil fuel _ name r.1 r.2
        _ = fatOpenEntry M d entry := bind_pure _

/-! ## The same root directory, the same file

What `FAT_Open` finds depends on the volume and on the root directory's file
data, and on nothing else of the driver or around it. -/

/-- Reading the root directory does not look past the FAT. -/
theorem readPass_root_env {v : Volume} {st : ReadState}
    (h : st.fd.pub.handle = rootDirectoryHandle) (env env' : Env) :
    readPass M v env st = readPass M v env' st := by
  unfold readPass
  split
  · cases htake : readTake st with
    | none => rfl
    | some r =>
      obtain ⟨st', emptied⟩ := r
      have hroot : st'.fd.pub.handle = rootDirectoryHandle := by
        rw [(readTake_same htake).handle, h]
      dsimp only
      cases emptied with
      | false => rw [if_neg Bool.false_ne_true, if_neg Bool.false_ne_true]
      | true => rw [if_pos rfl, if_pos rfl, readNext, readNext, if_pos hroot, if_pos hroot]
  · rfl

theorem readFile_root_transfers (hM : M.Stateless) {v : Volume} {fd : FatFileData} {n : UInt32}
    {st : ReadState} {s s' : σ} (h : fd.pub.handle = rootDirectoryHandle) {env : Env} (env' : Env)
    (hrun : readFile M v env fd n s = .ok (st, s')) (t : σ) :
    ∃ t', readFile M v env' fd n t = .ok (st, t') := by
  have hsim : ∃ b t', readFile M v env' fd n t = .ok (b, t') ∧
      b = st ∧ st.fd.pub.handle = rootDirectoryHandle := by
    refine iterate_simulates
      (R := fun a b : ReadState => b = a ∧ a.fd.pub.handle = rootDirectoryHandle)
      ?_ t ⟨rfl, h⟩ hrun
    rintro a b s s' r t ⟨rfl, ha⟩ hbody
    rw [readPass_root_env ha env env'] at hbody
    obtain ⟨t', ht'⟩ := (readPass_oblivious hM v b).ok hbody t
    exact ⟨r, t', ht', ⟨rfl, by rw [(readPass_same hbody).handle, ha]⟩, rfl⟩
  obtain ⟨b, t', hrun', rfl, -⟩ := hsim
  exact ⟨t', hrun'⟩

/-- Two drivers with the same volume and the same root directory. -/
structure SameRoot (d₁ d₂ : Driver) : Prop where
  vol : d₂.vol = d₁.vol
  root : d₂.rootDirectory = d₁.rootDirectory
  handle : d₁.rootDirectory.pub.handle = rootDirectoryHandle

theorem fatReadEntry_root_transfers (hM : M.Stateless) {d₁ d₂ d₁' : Driver}
    (h : SameRoot d₁ d₂) {entry : Option DirectoryEntry} {s s' : σ} {env : Env} (env' : Env)
    (hrun : fatReadEntry M env d₁ (some .root) s = .ok ((d₁', entry), s')) (t : σ) :
    ∃ d₂' t', fatReadEntry M env' d₂ (some .root) t = .ok ((d₂', entry), t') ∧
      SameRoot d₁' d₂' := by
  have hnum₁ : d₁.Numbered .root := by
    rw [Driver.Numbered, Driver.file, h.handle, handleFile_root]
  have hnum₂ : d₂.Numbered .root := by
    rw [Driver.Numbered, Driver.file, h.root, h.handle, handleFile_root]
  obtain ⟨⟨d, out⟩, s₁, hread, hentry⟩ := of_bind_ok hrun
  obtain ⟨st, hst, rfl, rfl⟩ := fatRead_ok hnum₁ hread
  obtain ⟨t', ht'⟩ := readFile_root_transfers hM h.handle env' hst t
  have hread₂ : fatRead M env' d₂ (some .root) 32 t
      = .ok ((d₂.setFile .root st.fd, st.out), t') := by
    have hfile : d₂.file .root = d₁.file .root := h.root
    have hroot : d₁.file .root = d₁.rootDirectory := rfl
    rw [fatRead_eq hnum₂, h.vol, hfile, hroot, bind_ok ht']
    rfl
  obtain ⟨hpair, -⟩ := of_pure_ok hentry
  cases hpair
  refine ⟨d₂.setFile .root st.fd, t', ?_, ?_⟩
  · rw [fatReadEntry, bind_ok hread₂]
    rfl
  · exact ⟨h.vol, rfl, by rw [← h.handle]; exact (readFile_same hst).handle⟩

/-- Two searches that have come equally far. -/
def SameSearch (a b : Driver × Option DirectoryEntry) : Prop := SameRoot a.1 b.1 ∧ b.2 = a.2

theorem fatFindFile_root_transfers (hM : M.Stateless) {d₁ d₂ d₁' : Driver} (h : SameRoot d₁ d₂)
    {fuel : Nat} {name₁ name₂ : List UInt8} (hkey : fatName name₂ = fatName name₁)
    {entry : Option DirectoryEntry} {s s' : σ} {env : Env} (env' : Env)
    (hrun : fatFindFile M env fuel d₁ (some .root) name₁ s = .ok ((d₁', entry), s')) (t : σ) :
    ∃ d₂' t', fatFindFile M env' fuel d₂ (some .root) name₂ t = .ok ((d₂', entry), t') := by
  have hsim : ∃ b t', fatFindFile M env' fuel d₂ (some .root) name₂ t = .ok (b, t') ∧
      SameRoot d₁' b.1 ∧ b.2 = entry := by
    have hstart : SameSearch (d₁, none) (d₂, none) := ⟨h, rfl⟩
    rw [fatFindFile, hkey]
    refine iterate_simulates ?_ t hstart hrun
    rintro a b s s' r t ⟨hab, -⟩ hbody
    obtain ⟨⟨d, found⟩, s₁, hread, hrest⟩ := of_bind_ok hbody
    obtain ⟨d₂, t', hread₂, hsame⟩ := fatReadEntry_root_transfers hM hab env' hread t
    rw [findPass, bind_ok hread₂]
    cases found with
    | none =>
      obtain ⟨rfl, -⟩ := of_pure_ok hrest
      exact ⟨_, _, rfl, ⟨hsame, rfl⟩, rfl⟩
    | some e =>
      dsimp only at hrest ⊢
      split at hrest
      · rename_i hfound
        rw [if_pos hfound]
        obtain ⟨rfl, -⟩ := of_pure_ok hrest
        exact ⟨_, _, rfl, ⟨hsame, rfl⟩, rfl⟩
      · rename_i hfound
        rw [if_neg hfound]
        obtain ⟨rfl, -⟩ := of_pure_ok hrest
        exact ⟨_, _, rfl, ⟨hsame, rfl⟩, rfl⟩
  obtain ⟨⟨d₂', entry'⟩, t', hrun', -, rfl⟩ := hsim
  exact ⟨d₂', t', hrun'⟩

/-- Closing the root directory leaves everything else as it was. -/
theorem fatClose_root_ok {d d' : Driver} {s s' : σ} (h : d.Numbered .root)
    (hrun : fatClose d (some .root) s = .ok (d', s')) :
    d'.vol = d.vol ∧ d'.openedFiles = d.openedFiles := by
  rw [fatClose_eq_root h] at hrun
  cases hrun
  exact ⟨rfl, rfl⟩

/-! ## Opening what was found -/

/-- The file data `FAT_OpenEntry` puts into slot `i`. -/
def openedFile (img : Image) (v : Volume) (entry : DirectoryEntry) (i : Fin maxFileHandles) :
    FatFileData where
  buffer := img (fatClusterToLba v entry.firstCluster).toNat
  pub := ⟨i.val, entry.isDirectory, 0, entry.size⟩
  opened := true
  firstCluster := entry.firstCluster
  currentCluster := entry.firstCluster
  currentSectorInCluster := 0

theorem fatOpenEntry_holds {img : Image} (hM : M.Holds img) {d : Driver} {i : Fin maxFileHandles}
    (hfree : freeHandle d = some i) (entry : DirectoryEntry) (s : σ) :
    ∃ t, fatOpenEntry M d entry s
      = .ok ((d.setFile (.slot i) (openedFile img d.vol entry i), some (.slot i)), t) := by
  rw [fatOpenEntry, hfree]
  dsimp only
  rw [bind_ok (hM.read _ _ _ _), imageSectors_one]
  dsimp only
  rw [if_neg (by simp)]
  exact ⟨_, rfl⟩

/-- `FAT_Open` finds a file: the data in its slot, but for the number of the
slot. -/
def OpensFile (M : Machine σ) (env : Env) (fuel : Nat) (d : Driver) (s : σ) (path : List UInt8)
    (found : FatFileData) : Prop :=
  ∃ i d' s', fatOpen M env fuel d path s = .ok ((d', some (.slot i)), s') ∧
    { d'.openedFiles i with pub := { (d'.openedFiles i).pub with handle := 0 } } = found

theorem Machine.Holds.stateless {img : Image} (h : M.Holds img) : M.Stateless := by
  intro lba n buf s s'
  rw [h lba n buf s, h lba n buf s']

/-- What it takes to open a component. -/
theorem openComponent_ok {img : Image} (hM : M.Holds img) {d d' : Driver} (hnum : d.Numbered .root)
    {fuel : Nat} {comp : List UInt8} {p : FilePtr} {s s' : σ}
    (hrun : openComponent M env fuel d comp s = .ok ((d', some p), s')) :
    ∃ name y entry s₁ i, copyName env.stack comp comp.length = some name ∧
      fatFindFile M env fuel d (some .root) (cstring name) s = .ok ((y, some entry), s₁) ∧
      p = .slot i ∧ d'.openedFiles i = openedFile img d.vol entry i := by
  rw [openComponent] at hrun
  cases hname : copyName env.stack comp comp.length with
  | none =>
    rw [hname] at hrun
    cases hrun
  | some name =>
    rw [hname] at hrun
    obtain ⟨⟨y, found⟩, s₁, hfind, hrun⟩ := of_bind_ok hrun
    obtain ⟨z, s₂, hclose, hrun⟩ := of_bind_ok hrun
    obtain ⟨fd, hfd, rfl⟩ := fatFindFile_touches hfind hnum
    obtain ⟨hvol, -⟩ := fatClose_root_ok (hnum.setFile hfd.handle) hclose
    cases found with
    | none => cases hrun
    | some entry =>
      dsimp only at hrun
      cases hi : freeHandle z with
      | none =>
        rw [fatOpenEntry, hi] at hrun
        cases hrun
      | some i =>
        obtain ⟨t, hopen⟩ := fatOpenEntry_holds hM hi entry s₂
        rw [hopen] at hrun
        cases hrun
        refine ⟨name, _, entry, s₁, i, rfl, hfind, rfl, ?_⟩
        rw [Driver.openedFiles_setFile_self, hvol, Driver.setFile_vol]

/-- And that it is enough, given a free slot. -/
theorem openComponent_eq {img : Image} (hM : M.Holds img) {d y : Driver} (hnum : d.Numbered .root)
    {j : Fin maxFileHandles} (hj : freeHandle d = some j) {fuel : Nat} {comp : List UInt8}
    {name : Block 256} (hname : copyName env.stack comp comp.length = some name)
    {entry : DirectoryEntry} {s s₁ : σ}
    (hfind : fatFindFile M env fuel d (some .root) (cstring name) s = .ok ((y, some entry), s₁)) :
    ∃ d' t, openComponent M env fuel d comp s = .ok ((d', some (.slot j)), t) ∧
      d'.openedFiles j = openedFile img d.vol entry j := by
  obtain ⟨fd, hfd, rfl⟩ := fatFindFile_touches hfind hnum
  rw [openComponent, hname]
  dsimp only
  rw [bind_ok hfind, fatClose_eq_root (hnum.setFile hfd.handle)]
  have hfree : ∀ root, freeHandle { d.setFile .root fd with rootDirectory := root } = some j :=
    fun _ => hj
  obtain ⟨t, hopen⟩ := fatOpenEntry_holds hM (hfree _) entry s₁
  exact ⟨_, t, hopen, Driver.openedFiles_setFile_self _ _ j⟩

/-- **What `FAT_Open` finds** for a component with an extension of three
characters is up to the volume and the root directory, given a free slot. -/
theorem opensFile_transfers {img : Image} (hM : M.Holds img) {d₁ d₂ : Driver}
    (h : SameRoot d₁ d₂) {j : Fin maxFileHandles} (hj : freeHandle d₂ = some j)
    {base ext path : List UInt8} (hcomp : OneComponent path (base ++ 0x2E :: ext))
    (hbase : 0x2E ∉ base) (hext : ext.length = 3) (hzero : 0 ∉ base ++ 0x2E :: ext) {fuel : Nat}
    {found : FatFileData} {s : σ} {env : Env} (env' : Env)
    (hopens : OpensFile M env fuel d₁ s path found) (t : σ) :
    OpensFile M env' fuel d₂ t path found := by
  have hnum₁ : d₁.Numbered .root := by
    rw [Driver.Numbered, Driver.file, h.handle, handleFile_root]
  have hnum₂ : d₂.Numbered .root := by
    rw [Driver.Numbered, Driver.file, h.root, h.handle, handleFile_root]
  obtain ⟨i, d₁', s', hrun, rfl⟩ := hopens
  rw [fatOpen_component hcomp] at hrun
  obtain ⟨name, y, entry, s₁, i', hname, hfind, hp, hfile⟩ := openComponent_ok hM hnum₁ hrun
  cases hp
  obtain ⟨name', hname'⟩ := copyName_fits env'.stack hname
  have hkey : fatName (cstring name') = fatName (cstring name) := by
    rw [key_of_three hbase hext hzero hname, key_of_three hbase hext hzero hname']
  obtain ⟨y', t₁, hfind'⟩ := fatFindFile_root_transfers hM.stateless h hkey env' hfind t
  obtain ⟨d₂', t₂, hrun', hfile'⟩ := openComponent_eq hM hnum₂ hj hname' hfind'
  refine ⟨j, d₂', t₂, ?_, ?_⟩
  · rw [fatOpen_component hcomp]
    exact hrun'
  · rw [hfile, hfile', h.vol]
    rfl

/-! ## The first sector stays in the buffer -/

/-- The root directory's file data are those `FAT_Initialize` left, but for a
position inside the first sector. -/
def InFirstSector (img : Image) (v : Volume) (d : Driver) : Prop :=
  d.vol = v ∧ ∃ p : UInt32, p.toNat < 512 ∧ d.rootDirectory =
    { v.rootAt img 0 with pub := ⟨rootDirectoryHandle, true, p, v.rootDirSize⟩ }

/-- The key that `FAT_Open` looks up in the root directory. -/
def rootKey (env : Env) (path : List UInt8) : Option (List UInt8) :=
  let path := if path.head? = some 0x2F then path.tail else path
  (copyName env.stack path ((strchr path 0x2F).getD path.length)).map fun name =>
    fatName (cstring name)

/-- The lookup of a path ends before the last record of the first sector: the
path is empty, or one of the first fifteen records has its key, or there are
no more than fifteen. -/
def LooksUpFirst (img : Image) (v : Volume) (env : Env) (path : List UInt8) : Prop :=
  (if path.head? = some 0x2F then path.tail else path) = [] ∨
    (∃ j, j < 15 ∧ v.HasRecord j ∧ rootKey env path = some (v.rootEntry img j).name) ∨
    (v.dirEntryCount ≠ 0 ∧ v.dirEntryCount.toNat ≤ 15)

/-- The calls that keep the first sector in the buffer: lookups from the start
that end in it, and reads of the root directory that stay in it. -/
def RewindSafe (img : Image) (c : Client σ) : Call → Prop
  | .fatOpen env _ path => c.driver.rootDirectory.pub.position = 0 ∧
      LooksUpFirst img c.driver.vol env path
  | .fatRead _ file byteCount => file = .root →
      c.driver.rootDirectory.pub.position.toNat
        + (readClamp c.driver.rootDirectory byteCount).toNat < 512
  | .fatClose _ => True

section

variable {img : Image} {v : Volume} {d d' : Driver}

theorem InFirstSector.numbered (h : InFirstSector img v d) : d.Numbered .root := by
  obtain ⟨-, p, -, hroot⟩ := h
  rw [Driver.Numbered, Driver.file, hroot]
  rfl

/-- At position zero, it is the root directory in front of record 0. -/
theorem InFirstSector.atRecord (h : InFirstSector img v d)
    (hzero : d.rootDirectory.pub.position = 0) : d = d.atRecord img 0 := by
  obtain ⟨hvol, p, -, hroot⟩ := h
  have hp : p = 0 := by
    rw [hroot] at hzero
    exact hzero
  subst hp
  have hrecord : d.vol.rootAt img 0 = d.file .root := by
    show _ = d.rootDirectory
    rw [hroot, hvol]
    rfl
  rw [Driver.atRecord, hrecord, Driver.setFile_file]

theorem fatClose_atRecord {i : Nat} (hi : i ≤ 15) :
    (fatClose (d.atRecord img i) (some .root) : Proc σ Stop Driver)
      = pure (d.atRecord img 0) := by
  have hlba : d.vol.rootDirLba = UInt32.ofNat (d.vol.layout.rootLba + 0 / 16) := by
    rw [Nat.zero_div, Nat.add_zero, ← d.vol.toNat_rootDirLba, UInt32.ofNat_toNat]
  rw [fatClose_eq_root (d.atRecord_numbered img i)]
  simp only [Driver.atRecord, Driver.setFile, Volume.rootAt, Volume.rootFile, hlba,
    show i / 16 = 0 by omega]
  rfl

/-- Where a lookup that ends in the first sector ends. -/
theorem fatFindFile_first (hM : M.Holds img) {fuel : Nat} {name : List UInt8}
    (hfirst : (∃ j, j < 15 ∧ d.vol.HasRecord j ∧ fatName name = (d.vol.rootEntry img j).name) ∨
      (d.vol.dirEntryCount ≠ 0 ∧ d.vol.dirEntryCount.toNat ≤ 15))
    {entry : Option DirectoryEntry} {s t : σ}
    (hrun : fatFindFile M env fuel (d.atRecord img 0) (some .root) name s = .ok ((d', entry), t)) :
    ∃ i, i ≤ 15 ∧ d' = d.atRecord img i := by
  have hserves := hM.serves
  by_cases hhit : ∃ j, j < 15 ∧ d.vol.HasRecord j ∧ fatName name = (d.vol.rootEntry img j).name
  · classical
    obtain ⟨hj, hrecord, hkey⟩ := Nat.find_spec hhit
    have hleast : ∀ k, k < Nat.find hhit → fatName name ≠ (d.vol.rootEntry img k).name := by
      intro k hk heq
      refine Nat.find_min hhit hk ⟨by omega, ⟨?_, hrecord.2.imp id fun h => by omega⟩, heq⟩
      have := hrecord.1
      omega
    have h : Ensures (fun _ => False) (fun _ => True)
        (fatFindFile M env fuel (d.atRecord img 0) (some .root) name) _ :=
      fatFindFile_hit hserves hrecord hkey hleast (.inr trivial)
    have hres := h.of_ok hrun id
    cases hres
    exact ⟨_, by omega, rfl⟩
  · obtain ⟨hpos, hcount⟩ := hfirst.resolve_left hhit
    have hnone : ∀ k, k < d.vol.dirEntryCount.toNat →
        fatName name ≠ (d.vol.rootEntry img k).name :=
      fun k hk heq => hhit ⟨k, by omega, ⟨by omega, .inr hk⟩, heq⟩
    have h : Ensures (fun _ => False) (fun _ => True)
        (fatFindFile M env fuel (d.atRecord img 0) (some .root) name) _ :=
      fatFindFile_miss hserves hpos hnone (.inr trivial)
    have hres := h.of_ok hrun id
    cases hres
    exact ⟨_, hcount, rfl⟩

/-- **`FAT_Open`** leaves the root directory as it found it, if its lookup
starts and ends in the first sector. -/
theorem fatOpen_first (hM : M.Holds img) (h : InFirstSector img v d)
    (hzero : d.rootDirectory.pub.position = 0) {fuel : Nat} {path : List UInt8}
    (hfirst : LooksUpFirst img v env path) {r : Option FilePtr} {s t : σ}
    (hrun : fatOpen M env fuel d path s = .ok ((d', r), t)) :
    d'.rootDirectory = d.rootDirectory := by
  have hvol := h.1
  have hstart := Opening.start h.numbered
  have hrecord := h.atRecord hzero
  rw [fatOpen] at hrun
  rw [LooksUpFirst, rootKey] at hfirst
  generalize (if path.head? = some 0x2F then path.tail else path) = path' at hrun hfirst
  rcases openLoop_ok hrun with ⟨-, rfl, -⟩ | ⟨m, name, d₁, entry, s₁, d₂, s₂, -, hpath, hname,
    hfind, hclose, hend⟩
  · rfl
  · replace hfirst := hfirst.resolve_left hpath
    rw [hname] at hfirst
    have h₂ := (hstart.touches (fatFindFile_touches hfind)).close hclose
    -- the lookup ends in the first sector, so the close takes it all back
    have hback : d₂ = d := by
      rw [hrecord] at hfind
      obtain ⟨i, hi, rfl⟩ := fatFindFile_first hM (by simpa [hvol] using hfirst) hfind
      rw [fatClose_atRecord hi] at hclose
      cases hclose
      exact hrecord.symm
    subst hback
    rcases hend with ⟨rfl, -⟩ | ⟨e, d₃, current, path'', s₃, -, hopen, hrest⟩
    · rfl
    · have hroot₃ := fatOpenEntry_rootDirectory hopen
      rw [openLoop_rootDirectory (h₂.openEntry hopen) hroot₃.2 hrest, hroot₃.1]

end

/-- A read that stays inside the sector moves the position and nothing else. -/
theorem readFile_within {v : Volume} (env : Env) {fd : FatFileData} {n : UInt32}
    (hp : fd.pub.position.toNat < 512)
    (h : fd.pub.position.toNat + (readClamp fd n).toNat < 512) :
    ∃ st : ReadState, readFile M v env fd n = pure st ∧
      st.fd = { fd with pub := { fd.pub with position := st.fd.pub.position } } ∧
      st.fd.pub.position.toNat = fd.pub.position.toNat + (readClamp fd n).toNat := by
  have hstop : ∀ (k : Nat) (st : ReadState), st.byteCount = 0 →
      Proc.iterate .unfinished (readPass M v env) (k + 1) st = pure st := by
    intro k st hzero
    rw [iterate_succ, readPass, if_neg (by rw [hzero]; decide)]
    rfl
  rw [readFile]
  by_cases hzero : readClamp fd n = 0
  · -- nothing to read
    rw [hzero]
    refine ⟨_, hstop _ _ rfl, rfl, ?_⟩
    rfl
  · have hpos : 0 < (readClamp fd n).toNat := by
      rw [← UInt32.toNat_inj] at hzero
      exact Nat.pos_of_ne_zero hzero
    obtain ⟨st, emptied, t, htake, ht, hcount, -, hfd, hposition, hemptied⟩ :=
      readTake_eq ⟨fd, readClamp fd n, 0, []⟩ (by dsimp only; omega)
    dsimp only at ht hcount hfd hposition hemptied
    have hnot : emptied = false := by
      have : ¬ t = 512 - fd.pub.position.toNat % 512 := by omega
      simpa [this] using hemptied
    have hdone : st.byteCount = 0 := by
      rw [← UInt32.toNat_inj, hcount]
      show _ = 0
      omega
    obtain ⟨k, hk⟩ := Nat.exists_eq_succ_of_ne_zero (Nat.pos_iff_ne_zero.mp hpos)
    refine ⟨st, ?_, hfd, by omega⟩
    have hpass : readPass M v env ⟨fd, readClamp fd n, 0, []⟩ = pure (st, true) := by
      rw [readPass, if_pos (by exact hpos), htake]
      dsimp only
      rw [hnot, if_neg (by simp)]
    rw [iterate_succ, hpass, hk]
    exact hstop k st hdone

/-- **One call** of the safe kind keeps the first sector in the buffer. -/
theorem InFirstSector.step {img : Image} {v : Volume} (hM : M.Holds img) {c c' : Client σ}
    (hc : c.Sound) (h : InFirstSector img v c.driver) {l : Call} {r : Reply}
    (hs : Guarded (RewindSafe img) (ClientStep M) c l r c') : InFirstSector img v c'.driver := by
  obtain ⟨hsafe, hs⟩ := hs
  have hvol := h.1
  obtain ⟨-, p, hp, hroot⟩ := id h
  cases hs with
  | @fatOpen env fuel path d r s hopen =>
    obtain ⟨hzero, hfirst⟩ := hsafe
    rw [hvol] at hfirst
    refine ⟨(fatOpen_opening hc.root hopen).vol.trans hvol, p, hp, ?_⟩
    rw [← hroot]
    exact fatOpen_first hM h hzero hfirst hopen
  | @fatRead env file n d out s hfile hread =>
    have hnum := hc.given _ hfile
    rcases file with - | j
    · -- a read of the root directory, which may not reach the end of the sector
      have hposition : c.driver.rootDirectory.pub.position = p := by rw [hroot]
      have hwithin := hsafe rfl
      obtain ⟨st, hst, hfd, hpos⟩ := readFile_within (M := M) (v := c.driver.vol) env
        (by rw [hposition]; exact hp) hwithin
      rw [fatRead_eq hnum] at hread
      rw [show c.driver.file .root = c.driver.rootDirectory from rfl, hst] at hread
      cases hread
      refine ⟨hvol, st.fd.pub.position, by omega, ?_⟩
      show st.fd = _
      rw [hfd, hroot]
    · obtain ⟨fd, -, rfl⟩ := fatRead_touches hread hnum
      exact ⟨hvol, p, hp, hroot⟩
  | @fatClose file d s hfile hclose =>
    have hnum := hc.given _ hfile
    rcases file with - | j
    · rw [fatClose_eq_root hnum] at hclose
      cases hclose
      refine ⟨hvol, 0, by decide, ?_⟩
      dsimp only
      rw [hroot, Volume.rootAt, Volume.rootFile, Nat.zero_div, Nat.add_zero, ← v.toNat_rootDirLba,
        UInt32.ofNat_toNat]
    · rw [fatClose_eq_slot hnum] at hclose
      cases hclose
      exact ⟨hvol, p, hp, hroot⟩

/-! ## `FAT_Open` after a history of calls -/

theorem inFirstSector_of_initialize {img : Image} (hM : M.Holds img) {env : Env} {d₀ d : Driver}
    {s₀ s : σ} (hinit : fatInitialize M env d₀ s₀ = .ok ((d, 0), s)) :
    InFirstSector img d.vol d := by
  obtain ⟨-, hroot, -⟩ := fatInitialize_mount hM.serves hinit id
  refine ⟨rfl, 0, by decide, ?_⟩
  rw [hroot, ← Volume.rootAt_zero]
  rfl

/-- **Lookups after a history.** On a disk that holds the image: after calls
that keep the first sector of the root directory in its buffer, with the root
directory rewound and a slot free, `FAT_Open` of a component with a
three-letter extension finds exactly what it finds after `FAT_Initialize`,
whatever lies on the stack. -/
theorem fatOpen_after_history {M : Machine σ} {img : Image} (hM : M.Holds img) {env₀ : Env}
    {d₀ d : Driver} {s₀ s : σ} (hinit : fatInitialize M env₀ d₀ s₀ = .ok ((d, 0), s))
    {tr : List (Call × Reply)} {c : Client σ}
    (hrun : Run (Guarded (RewindSafe img) (ClientStep M)) (Client.start d s) tr c)
    (hrewound : c.driver.rootDirectory.pub.position = 0)
    (hfree : ∃ i, (c.driver.openedFiles i).opened = false) {base ext path : List UInt8}
    (hcomp : OneComponent path (base ++ 0x2E :: ext)) (hbase : 0x2E ∉ base)
    (hext : ext.length = 3) (hzero : 0 ∉ base ++ 0x2E :: ext) (env env' : Env) (fuel : Nat)
    (found : FatFileData) :
    OpensFile M env fuel c.driver c.disk path found ↔ OpensFile M env' fuel d s path found := by
  have hstart := inFirstSector_of_initialize hM hinit
  have hfirst : InFirstSector img d.vol c.driver :=
    (hrun.invariant (I := fun c => c.Sound ∧ InFirstSector img d.vol c.driver)
      (fun _ _ _ _ hc hs => ⟨hc.1.step hs.2, hc.2.step hM hc.1 hs⟩)
      ⟨Client.sound_of_initialize hinit, hstart⟩).2
  obtain ⟨⟨buffer, hroot⟩, hclosed⟩ := fatInitialize_ok hinit
  have hrewound' : d.rootDirectory.pub.position = 0 := by
    rw [hroot]
    rfl
  have hsame : c.driver.rootDirectory = d.rootDirectory := by
    rw [hfirst.atRecord hrewound, hstart.atRecord hrewound']
    show c.driver.vol.rootAt img 0 = d.vol.rootAt img 0
    rw [hfirst.1]
  have hhandle : d.rootDirectory.pub.handle = rootDirectoryHandle := by
    rw [hroot]
    rfl
  obtain ⟨j, hj⟩ := freeHandle_exists hfree
  obtain ⟨k, hk⟩ := freeHandle_exists ⟨⟨0, by decide⟩, hclosed _⟩
  constructor
  · intro h
    exact opensFile_transfers hM ⟨hfirst.1.symm, hsame.symm, by rw [hsame, hhandle]⟩ hk hcomp
      hbase hext hzero env' h s
  · intro h
    exact opensFile_transfers hM ⟨hfirst.1, hsame, hhandle⟩ hj hcomp hbase hext hzero env h c.disk

/-- The kernel, looked up again after it has been opened. -/
theorem fatOpen_after_history_sample : ∃ c : Client Unit, c.held = [.slot firstSlot] ∧
    ∀ found, OpensFile sampleMachine sampleEnv 4 c.driver c.disk kernelPath found ↔
      OpensFile sampleMachine sampleEnv 4 sampleMounted () kernelPath found := by
  have hopen : passes (fun r _ => r.2 == some (.slot firstSlot) &&
      r.1.rootDirectory.pub.position == 0 && !(r.1.openedFiles ⟨1, by decide⟩).opened)
      (fatOpen sampleMachine sampleEnv 4 sampleMounted kernelPath ()) = true := by decide +kernel
  obtain ⟨⟨d, r⟩, s, hrun, htest⟩ := of_passes hopen
  simp only [Bool.and_eq_true, beq_iff_eq, Bool.not_eq_true'] at htest
  obtain ⟨⟨rfl, hposition⟩, hclosed⟩ := htest
  have hstep : ClientStep sampleMachine (Client.start sampleMounted ()) _ _ _ := .fatOpen hrun
  have hsafe : RewindSafe sampleImage (Client.start sampleMounted ())
      (.fatOpen sampleEnv 4 kernelPath) :=
    ⟨by decide +kernel, .inr (.inl ⟨0, by decide, ⟨by decide, .inr (by decide +kernel)⟩,
      by decide +kernel⟩)⟩
  have hname : OneComponent kernelPath
      ([0x6B, 0x65, 0x72, 0x6E, 0x65, 0x6C] ++ 0x2E :: [0x62, 0x69, 0x6E]) :=
    ⟨by decide, by decide, .inr rfl⟩
  refine ⟨_, ?_, fun found => fatOpen_after_history (imageMachine_holds sampleImage _)
    sample_initialize (.one ⟨hsafe, hstep⟩) hposition ⟨_, hclosed⟩
    hname (by decide) rfl (by decide) _ _ _ found⟩
  rfl

/-- **The defect.** `FAT_Open` of `/b.bin`, whose record is the last of its
sector, leaves the next sector in the buffer of the root directory; the
`FAT_Open` of `/kernel.bin` that follows does not find it. -/
theorem fatOpen_misses_after_history :
    ¬ ∀ (tr : List (Call × Reply)) (c : Client Unit),
      Run (ClientStep sampleMachine) (Client.start sampleMounted ()) tr c →
      (∃ i, (c.driver.openedFiles i).opened = false) →
      ∀ found, OpensFile sampleMachine sampleEnv 17 c.driver c.disk kernelPath found ↔
        OpensFile sampleMachine sampleEnv 17 sampleMounted () kernelPath found := by
  intro h
  have hsmall : passes (fun r _ => !(r.1.openedFiles ⟨1, by decide⟩).opened &&
      passes (fun r₁ _ => r₁.2 == none)
        (fatOpen sampleMachine sampleEnv 17 r.1 kernelPath ()))
      (fatOpen sampleMachine sampleEnv 17 sampleMounted smallPath ()) = true := by decide +kernel
  have hkernel : passes (fun r _ => r.2 == some (.slot firstSlot))
      (fatOpen sampleMachine sampleEnv 17 sampleMounted kernelPath ()) = true := by decide +kernel
  obtain ⟨⟨d, r⟩, s, hrun, htest⟩ := of_passes hsmall
  obtain ⟨hclosed, hmissed⟩ := (Bool.and_eq_true _ _).mp htest
  obtain ⟨⟨d₁, r₁⟩, s₁, hrun₁, hr₁⟩ := of_passes hmissed
  obtain ⟨⟨d₂, r₂⟩, s₂, hrun₂, hr₂⟩ := of_passes hkernel
  obtain rfl : r₂ = some (.slot firstSlot) := by simpa using hr₂
  obtain rfl : r₁ = none := by simpa using hr₁
  have hstep : ClientStep sampleMachine (Client.start sampleMounted ()) _ _ _ := .fatOpen hrun
  obtain ⟨i, d', s', hfound, -⟩ := (h _ _ (.one hstep) ⟨⟨1, by decide⟩, by simpa using hclosed⟩
    _).mpr ⟨firstSlot, d₂, s₂, hrun₂, rfl⟩
  rw [show fatOpen sampleMachine sampleEnv 17 d kernelPath s = _ from hrun₁] at hfound
  cases hfound

end Netclover.Stage2
