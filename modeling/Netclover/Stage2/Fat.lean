import Mathlib.Logic.Function.Basic
import Netclover.Lib.Proc
import Netclover.Lib.Blocks
import Netclover.Libc.Basic

/-!
# The FAT driver of the second stage (`libs/fat.c`)

The driver's statics (`fatData`, `fat`, `dataSectionLba`) are one `Driver`
value, and each function of the source is a `Proc` over the state `σ` of the
disk. Everything the driver does not own is an argument: the disk and the
loading bar (`Machine`), and the memory a call finds (`Env`). A call that
divides by zero, leaves an array or dereferences a NULL file halts; so does a
search that is still looking when its fuel ends.

The destination of a read is not a part of the driver's memory, so a read
returns the bytes it stores there. What `log` prints is left out.
-/

namespace Netclover.Stage2

open Netclover.Libc

/-! ## Sectors and machine words -/

abbrev Sectors (n : Nat) : Type := Block (512 * n)

abbrev Sector : Type := Block 512

def le16 (bs : List UInt8) (i : Nat) : UInt16 :=
  (bs.getD i 0).toUInt16 + (bs.getD (i + 1) 0).toUInt16 * 256

def le32 (bs : List UInt8) (i : Nat) : UInt32 :=
  (le16 bs i).toUInt32 + (le16 bs (i + 2)).toUInt32 * 65536

/-! ## The types of `fat.h` and `fat.c` -/

/-- Why a call does not return. -/
inductive Stop where
  | divideError
  | outOfBounds
  | nullFile
  | unfinished
  deriving DecidableEq, Repr

/-- `FAT_DirectoryEntry`: the 32 packed bytes. -/
abbrev DirectoryEntry : Type := Block 32

namespace DirectoryEntry

def name (e : DirectoryEntry) : List UInt8 := e.bytes.take 11

def attributes (e : DirectoryEntry) : UInt8 := e.bytes.getD 11 0

def firstClusterHigh (e : DirectoryEntry) : UInt16 := le16 e.bytes 20

def firstClusterLow (e : DirectoryEntry) : UInt16 := le16 e.bytes 26

def size (e : DirectoryEntry) : UInt32 := le32 e.bytes 28

/-- `Attributes & FAT_ATTRIBUTE_DIRECTORY`. -/
def isDirectory (e : DirectoryEntry) : Bool := e.attributes &&& 0x10 != 0

/-- `FirstClusterLow + ((uint32_t)FirstClusterHigh << 16)`. -/
def firstCluster (e : DirectoryEntry) : UInt32 :=
  e.firstClusterLow.toUInt32 + (e.firstClusterHigh.toUInt32 <<< 16)

end DirectoryEntry

/-- What `FAT_Initialize` sets up once: the boot sector, the loaded FAT, and
where the clusters start. -/
structure Volume where
  bootSector : Sector
  fat : List UInt8
  dataSectionLba : UInt32

namespace Volume

variable (v : Volume)

def bytesPerSector : UInt16 := le16 v.bootSector.bytes 11
def sectorsPerCluster : UInt8 := v.bootSector.bytes.getD 13 0
def reservedSectors : UInt16 := le16 v.bootSector.bytes 14
def fatCount : UInt8 := v.bootSector.bytes.getD 16 0
def dirEntryCount : UInt16 := le16 v.bootSector.bytes 17
def sectorsPerFat : UInt16 := le16 v.bootSector.bytes 22
def signature : UInt8 := v.bootSector.bytes.getD 38 0

end Volume

/-- `FAT_File`, the public part of a handle. -/
structure FatFile where
  handle : Int
  isDirectory : Bool
  position : UInt32
  size : UInt32

/-- `FAT_FileData`. -/
structure FatFileData where
  buffer : Sector
  pub : FatFile
  opened : Bool
  firstCluster : UInt32
  currentCluster : UInt32
  currentSectorInCluster : UInt32

def maxFileHandles : Nat := 10

def rootDirectoryHandle : Int := -1

/-- A `FAT_File*` other than NULL. -/
inductive FilePtr where
  | root
  | slot (i : Fin maxFileHandles)
  deriving DecidableEq, Repr

/-- The driver's statics. -/
structure Driver where
  vol : Volume
  rootDirectory : FatFileData
  openedFiles : Fin maxFileHandles → FatFileData

namespace Driver

variable (d : Driver)

/-- `*file`, with the private part around it. -/
def file : FilePtr → FatFileData
  | .root => d.rootDirectory
  | .slot i => d.openedFiles i

def setFile (p : FilePtr) (fd : FatFileData) : Driver :=
  match p with
  | .root => { d with rootDirectory := fd }
  | .slot i => { d with openedFiles := Function.update d.openedFiles i fd }

end Driver

/-- The file data a handle number stands for, if it is in range. -/
def handleFile (handle : Int) : Option FilePtr :=
  if handle = rootDirectoryHandle then some .root
  else if h : 0 ≤ handle ∧ handle.toNat < maxFileHandles then some (.slot ⟨handle.toNat, h.2⟩)
  else none

/-! ## What the driver does not own -/

/-- The disk, whose reads may do anything a disk can do (`DISK_ReadSectors`
of `n` sectors into a buffer: a status and the buffer afterwards), and the
loading bar, which may divide by zero. -/
structure Machine (σ : Type) where
  readSectors : UInt32 → (n : Nat) → Sectors n → σ → (UInt16 × Sectors n) × σ
  loadingBar : UInt32 → UInt32 → Option UInt32

variable {σ : Type}

def Machine.diskReadSectors (M : Machine σ) (lba : UInt32) (n : Nat) (dataOut : Sectors n) :
    Proc σ Stop (UInt16 × Sectors n) :=
  Proc.act (M.readSectors lba n dataOut)

/-- Lines 296-298 of `FAT_Read`: the column of the mark, unless the division
faults. -/
def loadingBar (maxSector byteCount : UInt32) : Option UInt32 :=
  if maxSector = 0 then none else some (79 * (maxSector - byteCount / 512) / maxSector)

/-- The memory a call finds: the bytes at `fat + i` past the loaded FAT, and
what the stack holds where `FAT_Open` puts its name buffer. -/
structure Env where
  mem : Nat → UInt8
  stack : Block 256

/-! ## `FAT_ClusterToLba` and `FAT_NextCluster` -/

def fatClusterToLba (v : Volume) (cluster : UInt32) : UInt32 :=
  v.dataSectionLba + (cluster - 2) * v.sectorsPerCluster.toUInt32

/-- The byte at `fat + i`. -/
def fatByte (v : Volume) (env : Env) (i : Nat) : UInt8 := v.fat.getD i (env.mem i)

def fatNextCluster (v : Volume) (env : Env) (currentCluster : UInt32) : UInt32 :=
  let fatIndex := currentCluster * 3 / 2
  let word : UInt16 := (fatByte v env fatIndex.toNat).toUInt16
    + (fatByte v env (fatIndex.toNat + 1)).toUInt16 * 256
  if currentCluster % 2 = 0 then (word &&& 0x0FFF).toUInt32 else (word >>> 4).toUInt32

/-! ## `FAT_Read` -/

/-- The local variables of `FAT_Read`; `out` is what `u8Dataout` has moved
over so far. -/
structure ReadState where
  fd : FatFileData
  byteCount : UInt32
  maxSector : UInt32
  out : List UInt8

/-- Lines 260-266: the copy out of the sector buffer, and whether it emptied
the buffer. The copy may not leave the buffer. -/
def readTake (st : ReadState) : Option (ReadState × Bool) :=
  let off := st.fd.pub.position % 512
  let leftInBuffer := 512 - off
  let take := minInt st.byteCount leftInBuffer
  if off.toNat + take.toNat ≤ 512 then
    some ({ st with
      fd.pub.position := st.fd.pub.position + take
      byteCount := st.byteCount - take
      out := st.out ++ (st.fd.buffer.bytes.drop off.toNat).take take.toNat },
      leftInBuffer == take)
  else none

/-- Lines 276-279: on to the next sector of the cluster, or to the next
cluster. -/
def nextSector (v : Volume) (env : Env) (fd : FatFileData) : FatFileData :=
  let sector := fd.currentSectorInCluster + 1
  if sector ≥ v.sectorsPerCluster.toUInt32 then
    { fd with
      currentSectorInCluster := 0
      currentCluster := fatNextCluster v env fd.currentCluster }
  else { fd with currentSectorInCluster := sector }

/-- Lines 269-300: the next sector of the file, through the root directory
or along the cluster chain; and whether the loop goes on (a `break` is
`false`). -/
def readNext (M : Machine σ) (v : Volume) (env : Env) (st : ReadState) :
    Proc σ Stop (ReadState × Bool) :=
  if st.fd.pub.handle = rootDirectoryHandle then do
    let cluster := st.fd.currentCluster + 1
    let (status, buffer) ← M.diskReadSectors cluster 1 st.fd.buffer
    let st := { st with fd := { st.fd with currentCluster := cluster, buffer } }
    return (st, status = 0)
  else
    let fd := nextSector v env st.fd
    if fd.currentCluster ≥ 0xFF8 then
      -- end of file: whatever the directory entry said, the size is known now
      pure ({ st with fd := { fd with pub.size := fd.pub.position } }, false)
    else do
      let maxSector := if st.maxSector = 0 then st.byteCount / 512 else st.maxSector
      let lba := fatClusterToLba v fd.currentCluster + fd.currentSectorInCluster
      let (status, buffer) ← M.diskReadSectors lba 1 fd.buffer
      let st := { st with fd := { fd with buffer }, maxSector }
      if status ≠ 0 then return (st, false)
      else match M.loadingBar maxSector st.byteCount with
        | none => Proc.halt .divideError
        | some _ => return (st, true)

/-- One pass of the loop, with the test that guards it. -/
def readPass (M : Machine σ) (v : Volume) (env : Env) (st : ReadState) :
    Proc σ Stop (ReadState × Bool) :=
  if st.byteCount > 0 then
    match readTake st with
    | none => Proc.halt .outOfBounds
    | some (st, emptied) => if emptied then readNext M v env st else pure (st, true)
  else pure (st, false)

/-- Lines 254-256: a file, or a directory of known size, is not read past its
end. -/
def readClamp (fd : FatFileData) (byteCount : UInt32) : UInt32 :=
  if !fd.pub.isDirectory || (fd.pub.isDirectory && fd.pub.size != 0) then
    minInt byteCount (fd.pub.size - fd.pub.position)
  else byteCount

/-- `FAT_Read` on the file data the handle stands for. Each pass takes a byte
at least, so the loop needs no more passes than there are bytes. -/
def readFile (M : Machine σ) (v : Volume) (env : Env) (fd : FatFileData) (byteCount : UInt32) :
    Proc σ Stop ReadState :=
  let byteCount := readClamp fd byteCount
  Proc.iterate .unfinished (readPass M v env) (byteCount.toNat + 1) ⟨fd, byteCount, 0, []⟩

/-- `FAT_Read`: the bytes stored at `dataOut`. Their number is the result. -/
def fatRead (M : Machine σ) (env : Env) (d : Driver) (file : Option FilePtr) (byteCount : UInt32) :
    Proc σ Stop (Driver × List UInt8) :=
  match file with
  | none => Proc.halt .nullFile
  | some ptr =>
    match handleFile (d.file ptr).pub.handle with
    | none => Proc.halt .outOfBounds
    | some p => do
      let st ← readFile M d.vol env (d.file p) byteCount
      return (d.setFile p st.fd, st.out)

def fatReadEntry (M : Machine σ) (env : Env) (d : Driver) (file : Option FilePtr) :
    Proc σ Stop (Driver × Option DirectoryEntry) := do
  let (d, out) ← fatRead M env d file 32
  return (d, if h : out.length = 32 then some ⟨out, h⟩ else none)

/-! ## `FAT_FindFile` -/

/-- `for (i = 0; i < n && src[i] && name + i < ext; i++) fatName[off + i] = toupper(src[i])`,
from index `i` on. -/
def upperLoop (src : Nat → UInt8) (go : Nat → Bool) (off : Nat) :
    Nat → Nat → List UInt8 → List UInt8
  | 0, _, fatName => fatName
  | n + 1, i, fatName =>
    if src i ≠ 0 ∧ go i then upperLoop src go off n (i + 1) (fatName.set (off + i) (toupper (src i)))
    else fatName

/-- The 11-byte key of a name. A name without a dot has `ext = name + 11`. -/
def fatName (name : List UInt8) : List UInt8 :=
  let ext := (strchr name 0x2E).getD 11
  let base := upperLoop (name.getD · 0) (· < ext) 0 8 0 (List.replicate 11 0x20)
  if ext ≠ 11 then upperLoop (fun i => name.getD (ext + i + 1) 0) (fun _ => true) 8 3 0 base
  else base

/-- One pass of the search: the entry found, and whether to go on. -/
def findPass (M : Machine σ) (env : Env) (file : Option FilePtr) (key : List UInt8)
    (r : Driver × Option DirectoryEntry) :
    Proc σ Stop ((Driver × Option DirectoryEntry) × Bool) := do
  let (d, entry) ← fatReadEntry M env r.1 file
  match entry with
  | none => return ((d, none), false)
  | some entry =>
    if key = entry.name then return ((d, some entry), false) else return ((d, none), true)

/-- `FAT_FindFile`, on `fuel` entries at most: the entry it stores, if it
returns true. -/
def fatFindFile (M : Machine σ) (env : Env) (fuel : Nat) (d : Driver) (file : Option FilePtr)
    (name : List UInt8) : Proc σ Stop (Driver × Option DirectoryEntry) :=
  Proc.iterate .unfinished (findPass M env file (fatName name)) fuel (d, none)

/-! ## `FAT_OpenEntry`, `FAT_Close` and `FAT_Open` -/

/-- The first handle that is not open. -/
def freeHandle (d : Driver) : Option (Fin maxFileHandles) :=
  (List.finRange maxFileHandles).find? fun i => !(d.openedFiles i).opened

def fatOpenEntry (M : Machine σ) (d : Driver) (entry : DirectoryEntry) :
    Proc σ Stop (Driver × Option FilePtr) :=
  match freeHandle d with
  | none => pure (d, none)
  | some i => do
    let fd : FatFileData := { d.openedFiles i with
      pub := ⟨i.val, entry.isDirectory, 0, entry.size⟩
      firstCluster := entry.firstCluster
      currentCluster := entry.firstCluster
      currentSectorInCluster := 0 }
    let (status, buffer) ← M.diskReadSectors (fatClusterToLba d.vol fd.currentCluster) 1 fd.buffer
    let fd := { fd with buffer }
    if status ≠ 0 then return (d.setFile (.slot i) fd, none)
    else return (d.setFile (.slot i) { fd with opened := true }, some (.slot i))

/-- `FAT_Close`. The root directory is rewound: its position and its cluster
are reset, its buffer is not. -/
def fatClose (d : Driver) (file : Option FilePtr) : Proc σ Stop Driver :=
  match file with
  | none => Proc.halt .nullFile
  | some ptr =>
    match handleFile (d.file ptr).pub.handle with
    | none => Proc.halt .outOfBounds
    | some .root =>
      let d := d.setFile ptr { d.file ptr with pub.position := 0 }
      pure { d with rootDirectory :=
        { d.rootDirectory with currentCluster := d.rootDirectory.firstCluster } }
    | some (.slot i) => pure (d.setFile (.slot i) { d.openedFiles i with opened := false })

/-- Lines 184-185 and 189-190: `memcpy(name, path, len); name[len + 1] = '\0'`,
inside the buffer. -/
def copyName (name : Block 256) (path : List UInt8) (len : Nat) : Option (Block 256) :=
  let bs := ((path.take len ++ name.bytes.drop len).set (len + 1) 0)
  if h : bs.length = 256 ∧ len + 1 < 256 then some ⟨bs, h.1⟩ else none

/-- The string a buffer holds. -/
def cstring (name : Block 256) : List UInt8 := name.bytes.takeWhile (· ≠ 0)

/-- The loop over the path. Each pass takes a character at least, so as many
passes as the path is long are enough. -/
def openLoop (M : Machine σ) (env : Env) (fuel : Nat) :
    Nat → Block 256 → Driver → Option FilePtr → List UInt8 →
    Proc σ Stop (Driver × Option FilePtr)
  | 0, _, d, current, path => if path = [] then pure (d, current) else Proc.halt .unfinished
  | n + 1, name, d, current, path =>
    if path = [] then pure (d, current)
    else
      let delim := strchr path 0x2F
      let len := delim.getD path.length
      match copyName name path len with
      | none => Proc.halt .outOfBounds
      | some name => do
        let (d, entry) ← fatFindFile M env fuel d current (cstring name)
        let d ← fatClose d current
        match entry with
        | none => return (d, none)
        | some entry =>
          if delim.isSome && !entry.isDirectory then return (d, none)
          else
            let (d, current) ← fatOpenEntry M d entry
            openLoop M env fuel n name d current (path.drop (len + 1))

/-- `FAT_Open`. -/
def fatOpen (M : Machine σ) (env : Env) (fuel : Nat) (d : Driver) (path : List UInt8) :
    Proc σ Stop (Driver × Option FilePtr) :=
  let path := if path.head? = some 0x2F then path.tail else path
  openLoop M env fuel path.length env.stack d (some .root) path

/-! ## `FAT_Initialize` -/

/-- `sizeof(FAT_Data)`: the boot sector and eleven `FAT_FileData` of 544
bytes. -/
def sizeofFatData : UInt32 := 512 + 11 * 544

def memoryFatSize : UInt32 := 0x10000

/-- `FAT_Initialize`, from whatever the memory held before. -/
def fatInitialize (M : Machine σ) (env : Env) (d : Driver) : Proc σ Stop (Driver × UInt16) := do
  let (status, bootSector) ← M.diskReadSectors 0 1 d.vol.bootSector
  let v : Volume := { d.vol with bootSector }
  if status ≠ 0 then return ({ d with vol := v }, 1)
  else if v.signature ≠ 0x29 then return ({ d with vol := v }, 1)
  else if sizeofFatData + v.bytesPerSector.toUInt32 * v.sectorsPerFat.toUInt32 ≥ memoryFatSize then
    return ({ d with vol := v }, 1)
  else do
    -- the sector count narrows to `uint8_t`
    let count := v.sectorsPerFat.toUInt8.toNat
    let (status, fat) ← M.diskReadSectors v.reservedSectors.toUInt32 count
      (Block.ofMem (512 * count) env.mem)
    let v : Volume := { v with fat := fat.bytes }
    if status ≠ 0 then return ({ d with vol := v }, 1)
    else do
      let rootDirLba := v.reservedSectors.toUInt32 + v.sectorsPerFat.toUInt32 * v.fatCount.toUInt32
      let rootDirSize := 32 * v.dirEntryCount.toUInt32
      let (status, buffer) ← M.diskReadSectors rootDirLba 1 d.rootDirectory.buffer
      let root : FatFileData :=
        { buffer, pub := ⟨rootDirectoryHandle, true, 0, rootDirSize⟩, opened := true,
          firstCluster := rootDirLba, currentCluster := rootDirLba, currentSectorInCluster := 0 }
      if status ≠ 0 then return ({ d with vol := v, rootDirectory := root }, 1)
      else if v.bytesPerSector = 0 then Proc.halt .divideError
      else
        let rootDirSectors :=
          (rootDirSize + v.bytesPerSector.toUInt32 - 1) / v.bytesPerSector.toUInt32
        return ({ vol := { v with dataSectionLba := rootDirLba + rootDirSectors },
                  rootDirectory := root,
                  openedFiles := fun i => { d.openedFiles i with opened := false } }, 0)

end Netclover.Stage2
