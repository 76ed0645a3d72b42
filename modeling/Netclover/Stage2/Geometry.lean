import Mathlib.Tactic.Ring

/-!
# Disk geometry and the BIOS disk services (`libs/disk.c`, `libs/x86.asm`)

The registers that `diskGetDriveParams16` and `diskRead16` exchange with
`int 13h`, byte half by byte half, and `DISK_LBA2CHS` between them. The
request that goes out denotes the sector that was asked for
(`diskRead16_denotes`).
-/

namespace Netclover.Stage2

/-! ## Registers and call frames -/

/-- A 16-bit register with its two halves. -/
structure Reg16 where
  h : UInt8
  l : UInt8
  deriving DecidableEq

namespace Reg16

def word (r : Reg16) : UInt16 := r.h.toUInt16 * 256 + r.l.toUInt16

def ofWord (w : UInt16) : Reg16 := ⟨(w >>> 8).toUInt8, w.toUInt8⟩

/-- `inc` of the whole register. -/
def inc (r : Reg16) : Reg16 := ofWord (r.word + 1)

theorem toNat_word (r : Reg16) : r.word.toNat = r.h.toNat * 256 + r.l.toNat := by
  have hh := r.h.toNat_lt
  have hl := r.l.toNat_lt
  rw [word, UInt16.toNat_add, UInt16.toNat_mul, UInt8.toNat_toUInt16, UInt8.toNat_toUInt16]
  show (_ * 256 % _ + _) % _ = _
  omega

theorem word_ofWord (w : UInt16) : (ofWord w).word = w := by
  have hw := w.toNat_lt
  have hshift : (w >>> 8).toNat = w.toNat / 256 := by
    rw [UInt16.toNat_shiftRight]
    exact Nat.shiftRight_eq_div_pow _ 8
  rw [← UInt16.toNat_inj, toNat_word]
  simp only [ofWord, UInt16.toNat_toUInt8, hshift]
  omega

end Reg16

/-- The byte at `ebp + i` of a `cdecl` call: four bytes an argument, from
offset 8 on. -/
def frameByte (args : List UInt32) (i : Nat) : UInt8 :=
  (args.getD ((i - 8) / 4) 0 >>> UInt32.ofNat (8 * (i % 4))).toUInt8

def frameDword (args : List UInt32) (i : Nat) : UInt32 := args.getD ((i - 8) / 4) 0

/-- `LinearToSegOffset`: the segment and the offset of an address. -/
def linearToSegOffset (address : UInt32) : UInt16 × UInt16 :=
  ((address >>> 4).toUInt16, (address &&& 0xF).toUInt16)

/-! ## `diskGetDriveParams16` -/

/-- What `diskGetDriveParams16` stores through its pointers. -/
structure DriveParams where
  driveType : UInt8
  cylinders : UInt16
  heads : UInt16
  sectors : UInt16

/-- The stores after a reply of `int 13h/AH=08h` with the carry flag clear. -/
def diskGetDriveParams16 (bl : UInt8) (cx dx : Reg16) : DriveParams :=
  -- mov bl, ch; mov bh, cl; shr bh, 6; inc bx
  let bx := Reg16.inc ⟨cx.l >>> 6, cx.h⟩
  -- xor ch, ch; and cl, 3Fh
  let sectors : Reg16 := ⟨0, cx.l &&& 0x3F⟩
  -- mov cl, dh; inc cx
  let heads := Reg16.inc ⟨sectors.h, dx.h⟩
  ⟨bl, bx.word, heads.word, sectors.word⟩

/-! ## `DISK_LBA2CHS` -/

/-- `DISK`. -/
structure Disk where
  id : UInt8
  cylinders : UInt16
  heads : UInt16
  sectors : UInt16

namespace Disk

variable (disk : Disk)

/-- The number of sectors of the disk. -/
def capacity : Nat := disk.cylinders.toNat * disk.heads.toNat * disk.sectors.toNat

end Disk

/-- A sector's cylinder, head and number. -/
structure Chs where
  cylinder : UInt16
  head : UInt16
  sector : UInt16
  deriving DecidableEq

/-- `DISK_LBA2CHS`, where it does not divide by zero. -/
def diskLba2Chs (disk : Disk) (lba : UInt32) : Chs where
  cylinder := (lba / disk.sectors.toUInt32 / disk.heads.toUInt32).toUInt16
  head := (lba / disk.sectors.toUInt32 % disk.heads.toUInt32).toUInt16
  sector := (lba % disk.sectors.toUInt32 + 1).toUInt16

/-! ## `diskRead16` -/

/-- The registers at `int 13h`. -/
structure Int13 where
  ax : Reg16
  bx : UInt16
  cx : Reg16
  dx : Reg16
  es : UInt16
  deriving DecidableEq

/-- The registers `diskRead16` calls `int 13h/AH=02h` with. -/
def diskRead16 (drive : UInt8) (chs : Chs) (count : UInt8) (dataOut : UInt32) : Int13 :=
  let args := [drive.toUInt32, chs.cylinder.toUInt32, chs.head.toUInt32, chs.sector.toUInt32,
    count.toUInt32, dataOut]
  let dl := frameByte args 8
  let ch := frameByte args 12
  let cl := frameByte args 13
  let cl := cl <<< 6
  let dh := frameByte args 16
  let al := frameByte args 20
  let al := al &&& 0x3F
  let cl := cl ||| al
  let al := frameByte args 24
  let (es, bx) := linearToSegOffset (frameDword args 28)
  ⟨⟨0x02, al⟩, bx, ⟨ch, cl⟩, ⟨dh, dl⟩, es⟩

/-! The BIOS convention for these registers. -/

namespace Int13

variable (r : Int13)

def cylinder : Nat := r.cx.h.toNat + 256 * (r.cx.l >>> 6).toNat

def head : Nat := r.dx.h.toNat

def sector : Nat := (r.cx.l &&& 0x3F).toNat

def address : Nat := r.es.toNat * 16 + r.bx.toNat

end Int13

/-! ## Packing and unpacking -/

theorem toNat_and_3f (b : UInt8) : (b &&& 0x3F).toNat = b.toNat % 64 := by
  rw [UInt8.toNat_and]
  exact Nat.and_two_pow_sub_one_eq_mod _ 6

theorem toNat_shiftRight_6 (b : UInt8) : (b >>> 6).toNat = b.toNat / 64 := by
  rw [UInt8.toNat_shiftRight]
  exact Nat.shiftRight_eq_div_pow _ 6

/-- Two bits of the cylinder above six bits of the sector. -/
theorem toNat_pack (hi lo : UInt8) :
    (hi <<< 6 ||| lo &&& 0x3F).toNat = hi.toNat % 4 * 64 + lo.toNat % 64 := by
  have hlo : lo.toNat % 64 < 2 ^ 6 := by omega
  have hhi : (hi <<< 6).toNat = (hi.toNat % 4) <<< 6 := by
    rw [UInt8.toNat_shiftLeft]
    show hi.toNat <<< 6 % 256 = _
    rw [Nat.shiftLeft_eq, Nat.shiftLeft_eq]
    omega
  rw [UInt8.toNat_or, toNat_and_3f, hhi, ← Nat.shiftLeft_add_eq_or_of_lt hlo, Nat.shiftLeft_eq]

theorem address_linearToSegOffset {address : UInt32} (h : address.toNat < 2 ^ 20) :
    (linearToSegOffset address).1.toNat * 16 + (linearToSegOffset address).2.toNat
      = address.toNat := by
  have hseg : (address >>> 4).toNat = address.toNat / 16 := by
    rw [UInt32.toNat_shiftRight]
    exact Nat.shiftRight_eq_div_pow _ 4
  have hoff : (address &&& 0xF).toNat = address.toNat % 16 := by
    rw [UInt32.toNat_and]
    exact Nat.and_two_pow_sub_one_eq_mod _ 4
  simp only [linearToSegOffset, UInt32.toNat_toUInt16, hseg, hoff]
  omega

/-- The geometry in numbers: cylinder and head numbers are maxima. -/
theorem diskGetDriveParams16_spec (bl : UInt8) (cx dx : Reg16) :
    (diskGetDriveParams16 bl cx dx).cylinders.toNat = cx.h.toNat + 256 * (cx.l.toNat / 64) + 1 ∧
    (diskGetDriveParams16 bl cx dx).heads.toNat = dx.h.toNat + 1 ∧
    (diskGetDriveParams16 bl cx dx).sectors.toNat = cx.l.toNat % 64 := by
  have hch := cx.h.toNat_lt
  have hcl := cx.l.toNat_lt
  have hdh := dx.h.toNat_lt
  have hinc : ∀ w : UInt16, w.toNat < 65535 → (w + 1).toNat = w.toNat + 1 := by
    intro w hw
    rw [UInt16.toNat_add]
    show (_ + 1) % _ = _
    omega
  have hzero : (0 : UInt8).toNat = 0 := rfl
  refine ⟨?_, ?_, ?_⟩
  · have hmax := Reg16.toNat_word ⟨cx.l >>> 6, cx.h⟩
    dsimp only at hmax
    rw [toNat_shiftRight_6] at hmax
    simp only [diskGetDriveParams16, Reg16.inc, Reg16.word_ofWord]
    rw [hinc _ (by omega), hmax]
    omega
  · have hmax := Reg16.toNat_word ⟨0, dx.h⟩
    dsimp only at hmax
    simp only [diskGetDriveParams16, Reg16.inc, Reg16.word_ofWord]
    rw [hinc _ (by omega), hmax]
    omega
  · simp only [diskGetDriveParams16, Reg16.toNat_word, toNat_and_3f]
    omega

/-- The two bytes of an argument of a call. -/
theorem toUInt8_argument (w : UInt16) :
    (w.toUInt32 >>> 0).toUInt8 = w.toUInt8 ∧ (w.toUInt32 >>> 8).toUInt8 = (w >>> 8).toUInt8 := by
  refine ⟨by simp, ?_⟩
  rw [← UInt8.toNat_inj]
  simp

/-- The registers of a read, byte by byte. -/
theorem diskRead16_eq (drive : UInt8) (chs : Chs) (count : UInt8) (dataOut : UInt32) :
    diskRead16 drive chs count dataOut
      = ⟨⟨0x02, count⟩, (linearToSegOffset dataOut).2,
        ⟨chs.cylinder.toUInt8, (chs.cylinder >>> 8).toUInt8 <<< 6 ||| chs.sector.toUInt8 &&& 0x3F⟩,
        ⟨chs.head.toUInt8, drive⟩, (linearToSegOffset dataOut).1⟩ := by
  have hbyte : ∀ b : UInt8, (b.toUInt32 >>> 0).toUInt8 = b := fun b => by simp
  rw [← (toUInt8_argument chs.cylinder).1, ← (toUInt8_argument chs.cylinder).2,
    ← (toUInt8_argument chs.head).1, ← (toUInt8_argument chs.sector).1]
  conv_rhs => rw [← hbyte drive, ← hbyte count]
  rfl

/-- The fields of a request, in numbers. -/
theorem diskRead16_spec (drive : UInt8) (chs : Chs) (count : UInt8) {dataOut : UInt32}
    (hcylinder : chs.cylinder.toNat < 1024) (hhead : chs.head.toNat < 256)
    (hsector : chs.sector.toNat < 64) (hdata : dataOut.toNat < 2 ^ 20) :
    (diskRead16 drive chs count dataOut).cylinder = chs.cylinder.toNat ∧
    (diskRead16 drive chs count dataOut).head = chs.head.toNat ∧
    (diskRead16 drive chs count dataOut).sector = chs.sector.toNat ∧
    (diskRead16 drive chs count dataOut).address = dataOut.toNat := by
  have hlow : ∀ w : UInt16, (w.toUInt32 >>> 0).toUInt8.toNat = w.toNat % 256 := by
    intro w
    rw [UInt32.toNat_toUInt8, UInt32.toNat_shiftRight, UInt16.toNat_toUInt32]
    rfl
  have hhigh : ∀ w : UInt16, (w.toUInt32 >>> 8).toUInt8.toNat = w.toNat / 256 := by
    intro w
    have hw := w.toNat_lt
    rw [UInt32.toNat_toUInt8, UInt32.toNat_shiftRight, UInt16.toNat_toUInt32]
    show w.toNat >>> 8 % 256 = _
    rw [Nat.shiftRight_eq_div_pow]
    omega
  have hch : (diskRead16 drive chs count dataOut).cx.h.toNat = chs.cylinder.toNat % 256 :=
    hlow chs.cylinder
  have hcl : (diskRead16 drive chs count dataOut).cx.l.toNat
      = chs.cylinder.toNat / 256 % 4 * 64 + chs.sector.toNat % 256 % 64 := by
    rw [← hhigh chs.cylinder, ← hlow chs.sector]
    exact toNat_pack _ _
  have hdh : (diskRead16 drive chs count dataOut).dx.h.toNat = chs.head.toNat % 256 :=
    hlow chs.head
  refine ⟨?_, ?_, ?_, ?_⟩
  · rw [Int13.cylinder, toNat_shiftRight_6, hch, hcl]
    omega
  · rw [Int13.head, hdh]
    omega
  · rw [Int13.sector, toNat_and_3f, hcl]
    omega
  · exact address_linearToSegOffset hdata

/-- The divisions of `DISK_LBA2CHS`, in numbers: nothing is cut off. -/
theorem diskLba2Chs_eq {disk : Disk} {lba : UInt32} (hheads : 0 < disk.heads.toNat)
    (hsectors : 0 < disk.sectors.toNat)
    (hcyl : lba.toNat / disk.sectors.toNat / disk.heads.toNat < disk.cylinders.toNat) :
    (diskLba2Chs disk lba).cylinder.toNat = lba.toNat / disk.sectors.toNat / disk.heads.toNat ∧
    (diskLba2Chs disk lba).head.toNat = lba.toNat / disk.sectors.toNat % disk.heads.toNat ∧
    (diskLba2Chs disk lba).sector.toNat = lba.toNat % disk.sectors.toNat + 1 := by
  have hC := disk.cylinders.toNat_lt
  have hH := disk.heads.toNat_lt
  have hS := disk.sectors.toNat_lt
  have hhead := Nat.mod_lt (lba.toNat / disk.sectors.toNat) hheads
  have hsec := Nat.mod_lt lba.toNat hsectors
  refine ⟨?_, ?_, ?_⟩
  · simp only [diskLba2Chs, UInt32.toNat_toUInt16, UInt32.toNat_div, UInt16.toNat_toUInt32]
    exact Nat.mod_eq_of_lt (by omega)
  · simp only [diskLba2Chs, UInt32.toNat_toUInt16, UInt32.toNat_mod, UInt32.toNat_div,
      UInt16.toNat_toUInt32]
    exact Nat.mod_eq_of_lt (by omega)
  · simp only [diskLba2Chs, UInt32.toNat_toUInt16, UInt32.toNat_add, UInt32.toNat_mod,
      UInt16.toNat_toUInt32]
    show (_ + 1) % _ % _ = _
    omega

/-- A sector of the disk in cylinder, head and number, and back. -/
theorem diskLba2Chs_spec {disk : Disk} {lba : UInt32} (h : lba.toNat < disk.capacity) :
    (diskLba2Chs disk lba).cylinder.toNat < disk.cylinders.toNat ∧
    (diskLba2Chs disk lba).head.toNat < disk.heads.toNat ∧
    1 ≤ (diskLba2Chs disk lba).sector.toNat ∧
    (diskLba2Chs disk lba).sector.toNat ≤ disk.sectors.toNat ∧
    ((diskLba2Chs disk lba).cylinder.toNat * disk.heads.toNat
      + (diskLba2Chs disk lba).head.toNat) * disk.sectors.toNat
      + (diskLba2Chs disk lba).sector.toNat - 1 = lba.toNat := by
  rw [Disk.capacity] at h
  have hpos : 0 < disk.heads.toNat * disk.sectors.toNat := by
    rcases Nat.eq_zero_or_pos (disk.heads.toNat * disk.sectors.toNat) with hz | hp
    · rw [Nat.mul_assoc, hz] at h
      omega
    · exact hp
  have hheads : 0 < disk.heads.toNat := Nat.pos_of_mul_pos_right hpos
  have hsectors : 0 < disk.sectors.toNat := Nat.pos_of_mul_pos_left hpos
  have htrack : lba.toNat / disk.sectors.toNat < disk.cylinders.toNat * disk.heads.toNat :=
    Nat.div_lt_of_lt_mul (by rwa [Nat.mul_comm])
  have hcyl : lba.toNat / disk.sectors.toNat / disk.heads.toNat < disk.cylinders.toNat :=
    Nat.div_lt_of_lt_mul (by rwa [Nat.mul_comm])
  have hhead := Nat.mod_lt (lba.toNat / disk.sectors.toNat) hheads
  have hsec := Nat.mod_lt lba.toNat hsectors
  obtain ⟨hcylinder, hhead', hsector⟩ := diskLba2Chs_eq hheads hsectors hcyl
  rw [hcylinder, hhead', hsector]
  refine ⟨hcyl, hhead, by omega, by omega, ?_⟩
  have hjoin := Nat.div_add_mod' (lba.toNat / disk.sectors.toNat) disk.heads.toNat
  have hjoin' := Nat.div_add_mod' lba.toNat disk.sectors.toNat
  rw [hjoin]
  omega

/-- The request for a sector says where the sector is. -/
theorem diskRead16_lba2Chs {disk : Disk} {lba dataOut : UInt32} (drive count : UInt8)
    (hC : disk.cylinders.toNat ≤ 1024) (hH : disk.heads.toNat ≤ 256) (hS : disk.sectors.toNat < 64)
    (hlba : lba.toNat < disk.capacity) (hdata : dataOut.toNat < 2 ^ 20) :
    (diskRead16 drive (diskLba2Chs disk lba) count dataOut).cylinder
      = (diskLba2Chs disk lba).cylinder.toNat ∧
    (diskRead16 drive (diskLba2Chs disk lba) count dataOut).head
      = (diskLba2Chs disk lba).head.toNat ∧
    (diskRead16 drive (diskLba2Chs disk lba) count dataOut).sector
      = (diskLba2Chs disk lba).sector.toNat ∧
    (diskRead16 drive (diskLba2Chs disk lba) count dataOut).address = dataOut.toNat := by
  obtain ⟨hcylinder, hhead, -, hsector, -⟩ := diskLba2Chs_spec hlba
  exact diskRead16_spec drive _ count (by omega) (by omega) (by omega) hdata

/-- **The request denotes the sector that was asked for**: for every geometry
that `diskGetDriveParams16` can store, every sector of the disk and every
buffer below 1 MiB, the registers of `diskRead16` name that sector and that
buffer; no two sectors have the same request. -/
theorem diskRead16_denotes (id bl : UInt8) (cx dx : Reg16) :
    let params := diskGetDriveParams16 bl cx dx
    let disk : Disk := ⟨id, params.cylinders, params.heads, params.sectors⟩
    ∀ (lba dataOut : UInt32) (count : UInt8), lba.toNat < disk.capacity →
      dataOut.toNat < 2 ^ 20 →
      let r := diskRead16 id (diskLba2Chs disk lba) count dataOut
      r.cylinder < params.cylinders.toNat ∧
      r.head < params.heads.toNat ∧
      1 ≤ r.sector ∧ r.sector ≤ params.sectors.toNat ∧
      (r.cylinder * params.heads.toNat + r.head) * params.sectors.toNat + r.sector - 1
        = lba.toNat ∧
      r.address = dataOut.toNat ∧
      ∀ lba' : UInt32, lba'.toNat < disk.capacity →
        (diskRead16 id (diskLba2Chs disk lba') count dataOut).cx = r.cx →
        (diskRead16 id (diskLba2Chs disk lba') count dataOut).dx = r.dx → lba' = lba := by
  intro params disk lba dataOut count hlba hdata r
  obtain ⟨hC, hH, hS⟩ := diskGetDriveParams16_spec bl cx dx
  have hch := cx.h.toNat_lt
  have hcl := cx.l.toNat_lt
  have hdh := dx.h.toNat_lt
  have hC' : disk.cylinders.toNat ≤ 1024 := by
    show (diskGetDriveParams16 bl cx dx).cylinders.toNat ≤ 1024
    omega
  have hH' : disk.heads.toNat ≤ 256 := by
    show (diskGetDriveParams16 bl cx dx).heads.toNat ≤ 256
    omega
  have hS' : disk.sectors.toNat < 64 := by
    show (diskGetDriveParams16 bl cx dx).sectors.toNat < 64
    omega
  obtain ⟨h₁, h₂, h₃, h₄, hback⟩ := diskLba2Chs_spec hlba
  obtain ⟨hcylinder, hhead, hsector, haddress⟩ :=
    diskRead16_lba2Chs id count hC' hH' hS' hlba hdata
  refine ⟨?_, ?_, ?_, ?_, ?_, haddress, ?_⟩
  · rw [hcylinder]
    exact h₁
  · rw [hhead]
    exact h₂
  · rw [hsector]
    exact h₃
  · rw [hsector]
    exact h₄
  · rw [hcylinder, hhead, hsector]
    exact hback
  · -- equal registers hold equal fields, and the fields give the sector back
    intro lba' hlba' hcx hdx
    obtain ⟨hcylinder', hhead', hsector', -⟩ :=
      diskRead16_lba2Chs id count hC' hH' hS' hlba' hdata
    have hback' := (diskLba2Chs_spec hlba').2.2.2.2
    rw [Int13.cylinder, hcx] at hcylinder'
    rw [Int13.sector, hcx] at hsector'
    rw [Int13.head, hdx] at hhead'
    rw [← hcylinder', ← hhead', ← hsector'] at hback'
    rw [← hcylinder, ← hhead, ← hsector] at hback
    rw [← UInt32.toNat_inj, ← hback', ← hback]
    rfl

/-- The last sector of a floppy disk with 80 cylinders, 2 heads and 18
sectors. -/
theorem diskRead16_denotes_floppy :
    (diskRead16 0 (diskLba2Chs ⟨0, 80, 2, 18⟩ 2879) 1 0x30000).cylinder < 80 ∧
    ((diskRead16 0 (diskLba2Chs ⟨0, 80, 2, 18⟩ 2879) 1 0x30000).cylinder * 2
      + (diskRead16 0 (diskLba2Chs ⟨0, 80, 2, 18⟩ 2879) 1 0x30000).head) * 18
      + (diskRead16 0 (diskLba2Chs ⟨0, 80, 2, 18⟩ 2879) 1 0x30000).sector - 1 = 2879 := by
  have h := diskRead16_denotes 0 4 ⟨79, 18⟩ ⟨1, 0⟩ 2879 0x30000 1 (by decide) (by decide)
  exact ⟨h.1, h.2.2.2.2.1⟩

end Netclover.Stage2
