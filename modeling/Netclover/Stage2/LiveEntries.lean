import Netclover.Stage2.Directory

/-!
# Live entries

Not every record of a directory is a file: the records from the first zero
byte on are left over, and volume labels and long names share the format.
`FAT_FindFile` compares the eleven bytes of the name and nothing else, so it
reports files exactly if the first record with these bytes is one
(`findsLive_iff`).
-/

namespace Netclover.Stage2

open Proc Libc

variable {σ : Type} {M : Machine σ} {env : Env} {d d' d₁ : Driver} {file : Option FilePtr}
  {name : List UInt8} {s t t₁ : σ}

/-- The mark behind the last entry in use: the first byte of the name is zero. -/
def DirectoryEntry.isEnd (e : DirectoryEntry) : Bool := e.bytes.getD 0 0 == 0

/-- `FAT_ATTRIBUTE_VOLUME_ID`, which `FAT_ATTRIBUTE_LFN` contains. -/
def DirectoryEntry.isVolumeId (e : DirectoryEntry) : Bool := e.attributes &&& 0x08 != 0

/-- The entry behind `before` is in use, and it is no volume label and no part
of a long name. -/
structure Live (before : List DirectoryEntry) (e : DirectoryEntry) : Prop where
  inUse : ∀ e' ∈ before ++ [e], e'.isEnd = false
  file : e.isVolumeId = false

/-- The first entry with the key of the name is `e`, behind `before`. -/
structure FirstMatch (M : Machine σ) (env : Env) (d : Driver) (file : Option FilePtr)
    (name : List UInt8) (s : σ) (before : List DirectoryEntry) (e : DirectoryEntry) (d' : Driver)
    (t : σ) : Prop where
  reads : ReadsEntries M env file d s (before ++ [e]) d' t
  key : e.name = fatName name
  first : ∀ e' ∈ before, e'.name ≠ fatName name

/-- `FAT_FindFile` reports live entries only, and one of them if the directory
has any with the key. -/
structure FindsLive (M : Machine σ) (env : Env) (d : Driver) (file : Option FilePtr)
    (name : List UInt8) (s : σ) : Prop where
  sound : ∀ fuel d' e t, fatFindFile M env fuel d file name s = .ok ((d', some e), t) →
    ∃ before, FirstMatch M env d file name s before e d' t ∧ Live before e
  complete : ∀ before e d₁ t₁, ReadsEntries M env file d s (before ++ [e]) d₁ t₁ →
    e.name = fatName name → Live before e →
    ∃ fuel before' e' d' t, fatFindFile M env fuel d file name s = .ok ((d', some e'), t) ∧
      FirstMatch M env d file name s before' e' d' t ∧ Live before' e'

/-! ## The search stops at the first match -/

/-- What a search has found is the first match. -/
theorem fatFindFile_some {fuel : Nat} {e : DirectoryEntry}
    (h : fatFindFile M env fuel d file name s = .ok ((d', some e), t)) :
    ∃ before, FirstMatch M env d file name s before e d' t := by
  induction fuel generalizing d s with
  | zero => cases h
  | succ fuel ih =>
    rcases fatFindFile_ok h with ⟨hnone, -⟩ | ⟨e₁, d₁, s₁, hread, hhit | ⟨hkey, hrest⟩⟩
    · cases hnone
    · obtain ⟨hkey, hfound, rfl, rfl⟩ := hhit
      cases hfound
      exact ⟨[], .cons hread .nil, hkey.symm, by simp⟩
    · obtain ⟨before, hreads, hkey', hfirst⟩ := ih hrest
      refine ⟨e₁ :: before, .cons hread hreads, hkey', fun e' he' => ?_⟩
      rcases List.mem_cons.mp he' with rfl | htail
      · exact fun heq => hkey heq.symm
      · exact hfirst e' htail

theorem FirstMatch.found {before : List DirectoryEntry} {e : DirectoryEntry}
    (h : FirstMatch M env d file name s before e d' t) :
    ∃ d₁ t₁, fatFindFile M env (before.length + 1) d file name s = .ok ((d₁, some e), t₁) := by
  have hreads : ReadsEntries M env file d s (before ++ e :: []) d' t := h.reads
  obtain ⟨d₁, t₁, hfind, -⟩ := hreads.hit h.key h.first (Nat.lt_succ_self before.length)
  exact ⟨d₁, t₁, hfind⟩

/-- Two readings of one directory differ in their length only. -/
theorem ReadsEntries.prefix_or {es es' : List DirectoryEntry}
    (h : ReadsEntries M env file d s es d₁ t₁) (h' : ReadsEntries M env file d s es' d' t) :
    es <+: es' ∨ es' <+: es := by
  induction h generalizing es' with
  | nil => exact .inl List.nil_prefix
  | cons hread _ ih =>
    cases h' with
    | nil => exact .inr List.nil_prefix
    | cons hread' hrest' =>
      rw [hread] at hread'
      cases hread'
      simpa [List.cons_prefix_cons] using ih hrest'

/-- There is one first match only. -/
theorem FirstMatch.unique {before before' : List DirectoryEntry} {e e' : DirectoryEntry}
    (h : FirstMatch M env d file name s before e d₁ t₁)
    (h' : FirstMatch M env d file name s before' e' d' t) : before' = before ∧ e' = e := by
  rcases h.reads.prefix_or h'.reads with hle | hle
  · rcases List.prefix_concat_iff.mp hle with heq | hle
    · obtain ⟨rfl, rfl⟩ := List.append_singleton_inj.mp heq
      exact ⟨rfl, rfl⟩
    · exact (h'.first e (hle.subset (by simp)) h.key).elim
  · rcases List.prefix_concat_iff.mp hle with heq | hle
    · obtain ⟨rfl, rfl⟩ := List.append_singleton_inj.mp heq
      exact ⟨rfl, rfl⟩
    · exact (h.first e' (hle.subset (by simp)) h'.key).elim

/-- Where an entry has the key, there is a first one. -/
theorem ReadsEntries.firstMatch {es : List DirectoryEntry} {e : DirectoryEntry}
    (h : ReadsEntries M env file d s es d₁ t₁) (he : e ∈ es) (hkey : e.name = fatName name) :
    ∃ before e' d' t, FirstMatch M env d file name s before e' d' t := by
  induction h with
  | nil => cases he
  | @cons d d₂ d₁ s s₂ t₁ a es hread _ ih =>
    by_cases ha : a.name = fatName name
    · exact ⟨[], a, d₂, s₂, .cons hread .nil, ha, by simp⟩
    · have htail : e ∈ es := by
        rcases List.mem_cons.mp he with rfl | htail
        · exact (ha hkey).elim
        · exact htail
      obtain ⟨before, e', d', t, hreads, hkey', hfirst⟩ := ih htail
      refine ⟨a :: before, e', d', t, .cons hread hreads, hkey', fun x hx => ?_⟩
      rcases List.mem_cons.mp hx with rfl | hx
      · exact ha
      · exact hfirst x hx

/-- **`FAT_FindFile` reports files** if the first record with the key of the
name is a live entry, and in no other case: for any directory and disk, from
any state. -/
theorem findsLive_iff (M : Machine σ) (env : Env) (d : Driver) (file : Option FilePtr)
    (name : List UInt8) (s : σ) :
    FindsLive M env d file name s ↔
      ∀ before e d' t, FirstMatch M env d file name s before e d' t → Live before e := by
  constructor
  · intro h before e d' t hmatch
    obtain ⟨d₁, t₁, hfind⟩ := hmatch.found
    obtain ⟨before', hmatch', hlive⟩ := h.sound _ d₁ e t₁ hfind
    obtain ⟨rfl, -⟩ := hmatch'.unique hmatch
    exact hlive
  · intro h
    constructor
    · intro fuel d' e t hfind
      obtain ⟨before, hmatch⟩ := fatFindFile_some hfind
      exact ⟨before, hmatch, h before e d' t hmatch⟩
    · intro before e d₁ t₁ hreads hkey _
      obtain ⟨before', e', d', t, hmatch⟩ := hreads.firstMatch (by simp) hkey
      obtain ⟨d₂, t₂, hfind⟩ := hmatch.found
      obtain ⟨before₂, hmatch₂⟩ := fatFindFile_some hfind
      exact ⟨_, before₂, e', d₂, t₂, hfind, hmatch₂, h _ _ _ _ hmatch₂⟩

/-! ## The small volume with a label -/

/-- A volume label `KERNEL  BIN`. -/
def sampleLabel : DirectoryEntry := Block.pad 32 (sampleKernelEntry.name ++ [0x08])

/-- The small volume with that label in front of the kernel. -/
def sampleLabelled : Fat12.Image
  | 2 => Block.pad 512 (sampleLabel.bytes ++ sampleKernelEntry.bytes)
  | lba => sampleImage lba

/-- **The defect.** On a volume with the label `KERNEL  BIN`, `FAT_FindFile`
reports the label for `kernel.bin`. -/
theorem fatFindFile_finds_label :
    ∃ t, fatInitialize (imageMachine sampleLabelled loadingBar) sampleEnv sampleDriver ()
        = .ok ((sampleDriver.mount sampleLabelled, 0), t) ∧
      ¬ FindsLive (imageMachine sampleLabelled loadingBar) sampleEnv
        (sampleDriver.mount sampleLabelled) (some .root) kernelPath.tail () := by
  have hinit : ∃ t, fatInitialize (imageMachine sampleLabelled loadingBar) sampleEnv sampleDriver ()
      = .ok ((sampleDriver.mount sampleLabelled, 0), t) :=
    fatInitialize_eq (imageMachine_holds sampleLabelled loadingBar) (by decide +kernel)
      (by decide +kernel) (by decide +kernel)
  obtain ⟨t, hinit⟩ := hinit
  refine ⟨t, hinit, fun h => ?_⟩
  have hrun : passes (fun r _ => r.2 == some sampleLabel)
      (fatFindFile (imageMachine sampleLabelled loadingBar) sampleEnv 1
        (sampleDriver.mount sampleLabelled) (some .root) kernelPath.tail ()) = true := by
    decide +kernel
  obtain ⟨⟨d, found⟩, s, hfind, hfound⟩ := of_passes hrun
  obtain rfl : found = some sampleLabel := by simpa using hfound
  obtain ⟨before, -, hlive⟩ := h.sound 1 d sampleLabel s hfind
  exact absurd hlive.file (by decide)

end Netclover.Stage2
