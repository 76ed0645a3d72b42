import Netclover.Lib.Runs
import Netclover.Stage2.Chain

/-!
# Clients of the driver

A client calls `FAT_Open`, `FAT_Read` and `FAT_Close` in any order, on the
pointers it was given. A step of a client is a call that completes, with any
memory around it (`Env`). Two results about whole runs: the slots marked open
are accounted for, and open handles do not interfere.
-/

namespace Netclover.Stage2

open Proc

variable {σ : Type} {M : Machine σ}

/-! ## Calls and replies -/

inductive Call where
  | fatOpen (env : Env) (fuel : Nat) (path : List UInt8)
  | fatRead (env : Env) (file : FilePtr) (byteCount : UInt32)
  | fatClose (file : FilePtr)

inductive Reply where
  | file (ptr : Option FilePtr)
  | bytes (out : List UInt8)
  | closed
  deriving DecidableEq

/-- A client, with the driver and the disk: the pointers it was ever given,
and those of them it has not closed yet. -/
structure Client (σ : Type) where
  driver : Driver
  disk : σ
  given : List FilePtr
  held : List FilePtr

/-- A client straight after `FAT_Initialize`. -/
def Client.start (d : Driver) (s : σ) : Client σ := ⟨d, s, [], []⟩

/-- A completed call. -/
inductive ClientStep (M : Machine σ) : Client σ → Call → Reply → Client σ → Prop
  | fatOpen {c : Client σ} {env : Env} {fuel : Nat} {path : List UInt8} {d : Driver}
      {r : Option FilePtr} {s : σ} :
      Stage2.fatOpen M env fuel c.driver path c.disk = .ok ((d, r), s) →
      ClientStep M c (.fatOpen env fuel path) (.file r)
        ⟨d, s, r.toList ++ c.given, r.toList ++ c.held⟩
  | fatRead {c : Client σ} {env : Env} {file : FilePtr} {byteCount : UInt32} {d : Driver}
      {out : List UInt8} {s : σ} : file ∈ c.given →
      Stage2.fatRead M env c.driver (some file) byteCount c.disk = .ok ((d, out), s) →
      ClientStep M c (.fatRead env file byteCount) (.bytes out) { c with driver := d, disk := s }
  | fatClose {c : Client σ} {file : FilePtr} {d : Driver} {s : σ} : file ∈ c.given →
      Stage2.fatClose c.driver (some file) c.disk = .ok (d, s) →
      ClientStep M c (.fatClose file) .closed
        { c with driver := d, disk := s, held := c.held.erase file }

/-! ## Pointers stay good -/

/-- The pointers the client was given carry their numbers, and nothing is
open that it was not given. -/
structure Client.Sound (c : Client σ) : Prop where
  root : c.driver.Numbered .root
  given : ∀ p ∈ c.given, c.driver.Numbered p
  opened : ∀ i, (c.driver.openedFiles i).opened → .slot i ∈ c.given

namespace Client.Sound

variable {c c' : Client σ}

theorem start {d : Driver} (s : σ) (hroot : d.Numbered .root)
    (hclosed : ∀ i, (d.openedFiles i).opened = false) : (Client.start d s).Sound where
  root := hroot
  given p hp := by simp [Client.start] at hp
  opened i hi := by simp [Client.start, hclosed] at hi

/-- **Every completed call** leaves the pointers good. -/
theorem step {l : Call} {r : Reply} (h : c.Sound) (hs : ClientStep M c l r c') : c'.Sound := by
  cases hs with
  | @fatOpen env fuel path d r s hopen =>
    have hop := fatOpen_opening h.root hopen
    refine ⟨hop.root, fun p hp => ?_, fun i hi => ?_⟩
    · rcases p with - | i
      · exact hop.root
      rcases List.mem_append.mp hp with hnew | hold
      · have hr : r = some (.slot i) := by simpa using hnew
        exact (hop.fresh i hr).2
      · rcases hop.handles i with hnum | hsame
        · exact hnum
        · have hnum := h.given _ hold
          rw [Driver.Numbered, Driver.file] at hnum ⊢
          rw [hsame]
          exact hnum
    · rcases (hop.opened i).mp hi with hold | hnew
      · exact List.mem_append_right _ (h.opened i hold)
      · exact List.mem_append_left _ (by simp [hnew])
  | @fatRead env file byteCount d out s hfile hread =>
    obtain ⟨fd, hfd, rfl⟩ := fatRead_touches hread (h.given _ hfile)
    refine ⟨h.root.setFile hfd.handle, fun p hp => (h.given p hp).setFile hfd.handle,
      fun i hi => h.opened i ?_⟩
    by_cases hif : FilePtr.slot i = file
    · subst hif
      rw [Driver.openedFiles_setFile_self, hfd.opened] at hi
      exact hi
    · have hsame := c.driver.file_setFile_ne fd hif
      simp only [Driver.file] at hsame
      rwa [hsame] at hi
  | @fatClose file d s hfile hclose =>
    have hnum := h.given _ hfile
    rcases file with - | j
    · rw [fatClose_eq_root hnum] at hclose
      cases hclose
      exact ⟨h.root, fun p hp => by
        have hp' := h.given p hp
        cases p with
        | root => exact hp'
        | slot i => exact hp', h.opened⟩
    · rw [fatClose_eq_slot hnum] at hclose
      cases hclose
      refine ⟨h.root.setFile rfl, fun p hp => (h.given p hp).setFile rfl, fun i hi => ?_⟩
      by_cases hij : i = j
      · subst hij
        rw [Driver.openedFiles_setFile_self] at hi
        cases hi
      · rw [Driver.openedFiles_setFile_ne _ _ hij] at hi
        exact h.opened i hi

theorem run {tr : List (Call × Reply)} (h : c.Sound) (hrun : Run (ClientStep M) c tr c') :
    c'.Sound := hrun.invariant (fun _ _ _ _ hc hs => hc.step hs) h

end Client.Sound

theorem Client.sound_of_initialize {env : Env} {d₀ d : Driver} {s₀ s : σ}
    (hinit : fatInitialize M env d₀ s₀ = .ok ((d, 0), s)) : (Client.start d s).Sound := by
  obtain ⟨⟨buffer, hroot⟩, hclosed⟩ := fatInitialize_ok hinit
  refine .start s ?_ hclosed
  rw [Driver.Numbered, Driver.file, hroot]
  rfl

/-! ## Handles are accounted for -/

/-- A client that closes only what it was given and has not closed yet. -/
def ClosesHeld (c : Client σ) : Call → Prop
  | .fatClose file => file ∈ c.held
  | _ => True

/-- The handles among the pointers that are not the root's. -/
def nonRoot (held : List FilePtr) : List (Fin maxFileHandles) :=
  held.filterMap fun
    | .root => none
    | .slot i => some i

@[simp] theorem mem_nonRoot {held : List FilePtr} {i : Fin maxFileHandles} :
    i ∈ nonRoot held ↔ .slot i ∈ held := by
  rw [nonRoot, List.mem_filterMap]
  constructor
  · rintro ⟨p, hp, hpi⟩
    cases p with
    | root => cases hpi
    | slot j =>
      cases hpi
      exact hp
  · intro h
    exact ⟨_, h, rfl⟩

/-- The invariant: the slots marked open are the slots held, each held once. -/
structure Client.Accounts (c : Client σ) : Prop where
  opened : ∀ i, (c.driver.openedFiles i).opened ↔ .slot i ∈ c.held
  once : ∀ i, c.held.count (.slot i) ≤ 1

namespace Client.Accounts

variable {c c' : Client σ}

theorem step {l : Call} {r : Reply} (hc : c.Sound) (h : c.Accounts)
    (hs : Guarded ClosesHeld (ClientStep M) c l r c') : c'.Accounts := by
  obtain ⟨hheld, hs⟩ := hs
  cases hs with
  | @fatOpen env fuel path d r s hopen =>
    have hop := fatOpen_opening hc.root hopen
    constructor
    · intro i
      rw [hop.opened, h.opened, List.mem_append, Option.mem_toList]
      exact Or.comm
    · intro i
      have hi := h.once i
      rw [List.count_append]
      by_cases hr : r = some (.slot i)
      · -- the slot was free, so it was not held
        have hfree := (hop.fresh i hr).1
        rw [h.opened] at hfree
        rw [List.count_eq_zero_of_not_mem hfree, hr]
        simp
      · rw [List.count_eq_zero_of_not_mem (by simpa using hr)]
        omega
  | @fatRead env file byteCount d out s hfile hread =>
    refine ⟨fun i => ?_, h.once⟩
    obtain ⟨fd, hfd, rfl⟩ := fatRead_touches hread (hc.given _ hfile)
    rw [← h.opened i]
    rcases file with - | j
    · rfl
    · by_cases hij : i = j
      · subst hij
        dsimp only
        rw [Driver.openedFiles_setFile_self, hfd.opened]
        rfl
      · dsimp only
        rw [Driver.openedFiles_setFile_ne _ _ hij]
  | @fatClose file d s hfile hclose =>
    have hnum := hc.given _ hfile
    refine ⟨fun i => ?_, fun i => ?_⟩
    · dsimp only
      rcases file with - | j
      · rw [fatClose_eq_root hnum] at hclose
        cases hclose
        rw [List.mem_erase_of_ne (by simp)]
        exact h.opened i
      · rw [fatClose_eq_slot hnum] at hclose
        cases hclose
        by_cases hij : i = j
        · -- held once, and closed: held no more
          subst hij
          have honce := h.once i
          have hgone : FilePtr.slot i ∉ c.held.erase (.slot i) := by
            rw [← List.count_eq_zero, List.count_erase_self]
            omega
          rw [Driver.openedFiles_setFile_self]
          simp [hgone]
        · rw [Driver.openedFiles_setFile_ne _ _ hij, List.mem_erase_of_ne (by simpa using hij)]
          exact h.opened i
    · exact Nat.le_trans (List.erase_sublist.count_le _) (h.once i)

theorem run {tr : List (Call × Reply)} (hc : c.Sound) (h : c.Accounts)
    (hrun : Run (Guarded ClosesHeld (ClientStep M)) c tr c') : c'.Sound ∧ c'.Accounts :=
  hrun.invariant (I := fun c => c.Sound ∧ c.Accounts)
    (fun _ _ _ _ hc hs => ⟨hc.1.step hs.2, hc.2.step hc.1 hs⟩) ⟨hc, h⟩

theorem length_nonRoot (h : c.Accounts) : (nonRoot c.held).length ≤ maxFileHandles := by
  have hnodup : (nonRoot c.held).Nodup := by
    rw [List.nodup_iff_count_le_one]
    intro i
    rw [nonRoot, List.count_filterMap]
    refine Nat.le_trans (List.countP_mono_left fun p _ hp => ?_) (h.once i)
    cases p with
    | root => simp at hp
    | slot j => simpa using hp
  exact hnodup.length_le_card.trans (by simp)

end Client.Accounts

/-- **Handle accounting.** After `FAT_Initialize`, whatever fails, as long as
the client closes only what it holds: the slots marked open are the slots it
holds; they are ten at most; a slot that `FAT_Open` returns was not held; and
a `FAT_Open` that returns NULL opens nothing and closes nothing. -/
theorem open_slots_accounted {M : Machine σ} {env : Env} {d₀ d : Driver} {s₀ s : σ}
    (hinit : fatInitialize M env d₀ s₀ = .ok ((d, 0), s)) {tr : List (Call × Reply)}
    {c : Client σ} (hrun : Run (Guarded ClosesHeld (ClientStep M)) (Client.start d s) tr c) :
    (∀ i, (c.driver.openedFiles i).opened ↔ i ∈ nonRoot c.held) ∧
    (nonRoot c.held).length ≤ maxFileHandles ∧
    ∀ env fuel path r c', ClientStep M c (.fatOpen env fuel path) (.file r) c' →
      (∀ i, r = some (.slot i) → FilePtr.slot i ∉ c.held) ∧
      (r = none → ∀ i, (c'.driver.openedFiles i).opened ↔ (c.driver.openedFiles i).opened) := by
  have hclosed := (fatInitialize_ok hinit).2
  have hstart : (Client.start d s).Accounts :=
    ⟨fun i => by simp [Client.start, hclosed], fun i => by simp [Client.start]⟩
  obtain ⟨hc, hacc⟩ := hstart.run (Client.sound_of_initialize hinit) hrun
  refine ⟨fun i => by rw [mem_nonRoot, hacc.opened], hacc.length_nonRoot, ?_⟩
  intro env fuel path r c' hs
  cases hs with
  | @fatOpen _ _ _ d' _ s' hopen =>
    have hop := fatOpen_opening hc.root hopen
    constructor
    · intro i hr
      rw [← hacc.opened]
      exact (hop.fresh i hr).1
    · rintro rfl i
      simpa using hop.opened i

/-- `/kernel.bin`. -/
def kernelPath : List UInt8 := [0x2F, 0x6B, 0x65, 0x72, 0x6E, 0x65, 0x6C, 0x2E, 0x62, 0x69, 0x6E]

/-- `/b.bin`. -/
def smallPath : List UInt8 := [0x2F, 0x62, 0x2E, 0x62, 0x69, 0x6E]

theorem sample_open_kernel : ∃ d, fatOpen sampleMachine sampleEnv 4 sampleMounted kernelPath ()
    = .ok ((d, some (.slot firstSlot)), ()) := by
  have h : passes (fun r _ => r.2 == some (.slot firstSlot))
      (fatOpen sampleMachine sampleEnv 4 sampleMounted kernelPath ()) = true := by decide +kernel
  obtain ⟨⟨d, r⟩, s, hrun, hr⟩ := of_passes h
  obtain rfl : r = some (.slot firstSlot) := by simpa using hr
  exact ⟨d, hrun⟩

/-- A client that opens the kernel holds slot 0, and slot 0 is open. -/
theorem open_slots_accounted_sample : ∃ c, Run (Guarded ClosesHeld (ClientStep sampleMachine))
      (Client.start sampleMounted ()) [(.fatOpen sampleEnv 4 kernelPath,
        .file (some (.slot firstSlot)))] c ∧
    (c.driver.openedFiles firstSlot).opened := by
  obtain ⟨d, hopen⟩ := sample_open_kernel
  have hstep : ClientStep sampleMachine (Client.start sampleMounted ()) _ _ _ := .fatOpen hopen
  have hrun : Run (Guarded ClosesHeld (ClientStep sampleMachine)) _ _ _ :=
    .one ⟨by exact trivial, hstep⟩
  refine ⟨_, hrun, ?_⟩
  rw [(open_slots_accounted sample_initialize hrun).1]
  simp

/-- The root directory's handle is returned while it is held: `FAT_Open` of
`/`, twice. -/
theorem root_handle_returned_twice :
    ¬ ∀ (tr : List (Call × Reply)) (c : Client Unit),
      Run (Guarded ClosesHeld (ClientStep sampleMachine)) (Client.start sampleMounted ()) tr c →
      ∀ env fuel path p c', ClientStep sampleMachine c (.fatOpen env fuel path) (.file (some p)) c' →
        p ∉ c.held := by
  intro h
  have hstep : ∀ c : Client Unit, ClientStep sampleMachine c (.fatOpen sampleEnv 0 [0x2F])
      (.file (some .root)) ⟨c.driver, c.disk, .root :: c.given, .root :: c.held⟩ :=
    fun c => ClientStep.fatOpen rfl
  have hrun : Run (Guarded ClosesHeld (ClientStep sampleMachine)) _ _ _ :=
    .one ⟨by exact trivial, hstep (Client.start sampleMounted ())⟩
  exact h _ _ hrun _ _ _ _ _ (hstep _) (by simp)

/-! ## Open handles do not interfere -/

/-- The `FAT_Read` calls on slot `h`, each with what it delivered. -/
def readsOn (h : Fin maxFileHandles) : List (Call × Reply) → List ((Env × UInt32) × List UInt8)
  | [] => []
  | (.fatRead env file byteCount, .bytes out) :: tr =>
    if file = .slot h then ((env, byteCount), out) :: readsOn h tr else readsOn h tr
  | _ :: tr => readsOn h tr

/-- A client that does not close slot `h`. -/
def LeavesOpen (h : Fin maxFileHandles) (_ : Client σ) : Call → Prop
  | .fatClose file => file ≠ .slot h
  | _ => True

/-- What a call on other files leaves of an open slot: everything. -/
structure SameSlot (h : Fin maxFileHandles) (d d' : Driver) : Prop where
  vol : d'.vol = d.vol
  slot : d'.openedFiles h = d.openedFiles h

theorem SameSlot.setFile {h : Fin maxFileHandles} (d : Driver) {p : FilePtr} (fd : FatFileData)
    (hp : p ≠ .slot h) : SameSlot h d (d.setFile p fd) :=
  ⟨d.setFile_vol fd p, d.file_setFile_ne fd (q := .slot h) (Ne.symm hp)⟩

section

variable {c c' : Client σ} {h : Fin maxFileHandles}

/-- **The frame of a call**: but for its own reads and its closing, nothing
happens to an open slot. -/
theorem ClientStep.sameSlot {l : Call} {r : Reply} (hs : ClientStep M c l r c') (hc : c.Sound)
    (hopen : (c.driver.openedFiles h).opened) (hleaves : LeavesOpen h c l)
    (hread : ∀ env n, l ≠ .fatRead env (.slot h) n) : SameSlot h c.driver c'.driver := by
  cases hs with
  | @fatOpen env fuel path d r s hrun =>
    have hop := fatOpen_opening hc.root hrun
    exact ⟨hop.vol, hop.kept h hopen⟩
  | @fatRead env file byteCount d out s hfile hrun =>
    obtain ⟨fd, -, rfl⟩ := fatRead_touches hrun (hc.given _ hfile)
    exact .setFile c.driver fd fun e => hread env byteCount (by rw [e])
  | @fatClose file d s hfile hrun =>
    have hnum := hc.given _ hfile
    rcases file with - | j
    · rw [fatClose_eq_root hnum] at hrun
      cases hrun
      exact ⟨rfl, rfl⟩
    · rw [fatClose_eq_slot hnum] at hrun
      cases hrun
      exact .setFile c.driver _ hleaves

/-- A read of slot `h` does to another driver with the same slot what it does
to this one. -/
theorem fatRead_sameSlot (hM : M.Stateless) {env : Env} {byteCount : UInt32} {d d' d₂ : Driver}
    {out : List UInt8} {s t : σ} (hnum : d.Numbered (.slot h)) (hsame : SameSlot h d d₂)
    (hrun : fatRead M env d (some (.slot h)) byteCount s = .ok ((d', out), t)) (s₂ : σ) :
    ∃ d₂' t₂, fatRead M env d₂ (some (.slot h)) byteCount s₂ = .ok ((d₂', out), t₂) ∧
      SameSlot h d' d₂' := by
  obtain ⟨st, hst, rfl, rfl⟩ := fatRead_ok hnum hrun
  have hfile : d₂.file (.slot h) = d.file (.slot h) := hsame.slot
  have hnum₂ : d₂.Numbered (.slot h) := by
    rw [Driver.Numbered, hfile]
    exact hnum
  obtain ⟨t₂, ht₂⟩ := (readFile_oblivious hM _ _ _).ok hst s₂
  refine ⟨d₂.setFile (.slot h) st.fd, t₂, ?_, ?_, ?_⟩
  · rw [fatRead_eq hnum₂, hsame.vol, hfile, bind_ok ht₂]
    rfl
  · rw [Driver.setFile_vol, Driver.setFile_vol, hsame.vol]
  · rw [Driver.openedFiles_setFile_self, Driver.openedFiles_setFile_self]

theorem readsOn_sameSlot (hM : M.Stateless) {tr : List (Call × Reply)} (hc : c.Sound)
    (hopen : (c.driver.openedFiles h).opened)
    (hrun : Run (Guarded (LeavesOpen h) (ClientStep M)) c tr c') :
    ∀ (d₂ : Driver) (s₂ : σ), SameSlot h c.driver d₂ →
      ∃ d' s', fatReads M (some (.slot h)) ((readsOn h tr).map Prod.fst) d₂ s₂
        = .ok ((d', (readsOn h tr).map Prod.snd), s') := by
  induction hrun with
  | nil c => exact fun d₂ s₂ _ => ⟨d₂, s₂, rfl⟩
  | @cons c c₁ c₂ l r tr hs hrest ih =>
    intro d₂ s₂ hsame
    obtain ⟨hleaves, hs⟩ := hs
    have hc₁ := hc.step hs
    by_cases hl : ∃ env n, l = .fatRead env (.slot h) n
    · -- a read of the slot has the same answer from the other state
      obtain ⟨env, n, rfl⟩ := hl
      cases hs with
      | @fatRead _ _ _ d out s hfile hread =>
        have hnum := hc.given _ hfile
        obtain ⟨d₂', t₂, hread₂, hsame₂⟩ := fatRead_sameSlot hM hnum hsame hread s₂
        have hopen₁ : (d.openedFiles h).opened := by
          obtain ⟨fd, hfd, rfl⟩ := fatRead_touches hread hnum
          rw [Driver.openedFiles_setFile_self, hfd.opened]
          exact hopen
        obtain ⟨d', s', hreads⟩ := ih hc₁ hopen₁ d₂' t₂ hsame₂
        refine ⟨d', s', ?_⟩
        simp only [readsOn, if_pos, List.map_cons, fatReads]
        rw [bind_ok hread₂]
        dsimp only
        rw [bind_ok hreads]
        rfl
    · -- a call that is no read of the slot leaves it alone, and is skipped
      have hframe := hs.sameSlot hc hopen hleaves fun env n e => hl ⟨env, n, e⟩
      have hskip : readsOn h ((l, r) :: tr) = readsOn h tr := by
        cases hs with
        | @fatRead env file n d out s hfile hread =>
          rw [readsOn, if_neg]
          rintro rfl
          exact hl ⟨env, n, rfl⟩
        | fatOpen _ => rfl
        | fatClose _ _ => rfl
      rw [hskip]
      refine ih hc₁ ?_ d₂ s₂ ⟨?_, ?_⟩
      · rw [hframe.slot]
        exact hopen
      · rw [hframe.vol, hsame.vol]
      · rw [hframe.slot, hsame.slot]

end

/-- **Handles do not interfere.** On a disk whose answers do not change, from
any state in which slot `h` is open, whatever else is called in between: the
reads of slot `h` deliver what they deliver when they alone are run. -/
theorem handles_do_not_interfere {M : Machine σ} (hM : M.Stateless) {env : Env}
    {d₀ d : Driver} {s₀ s : σ} (hinit : fatInitialize M env d₀ s₀ = .ok ((d, 0), s))
    {tr₀ tr : List (Call × Reply)} {c c' : Client σ}
    (hreach : Run (ClientStep M) (Client.start d s) tr₀ c) {h : Fin maxFileHandles}
    (hopen : (c.driver.openedFiles h).opened)
    (hrun : Run (Guarded (LeavesOpen h) (ClientStep M)) c tr c') :
    ∃ d' s', fatReads M (some (.slot h)) ((readsOn h tr).map Prod.fst) c.driver c.disk
      = .ok ((d', (readsOn h tr).map Prod.snd), s') :=
  readsOn_sameSlot hM ((Client.sound_of_initialize hinit).run hreach) hopen hrun c.driver c.disk
    ⟨rfl, rfl⟩

/-- A read of the kernel that stands behind an `FAT_Open` of another file,
and the same read without it. -/
theorem handles_do_not_interfere_sample : ∃ d out d' s',
    fatOpen sampleMachine sampleEnv 4 sampleMounted kernelPath ()
      = .ok ((d, some (.slot firstSlot)), ()) ∧
    out.length = 600 ∧
    fatReads sampleMachine (some (.slot firstSlot)) [(sampleEnv, 600)] d ()
      = .ok ((d', [out]), s') := by
  have hsession : passes (fun r _ => r.2 == some (.slot firstSlot) &&
      passes (fun r₁ _ => passes (fun r₂ _ => r₂.2.length == 600)
          (fatRead sampleMachine sampleEnv r₁.1 (some (.slot firstSlot)) 600 ()))
        (fatOpen sampleMachine sampleEnv 17 r.1 smallPath ()))
      (fatOpen sampleMachine sampleEnv 4 sampleMounted kernelPath ()) = true := by decide +kernel
  obtain ⟨⟨d, r⟩, s, hopen, hrest⟩ := of_passes hsession
  obtain ⟨hr, hrest⟩ := (Bool.and_eq_true _ _).mp hrest
  obtain rfl : r = some (.slot firstSlot) := by simpa using hr
  obtain ⟨⟨d₁, r₁⟩, s₁, hopen₁, hrest⟩ := of_passes hrest
  obtain ⟨⟨d₂, out⟩, s₂, hread, hout⟩ := of_passes hrest
  dsimp only at hopen₁ hread
  obtain ⟨c, rfl, hgiven, hstep⟩ : ∃ c : Client Unit, c.driver = d ∧
      .slot firstSlot ∈ c.given ∧ ClientStep sampleMachine (Client.start sampleMounted ())
        (.fatOpen sampleEnv 4 kernelPath) (.file (some (.slot firstSlot))) c :=
    ⟨_, rfl, by simp, .fatOpen hopen⟩
  obtain ⟨c₁, rfl, hgiven₁, hstep₁⟩ : ∃ c₁ : Client Unit, c₁.driver = d₁ ∧
      .slot firstSlot ∈ c₁.given ∧ ClientStep sampleMachine c
        (.fatOpen sampleEnv 17 smallPath) (.file r₁) c₁ :=
    ⟨_, rfl, List.mem_append_right _ hgiven, .fatOpen hopen₁⟩
  have hrun : Run (Guarded (LeavesOpen firstSlot) (ClientStep sampleMachine)) c _ _ :=
    .cons ⟨by exact trivial, hstep₁⟩ (.one ⟨by exact trivial, .fatRead hgiven₁ hread⟩)
  have hkernel := (fatOpen_opening (Client.sound_of_initialize sample_initialize).root hopen).opened
  obtain ⟨d', s', h⟩ := handles_do_not_interfere (fun _ _ _ _ _ => rfl) sample_initialize
    (.one hstep) ((hkernel _).mpr (.inr rfl)) hrun
  exact ⟨c.driver, out, d', s', hopen, by simpa using hout, h⟩

end Netclover.Stage2
