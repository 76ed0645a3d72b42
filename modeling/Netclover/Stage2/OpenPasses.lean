import Netclover.Stage2.Bounds
import Netclover.Stage2.Components

/-!
# The passes of `FAT_Open`

`FAT_Open` carries the file it has opened last from one component to the next.
`openPass` is one pass of its loop, `NullSafe` says that no pass starts from a
NULL file and that the call returns NULL for a component that is not found or
not opened, and `fatOpen_nullSafe_iff` when that is so: it hangs on the
`FAT_OpenEntry` of the components that are not the last, and on the searches,
which have to return.
-/

namespace Netclover.Stage2

open Proc Libc

variable {σ : Type} {M : Machine σ} {env : Env} {fuel : Nat}

/-! ## One pass -/

/-- The local variables of `FAT_Open`, with the driver. -/
structure OpenState where
  name : Block 256
  driver : Driver
  current : Option FilePtr
  path : List UInt8

/-- The length of the next component. -/
def OpenState.len (st : OpenState) : Nat := (strchr st.path 0x2F).getD st.path.length

/-- One pass of the loop, and whether it goes on (a `return` is `false`). -/
def openPass (M : Machine σ) (env : Env) (fuel : Nat) (st : OpenState) :
    Proc σ Stop (OpenState × Bool) :=
  if st.path = [] then pure (st, false)
  else
    match copyName st.name st.path st.len with
    | none => Proc.halt .outOfBounds
    | some name => do
      let (d, entry) ← fatFindFile M env fuel st.driver st.current (cstring name)
      let d ← fatClose d st.current
      match entry with
      | none => return (⟨name, d, none, st.path.drop (st.len + 1)⟩, false)
      | some entry =>
        if (strchr st.path 0x2F).isSome && !entry.isDirectory then
          return (⟨name, d, none, st.path.drop (st.len + 1)⟩, false)
        else do
          let (d, current) ← fatOpenEntry M d entry
          return (⟨name, d, current, st.path.drop (st.len + 1)⟩, true)

/-- Where more of the path follows the component, there is a slash. -/
theorem OpenState.isSome_of_rest {st : OpenState} (h : st.path.drop (st.len + 1) ≠ []) :
    (strchr st.path 0x2F).isSome := by
  cases hdelim : strchr st.path 0x2F with
  | some i => rfl
  | none =>
    rw [OpenState.len, hdelim, Option.getD_none, List.drop_of_length_le (by omega)] at h
    exact (h rfl).elim

/-- `FAT_Open` before its first pass. -/
def OpenState.start (env : Env) (d : Driver) (path : List UInt8) : OpenState :=
  ⟨env.stack, d, some .root, relative path⟩

/-- The loop is made of these passes. -/
theorem openLoop_succ (n : Nat) (st : OpenState) :
    openLoop M env fuel (n + 1) st.name st.driver st.current st.path
      = openPass M env fuel st >>= fun r =>
        if r.2 then openLoop M env fuel n r.1.name r.1.driver r.1.current r.1.path
        else pure (r.1.driver, r.1.current) := by
  obtain ⟨name, d, current, path⟩ := st
  rw [openLoop, openPass]
  by_cases hpath : path = []
  · rw [if_pos hpath, if_pos hpath]
    rfl
  · rw [if_neg hpath, if_neg hpath]
    dsimp only [OpenState.len]
    cases copyName name path ((strchr path 0x2F).getD path.length) with
    | none => rfl
    | some name =>
      dsimp only
      rw [bind_assoc]
      congr 1
      funext r
      rw [bind_assoc]
      congr 1
      funext d
      obtain ⟨d₁, entry⟩ := r
      cases entry with
      | none => rfl
      | some entry =>
        dsimp only
        split
        · rfl
        · rw [bind_assoc]
          rfl

theorem openPass_more {st st' : OpenState} {t u : σ}
    (h : openPass M env fuel st t = .ok ((st', true), u)) : st.path ≠ [] := by
  intro hpath
  rw [openPass, if_pos hpath] at h
  cases h

/-- What a pass did that returned: it looked a name up in the current file and
closed that, and then it gave up or opened what it had found. -/
theorem openPass_ok {st st' : OpenState} {more : Bool} {t u : σ} (hpath : st.path ≠ [])
    (h : openPass M env fuel st t = .ok ((st', more), u)) :
    ∃ name d₁ entry t₁ d₂ t₂, copyName st.name st.path st.len = some name ∧
      fatFindFile M env fuel st.driver st.current (cstring name) t = .ok ((d₁, entry), t₁) ∧
      fatClose d₁ st.current t₁ = .ok (d₂, t₂) ∧
      st'.path = st.path.drop (st.len + 1) ∧
      ((more = false ∧ st'.current = none) ∨
        ∃ e, entry = some e ∧ more = true ∧
          ((strchr st.path 0x2F).isSome → e.isDirectory = true) ∧
          fatOpenEntry M d₂ e t₂ = .ok ((st'.driver, st'.current), u)) := by
  rw [openPass, if_neg hpath] at h
  cases hname : copyName st.name st.path st.len with
  | none =>
    rw [hname] at h
    cases h
  | some name =>
    rw [hname] at h
    obtain ⟨⟨d₁, entry⟩, t₁, hfind, h⟩ := of_bind_ok h
    obtain ⟨d₂, t₂, hclose, h⟩ := of_bind_ok h
    refine ⟨name, d₁, entry, t₁, d₂, t₂, rfl, hfind, hclose, ?_⟩
    cases entry with
    | none =>
      cases h
      exact ⟨rfl, .inl ⟨rfl, rfl⟩⟩
    | some e =>
      dsimp only at h
      split at h
      · cases h
        exact ⟨rfl, .inl ⟨rfl, rfl⟩⟩
      · rename_i hdir
        obtain ⟨⟨d₃, current⟩, t₃, hopen, h⟩ := of_bind_ok h
        cases h
        refine ⟨rfl, .inr ⟨e, rfl, rfl, fun hdelim => ?_, hopen⟩⟩
        simpa [hdelim] using hdir

/-! ## More passes for the searches -/

theorem fatFindFile_le {d : Driver} {file : Option FilePtr} {name : List UInt8} {s : σ}
    {r : (Driver × Option DirectoryEntry) × σ} {fuel' : Nat}
    (h : fatFindFile M env fuel d file name s = .ok r) (hle : fuel ≤ fuel') :
    fatFindFile M env fuel' d file name s = .ok r := iterate_le h hle

/-- A pass that returned returns the same with more of them. -/
theorem openPass_le {st : OpenState} {t : σ} {r : (OpenState × Bool) × σ} {fuel' : Nat}
    (h : openPass M env fuel st t = .ok r) (hle : fuel ≤ fuel') :
    openPass M env fuel' st t = .ok r := by
  rw [openPass] at h ⊢
  by_cases hpath : st.path = []
  · rw [if_pos hpath] at h ⊢
    exact h
  · rw [if_neg hpath] at h ⊢
    cases hname : copyName st.name st.path st.len with
    | none =>
      rw [hname] at h
      cases h
    | some name =>
      rw [hname] at h
      obtain ⟨found, t₁, hfind, hrest⟩ := of_bind_ok h
      exact (bind_ok (fatFindFile_le hfind hle)).trans hrest

theorem openLoop_le {n fuel' : Nat} {st : OpenState} {t : σ} {r : (Driver × Option FilePtr) × σ}
    (h : openLoop M env fuel n st.name st.driver st.current st.path t = .ok r)
    (hle : fuel ≤ fuel') :
    openLoop M env fuel' n st.name st.driver st.current st.path t = .ok r := by
  induction n generalizing st t with
  | zero => exact h
  | succ n ih =>
    rw [openLoop_succ] at h ⊢
    obtain ⟨⟨st', more⟩, t', hpass, hrest⟩ := of_bind_ok h
    rw [bind_ok (openPass_le hpass hle)]
    cases more with
    | true => exact ih hrest
    | false => exact hrest

theorem fatOpen_le {d : Driver} {path : List UInt8} {s : σ} {r : (Driver × Option FilePtr) × σ}
    {fuel' : Nat} (h : fatOpen M env fuel d path s = .ok r) (hle : fuel ≤ fuel') :
    fatOpen M env fuel' d path s = .ok r :=
  @openLoop_le _ M env fuel _ fuel' (.start env d path) s r h hle

/-! ## `FAT_OpenEntry` fails for want of a slot or of a sector -/

/-- There is a free slot, and the first sector of the entry can be read. -/
def Openable (M : Machine σ) (d : Driver) (entry : DirectoryEntry) (s : σ) : Prop :=
  ∃ i, freeHandle d = some i ∧ (M.readSectors (fatClusterToLba d.vol entry.firstCluster) 1
    (d.openedFiles i).buffer s).1.1 = 0

theorem fatOpenEntry_openable (d : Driver) (entry : DirectoryEntry) (s : σ) :
    ∃ d' r t, fatOpenEntry M d entry s = .ok ((d', r), t) ∧ (r ≠ none ↔ Openable M d entry s) := by
  unfold fatOpenEntry Openable
  cases hi : freeHandle d with
  | none => exact ⟨d, none, s, rfl, by simp⟩
  | some i =>
    generalize hr : M.readSectors _ 1 (d.openedFiles i).buffer s = r
    obtain ⟨⟨status, buffer⟩, t⟩ := r
    have hread : M.diskReadSectors (fatClusterToLba d.vol entry.firstCluster) 1
        (d.openedFiles i).buffer s = .ok ((status, buffer), t) := by
      rw [← hr]
      rfl
    dsimp only
    rw [bind_ok hread]
    dsimp only
    by_cases hstatus : status = 0
    · rw [if_neg (by simp [hstatus])]
      refine ⟨_, _, t, rfl, ?_⟩
      simp [hr, hstatus]
    · rw [if_pos hstatus]
      refine ⟨_, _, t, rfl, ?_⟩
      simp [hr, hstatus]

/-! ## `FAT_Close` behind a search -/

/-- No call changes the number of a file. -/
theorem findPass_handle {file : Option FilePtr} {key : List UInt8} {d d' : Driver}
    {entry entry' : Option DirectoryEntry} {more : Bool} {s t : σ}
    (h : findPass M env file key (d, entry) s = .ok (((d', entry'), more), t)) (p : FilePtr) :
    (d'.file p).pub.handle = (d.file p).pub.handle ∧
      ∃ q, file = some q ∧ handleFile (d.file q).pub.handle ≠ none := by
  obtain ⟨⟨d₁, found⟩, s₁, hentry, hrest⟩ := of_bind_ok h
  have hd' : d' = d₁ := by
    cases found with
    | none =>
      cases hrest
      rfl
    | some e =>
      dsimp only at hrest
      split at hrest
      · cases hrest
        rfl
      · cases hrest
        rfl
  obtain ⟨⟨d₂, out⟩, s₂, hread, hpure⟩ := of_bind_ok hentry
  cases hpure
  rw [hd']
  cases file with
  | none => cases hread
  | some q =>
    rw [fatRead] at hread
    cases hq : handleFile (d.file q).pub.handle with
    | none =>
      rw [hq] at hread
      cases hread
    | some q' =>
      rw [hq] at hread
      obtain ⟨st, s₃, hst, hset⟩ := of_bind_ok hread
      cases hset
      refine ⟨?_, q, rfl, by rw [hq]; exact Option.some_ne_none _⟩
      by_cases hp : p = q'
      · subst hp
        rw [Driver.file_setFile_self]
        exact (readFile_same hst).handle
      · rw [Driver.file_setFile_ne _ _ hp]

theorem fatFindFile_handle {p : FilePtr} {name : List UInt8} {d d' : Driver}
    {entry : Option DirectoryEntry} {s t : σ}
    (h : fatFindFile M env fuel d (some p) name s = .ok ((d', entry), t)) :
    handleFile (d'.file p).pub.handle ≠ none := by
  have hstep : ∀ (a b : Driver × Option DirectoryEntry) (more : Bool) (s t : σ),
      findPass M env (some p) (fatName name) a s = .ok ((b, more), t) →
      handleFile (b.1.file p).pub.handle ≠ none := by
    intro a b more s t hpass
    obtain ⟨hkept, q, hq, hne⟩ := findPass_handle hpass p
    cases hq
    rw [hkept]
    exact hne
  exact iterate_ok (I := fun _ => True) (Q := fun r => handleFile (r.1.file p).pub.handle ≠ none)
    (fun _ _ _ _ _ _ => trivial) (fun a b s t _ hpass => hstep a b false s t hpass) trivial h

/-- What has been searched can be closed. -/
theorem fatClose_returns {p : FilePtr} {name : List UInt8} {d d' : Driver}
    {entry : Option DirectoryEntry} {s t : σ}
    (h : fatFindFile M env fuel d (some p) name s = .ok ((d', entry), t)) :
    ∃ d'', fatClose d' (some p) t = .ok (d'', t) := by
  have hne := fatFindFile_handle h
  rw [fatClose]
  dsimp only
  cases hq : handleFile (d'.file p).pub.handle with
  | none => exact absurd hq hne
  | some q =>
    cases q with
    | root => exact ⟨_, rfl⟩
    | slot i => exact ⟨_, rfl⟩

/-- A pass whose search returns does so itself, whatever comes of it. -/
theorem openPass_returns {st : OpenState} {p : FilePtr} {name : Block 256} {d₁ : Driver}
    {entry : Option DirectoryEntry} {t t₁ : σ} (hpath : st.path ≠ [])
    (hcurrent : st.current = some p) (hname : copyName st.name st.path st.len = some name)
    (hfind : fatFindFile M env fuel st.driver st.current (cstring name) t = .ok ((d₁, entry), t₁)) :
    ∃ st' more u, openPass M env fuel st t = .ok ((st', more), u) := by
  have hsearch := hfind
  rw [hcurrent] at hsearch
  obtain ⟨d₂, hclose⟩ := fatClose_returns hsearch
  rw [← hcurrent] at hclose
  rw [openPass, if_neg hpath, hname]
  dsimp only
  rw [bind_ok hfind]
  dsimp only
  rw [bind_ok hclose]
  cases entry with
  | none => exact ⟨_, _, _, rfl⟩
  | some e =>
    dsimp only
    split
    · exact ⟨_, _, _, rfl⟩
    · obtain ⟨d₃, r, u, hopen, -⟩ := fatOpenEntry_openable (M := M) d₂ e t₁
      rw [bind_ok hopen]
      exact ⟨_, _, _, rfl⟩

/-! ## Runs -/

/-- A call of `FAT_Open` comes to a pass on `st`. -/
abbrev Passes (M : Machine σ) (env : Env) (fuel : Nat) (d : Driver) (path : List UInt8) (s : σ) :
    OpenState → σ → Prop := Visits (openPass M env fuel) (.start env d path) s

/-- From any of its passes on, a call does what the loop does from there. -/
theorem Passes.fatOpen_eq {d : Driver} {path : List UInt8} {s t : σ} {st : OpenState}
    (h : Passes M env fuel d path s st t) : ∃ n, st.path.length ≤ n ∧
      fatOpen M env fuel d path s = openLoop M env fuel n st.name st.driver st.current st.path t := by
  induction h with
  | start => exact ⟨(relative path).length, Nat.le_refl _, rfl⟩
  | @pass st st' t u _ hpass ih =>
    obtain ⟨n, hn, hopen⟩ := ih
    have hpath := openPass_more hpass
    have hpos := List.length_pos_iff.mpr hpath
    obtain ⟨n, rfl⟩ := Nat.exists_eq_add_of_le' (Nat.le_trans hpos hn)
    obtain ⟨name, d₁, entry, t₁, d₂, t₂, -, -, -, hrest, -⟩ := openPass_ok hpath hpass
    refine ⟨n, ?_, ?_⟩
    · rw [hrest]
      rw [List.length_drop]
      omega
    · rw [hopen, openLoop_succ, bind_ok hpass]
      rfl

/-- A pass that leaves no file, with no path left either, ends the call. -/
theorem Passes.returns_null {d : Driver} {path : List UInt8} {s t u : σ} {st st' : OpenState}
    {more : Bool} (h : Passes M env fuel d path s st t) (hpath : st.path ≠ [])
    (hpass : openPass M env fuel st t = .ok ((st', more), u)) (hnone : st'.current = none)
    (hend : more = true → st'.path = []) :
    fatOpen M env fuel d path s = .ok ((st'.driver, none), u) := by
  obtain ⟨n, hn, hopen⟩ := h.fatOpen_eq
  have hpos := List.length_pos_iff.mpr hpath
  obtain ⟨n, rfl⟩ := Nat.exists_eq_add_of_le' (Nat.le_trans hpos hn)
  rw [hopen, openLoop_succ, bind_ok hpass, ← hnone]
  cases more with
  | true =>
    dsimp only
    rw [if_pos rfl, hend rfl, openLoop_nil]
    rfl
  | false => rfl

/-- A call that returned has returned from each of its passes. -/
theorem Passes.pass_ok {d : Driver} {path : List UInt8} {s t u : σ} {st : OpenState}
    {r : Driver × Option FilePtr} (h : Passes M env fuel d path s st t) (hpath : st.path ≠ [])
    (hopen : fatOpen M env fuel d path s = .ok (r, u)) :
    ∃ st' more t', openPass M env fuel st t = .ok ((st', more), t') := by
  obtain ⟨n, hn, heq⟩ := h.fatOpen_eq
  have hpos := List.length_pos_iff.mpr hpath
  obtain ⟨n, rfl⟩ := Nat.exists_eq_add_of_le' (Nat.le_trans hpos hn)
  rw [heq, openLoop_succ] at hopen
  obtain ⟨⟨st', more⟩, t', hpass, -⟩ := of_bind_ok hopen
  exact ⟨st', more, t', hpass⟩

theorem Passes.le {d : Driver} {path : List UInt8} {s t : σ} {st : OpenState} {fuel' : Nat}
    (h : Passes M env fuel d path s st t) (hle : fuel ≤ fuel') :
    Passes M env fuel' d path s st t := h.mono fun _ _ _ hpass => openPass_le hpass hle

/-! ## However many passes the searches take -/

/-- A call of `FAT_Open` comes to a pass on `st`. -/
def ComesTo (M : Machine σ) (env : Env) (d : Driver) (path : List UInt8) (s : σ) (st : OpenState)
    (t : σ) : Prop := ∃ fuel, Passes M env fuel d path s st t

/-- The pass finds its component and opens it. -/
def Opens (M : Machine σ) (env : Env) (st : OpenState) (t : σ) : Prop :=
  ∃ fuel st' u, openPass M env fuel st t = .ok ((st', true), u) ∧ st'.current ≠ none

/-- No pass looks up a name in, or closes, a NULL file; and if a pass does not
find its component or does not open it, for whatever reason, the call returns
NULL. -/
structure NullSafe (M : Machine σ) (env : Env) (d : Driver) (path : List UInt8) (s : σ) : Prop where
  calls : ∀ st t, ComesTo M env d path s st t → st.path ≠ [] → st.current ≠ none
  fails : ∀ st t, ComesTo M env d path s st t → st.path ≠ [] → ¬ Opens M env st t →
    ∃ fuel d' u, fatOpen M env fuel d path s = .ok ((d', none), u)

/-- When a directory has been found and more of the path follows it, there is
a free slot for it, and its first sector can be read. -/
def DirectoriesOpen (M : Machine σ) (env : Env) (d : Driver) (path : List UInt8) (s : σ) : Prop :=
  ∀ st t, ComesTo M env d path s st t →
    (strchr st.path 0x2F).isSome → st.path.drop (st.len + 1) ≠ [] →
    ∀ fuel name d₁ entry t₁ d₂ t₂, copyName st.name st.path st.len = some name →
      fatFindFile M env fuel st.driver st.current (cstring name) t = .ok ((d₁, some entry), t₁) →
      fatClose d₁ st.current t₁ = .ok (d₂, t₂) → entry.isDirectory = true → Openable M d₂ entry t₂

/-- The components fit into the buffer, the searches for them return, and the
directories among them can be opened where more follows. -/
structure Passable (M : Machine σ) (env : Env) (d : Driver) (path : List UInt8) (s : σ) :
    Prop where
  fits : ∀ st t, ComesTo M env d path s st t → st.path ≠ [] → st.len + 1 < 256
  searches : ∀ st t p name, ComesTo M env d path s st t → st.path ≠ [] → st.current = some p →
    copyName st.name st.path st.len = some name →
    ∃ fuel r u, fatFindFile M env fuel st.driver (some p) (cstring name) t = .ok (r, u)
  directories : DirectoriesOpen M env d path s

theorem ComesTo.pass {d : Driver} {path : List UInt8} {s t u : σ} {st st' : OpenState}
    (h : ComesTo M env d path s st t) (hpass : openPass M env fuel st t = .ok ((st', true), u)) :
    ComesTo M env d path s st' u := by
  obtain ⟨fuel', hpasses⟩ := h
  exact ⟨max fuel fuel', .pass (hpasses.le (Nat.le_max_right ..))
    (openPass_le hpass (Nat.le_max_left ..))⟩

/-- What a pass of a call that returned did, with passes enough for both. -/
theorem ComesTo.pass_ok {d : Driver} {path : List UInt8} {s t u : σ} {st : OpenState}
    {r : Driver × Option FilePtr} (h : ComesTo M env d path s st t) (hpath : st.path ≠ [])
    (hopen : fatOpen M env fuel d path s = .ok (r, u)) :
    ∃ fuel' st' more t', openPass M env fuel' st t = .ok ((st', more), t') := by
  obtain ⟨fuel', hpasses⟩ := h
  exact ⟨max fuel fuel', (hpasses.le (Nat.le_max_right ..)).pass_ok hpath
    (fatOpen_le hopen (Nat.le_max_left ..))⟩

/-- A component is copied exactly if it leaves room for what comes behind it. -/
theorem copyName_isSome_iff (name : Block 256) {path : List UInt8} {len : Nat}
    (hlen : len ≤ path.length) : copyName name path len ≠ none ↔ len + 1 < 256 := by
  have hlength : len + 1 < 256 →
      ((path.take len ++ name.bytes.drop len).set (len + 1) 0).length = 256 := by
    intro hfit
    simp only [List.length_set, List.length_append, List.length_take, List.length_drop,
      Block.length_bytes]
    omega
  simp only [copyName]
  split
  · rename_i hfit
    exact iff_of_true (Option.some_ne_none _) hfit.2
  · rename_i hfit
    exact iff_of_false (fun h => h rfl) fun hlt => hfit ⟨hlength hlt, hlt⟩

theorem OpenState.len_le (st : OpenState) : st.len ≤ st.path.length := by
  rw [OpenState.len]
  cases hdelim : strchr st.path 0x2F with
  | none => exact Nat.le_refl _
  | some i =>
    rw [strchr] at hdelim
    exact Nat.le_of_lt (List.findIdx?_eq_some_iff_findIdx_eq.mp hdelim).1

/-- A pass that finds a directory opens it, or stands on a NULL file. -/
theorem openPass_directory {st : OpenState} {name : Block 256} {entry : DirectoryEntry}
    {d₁ d₂ d₃ : Driver} {r : Option FilePtr} {t t₁ t₂ u : σ} (hpath : st.path ≠ [])
    (hname : copyName st.name st.path st.len = some name)
    (hfind : fatFindFile M env fuel st.driver st.current (cstring name) t
      = .ok ((d₁, some entry), t₁))
    (hclose : fatClose d₁ st.current t₁ = .ok (d₂, t₂)) (hdir : entry.isDirectory = true)
    (hopen : fatOpenEntry M d₂ entry t₂ = .ok ((d₃, r), u)) :
    openPass M env fuel st t = .ok ((⟨name, d₃, r, st.path.drop (st.len + 1)⟩, true), u) := by
  rw [openPass, if_neg hpath, hname]
  dsimp only
  rw [bind_ok hfind]
  dsimp only
  rw [bind_ok hclose, if_neg (by simp [hdir]), bind_ok hopen]
  rfl

/-- Each pass of a safe call returns: it opens its component, or the call returns
NULL. -/
theorem NullSafe.pass_ok {d : Driver} {path : List UInt8} {s t : σ} {st : OpenState}
    (h : NullSafe M env d path s) (hcomes : ComesTo M env d path s st t) (hpath : st.path ≠ []) :
    ∃ fuel st' more u, openPass M env fuel st t = .ok ((st', more), u) := by
  by_cases hopens : Opens M env st t
  · obtain ⟨fuel, st', u, hpass, -⟩ := hopens
    exact ⟨fuel, st', true, u, hpass⟩
  · obtain ⟨fuel, d', u, hopen⟩ := h.fails st t hcomes hpath hopens
    exact hcomes.pass_ok hpath hopen

theorem NullSafe.directoriesOpen {d : Driver} {path : List UInt8} {s : σ}
    (h : NullSafe M env d path s) : DirectoriesOpen M env d path s := by
  intro st t hcomes hdelim hrest fuel name d₁ entry t₁ d₂ t₂ hname hfind hclose hdir
  have hpath : st.path ≠ [] := by
    intro hpath
    rw [hpath, List.drop_nil] at hrest
    exact hrest rfl
  obtain ⟨d₃, r, u, hopen, hr⟩ := fatOpenEntry_openable (M := M) d₂ entry t₂
  have hpass := openPass_directory hpath hname hfind hclose hdir hopen
  exact hr.mp (h.calls _ u (hcomes.pass hpass) hrest)

theorem NullSafe.passable {d : Driver} {path : List UInt8} {s : σ}
    (h : NullSafe M env d path s) : Passable M env d path s where
  fits st t hcomes hpath := by
    obtain ⟨fuel, st', more, u, hpass⟩ := h.pass_ok hcomes hpath
    obtain ⟨name, d₁, entry, t₁, d₂, t₂, hname, -⟩ := openPass_ok hpath hpass
    refine (copyName_isSome_iff st.name st.len_le).mp ?_
    rw [hname]
    exact Option.some_ne_none _
  searches st t p name hcomes hpath hcurrent hname := by
    obtain ⟨fuel, st', more, u, hpass⟩ := h.pass_ok hcomes hpath
    obtain ⟨name', d₁, entry, t₁, d₂, t₂, hname', hfind, -⟩ := openPass_ok hpath hpass
    cases hname.symm.trans hname'
    rw [hcurrent] at hfind
    exact ⟨fuel, (d₁, entry), t₁, hfind⟩
  directories := h.directoriesOpen

/-- Where every directory on the way can be opened, no pass starts from a NULL
file: the first has the root directory, the others what was opened before. -/
theorem DirectoriesOpen.calls {d : Driver} {path : List UInt8} {s t : σ} {st : OpenState}
    (h : DirectoriesOpen M env d path s) (hcomes : ComesTo M env d path s st t)
    (hrest : st.path ≠ []) : st.current ≠ none := by
  obtain ⟨fuel, hvisit⟩ := hcomes
  cases hvisit with
  | start =>
    intro hnone
    cases hnone
  | @pass st₀ _ t₀ _ hvisit hpass =>
    have hpath := openPass_more hpass
    obtain ⟨name, d₁, entry, t₁, d₂, t₂, hname, hfind, hclose, hst, hend⟩ :=
      openPass_ok hpath hpass
    rcases hend with ⟨hmore, -⟩ | ⟨e, rfl, -, hdir, hopen⟩
    · cases hmore
    · rw [hst] at hrest
      have hdelim := OpenState.isSome_of_rest hrest
      have hopenable := h st₀ t₀ ⟨fuel, hvisit⟩ hdelim hrest fuel name d₁ e t₁ d₂ t₂ hname hfind
        hclose (hdir hdelim)
      obtain ⟨d₃, r, u, hopen', hr⟩ := fatOpenEntry_openable (M := M) d₂ e t₂
      rw [hopen] at hopen'
      cases hopen'
      exact hr.mpr hopenable

/-- Every pass returns there. -/
theorem Passable.pass_ok {d : Driver} {path : List UInt8} {s t : σ} {st : OpenState}
    (h : Passable M env d path s) (hcomes : ComesTo M env d path s st t) (hpath : st.path ≠ []) :
    ∃ fuel st' more u, openPass M env fuel st t = .ok ((st', more), u) := by
  obtain ⟨p, hp⟩ := Option.ne_none_iff_exists'.mp (h.directories.calls hcomes hpath)
  obtain ⟨name, hname⟩ := Option.ne_none_iff_exists'.mp
    ((copyName_isSome_iff st.name st.len_le).mpr (h.fits st t hcomes hpath))
  obtain ⟨fuel, ⟨d₁, entry⟩, u, hfind⟩ := h.searches st t p name hcomes hpath hp hname
  rw [← hp] at hfind
  exact ⟨fuel, openPass_returns hpath hp hname hfind⟩

/-- **NULL files in `FAT_Open`**: for any path, directory tree, handle table
and disk, the call is safe if the components fit into the buffer, the searches
return and every directory on the way can be opened, and in no other case. -/
theorem fatOpen_nullSafe_iff (M : Machine σ) (env : Env) (d : Driver) (path : List UInt8) (s : σ) :
    NullSafe M env d path s ↔ Passable M env d path s := by
  constructor
  · intro hsafe
    exact hsafe.passable
  · intro hway
    refine ⟨fun _ _ hcomes hrest => hway.directories.calls hcomes hrest,
      fun st t hcomes hpath hfails => ?_⟩
    obtain ⟨fuel, st', more, u, hpass⟩ := hway.pass_ok hcomes hpath
    have hnone : st'.current = none := by
      cases more with
      | true =>
        by_contra hsome
        exact hfails ⟨fuel, st', u, hpass, hsome⟩
      | false =>
        obtain ⟨_, _, _, _, _, _, -, -, -, -, hend⟩ := openPass_ok hpath hpass
        rcases hend with ⟨-, hnone⟩ | ⟨-, -, hmore, -⟩
        · exact hnone
        · cases hmore
    obtain ⟨fuel', hpasses⟩ := hcomes
    refine ⟨max fuel fuel', st'.driver, u, (hpasses.le (Nat.le_max_right ..)).returns_null hpath
      (openPass_le hpass (Nat.le_max_left ..)) hnone fun hmore => ?_⟩
    -- a pass on a NULL file would follow if any of the path were left
    subst hmore
    by_contra hrest
    exact hway.directories.calls (ComesTo.pass ⟨fuel', hpasses⟩ hpass) hrest hnone

/-- The small volume with all ten slots in use. -/
def sampleFull : Driver :=
  { sampleDriver.mount sampleTree with
    openedFiles := fun i => { sampleDriver.openedFiles i with opened := true } }

/-- **The defect.** `d/a` finds the directory and no slot for it, and goes on
to look for `a` in a NULL file. -/
theorem fatOpen_searches_null :
    ¬ NullSafe (imageMachine sampleTree loadingBar) sampleEnv sampleFull [0x64, 0x2F, 0x61] () := by
  have hrun : passes (fun r _ => r.2 && r.1.path != [] && r.1.current == none)
      (openPass (imageMachine sampleTree loadingBar) sampleEnv 20
        (.start sampleEnv sampleFull [0x64, 0x2F, 0x61]) ()) = true := by decide +kernel
  obtain ⟨⟨st, more⟩, s, hpass, htest⟩ := of_passes hrun
  simp only [Bool.and_eq_true, bne_iff_ne, beq_iff_eq] at htest
  obtain ⟨⟨hmore, hpath⟩, hnone⟩ := htest
  subst hmore
  intro hsafe
  exact hsafe.calls st s ⟨20, .pass .start hpass⟩ hpath hnone

end Netclover.Stage2
