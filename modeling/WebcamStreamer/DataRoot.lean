import Mathlib.Data.List.Infix

/-!
# Where the host and the supervisor look for their files

The user interface and the supervisor read the same `settings.json` only if they
agree on the directory it lies in, and nothing tells one what the other has
found. The user interface looks upwards from its own directory for
`supervisor.exe`, either in the place the build puts it or right there, and
takes the directory three levels above the one that holds it. The supervisor
looks upwards from its own directory for the one with MediaMTX.

Both walks give up after eight directories, and both stop at the root of the
volume: there the user interface falls back to its own directory, and the
supervisor stays.
-/

namespace WebcamStreamer

/-! ## Directories

A directory is the list of the names on the way up to its root, so that a
parent is a tail and a walk upwards is a recursion on the list. What there is
on the volume is a function, about which nothing is assumed except in the
layouts. -/

/-- A directory of a volume: the names on the way up to the root, its own
first. -/
abbrev Dir := List String

/-- What a name in a directory can be. -/
inductive DirEntry where
  | file
  | directory
  deriving DecidableEq

/-- A file or directory by its place. -/
structure Location where
  dir : Dir
  name : String
  deriving DecidableEq

/-- What there is on the volume. -/
abbrev DirTree := Location → Option DirEntry

/-- `File.Exists`. -/
def DirTree.isFile (tree : DirTree) (loc : Location) : Bool :=
  tree loc == some .file

/-- `fs::exists`. -/
def DirTree.has (tree : DirTree) (loc : Location) : Bool := (tree loc).isSome

/-! ## The user interface

The user interface looks for an executable in its own directory and in those
above it, in each of them first where a build puts it and then in the
directory itself. Its data root lies three levels above the executable it
finds, and is its own directory where there are no three levels. -/

/-- `DirectoryInfo.Parent`: the root has none. -/
def parent? : Dir → Option Dir
  | [] => none
  | _ :: up => some up

/-- The directory the build puts `supervisor.exe` into, under a project
root. -/
def releaseDir (root : Dir) : Dir :=
  "Release" :: "build" :: "supervisor" :: root

/-- The loop of `LocateSupervisorExe`, with the passes left. -/
def locateFrom (tree : DirTree) : ℕ → Option Dir → Option Location
  | 0, _ => none
  | _ + 1, none => none
  | passes + 1, some dir =>
    if tree.isFile ⟨releaseDir dir, "supervisor.exe"⟩ then
      some ⟨releaseDir dir, "supervisor.exe"⟩
    else if tree.isFile ⟨dir, "supervisor.exe"⟩ then
      some ⟨dir, "supervisor.exe"⟩
    else locateFrom tree passes (parent? dir)

/-- `SupervisorLauncher.LocateSupervisorExe`, from the directory of the user
interface. -/
def locateSupervisorExe (tree : DirTree) (baseDirectory : Dir) :
    Option Location :=
  locateFrom tree 8 (some baseDirectory)

/-- `HostSettings.DataRoot`. -/
def hostDataRoot (tree : DirTree) (baseDirectory : Dir) : Dir :=
  match locateSupervisorExe tree baseDirectory with
  | none => baseDirectory
  | some exe =>
    (((parent? exe.dir).bind parent?).bind parent?).getD baseDirectory

/-! ## The supervisor

The supervisor looks for the directory that has MediaMTX in it, starting from
where its own executable is. It takes the first one on the way up, or where it
has come to at the root or after eight passes. -/

/-- The directory has the runtime MediaMTX. -/
def hasMediaMtx (tree : DirTree) (dir : Dir) : Bool :=
  tree.has ⟨"mediamtx" :: "third_party" :: dir, "mediamtx.exe"⟩

/-- `fs::path::parent_path` of an absolute path: the root is its own parent. -/
def parentPath (dir : Dir) : Dir := dir.tail

/-- The loop of `FindProjectRoot`, with the passes left. -/
def findFrom (tree : DirTree) : ℕ → Dir → Dir
  | 0, p => p
  | passes + 1, p =>
    if hasMediaMtx tree p then p
    else if parentPath p = p then p
    else findFrom tree passes (parentPath p)

/-- `FindProjectRoot` of the supervisor at `exe`; `rootVariable` is the
environment variable `SUPERVISOR_ROOT`. -/
def findProjectRoot (rootVariable : Option Dir) (tree : DirTree)
    (exe : Location) : Dir :=
  match rootVariable with
  | some root => root
  | none => findFrom tree 8 exe.dir

/-- **Host and supervisor agree**: the user interface finds a supervisor, and
its data root is the project root of that one. The two are found by different
walks, the one from the directory of the host, the other from that of the
executable the host has found. -/
def Agree (tree : DirTree) (baseDirectory : Dir) : Prop :=
  ∃ exe, locateSupervisorExe tree baseDirectory = some exe ∧
    hostDataRoot tree baseDirectory = findProjectRoot none tree exe

/-! ## The two layouts

The two layouts are what the installer leaves and what a build from the
sources leaves. Each says what is there and leaves open what else may be
there, since a second supervisor or a second MediaMTX on the way is exactly
what can go wrong. -/

/-- `{app}` as the installer leaves it, whatever else is there. -/
structure Deployed (tree : DirTree) (app : Dir) : Prop where
  supervisor : tree.isFile ⟨app, "supervisor.exe"⟩ = true
  mediaMtx :
    tree.isFile ⟨"mediamtx" :: "third_party" :: app, "mediamtx.exe"⟩ = true

/-- A project root with a build of the supervisor, whatever else is there. -/
structure Development (tree : DirTree) (root : Dir) : Prop where
  supervisor : tree.isFile ⟨releaseDir root, "supervisor.exe"⟩ = true
  mediaMtx :
    tree.isFile ⟨"mediamtx" :: "third_party" :: root, "mediamtx.exe"⟩ = true

/-! ## The walk of the supervisor

The walk is described by where it ends. It ends where it starts if MediaMTX is
there, and otherwise it goes on as if it had started in the parent, with one
pass less. -/

section Walk

variable {tree : DirTree}

theorem findFrom_suffix (passes : ℕ) (p : Dir) :
    findFrom tree passes p <:+ p := by
  induction passes generalizing p with
  | zero => exact List.suffix_rfl
  | succ passes ih =>
    rw [findFrom]
    split
    next => exact List.suffix_rfl
    next =>
      split
      next => exact List.suffix_rfl
      next => exact (ih (parentPath p)).trans (List.tail_suffix p)

/-- The walk passes by a directory without MediaMTX. -/
theorem findFrom_cons_of_not {name : String} {up : Dir}
    (h : hasMediaMtx tree (name :: up) = false) (passes : ℕ) :
    findFrom tree (passes + 1) (name :: up) = findFrom tree passes up := by
  have hne : ¬ parentPath (name :: up) = name :: up :=
    fun heq => List.cons_ne_self name up heq.symm
  rw [findFrom, if_neg (by simp [h]), if_neg hne]
  rfl

/-- The walk ends where it starts if MediaMTX is there, and at the root. -/
theorem findFrom_eq_self_iff (passes : ℕ) (p : Dir) :
    findFrom tree (passes + 1) p = p ↔ hasMediaMtx tree p = true ∨ p = [] := by
  cases hm : hasMediaMtx tree p with
  | true => simp [findFrom, hm]
  | false =>
    cases p with
    | nil => simp [findFrom, hm, parentPath]
    | cons name up =>
      rw [findFrom_cons_of_not hm]
      simp only [Bool.false_eq_true, reduceCtorEq, or_self, iff_false]
      intro heq
      have hlen := (@findFrom_suffix tree passes up).length_le
      rw [heq, List.length_cons] at hlen
      omega

/-- The walk ends strictly above where it starts if MediaMTX is not there, and
goes on from the next directory. -/
theorem findFrom_cons_eq_iff {name : String} {up q : Dir} (hq : q <:+ up)
    (passes : ℕ) :
    findFrom tree (passes + 1) (name :: up) = q ↔
      hasMediaMtx tree (name :: up) = false ∧ findFrom tree passes up = q := by
  cases hm : hasMediaMtx tree (name :: up) with
  | true =>
    have hlen := hq.length_le
    have hne : name :: up ≠ q := by
      rintro rfl
      rw [List.length_cons] at hlen
      omega
    simp [findFrom, hm, hne]
  | false => simp [findFrom_cons_of_not hm]

end Walk

/-! ## The walk of the user interface

The executable that is found is characterised without the loop, as the one of
the nearest directory that has any, among so many. The characterisation is
what the theorems about the layouts use. -/

/-- The executable that `LocateSupervisorExe` takes in a directory: the one of a
build below it, or else the one in it. -/
def SupervisorIn (tree : DirTree) (dir : Dir) (exe : Location) : Prop :=
  (tree.isFile ⟨releaseDir dir, "supervisor.exe"⟩ = true
      ∧ exe = ⟨releaseDir dir, "supervisor.exe"⟩)
    ∨ tree.isFile ⟨releaseDir dir, "supervisor.exe"⟩ = false
      ∧ tree.isFile ⟨dir, "supervisor.exe"⟩ = true ∧
      exe = ⟨dir, "supervisor.exe"⟩

/-- The executable is the one of the nearest directory that has one, among the
first `n` on the way up. -/
def NearestSupervisor (tree : DirTree) (n : ℕ) (baseDirectory : Dir)
    (exe : Location) : Prop :=
  ∃ k < n, SupervisorIn tree (baseDirectory.drop k) exe ∧
    ∀ j < k, ∀ other, ¬ SupervisorIn tree (baseDirectory.drop j) other

section Walk

variable {tree : DirTree}

theorem locateFrom_none (n : ℕ) : locateFrom tree n none = none := by
  cases n <;> rfl

theorem SupervisorIn.eq {dir : Dir} {exe exe' : Location}
    (h : SupervisorIn tree dir exe)
    (h' : SupervisorIn tree dir exe') : exe = exe' := by
  rcases h with ⟨hn, rfl⟩ | ⟨hn, -, rfl⟩ <;>
    rcases h' with ⟨hn', rfl⟩ | ⟨hn', -, rfl⟩
  · rfl
  · exact absurd (hn.symm.trans hn') (by decide)
  · exact absurd (hn'.symm.trans hn) (by decide)
  · rfl

theorem locateFrom_of_supervisorIn {dir : Dir} {exe : Location}
    (h : SupervisorIn tree dir exe)
    (n : ℕ) : locateFrom tree (n + 1) (some dir) = some exe := by
  rcases h with ⟨hn, rfl⟩ | ⟨hn, hs, rfl⟩ <;> simp [locateFrom, *]

theorem locateFrom_of_not {dir : Dir}
    (h : ∀ exe, ¬ SupervisorIn tree dir exe) (n : ℕ) :
    locateFrom tree (n + 1) (some dir) = locateFrom tree n (parent? dir) := by
  have hnested : tree.isFile ⟨releaseDir dir, "supervisor.exe"⟩ = false :=
    Bool.eq_false_iff.mpr (fun hn => h _ (.inl ⟨hn, rfl⟩))
  have hsibling : tree.isFile ⟨dir, "supervisor.exe"⟩ = false :=
    Bool.eq_false_iff.mpr (fun hs => h _ (.inr ⟨hnested, hs, rfl⟩))
  simp [locateFrom, hnested, hsibling]

/-- The nearest one is in the directory itself or the nearest from its
parent. -/
theorem nearestSupervisor_cons {n : ℕ} {name : String} {up : Dir}
    {exe : Location}
    (h : ∀ other, ¬ SupervisorIn tree (name :: up) other) :
    NearestSupervisor tree (n + 1) (name :: up) exe ↔
      NearestSupervisor tree n up exe := by
  constructor
  · rintro ⟨_ | k, hk, hin, hbefore⟩
    · exact absurd hin (h exe)
    · exact ⟨k, by omega, hin, fun j hj => hbefore (j + 1) (by omega)⟩
  · rintro ⟨k, hk, hin, hbefore⟩
    refine ⟨k + 1, by omega, hin, fun j hj => ?_⟩
    cases j with
    | zero => exact h
    | succ j => exact hbefore j (by omega)

/-- **What the user interface finds** is the nearest supervisor. The walk
looks at one directory after the other and takes the first that has an
executable in either of the two places. -/
theorem locateFrom_eq_some_iff {n : ℕ} {dir : Dir} {exe : Location} :
    locateFrom tree n (some dir) = some exe ↔
      NearestSupervisor tree n dir exe := by
  induction n generalizing dir with
  | zero => exact ⟨nofun, fun ⟨k, hk, _⟩ => absurd hk (by omega)⟩
  | succ n ih =>
    by_cases hin : ∃ found, SupervisorIn tree dir found
    · obtain ⟨found, hfound⟩ := hin
      rw [locateFrom_of_supervisorIn hfound]
      constructor
      · intro heq
        obtain rfl := Option.some.inj heq
        exact ⟨0, by omega, hfound, fun j hj => absurd hj (by omega)⟩
      · rintro ⟨_ | k, -, hexe, hbefore⟩
        · exact congrArg some (hfound.eq hexe)
        · exact absurd hfound (hbefore 0 (by omega) found)
    · have hnone : ∀ found, ¬ SupervisorIn tree dir found := not_exists.mp hin
      rw [locateFrom_of_not hnone]
      cases dir with
      | nil =>
        rw [parent?, locateFrom_none]
        refine ⟨nofun, ?_⟩
        rintro ⟨k, -, hexe, -⟩
        rw [List.drop_nil] at hexe
        exact absurd hexe (hnone exe)
      | cons name up => rw [nearestSupervisor_cons hnone, parent?, ih]

theorem NearestSupervisor.suffix {n : ℕ} {dir : Dir} {exe : Location}
    (h : NearestSupervisor tree n dir exe) (hlen : exe.dir.length < 3) :
    exe.dir <:+ dir := by
  obtain ⟨k, -, ⟨-, rfl⟩ | ⟨-, -, rfl⟩, -⟩ := h
  · simp [releaseDir] at hlen
    omega
  · exact List.drop_suffix k dir

end Walk

/-! ## When the two agree

Taking three levels up undoes the path of a build below its project root, and
nothing else. So the two sides agree in a build, and in a deployed layout only
where there are no three levels to take, which is when the walk falls back. -/

/-- Three directories without MediaMTX, and above them one that has it or is the
root. -/
def MediaMtxThreeUp (tree : DirTree) (dir : Dir) : Prop :=
  ∃ a b c root, dir = a :: b :: c :: root ∧
    hasMediaMtx tree (a :: b :: c :: root) = false ∧ hasMediaMtx tree
      (b :: c :: root) = false ∧ hasMediaMtx tree (c :: root) = false
    ∧ (hasMediaMtx tree root = true ∨ root = [])

/-- The supervisor lies in the directory of the user interface, less than three
directories below the root, and MediaMTX with it. -/
def MediaMtxHere (tree : DirTree) (baseDirectory dir : Dir) : Prop :=
  dir.length < 3 ∧ dir = baseDirectory ∧
    (hasMediaMtx tree dir = true ∨ dir = [])

/-- Three directories up, or fallen back. -/
theorem hostDataRoot_eq {tree : DirTree} {baseDirectory : Dir} {exe : Location}
    (h : locateSupervisorExe tree baseDirectory = some exe) :
    (∃ a b c root, exe.dir = a :: b :: c :: root ∧
      hostDataRoot tree baseDirectory = root) ∨
      exe.dir.length < 3 ∧ hostDataRoot tree baseDirectory = baseDirectory := by
  unfold hostDataRoot
  rw [h]
  obtain ⟨_ | ⟨a, _ | ⟨b, _ | ⟨c, root⟩⟩⟩, name⟩ := exe
  · exact .inr ⟨by simp, rfl⟩
  · exact .inr ⟨by simp, rfl⟩
  · exact .inr ⟨by simp, rfl⟩
  · exact .inl ⟨a, b, c, root, rfl, rfl⟩

theorem dataRoot_eq_iff {tree : DirTree} {baseDirectory : Dir} {exe : Location}
    (h : locateSupervisorExe tree baseDirectory = some exe) :
    hostDataRoot tree baseDirectory = findProjectRoot none tree exe ↔
      MediaMtxThreeUp tree exe.dir ∨
      MediaMtxHere tree baseDirectory exe.dir := by
  show _ = findFrom tree 8 exe.dir ↔ _
  rcases hostDataRoot_eq h with ⟨a, b, c, root, hdir, hroot⟩ | ⟨hlen, hroot⟩
  · have habove : root <:+ b :: c :: root := ⟨[b, c], rfl⟩
    have hhere : ¬ MediaMtxHere tree baseDirectory exe.dir := fun hh => by
      have hlen := hh.1
      rw [hdir] at hlen
      simp at hlen
      omega
    rw [hroot, hdir, eq_comm, findFrom_cons_eq_iff habove,
      findFrom_cons_eq_iff (List.suffix_cons c root),
      findFrom_cons_eq_iff List.suffix_rfl,
      findFrom_eq_self_iff, ← hdir, or_iff_left hhere]
    constructor
    · rintro ⟨ha, hb, hc, hm⟩
      exact ⟨a, b, c, root, hdir, hdir ▸ ha, hb, hc, hm⟩
    · rintro ⟨a', b', c', root', hdir', ha, hb, hc, hm⟩
      obtain ⟨rfl, rfl, rfl, rfl⟩ : a = a' ∧ b = b' ∧ c = c' ∧
          root = root' := by
        simpa using hdir.symm.trans hdir'
      exact ⟨hdir ▸ ha, hb, hc, hm⟩
  · have hthree : ¬ MediaMtxThreeUp tree exe.dir := by
      rintro ⟨a, b, c, root, hdir, -⟩
      rw [hdir] at hlen
      simp at hlen
      omega
    have hbase : exe.dir <:+ baseDirectory :=
      (locateFrom_eq_some_iff.mp h).suffix hlen
    rw [hroot, or_iff_right hthree]
    constructor
    · intro heq
      -- The walk only goes up, so it ends at the base directory only if it
      -- starts there.
      have hwalk : baseDirectory <:+ exe.dir := heq ▸ findFrom_suffix 8 exe.dir
      have hsame : exe.dir = baseDirectory :=
        hbase.eq_of_length (hbase.length_le.antisymm hwalk.length_le)
      exact ⟨hlen, hsame,
        (findFrom_eq_self_iff 7 exe.dir).mp (heq.symm.trans hsame.symm)⟩
    · rintro ⟨-, hsame, hm⟩
      exact hsame.symm.trans ((findFrom_eq_self_iff 7 exe.dir).mpr hm).symm

/-- **Host and supervisor agree exactly if** the nearest supervisor has MediaMTX
three directories above it and no nearer, as in a build, or lies with it in the
directory of the user interface less than three directories below the root of
the volume. -/
theorem agree_iff (tree : DirTree) (baseDirectory : Dir) :
    Agree tree baseDirectory ↔
      ∃ exe, NearestSupervisor tree 8 baseDirectory exe ∧
        (MediaMtxThreeUp tree exe.dir ∨
          MediaMtxHere tree baseDirectory exe.dir) := by
  constructor
  · rintro ⟨exe, hexe, heq⟩
    exact ⟨exe, locateFrom_eq_some_iff.mp hexe, (dataRoot_eq_iff hexe).mp heq⟩
  · rintro ⟨exe, hnear, hm⟩
    have hexe : locateSupervisorExe tree baseDirectory = some exe :=
      locateFrom_eq_some_iff.mpr hnear
    exact ⟨exe, hexe, (dataRoot_eq_iff hexe).mpr hm⟩

/-- A volume with these files and nothing else. -/
def treeOf (files : List Location) : DirTree := fun loc =>
  if loc ∈ files then some .file else none

/-- An installation for one user: `{app}` is under that user's local
programs. -/
def userApp : Dir :=
  ["WebcamStreamer", "Programs", "Local", "AppData", "me", "Users"]

/-- **Installed for one user**, the supervisor works in the directory it was
installed to, and the user interface in the one three levels above. -/
theorem user_install_disagrees :
    Deployed (treeOf [⟨userApp, "supervisor.exe"⟩,
        ⟨"mediamtx" :: "third_party" :: userApp, "mediamtx.exe"⟩]) userApp
      ∧ ¬ Agree (treeOf [⟨userApp, "supervisor.exe"⟩,
        ⟨"mediamtx" :: "third_party" :: userApp, "mediamtx.exe"⟩]) userApp := by
  refine ⟨⟨by decide, by decide⟩, ?_⟩
  rintro ⟨exe, hexe, heq⟩
  obtain rfl : ⟨userApp, "supervisor.exe"⟩ = exe :=
    Option.some.inj (hexe.symm.trans rfl).symm
  exact absurd heq (by decide)

/-! ## When the layouts agree

The general condition is read for the two layouts. In the first it comes down
to how deep the directory of the program lies on its volume, and in the second
to how far below the project root the user interface was built. -/

section Layouts

variable {tree : DirTree}

/-- There is no MediaMTX in the directories of a build. -/
def NoMediaMtxInBuild (tree : DirTree) (root : Dir) : Prop :=
  hasMediaMtx tree (releaseDir root) = false
    ∧ hasMediaMtx tree ("build" :: "supervisor" :: root) = false
    ∧ hasMediaMtx tree ("supervisor" :: root) = false

theorem hasMediaMtx_of_isFile {dir : Dir}
    (h : tree.isFile ⟨"mediamtx" :: "third_party" :: dir,
      "mediamtx.exe"⟩ = true) :
    hasMediaMtx tree dir = true := by
  rw [hasMediaMtx, DirTree.has, eq_of_beq h]
  rfl

theorem mediaMtxThreeUp_releaseDir {root : Dir}
    (h : hasMediaMtx tree root = true) :
    MediaMtxThreeUp tree (releaseDir root) ↔ NoMediaMtxInBuild tree root := by
  constructor
  · rintro ⟨a, b, c, up, hdir, ha, hb, hc, -⟩
    obtain ⟨rfl, rfl, rfl, rfl⟩ : "Release" = a ∧ "build" = b ∧
        "supervisor" = c ∧ root = up := by
      simpa [releaseDir] using hdir
    exact ⟨ha, hb, hc⟩
  · rintro ⟨ha, hb, hc⟩
    exact ⟨_, _, _, root, rfl, ha, hb, hc, .inl h⟩

theorem not_mediaMtxHere_releaseDir {root baseDirectory : Dir} :
    ¬ MediaMtxHere tree baseDirectory (releaseDir root) := by
  rintro ⟨hlen, -⟩
  simp [releaseDir] at hlen
  omega

/-- **In the deployed layout** they agree if `{app}` lies less than three
directories below the root of the volume; if there is a build below it as well,
they agree if that has no MediaMTX of its own. -/
theorem agree_deployed_iff {app : Dir} (h : Deployed tree app) :
    Agree tree app ↔
      if tree.isFile ⟨releaseDir app, "supervisor.exe"⟩ = true then
        NoMediaMtxInBuild tree app
      else app.length < 3 := by
  have hm := hasMediaMtx_of_isFile h.mediaMtx
  have hagree : ∀ {exe}, SupervisorIn tree app exe →
      (Agree tree app ↔ MediaMtxThreeUp tree exe.dir ∨
        MediaMtxHere tree app exe.dir) := by
    intro exe hin
    have hexe : locateSupervisorExe tree app = some exe :=
      locateFrom_of_supervisorIn hin 7
    rw [← dataRoot_eq_iff hexe]
    exact ⟨fun ⟨_, hfound, heq⟩ => Option.some.inj (hexe.symm.trans hfound)
      ▸ heq, fun heq => ⟨exe, hexe, heq⟩⟩
  split
  next hbuild =>
    rw [hagree (.inl ⟨hbuild, rfl⟩), or_iff_left not_mediaMtxHere_releaseDir,
      mediaMtxThreeUp_releaseDir hm]
  next hbuild =>
    rw [hagree (.inr ⟨Bool.eq_false_iff.mpr hbuild, h.supervisor, rfl⟩)]
    constructor
    · rintro (⟨a, b, c, root, hdir, ha, -⟩ | ⟨hlen, -⟩)
      · rw [← hdir, hm] at ha
        cases ha
      · exact hlen
    · exact fun hlen => .inr ⟨hlen, rfl, .inl hm⟩

/-- **In the development layout**, with no other supervisor on the way, they
agree if the user interface was built at most seven directories below the
project root and the build has no MediaMTX of its own. -/
theorem agree_development_iff {root below : Dir} (h : Development tree root)
    (hnone : ∀ j < below.length, ∀ exe,
      ¬ SupervisorIn tree ((below ++ root).drop j) exe) :
    Agree tree (below ++ root) ↔
      below.length < 8 ∧ NoMediaMtxInBuild tree root := by
  have hm := hasMediaMtx_of_isFile h.mediaMtx
  have hin : SupervisorIn tree ((below ++ root).drop below.length)
      ⟨releaseDir root, "supervisor.exe"⟩ := by
    rw [List.drop_left]
    exact .inl ⟨h.supervisor, rfl⟩
  constructor
  · rintro ⟨exe, hexe, heq⟩
    obtain ⟨k, hk, hfound, hbefore⟩ := locateFrom_eq_some_iff.mp hexe
    have hkb : k = below.length := by
      rcases Nat.lt_trichotomy k below.length with hlt | heq | hgt
      · exact absurd hfound (hnone k hlt exe)
      · exact heq
      · exact absurd hin (hbefore _ hgt _)
    subst hkb
    obtain rfl := hin.eq hfound
    refine ⟨hk, (mediaMtxThreeUp_releaseDir hm).mp ?_⟩
    exact ((dataRoot_eq_iff hexe).mp heq).resolve_right
      not_mediaMtxHere_releaseDir
  · rintro ⟨hlen, hbuild⟩
    have hexe : locateSupervisorExe tree (below ++ root)
        = some ⟨releaseDir root, "supervisor.exe"⟩ :=
      locateFrom_eq_some_iff.mpr ⟨below.length, hlen, hin, hnone⟩
    exact ⟨_, hexe, (dataRoot_eq_iff hexe).mpr
      (.inl ((mediaMtxThreeUp_releaseDir hm).mpr hbuild))⟩

end Layouts

end WebcamStreamer
