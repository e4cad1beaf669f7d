import LazGate.Hysteria.Settings
import LazGate.Lib.Runs

/-!
# The host of a Hysteria server and its masquerade files

The agent reads and writes the host by commands. The configuration, its backup and the staged copy
are three files; the masquerade file sets lie below the managed directory, apart from them.
-/

namespace LazGate.Hysteria

open Filepath

/-! ## The host -/

inductive FileNode where
  | dir
  | regular (content : String)
  | symlink
  deriving DecidableEq

/-- What the agent's commands see. `managed` holds what is at and below the managed directory, by
its full name. -/
structure Host where
  config : Option String
  backup : Option String
  pending : Option String
  managed : List (String × FileNode)
  deriving DecidableEq

/-- `hy2files.ManagedDirectory`. -/
def managedDirectory : String := "/var/lib/lazgate-hysteria-files"

/-- What the surroundings decide about a call: whether it works, what a foreign file holds, and
the text of an error. -/
structure Outcome where
  ok : Bool
  text : String
  error : String

/-- The commands and system calls of the agent. -/
inductive HostCall where
  /-- `sudo cat` of the configuration -/
  | readConfig
  /-- `os.Stat` of the backup -/
  | statBackup
  /-- `sudo cat` of the backup -/
  | readBackup
  /-- `sudo cat` of the certificate -/
  | readCertificate (path : String)
  /-- `os.Stat` of the configuration -/
  | statConfig
  /-- `os.CreateTemp` with the write and the close -/
  | createTemp
  /-- `sudo install` of a text as the staged copy -/
  | stage (content : String)
  /-- `sudo mv -f` of the staged copy over the configuration -/
  | replace
  /-- `sudo cp -p` of the configuration to the backup -/
  | copyBackup
  /-- `sudo rm -f` of the backup -/
  | removeBackup
  /-- `sudo systemctl restart` -/
  | restart
  /-- `ctx.Err() == nil` in the health check -/
  | inTime
  /-- `sudo systemctl is-active` -/
  | isActive
  /-- the request for `/online` to the statistics API -/
  | online
  /-- `os.Lstat`; a file that does not exist is no error -/
  | lstat (path : String)
  | readFile (path : String)
  /-- `os.Stat` with `IsDir` -/
  | isDir (path : String)
  | mkdirTemp
  /-- `os.WriteFile` of a temporary file -/
  | writeTemp
  /-- `sudo install -d` -/
  | installDirs (paths : List String)
  /-- `sudo install` of a text to a file of the managed directory -/
  | installFile (content path : String)
  /-- `os.ReadDir` of the managed directory, with the names of its entries and whether each is a
  directory; no answer if there is no such directory -/
  | readDir
  /-- `sudo rm -rf` -/
  | removeAll (paths : List String)

namespace HostCall

abbrev Reply : HostCall → Type
  | .readConfig | .readBackup | .readCertificate _ => Except String String
  | .statBackup | .inTime | .isDir _ => Bool
  | .lstat _ => Except String (Option FileNode)
  | .readFile _ => Option String
  | .readDir => Except String (Option (List (String × Bool)))
  | _ => Except String Unit

end HostCall

namespace Host

def node (h : Host) (path : String) : Option FileNode := h.managed.lookup path

/-- The name lies at or below `path`. -/
def below (path name : String) : Bool :=
  name == path || (path.toList ++ ['/']).isPrefixOf name.toList

/-- The name and the names of the directories above it, up to the managed directory. -/
def lineage (path : String) : List String :=
  ((cleanParts path).inits.map absolute).filter (below managedDirectory)

/-- The directories that are not there yet are added. -/
def addDirs (managed : List (String × FileNode)) (paths : List String) :
    List (String × FileNode) :=
  (paths.flatMap lineage).foldl
    (fun managed path =>
      if (managed.lookup path).isSome then managed else managed ++ [(path, .dir)]) managed

def entry (file : String × FileNode) : Option (String × Bool) :=
  match file.1.toList.dropPrefix? (managedDirectory.toList ++ ['/']) with
  | some name => if '/' ∈ name then none else some (String.ofList name, file.2 == .dir)
  | none => none

end Host

/-- The effect of a call that works. A command on a file that does not exist fails. -/
def HostCall.effect : (c : HostCall) → Outcome → Host → c.Reply × Host
  | .readConfig, f, h => (h.config.elim (.error f.error) .ok, h)
  | .statBackup, _, h => (h.backup.isSome, h)
  | .readBackup, f, h => (h.backup.elim (.error f.error) .ok, h)
  | .readCertificate _, f, h => (.ok f.text, h)
  | .statConfig, f, h => (if h.config.isSome then .ok () else .error f.error, h)
  | .createTemp, _, h => (.ok (), h)
  | .stage content, _, h => (.ok (), { h with pending := some content })
  | .replace, f, h =>
    match h.pending with
    | some content => (.ok (), { h with config := some content, pending := none })
    | none => (.error f.error, h)
  | .copyBackup, f, h =>
    match h.config with
    | some content => (.ok (), { h with backup := some content })
    | none => (.error f.error, h)
  | .removeBackup, _, h => (.ok (), { h with backup := none })
  | .restart, _, h | .isActive, _, h | .online, _, h | .mkdirTemp, _, h | .writeTemp, _, h =>
    (.ok (), h)
  | .inTime, _, h => (true, h)
  | .lstat path, _, h => (.ok (h.node path), h)
  | .readFile path, _, h =>
    (match h.node path with
      | some (.regular content) => some content
      | _ => none, h)
  | .isDir path, _, h => (h.node path == some .dir, h)
  | .installDirs paths, _, h => (.ok (), { h with managed := Host.addDirs h.managed paths })
  | .installFile content path, f, h =>
    if h.node path = some .dir then (.error f.error, h)
    else (.ok (), { h with
      managed := h.managed.filter (·.1 != path) ++ [(path, .regular content)] })
  | .readDir, _, h =>
    (.ok (if (h.node managedDirectory).isSome then some (h.managed.filterMap Host.entry)
      else none), h)
  | .removeAll paths, _, h =>
    (.ok (), { h with managed := h.managed.filter fun file => !paths.any (Host.below · file.1) })

def HostCall.failure : (c : HostCall) → Outcome → Host → c.Reply
  | .statBackup, _, h => h.backup.isSome
  | .inTime, _, _ | .isDir _, _, _ => false
  | .readFile _, _, _ => none
  | .lstat _, f, _ | .readDir, f, _ | .readConfig, f, _ | .readBackup, f, _
  | .readCertificate _, f, _ | .statConfig, f, _ | .createTemp, f, _ | .stage _, f, _
  | .replace, f, _ | .copyBackup, f, _ | .removeBackup, f, _ | .restart, f, _ | .isActive, f, _
  | .online, f, _ | .mkdirTemp, f, _ | .writeTemp, f, _ | .installDirs _, f, _
  | .installFile .., f, _ | .removeAll _, f, _ => .error f.error

def HostCall.perform (c : HostCall) (f : Outcome) (h : Host) : c.Reply × Host :=
  if f.ok then c.effect f h else (c.failure f h, h)

/-- A program of the agent that may fail with an error text. -/
abbrev HostM := Attempt HostCall HostCall.Reply

def ask (c : HostCall) : Prog HostCall HostCall.Reply c.Reply := Prog.ask c

/-- A command whose error is replaced by a text. -/
def orFail {α : Type} (message : String) (x : Prog HostCall HostCall.Reply (Except String α)) :
    HostM α :=
  Attempt.wrap (fun _ => message) (ExceptT.mk x)

/-! ## File sets -/

def isHexDigit (c : Char) : Bool :=
  ('0' ≤ c && c ≤ '9') || ('a' ≤ c && c ≤ 'f') || ('A' ≤ c && c ≤ 'F')

/-- `ValidID`: the hexadecimal form of 32 bytes in lower case. -/
def validID (id : String) : Bool :=
  id.toList.all isHexDigit && id.toList.length == 64 && id == id.toLower

structure File where
  path : String
  data : String

/-- The functions of `hy2files` that read and write ZIP archives, and the hash. -/
structure Archives where
  sha256Hex : List UInt8 → String
  readArchive : List UInt8 → Except String (List File)
  build : List File → Except String Unit

def maxArchiveBytes : ℕ := 2 * 2 ^ 20

def verify (A : Archives) (id : String) (raw : List UInt8) : Except String (List File) :=
  if maxArchiveBytes < raw.length then .error "ZIP превышает 2 МиБ"
  else if !validID id then .error "Некорректный ID набора"
  else if A.sha256Hex raw != id then .error "Контрольная сумма набора не совпадает"
  else do
    let files ← A.readArchive raw
    if files.isEmpty then throw "Пустой набор файлов"
    A.build files
    return files

def errMissingIndex : String :=
  "В корне набора должен быть файл index.html (/index.html). Файл во вложенной папке не подходит."

def requireIndex (paths : List String) : Except String Unit :=
  if paths.contains "index.html" then .ok () else .error errMissingIndex

/-! ## The managed directory -/

/-- The next part of a name, which must not be a link. -/
def enterPart (current : String) (part : List Char) : HostM String := do
  let current := join current (String.ofList part)
  let file ← (ExceptT.mk (ask (.lstat current)) : HostM (Option FileNode))
  match file with
  | some .symlink => throw "symlinks are not allowed in the managed directory"
  | _ => pure current

def safePath (target : String) : HostM Unit :=
  match rel managedDirectory target with
  | none => throw "invalid managed file path"
  | some relative =>
    if relative == ".." || ['.', '.', '/'].isPrefixOf relative.toList then
      throw "invalid managed file path"
    else do
      let _ ← ([] :: relative.toList.splitOn '/').foldlM enterPart managedDirectory

def isReady (id target marker : String) : HostM Bool := do
  let content ← ExceptT.lift (ask (.readFile marker))
  if content == some id then ExceptT.lift (ask (.isDir target)) else pure false

def installFile (target : String) (file : File) : HostM Unit := do
  let destination := join target file.path
  safePath destination
  orFail "cannot create masquerade subdirectory" (ask (.installDirs [dir destination]))
  ExceptT.mk (ask .writeTemp)
  orFail "cannot install masquerade file" (ask (.installFile file.data destination))

def installSet (id target marker : String) (files : List File) : HostM Unit := do
  ExceptT.mk (ask .mkdirTemp)
  orFail "cannot create managed masquerade directory"
    (ask (.installDirs [managedDirectory, target]))
  files.forM (installFile target)
  ExceptT.mk (ask .writeTemp)
  orFail "cannot finalize masquerade file set" (ask (.installFile id marker))

def stage (A : Archives) (id : String) (archive : List UInt8) : HostM String := do
  let files ← ofExcept (verify A id archive)
  ofExcept (requireIndex (files.map File.path))
  let target := join managedDirectory id
  let marker := target ++ ".ready"
  safePath target
  safePath marker
  let ready ← isReady id target marker
  if ready then pure target
  else do
    installSet id target marker files
    pure target

/-- The sets that `Cleanup` keeps. -/
def keptSets (keepPaths : List String) : List String :=
  (keepPaths.filter fun p => dir p == managedDirectory && validID (base p)).map base

/-- The step of `Cleanup` for one entry of the managed directory. -/
def removeSet (keep : List String) (entry : String × Bool) : HostM Unit :=
  if !entry.2 || !validID entry.1 || keep.contains entry.1 then pure ()
  else do
    let target := join managedDirectory entry.1
    safePath target
    orFail "cannot remove unused masquerade file set"
      (ask (.removeAll [target, target ++ ".ready"]))

def cleanup (keepPaths : List String) : HostM Unit := do
  let listing ← (ExceptT.mk (ask .readDir) : HostM (Option (List (String × Bool))))
  match listing with
  | none => pure ()
  | some entries => entries.forM (removeSet (keptSets keepPaths))

/-! ## Names of file sets -/

variable {id : String}

theorem Plain.of_validID (h : validID id = true) : Filepath.Plain id.toList := by
  simp only [validID, Bool.and_eq_true, beq_iff_eq] at h
  obtain ⟨⟨hhex, hlen⟩, -⟩ := h
  have hchars : ∀ c ∈ id.toList, isHexDigit c = true := List.all_eq_true.1 hhex
  refine ⟨fun hc => absurd (hchars _ hc) (by decide), ?_, ?_, ?_⟩ <;>
  · intro heq
    rw [heq] at hlen
    cases hlen

/-- The parts of the managed directory's name. -/
def managedParts : List (List Char) :=
  ["var".toList, "lib".toList, "lazgate-hysteria-files".toList]

theorem managedDirectory_eq : managedDirectory = absolute managedParts := by decide +kernel

theorem plain_managedParts : ∀ part ∈ managedParts, Filepath.Plain part := by
  intro part hpart
  fin_cases hpart <;> exact ⟨by decide, by decide, by decide, by decide⟩

section Names

variable {id name : String}

section

variable (h : validID id = true)

include h

theorem join_managed :
    join managedDirectory id = absolute (managedParts ++ [id.toList]) := by
  have hjoin := join_absolute plain_managedParts (by simp [managedParts]) (Plain.of_validID h)
  rwa [String.ofList_toList, ← managedDirectory_eq] at hjoin

theorem toList_join_managed :
    (join managedDirectory id).toList = managedDirectory.toList ++ '/' :: id.toList := by
  rw [join_managed h, absolute_append (by simp [managedParts]), String.toList_ofList,
    managedDirectory_eq]

theorem clean_join_managed :
    clean (join managedDirectory id) = join managedDirectory id := by
  rw [join_managed h]
  refine clean_absolute (fun part hpart => ?_) (by simp)
  rcases List.mem_append.1 hpart with hpart | hpart
  · exact plain_managedParts part hpart
  · rw [List.mem_singleton.1 hpart]
    exact Plain.of_validID h

theorem mem_keptSets {keepPaths : List String} (hmem : join managedDirectory id ∈ keepPaths) :
    id ∈ keptSets keepPaths := by
  have hdir : dir (join managedDirectory id) = managedDirectory := by
    rw [join_managed h, dir_absolute_append plain_managedParts (by simp [managedParts])
      (Plain.of_validID h), managedDirectory_eq]
  have hbase : base (join managedDirectory id) = id := by
    rw [join_managed h, base_absolute_append (by simp [managedParts]) (Plain.of_validID h),
      String.ofList_toList]
  refine List.mem_map.2 ⟨_, List.mem_filter.2 ⟨hmem, ?_⟩, hbase⟩
  simp [hdir, hbase, h]

/-- Neither the directory nor the marker of a set is at or above the directory of another. -/
theorem not_below_join (h' : validID name = true) (hne : id ≠ name) :
    Host.below (join managedDirectory name) (join managedDirectory id) = false ∧
      Host.below (join managedDirectory name ++ ".ready") (join managedDirectory id) = false := by
  have hid := toList_join_managed h
  have hname := toList_join_managed h'
  have hslash := (Plain.of_validID h).slash
  have hdot : '.' ∉ id.toList := by
    simp only [validID, Bool.and_eq_true] at h
    exact fun hc => absurd (List.all_eq_true.1 h.1.1 _ hc) (by decide)
  constructor
  · rw [Host.below, Bool.or_eq_false_iff]
    constructor
    · rw [beq_eq_false_iff_ne]
      intro heq
      rw [heq, hname] at hid
      simp only [List.append_cancel_left_eq, List.cons.injEq, true_and] at hid
      exact hne (String.toList_injective hid.symm)
    · rw [Bool.eq_false_iff, ne_eq, List.isPrefixOf_iff_prefix, hid, hname]
      rintro ⟨rest, hrest⟩
      simp only [List.append_assoc, List.append_cancel_left_eq, List.cons_append,
        List.cons.injEq, true_and] at hrest
      exact hslash (hrest ▸ by simp)
  · rw [Host.below, Bool.or_eq_false_iff]
    constructor
    · rw [beq_eq_false_iff_ne]
      intro heq
      rw [heq, String.toList_append, hname] at hid
      simp only [List.append_assoc, List.append_cancel_left_eq, List.cons_append,
        List.cons.injEq, true_and] at hid
      exact hdot (hid ▸ by simp)
    · rw [Bool.eq_false_iff, ne_eq, List.isPrefixOf_iff_prefix, hid, String.toList_append, hname]
      rintro ⟨rest, hrest⟩
      simp only [List.append_assoc, List.append_cancel_left_eq, List.cons_append,
        List.cons.injEq, true_and] at hrest
      exact hslash (hrest ▸ by simp)

end

end Names

/-! ## What the calls leave alone -/

def Host.HasSet (h : Host) (id : String) : Prop := h.node (join managedDirectory id) = some .dir

instance (h : Host) (id : String) : Decidable (h.HasSet id) :=
  inferInstanceAs (Decidable (_ = _))

/-- The call writes neither the configuration files nor removes anything. -/
def HostCall.Quiet : HostCall → Prop
  | .stage _ | .replace | .copyBackup | .removeBackup | .removeAll _ => False
  | _ => True

structure SameFiles (h h' : Host) : Prop where
  config : h'.config = h.config
  backup : h'.backup = h.backup
  pending : h'.pending = h.pending

variable {managed : List (String × FileNode)} {path : String}

theorem lookup_addDirs {paths : List String} {n : FileNode} (h : managed.lookup path = some n) :
    (Host.addDirs managed paths).lookup path = some n := by
  unfold Host.addDirs
  induction paths.flatMap Host.lineage generalizing managed with
  | nil => exact h
  | cons p l ih =>
    rw [List.foldl_cons]
    apply ih
    split
    · exact h
    · rw [List.lookup_append, h]
      rfl

theorem lookup_filter {p : String × FileNode → Bool} (hp : ∀ n, p (path, n) = true) :
    (managed.filter p).lookup path = managed.lookup path := by
  induction managed with
  | nil => rfl
  | cons file managed ih =>
    obtain ⟨name, n⟩ := file
    by_cases hname : path = name
    · subst hname
      simp [hp]
    · have hne : (path == name) = false := by simpa using hname
      rw [List.filter_cons, List.lookup_cons, hne]
      split
      · rw [List.lookup_cons, hne]
        exact ih
      · exact ih

variable {content : String}

section Calls

variable {c : HostCall} {f : Outcome} {h : Host}

theorem HostCall.Quiet.sameFiles (hc : c.Quiet) : SameFiles h (c.perform f h).2 := by
  unfold HostCall.perform
  split
  · cases c <;> first | exact hc.elim | exact ⟨rfl, rfl, rfl⟩ | skip
    simp only [HostCall.effect]
    split <;> exact ⟨rfl, rfl, rfl⟩
  · exact ⟨rfl, rfl, rfl⟩

theorem HostCall.Quiet.ne_removeAll (hc : c.Quiet) (paths : List String) :
    c ≠ .removeAll paths := by
  rintro rfl
  exact hc

theorem HostCall.config_of_readConfig (hr : (HostCall.readConfig.perform f h).1 = .ok content) :
    h.config = some content := by
  unfold HostCall.perform at hr
  split at hr
  · cases hconfig : h.config with
    | none =>
      simp only [HostCall.effect, hconfig] at hr
      cases hr
    | some text =>
      simp only [HostCall.effect, hconfig] at hr
      cases hr
      rfl
  · cases hr

theorem HostCall.backup_of_readBackup (hr : (HostCall.readBackup.perform f h).1 = .ok content) :
    h.backup = some content := by
  unfold HostCall.perform at hr
  split at hr
  · cases hbackup : h.backup with
    | none =>
      simp only [HostCall.effect, hbackup] at hr
      cases hr
    | some text =>
      simp only [HostCall.effect, hbackup] at hr
      cases hr
      rfl
  · cases hr

theorem HostCall.perform_statBackup : (HostCall.statBackup.perform f h).1 = h.backup.isSome := by
  unfold HostCall.perform
  split <;> rfl

theorem Host.HasSet.perform (hset : h.HasSet id) (hc : ∀ paths, c ≠ .removeAll paths) :
    (c.perform f h).2.HasSet id := by
  unfold HostCall.perform
  split
  · cases c with
    | removeAll paths => exact absurd rfl (hc paths)
    | installDirs paths => exact lookup_addDirs hset
    | installFile content path =>
      simp only [HostCall.effect]
      split
      · exact hset
      · rename_i hnode
        have hne : join managedDirectory id ≠ path := by
          rintro rfl
          exact hnode hset
        rw [Host.HasSet, Host.node, List.lookup_append,
          lookup_filter (by simpa using fun _ => hne)]
        rw [show h.managed.lookup _ = _ from hset]
        rfl
    | replace | copyBackup =>
      simp only [HostCall.effect]
      split <;> exact hset
    | _ => exact hset
  · exact hset

theorem Host.HasSet.removeAll {name : String} (hset : h.HasSet id) (hid : validID id = true)
    (hname : validID name = true) (hne : id ≠ name) :
    ((HostCall.removeAll [join managedDirectory name,
      join managedDirectory name ++ ".ready"]).perform f h).2.HasSet id := by
  have hbelow := not_below_join hid hname hne
  unfold HostCall.perform
  split
  · rw [Host.HasSet, Host.node, HostCall.effect, lookup_filter]
    · exact hset
    · intro n
      simp [hbelow]
  · exact hset

end Calls

section Programs

open Prog

theorem only_safePath (target : String) : Only HostCall.Quiet (safePath target).run := by
  unfold safePath
  split
  · exact Only.fail
  · split
    · exact Only.fail
    · refine Only.andThen (Only.foldlM (fun part _ current => ?_) _) fun _ => Only.ok
      refine Only.andThen (Only.ask trivial) fun file => ?_
      split
      · exact Only.fail
      · exact Only.ok

theorem only_isReady (id target marker : String) :
    Only HostCall.Quiet (isReady id target marker).run := by
  refine Only.andThen (Only.lift (Only.ask trivial)) fun content => ?_
  split
  · exact Only.lift (Only.ask trivial)
  · exact Only.ok

theorem only_installSet (id target marker : String) (files : List File) :
    Only HostCall.Quiet (installSet id target marker files).run := by
  refine Only.andThen (Only.ask trivial) fun _ => ?_
  refine Only.andThen (Only.wrap (Only.ask trivial)) fun _ => ?_
  refine Only.andThen (Only.forM (fun file => ?_) files) fun _ => ?_
  · refine Only.andThen (only_safePath _) fun _ => ?_
    refine Only.andThen (Only.wrap (Only.ask trivial)) fun _ => ?_
    exact Only.andThen (Only.ask trivial) fun _ => Only.wrap (Only.ask trivial)
  · exact Only.andThen (Only.ask trivial) fun _ => Only.wrap (Only.ask trivial)

theorem validID_of_verify {A : Archives} {raw : List UInt8} {files : List File}
    (h : verify A id raw = .ok files) : validID id = true := by
  unfold verify at h
  split at h
  · cases h
  · split at h
    · cases h
    · rename_i hid
      simpa using hid

end Programs

end LazGate.Hysteria
