import BitsService.Blobstores.Decorators
import BitsService.Foundations.Path
import BitsService.Lib.FileTree
import BitsService.Lib.WriteLog

/-! # The local blobstore

Blobs are files under one directory of a disk. Creating directories, creating a file and writing
its content may fail, each after some part of it is done; what is there can be read and removed.
The disk also remembers which paths were used and what was written where. -/
namespace BitsService
open GoLib GoLib.Effect GoLib.LexicalPath
set_option autoImplicit false

/-! ## The disk -/

inductive Errno where
  | noEntry
  | notDir
  | isDir
  | noSpace
  | busy
  | other (text : Bytes)
  deriving DecidableEq

def Errno.text : Errno → Bytes
  | .noEntry => ascii "no such file or directory"
  | .notDir => ascii "not a directory"
  | .isDir => ascii "is a directory"
  | .noSpace => ascii "no space left on device"
  | .busy => ascii "device or resource busy"
  | .other text => text

def Errno.ofMissing : FileTree.Missing → Errno
  | .noEntry => .noEntry
  | .notDir => .notDir

def Errno.ofNotCreated : FileTree.NotCreated → Errno
  | .isDir => .isDir
  | .missing m => .ofMissing m

inductive DiskCall where
  | mkdirAll
  | create
  | copy
  deriving DecidableEq

/-- A failing call: the error, and how many directories or bytes were done before it. -/
structure DiskFault where
  errno : Errno
  done : ℕ
  deriving DecidableEq

/-- What a copy to a created file was given, and how much of it the file holds afterwards. -/
abbrev FileWrite := Write (List Bytes) Bytes

structure Disk where
  tree : FileTree Bytes Bytes
  cwd : List Bytes
  faults : DiskCall → List (Option DiskFault)
  touched : List Path
  writes : List FileWrite

namespace Disk

/-- The absolute names of a cleaned path. -/
def resolve (d : Disk) (path : Path) : List Bytes :=
  match path.anchor with
  | .root => path.names
  | .up n => d.cwd.take (d.cwd.length - n) ++ path.names

def file (d : Disk) (p : List Bytes) : Option Bytes :=
  match d.tree.node p with
  | some (.file content) => some content
  | _ => none

theorem file_eq_some_iff {d : Disk} {p : List Bytes} {c : Bytes} :
    d.file p = some c ↔ d.tree.node p = some (.file c) := by
  unfold file
  cases h : d.tree.node p with
  | none => simp
  | some n => cases n <;> simp

end Disk

theorem resolve_descend (d : Disk) (l : Path) (names : List Bytes) :
    d.resolve (l.descend names) = d.resolve l ++ names := by
  unfold Disk.resolve Loc.descend
  cases l.anchor with
  | root => rfl
  | up n => simp

def takeFault (c : DiskCall) : Prog GoError Disk (Option DiskFault) := fun d =>
  (.returned ((d.faults c).headD none),
    { d with faults := Function.update d.faults c (d.faults c).tail })

def touch (path : Path) : Prog GoError Disk Unit :=
  modifyState fun d => { d with touched := d.touched ++ [path] }

def osStat (path : Path) : Prog GoError Disk (Except Errno (Node Bytes)) := do
  touch path
  let d ← getState
  pure ((d.tree.stat (d.resolve path)).mapError .ofMissing)

/-- What there is to read at a node: a directory opens and cannot be read. -/
def bodyOf : Node Bytes → Body
  | .file content => .whole content
  | .dir => ⟨[], some (.sys Errno.isDir.text)⟩

def osOpen (path : Path) : Prog GoError Disk (Except Errno Body) := do
  match ← osStat path with
  | .error e => pure (.error e)
  | .ok n => pure (.ok (bodyOf n))

def osMkdirAll (path : Path) : Prog GoError Disk (Except Errno Unit) := do
  let d ← getState
  let p := d.resolve path
  match ← takeFault .mkdirAll with
  | some f =>
    match d.tree.mkdirAll (p.take f.done) with
    | .error m => pure (.error (.ofMissing m))
    | .ok tree => do
      modifyState fun d => { d with tree := tree }
      pure (.error f.errno)
  | none =>
    match d.tree.mkdirAll p with
    | .error m => pure (.error (.ofMissing m))
    | .ok tree => do
      modifyState fun d => { d with tree := tree }
      pure (.ok ())

def osCreate (path : Path) : Prog GoError Disk (Except Errno Unit) := do
  touch path
  let d ← getState
  match ← takeFault .create with
  | some f => pure (.error f.errno)
  | none =>
    match d.tree.create (d.resolve path) [] with
    | .error e => pure (.error (.ofNotCreated e))
    | .ok tree => do
      modifyState fun d => { d with tree := tree }
      pure (.ok ())

/-- `io.Copy` to the file created at `path`. -/
def ioCopyTo (path : Path) (content : Bytes) : Prog GoError Disk (Except Errno Unit) := do
  let d ← getState
  let p := d.resolve path
  let fault ← takeFault .copy
  let written := match fault with
    | some f => content.take f.done
    | none => content
  match d.tree.create p written with
  | .error e => pure (.error (.ofNotCreated e))
  | .ok tree => do
    modifyState fun d => { d with tree := tree
                                  writes := d.writes ++ [⟨p, content, written⟩] }
    match fault with
    | some f => pure (.error f.errno)
    | none => pure (.ok ())

def osRemoveAll (path : Path) : Prog GoError Disk (Except Errno Unit) := do
  touch path
  let d ← getState
  modifyState fun d => { d with tree := d.tree.removeAll (d.resolve path) }
  pure (if d.resolve path = [] then .error .busy else .ok ())


/-! ## What the system calls do -/

theorem run_takeFault (c : DiskCall) (d : Disk) :
    (takeFault c).run d = (.returned ((d.faults c).headD none),
      { d with faults := Function.update d.faults c (d.faults c).tail }) := rfl

theorem run_osStat (path : Path) (d : Disk) :
    (osStat path).run d = (.returned ((d.tree.stat (d.resolve path)).mapError .ofMissing),
      { d with touched := d.touched ++ [path] }) := rfl

theorem run_osOpen (path : Path) (d : Disk) :
    (osOpen path).run d =
      (.returned (((d.tree.stat (d.resolve path)).mapError .ofMissing).map bodyOf),
        { d with touched := d.touched ++ [path] }) := by
  unfold osOpen
  rw [run_bind, run_osStat]
  cases d.tree.stat (d.resolve path) with
  | error m => rfl
  | ok n => rfl

/-! ## The blobstore -/

/-- A configuration without a path prefix is rejected when it is loaded. -/
structure LocalBlobstoreConfig where
  pathPrefix : Bytes
  pathPrefix_ne : pathPrefix ≠ []

def reportWrite (message : Bytes) : Errno → GoError
  | .noSpace => .noSpaceLeft
  | e => .sys (message ++ ascii ". Caused by: " ++ e.text)

/-- `errors.Wrapf`, except for a full disk. -/
def wrapWrite (message : Bytes) : Errno → GoError
  | .noSpace => .noSpaceLeft
  | e => .wrapped message (.sys e.text)

theorem run_osRemoveAll (path : Path) (d : Disk) :
    (osRemoveAll path).run d = (.returned (if d.resolve path = [] then .error .busy else .ok ()),
      { d with touched := d.touched ++ [path], tree := d.tree.removeAll (d.resolve path) }) := rfl

namespace LocalBlobstoreConfig
variable (blobstore : LocalBlobstoreConfig)

def fullPath (path : Bytes) : Path := filepathJoin blobstore.pathPrefix path

def existsBlob (path : Bytes) : Prog GoError Disk (Result Bool) := do
  match ← osStat (blobstore.fullPath path) with
  | .error .noEntry => pure (.ok false)
  | .error e => pure (.error (.sys (ascii "Could not stat on " ++
      pathText (blobstore.fullPath path) ++ ascii ". Caused by: " ++ e.text)))
  | .ok _ => pure (.ok true)

def headOrRedirectAsGet (path : Bytes) : Prog GoError Disk (Result Bytes) := do
  match ← osStat (blobstore.fullPath path) with
  | .error .noEntry => pure (.error .newNotFoundError)
  | .error e => pure (.error (.sys (ascii "Error while opening file " ++ path ++
      ascii ". Caused by: " ++ e.text)))
  | .ok _ => pure (.ok [])

def get (path : Bytes) : Prog GoError Disk (Result Body) := do
  match ← osOpen (blobstore.fullPath path) with
  | .error .noEntry => pure (.error .newNotFoundError)
  | .error e => pure (.error (.sys (ascii "Error while opening file " ++ path ++
      ascii ". Caused by: " ++ e.text)))
  | .ok body => pure (.ok body)

def getOrRedirect (path : Bytes) : Prog GoError Disk (Result (Option Body × Bytes)) := do
  match ← blobstore.get path with
  | .error e => pure (.error e)
  | .ok body => pure (.ok (some body, []))

def put (path src : Bytes) : Prog GoError Disk (Result Unit) := do
  match ← osMkdirAll (blobstore.fullPath path).dir with
  | .error e =>
    pure (.error (reportWrite (ascii "Error while creating directories for " ++ path) e))
  | .ok () =>
    match ← osCreate (blobstore.fullPath path) with
    | .error e => pure (.error (reportWrite (ascii "Error while creating file " ++ path) e))
    | .ok () =>
      match ← ioCopyTo (blobstore.fullPath path) src with
      | .error e => pure (.error (reportWrite (ascii "Error while writing file " ++ path) e))
      | .ok () => pure (.ok ())

/-- What fails in `Copy`, with the full paths of its two files. -/
def copyMessage (what src dest : Bytes) : Bytes :=
  what ++ ascii " (src=" ++ pathText (blobstore.fullPath src) ++ ascii ", dest=" ++
    pathText (blobstore.fullPath dest) ++ ascii ")"

/-- The source is open while the destination is created: when both are one file, it is empty by the
time it is read. -/
def copy (src dest : Bytes) : Prog GoError Disk (Result Unit) := do
  match ← osOpen (blobstore.fullPath src) with
  | .error .noEntry => pure (.error .newNotFoundError)
  | .error e =>
    pure (.error (wrapWrite (blobstore.copyMessage (ascii "Opening src failed.") src dest) e))
  | .ok body =>
    match ← osMkdirAll (blobstore.fullPath dest).dir with
    | .error e =>
      pure (.error (wrapWrite (blobstore.copyMessage (ascii "Make dir failed.") src dest) e))
    | .ok () =>
      match ← osCreate (blobstore.fullPath dest) with
      | .error e =>
        pure (.error (wrapWrite (blobstore.copyMessage (ascii "Creating dest failed.") src dest) e))
      | .ok () =>
        let d ← getState
        let copyingFailed := blobstore.copyMessage (ascii "Copying failed.") src dest
        match body.failure with
        | some e => pure (.error (.wrapped copyingFailed e))
        | none =>
          match ← ioCopyTo (blobstore.fullPath dest)
              ((d.file (d.resolve (blobstore.fullPath src))).getD []) with
          | .error e => pure (.error (wrapWrite copyingFailed e))
          | .ok () => pure (.ok ())

def delete (path : Bytes) : Prog GoError Disk (Result Unit) := do
  match ← osStat (blobstore.fullPath path) with
  | .error .noEntry => pure (.error .newNotFoundError)
  | _ =>
    match ← osRemoveAll (blobstore.fullPath path) with
    | .error e => pure (.error (reportWrite (ascii "Error while deleting file " ++ path) e))
    | .ok () => pure (.ok ())

def deleteDir (pre : Bytes) : Prog GoError Disk (Result Unit) := do
  match ← osRemoveAll (blobstore.fullPath pre) with
  | .error e => pure (.error (wrapWrite
      (ascii "Failed to delete path " ++ pathText (blobstore.fullPath pre)) e))
  | .ok () => pure (.ok ())

/-! ## What reading operations answer -/

theorem run_existsBlob_of_node {path : Bytes} {d : Disk} {n : Node Bytes}
    (h : d.tree.node (d.resolve (blobstore.fullPath path)) = some n) :
    (blobstore.existsBlob path).run d = (.returned (.ok true),
      { d with touched := d.touched ++ [blobstore.fullPath path] }) := by
  rw [existsBlob, run_bind, run_osStat, FileTree.stat_of_node h]
  rfl

theorem run_existsBlob_of_none {path : Bytes} {d : Disk}
    (h : d.tree.node (d.resolve (blobstore.fullPath path)) = none) :
    ∃ r, r ≠ .ok true ∧ (blobstore.existsBlob path).run d = (.returned r,
      { d with touched := d.touched ++ [blobstore.fullPath path] }) := by
  rw [existsBlob, run_bind, run_osStat, FileTree.stat, h]
  cases d.tree.blocked (d.resolve (blobstore.fullPath path)) with
  | true => exact ⟨.error _, by simp, rfl⟩
  | false => exact ⟨.ok false, by simp, rfl⟩

theorem existsBlob_touched (path : Bytes) (d : Disk) :
    ((blobstore.existsBlob path).run d).2 =
      { d with touched := d.touched ++ [blobstore.fullPath path] } := by
  cases h : d.tree.node (d.resolve (blobstore.fullPath path)) with
  | some n => rw [blobstore.run_existsBlob_of_node h]
  | none =>
    obtain ⟨r, -, hr⟩ := blobstore.run_existsBlob_of_none h
    rw [hr]

theorem run_get_of_node {path : Bytes} {d : Disk} {n : Node Bytes}
    (h : d.tree.node (d.resolve (blobstore.fullPath path)) = some n) :
    (blobstore.get path).run d = (.returned (.ok (bodyOf n)),
      { d with touched := d.touched ++ [blobstore.fullPath path] }) := by
  rw [get, run_bind, run_osOpen, FileTree.stat_of_node h]
  rfl

theorem run_get_of_none {path : Bytes} {d : Disk}
    (h : d.tree.node (d.resolve (blobstore.fullPath path)) = none) :
    ∃ e, (blobstore.get path).run d = (.returned (.error e),
      { d with touched := d.touched ++ [blobstore.fullPath path] }) := by
  rw [get, run_bind, run_osOpen, FileTree.stat, h]
  cases d.tree.blocked (d.resolve (blobstore.fullPath path)) with
  | true => exact ⟨_, rfl⟩
  | false => exact ⟨_, rfl⟩

theorem get_touched (path : Bytes) (d : Disk) :
    ((blobstore.get path).run d).2 =
      { d with touched := d.touched ++ [blobstore.fullPath path] } := by
  cases h : d.tree.node (d.resolve (blobstore.fullPath path)) with
  | some n => rw [blobstore.run_get_of_node h]
  | none =>
    obtain ⟨e, he⟩ := blobstore.run_get_of_none h
    rw [he]

theorem get_eq_whole_iff {path : Bytes} {d : Disk} {content : Bytes} :
    ((blobstore.get path).run d).1 = .returned (.ok (.whole content)) ↔
      d.tree.node (d.resolve (blobstore.fullPath path)) = some (.file content) := by
  cases h : d.tree.node (d.resolve (blobstore.fullPath path)) with
  | none =>
    obtain ⟨e, hrun⟩ := blobstore.run_get_of_none h
    simp [hrun]
  | some n =>
    rw [blobstore.run_get_of_node h]
    cases n with
    | dir => simp [bodyOf, Body.whole]
    | file content' => simp [bodyOf, Body.whole]

theorem run_delete_stored {path : Bytes} {d : Disk} {n : Node Bytes}
    (h : d.tree.node (d.resolve (blobstore.fullPath path)) = some n) :
    (blobstore.delete path).run d =
      (.returned (if d.resolve (blobstore.fullPath path) = [] then
          .error (reportWrite (ascii "Error while deleting file " ++ path) .busy) else .ok ()),
        { d with
          touched := d.touched ++ [blobstore.fullPath path] ++ [blobstore.fullPath path]
          tree := d.tree.removeAll (d.resolve (blobstore.fullPath path)) }) := by
  have hres : Disk.resolve { d with touched := d.touched ++ [blobstore.fullPath path] }
      (blobstore.fullPath path) = d.resolve (blobstore.fullPath path) := rfl
  rw [delete, run_bind, run_osStat, FileTree.stat_of_node h]
  simp only [Except.mapError]
  rw [run_bind, run_osRemoveAll]
  by_cases hroot : d.resolve (blobstore.fullPath path) = []
  · simp only [hres, if_pos hroot]
    rfl
  · simp only [hres, if_neg hroot]
    rfl

theorem run_delete_of_node {path : Bytes} {d : Disk} {n : Node Bytes}
    (h : d.tree.node (d.resolve (blobstore.fullPath path)) = some n) :
    ∃ r d', (blobstore.delete path).run d = (.returned r, d') ∧ d'.cwd = d.cwd ∧
      d'.tree = d.tree.removeAll (d.resolve (blobstore.fullPath path)) :=
  ⟨_, _, blobstore.run_delete_stored h, rfl, rfl⟩

section Missing
variable {blobstore} {path : Bytes} {d : Disk}
  (h : d.tree.stat (d.resolve (blobstore.fullPath path)) = .error .noEntry)
include h

theorem run_existsBlob_missing : (blobstore.existsBlob path).run d =
    (.returned (.ok false), { d with touched := d.touched ++ [blobstore.fullPath path] }) := by
  rw [existsBlob, run_bind, run_osStat, h]
  rfl

theorem run_headOrRedirectAsGet_missing : (blobstore.headOrRedirectAsGet path).run d =
    (.returned (.error .newNotFoundError),
      { d with touched := d.touched ++ [blobstore.fullPath path] }) := by
  rw [headOrRedirectAsGet, run_bind, run_osStat, h]
  rfl

theorem run_get_missing : (blobstore.get path).run d =
    (.returned (.error .newNotFoundError),
      { d with touched := d.touched ++ [blobstore.fullPath path] }) := by
  rw [get, run_bind, run_osOpen, h]
  rfl

theorem run_delete_missing : (blobstore.delete path).run d =
    (.returned (.error .newNotFoundError),
      { d with touched := d.touched ++ [blobstore.fullPath path] }) := by
  rw [delete, run_bind, run_osStat, h]
  rfl

end Missing

theorem run_headOrRedirectAsGet_of_node {path : Bytes} {d : Disk}
    {n : Node Bytes} (h : d.tree.node (d.resolve (blobstore.fullPath path)) = some n) :
    (blobstore.headOrRedirectAsGet path).run d =
      (.returned (.ok []), { d with touched := d.touched ++ [blobstore.fullPath path] }) := by
  rw [headOrRedirectAsGet, run_bind, run_osStat, FileTree.stat_of_node h]
  rfl

theorem run_deleteDir (pre : Bytes) (d : Disk) :
    (blobstore.deleteDir pre).run d = (.returned (if d.resolve (blobstore.fullPath pre) = [] then
        .error (wrapWrite
          (ascii "Failed to delete path " ++ pathText (blobstore.fullPath pre)) .busy)
        else .ok ()),
      { d with
        touched := d.touched ++ [blobstore.fullPath pre]
        tree := d.tree.removeAll (d.resolve (blobstore.fullPath pre)) }) := by
  rw [deleteDir, run_bind, run_osRemoveAll]
  by_cases hroot : d.resolve (blobstore.fullPath pre) = []
  · simp only [if_pos hroot]
    rfl
  · simp only [if_neg hroot]
    rfl

end LocalBlobstoreConfig

def newLocalBlobstore (localConfig : LocalBlobstoreConfig) : Blobstore Disk where
  existsBlob := localConfig.existsBlob
  get := localConfig.get
  put := localConfig.put
  delete := localConfig.delete
  deleteDir := localConfig.deleteDir
  headOrRedirectAsGet := localConfig.headOrRedirectAsGet
  getOrRedirect := localConfig.getOrRedirect
  copy := localConfig.copy

end BitsService
