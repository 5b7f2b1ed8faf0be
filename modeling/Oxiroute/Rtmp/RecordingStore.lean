import Oxiroute.Lib.Panic
import Oxiroute.Lib.Table

/-!
# The quotas of a recording store

Model of `RecordingStore` and `RecordingFile` of `crates/oxiroute-rtmp/src/recording_store.rs`: any
number of open recordings that share two counters, the bytes and the files of the root.

* The root is a table of the names of its files, and the size of each file by its inode. The process
  is the only one that changes it, and an unlink succeeds.
* A creation counts its file before it opens it, and a write reserves the growth it may cause before
  it writes: each of them is two steps, between which other recordings go on.
* Where a system call may fail or an incarnation may be retired, the operation carries the answer.

Subtractions are those of the source and may panic.
-/

namespace Oxiroute.Rtmp

open Lib

structure RecordingStoreLimits where
  maxBytes : Option ℕ
  maxFiles : Option ℕ
  maxActiveRecorders : ℕ
  deriving DecidableEq

/-- A write that has reserved its growth. -/
structure PendingWrite where
  requested : ℕ
  reserved : ℕ
  deriving DecidableEq

structure RecordingFile (Name : Type) where
  inode : ℕ
  partialName : Name
  finalRelativeName : Name
  position : ℕ
  length : ℕ
  partialExists : Bool
  fileAccounted : Bool
  maxBytes : Option ℕ
  preservePartial : Bool
  resumed : Bool
  locked : Bool
  writing : Option PendingWrite
  deriving DecidableEq

structure RecordingCommit (Name : Type) where
  relativeName : Name
  bytes : ℕ
  deriving DecidableEq

/-- The variants of `RecordingStoreError` that a commit returns. -/
inductive RecordingStoreError (Name : Type) where
  | finalizationCancelled (partialRelativeName : Name)
  | fileSync (partialRelativeName : Name)
  | partialOwnershipLost (partialRelativeName : Name)
  | publish (partialRelativeName : Name)
  | descriptorPublicationUnsupported (partialRelativeName : Name)
  | finalNameCollisions (partialRelativeName : Name)
  | publishedDirectorySync (recording : RecordingCommit Name)
  deriving DecidableEq

/-- The state of a `RecordingStore`, the root and the open recordings. `creating` are the creations
that have counted their file and not opened it yet, `leases` the recorders that hold one. -/
structure RecordingStore (Name : Type) where
  limits : RecordingStoreLimits
  bytesUsed : ℕ
  files : ℕ
  activeRecorders : ℕ
  root : Table Name ℕ
  size : ℕ → ℕ
  nextInode : ℕ
  handles : Table ℕ (RecordingFile Name)
  nextHandle : ℕ
  creating : ℕ
  leases : ℕ

/-- What the system answers when a creation opens its file. -/
structure CreateAnswers where
  opened : Bool
  locked : Bool
  active : Bool
  deriving DecidableEq

/-- What the system answers to a `linkat`. -/
inductive LinkAnswer where
  | linked
  | unsupported
  | failed
  deriving DecidableEq

/-- What the system and the other threads answer during a commit. -/
structure CommitAnswers where
  cancelled : Bool
  claimed : Bool
  synced : Bool
  cancelledLater : Bool
  active : Bool
  statted : Bool
  reclaimed : Bool
  begun : Bool
  link : LinkAnswer
  restatted : Bool
  rootSynced : Bool
  deriving DecidableEq

structure DropAnswers where
  claimed : Bool
  statted : Bool
  deriving DecidableEq

def maxNameAttempts : ℕ := 16

namespace RecordingStore

variable {Name : Type} [DecidableEq Name]

def bytesInRoot (s : RecordingStore Name) : ℕ := Table.total s.size s.root

/-- `scan_root`. -/
def scan (limits : RecordingStoreLimits) (root : Table Name ℕ) (size : ℕ → ℕ) (nextInode : ℕ) :
    Option (RecordingStore Name) :=
  let bytesUsed := root.entries.foldl (fun bytes e => min (bytes + size e.2) (2 ^ 64 - 1)) 0
  if limits.maxBytes.any (fun maximum => decide (maximum < bytesUsed)) ||
      limits.maxFiles.any (fun maximum => decide (maximum < Table.size root)) then none
  else
    some {
      limits := limits
      bytesUsed := bytesUsed
      files := Table.size root
      activeRecorders := 0
      root := root
      size := size
      nextInode := nextInode
      handles := ∅
      nextHandle := 0
      creating := 0
      leases := 0 }

section Names

variable (collision : Name → ℕ → Option Name)

/-- The names that are tried for a file, for `collision_recording_filename`. -/
def candidates (name : Name) : List Name :=
  name :: (((List.range (maxNameAttempts - 1)).map fun attempt =>
    collision name (attempt + 1)).takeWhile Option.isSome).filterMap id

/-- The first of them that is free. -/
def freeName (name : Name) (s : RecordingStore Name) : Option Name :=
  (candidates collision name).find? fun candidate => decide (candidate ∉ s.root)

/-! ## Creating and resuming -/

/-- `create_inner` until the file is counted. -/
def createBegin (claimed : Bool) (s : RecordingStore Name) : RecordingStore Name :=
  if !claimed then s
  else if s.limits.maxFiles.any fun maximum => decide (maximum ≤ s.files) then s
  else { s with files := s.files + 1, creating := s.creating + 1 }

/-- The rest of `create_inner`: `create_recording_entry`, and the file is no longer counted if that
fails. -/
def createEnd (name : Name) (lock : Bool) (maxBytes : Option ℕ) (answers : CreateAnswers)
    (s : RecordingStore Name) : Panics (RecordingStore Name) :=
  if s.creating = 0 then .ok s
  else do
    let s := { s with creating := s.creating - 1 }
    match s.freeName collision name with
    | none =>
      let files ← subSize s.files 1
      return { s with files := files }
    | some relativeName =>
      if !answers.opened || lock && !answers.locked || !answers.active then
        -- The entry that was created, if any, is unlinked again.
        let files ← subSize s.files 1
        return { s with files := files }
      else
        return { s with
          root := s.root.insert relativeName s.nextInode
          size := Function.update s.size s.nextInode 0
          nextInode := s.nextInode + 1
          handles := s.handles.insert s.nextHandle {
            inode := s.nextInode
            partialName := relativeName
            finalRelativeName := relativeName
            position := 0
            length := 0
            partialExists := true
            fileAccounted := true
            maxBytes := maxBytes
            preservePartial := false
            resumed := false
            locked := lock
            writing := none }
          nextHandle := s.nextHandle + 1 }

end Names

/-- Another recording has locked the file. -/
def lockedElsewhere (inode : ℕ) (s : RecordingStore Name) : Bool :=
  s.handles.entries.any fun e => decide (e.2.inode = inode) && e.2.locked

/-- `st_nlink`. -/
def links (inode : ℕ) (s : RecordingStore Name) : ℕ :=
  (s.root.entries.filter fun e => decide (e.2 = inode)).length

/-- `resume_with_options`; `valid` says that the file is a complete FLV file of the owner. -/
def resume (name : Name) (lock : Bool) (maxBytes : Option ℕ) (claimed valid active : Bool)
    (s : RecordingStore Name) : RecordingStore Name :=
  match s.root.lookup name with
  | none => s
  | some inode =>
    let length := s.size inode
    if !claimed || decide (s.links inode ≠ 1) || lock && s.lockedElsewhere inode ||
        maxBytes.any (fun maximum => decide (maximum < length)) || !valid || !active then s
    else
      { s with
        handles := s.handles.insert s.nextHandle {
          inode := inode
          partialName := name
          finalRelativeName := name
          position := length
          length := length
          partialExists := false
          fileAccounted := true
          maxBytes := maxBytes
          preservePartial := false
          resumed := true
          locked := lock
          writing := none }
        nextHandle := s.nextHandle + 1 }

/-! ## Writing -/

variable (handle : ℕ)

/-- The recording, unless a write of it is running: nothing else can use it then. -/
def idle (s : RecordingStore Name) : Option (RecordingFile Name) :=
  (s.handles.lookup handle).filter fun file => file.writing.isNone

def setFile (file : RecordingFile Name) (s : RecordingStore Name) : RecordingStore Name :=
  { s with handles := s.handles.insert handle file }

/-- `RecordingFile::write` until the growth is reserved. -/
def writeBegin (requested : ℕ) (claimed : Bool) (s : RecordingStore Name) : RecordingStore Name :=
  match s.idle handle with
  | none => s
  | some file =>
    if !claimed then s
    else
      let requestedEnd := file.position + requested
      if 2 ^ 64 ≤ requestedEnd then s
      else if file.maxBytes.any fun maximum => decide (maximum < requestedEnd) then s
      else
        let reservedGrowth := requestedEnd - file.length
        let newTotal := s.bytesUsed + reservedGrowth
        if 2 ^ 64 ≤ newTotal then s
        else if s.limits.maxBytes.any fun maximum => decide (maximum < newTotal) then s
        else
          { s.setFile handle { file with writing := some ⟨requested, reservedGrowth⟩ } with
            bytesUsed := newTotal }

/-- The rest of `RecordingFile::write`, for the bytes the system has written or none if it failed. A
write of no bytes leaves the file as it is, wherever its end may be. -/
def writeEnd (result : Option ℕ) (s : RecordingStore Name) : Panics (RecordingStore Name) :=
  match s.handles.lookup handle with
  | none => .ok s
  | some file =>
    match file.writing with
    | none => .ok s
    | some pending =>
      match result with
      | none => do
        let bytesUsed ← subSize s.bytesUsed pending.reserved
        return { s.setFile handle { file with writing := none } with bytesUsed := bytesUsed }
      | some written => do
        let written := min written pending.requested
        let actualEnd := file.position + written
        let actualGrowth := actualEnd - file.length
        let bytesUsed ←
          if actualGrowth < pending.reserved then
            subSize s.bytesUsed (pending.reserved - actualGrowth)
          else .ok s.bytesUsed
        return { s.setFile handle { file with
            position := actualEnd
            length := max file.length actualEnd
            writing := none } with
          bytesUsed := bytesUsed
          size := Function.update s.size file.inode
            (if written = 0 then s.size file.inode else max (s.size file.inode) actualEnd) }

/-- `RecordingFile::seek`, to where the system has moved. -/
def seek (position : ℕ) (claimed : Bool) (s : RecordingStore Name) : RecordingStore Name :=
  match s.idle handle with
  | none => s
  | some file => if claimed then s.setFile handle { file with position := position } else s

/-! ## Committing and dropping -/

/-- `partial_is_owned`, if the system can look the entry up. -/
def partialIsOwned (statted : Bool) (file : RecordingFile Name) (s : RecordingStore Name) : Bool :=
  statted && decide (s.root.lookup file.partialName = some file.inode)

def releaseMissingFileAccounting (file : RecordingFile Name) (s : RecordingStore Name) :
    Panics (RecordingFile Name × RecordingStore Name) :=
  if !file.fileAccounted then .ok (file, s)
  else do
    let files ← subSize s.files 1
    let bytesUsed ← subSize s.bytesUsed file.length
    return ({ file with fileAccounted := false }, { s with files := files, bytesUsed := bytesUsed })

/-- The drop of a `RecordingFile`. -/
def dropFile (answers : DropAnswers) (file : RecordingFile Name) (s : RecordingStore Name) :
    Panics (RecordingStore Name) :=
  if !file.fileAccounted && !file.partialExists then .ok s
  else if !answers.claimed then .ok s
  else
    let owned := s.partialIsOwned answers.statted file
    if file.resumed then
      if owned then .ok s
      else do
        let (_, s) ← s.releaseMissingFileAccounting file
        return s
    else do
      let unlinked := file.partialExists && !file.preservePartial && owned
      let removed := unlinked || !(file.partialExists && file.preservePartial && owned)
      let s := if unlinked then { s with root := s.root.erase file.partialName } else s
      if removed && file.fileAccounted then
        let files ← subSize s.files 1
        let bytesUsed ← subSize s.bytesUsed file.length
        return { s with files := files, bytesUsed := bytesUsed }
      else return s

section Names

variable (collision : Name → ℕ → Option Name)

/-- What a commit that has not panicked leaves behind. -/
abbrev Committed (Name : Type) :=
  Except (RecordingStoreError Name) (RecordingCommit Name)
    × RecordingFile Name × RecordingStore Name

variable (answers : CommitAnswers)

def publish (file : RecordingFile Name) (s : RecordingStore Name) :
    Panics (Except (RecordingStoreError Name) Name × RecordingFile Name × RecordingStore Name) :=
  match s.freeName collision file.finalRelativeName with
  | none => .ok (.error (.finalNameCollisions file.partialName), file, s)
  | some candidate =>
    match answers.link with
    | .unsupported => .ok (.error (.descriptorPublicationUnsupported file.partialName), file, s)
    | .failed =>
      if s.partialIsOwned answers.restatted file then
        .ok (.error (.publish file.partialName), file, s)
      else do
        let (file, s) ← s.releaseMissingFileAccounting { file with partialExists := false }
        return (.error (.partialOwnershipLost file.partialName), file, s)
    | .linked =>
      let linked := { s with root := s.root.insert candidate file.inode }
      if linked.partialIsOwned answers.restatted file then
        .ok (.ok candidate, file, { linked with root := linked.root.erase file.partialName })
      else .ok (.ok candidate, file, linked)

/-- The end of `commit_inner`, once the recording has its final name. -/
def published (relativeName : Name) (file : RecordingFile Name)
    (s : RecordingStore Name) : Committed Name :=
  let recording : RecordingCommit Name := ⟨relativeName, file.length⟩
  (if answers.rootSynced then .ok recording else .error (.publishedDirectorySync recording),
    { file with partialExists := false, fileAccounted := false }, s)

def commitInner (file : RecordingFile Name) (s : RecordingStore Name) : Panics (Committed Name) :=
  let file := { file with preservePartial := true }
  if answers.cancelled || !answers.claimed then
    .ok (.error (.finalizationCancelled file.partialName), file, s)
  else if !answers.synced then .ok (.error (.fileSync file.partialName), file, s)
  else if answers.cancelledLater || !answers.active then
    .ok (.error (.finalizationCancelled file.partialName), file, s)
  else if !s.partialIsOwned answers.statted file then do
    let (file, s) ← s.releaseMissingFileAccounting { file with partialExists := false }
    return (.error (.partialOwnershipLost file.partialName), file, s)
  else if !answers.reclaimed || !answers.begun then
    .ok (.error (.finalizationCancelled file.partialName), file, s)
  else if file.partialName = file.finalRelativeName then
    .ok (s.published answers file.finalRelativeName file)
  else do
    match ← s.publish collision answers file with
    | (.error e, file, s) => return (.error e, file, s)
    | (.ok relativeName, file, s) => return s.published answers relativeName file

/-- `commit`: the recording is dropped at its end. -/
def commit (handle : ℕ) (answers : CommitAnswers) (dropAnswers : DropAnswers)
    (s : RecordingStore Name) : Panics (RecordingStore Name) :=
  match s.idle handle with
  | none => .ok s
  | some file => do
    let (_, file, s) ← RecordingStore.commitInner collision answers file
      { s with handles := s.handles.erase handle }
    s.dropFile dropAnswers file

/-! ## Runs -/

inductive Op (Name : Type) where
  | createBegin (claimed : Bool)
  | createEnd (name : Name) (lock : Bool) (maxBytes : Option ℕ) (answers : CreateAnswers)
  | resume (name : Name) (lock : Bool) (maxBytes : Option ℕ) (claimed valid active : Bool)
  | writeBegin (handle requested : ℕ) (claimed : Bool)
  | writeEnd (handle : ℕ) (result : Option ℕ)
  | seek (handle position : ℕ) (claimed : Bool)
  | preserve (handle : ℕ)
  | setFinalRelativeName (handle : ℕ) (name : Name)
  | commit (handle : ℕ) (answers : CommitAnswers) (dropAnswers : DropAnswers)
  | drop (handle : ℕ) (answers : DropAnswers)
  | acquireRecorder
  | dropLease

def step (s : RecordingStore Name) : Op Name → Panics (RecordingStore Name)
  | .createBegin claimed => .ok (s.createBegin claimed)
  | .createEnd name lock maxBytes answers => s.createEnd collision name lock maxBytes answers
  | .resume name lock maxBytes claimed valid active =>
    .ok (s.resume name lock maxBytes claimed valid active)
  | .writeBegin handle requested claimed => .ok (s.writeBegin handle requested claimed)
  | .writeEnd handle result => s.writeEnd handle result
  | .seek handle position claimed => .ok (s.seek handle position claimed)
  | .preserve handle =>
    match s.handles.lookup handle with
    | none => .ok s
    | some file => .ok (s.setFile handle { file with preservePartial := true })
  | .setFinalRelativeName handle name =>
    match s.idle handle with
    | none => .ok s
    | some file => .ok (s.setFile handle { file with finalRelativeName := name })
  | .commit handle answers dropAnswers => s.commit collision handle answers dropAnswers
  | .drop handle answers =>
    match s.idle handle with
    | none => .ok s
    | some file => dropFile answers file { s with handles := s.handles.erase handle }
  | .acquireRecorder =>
    if s.limits.maxActiveRecorders ≤ s.activeRecorders then .ok s
    else .ok { s with activeRecorders := s.activeRecorders + 1, leases := s.leases + 1 }
  | .dropLease =>
    if s.leases = 0 then .ok s
    else do
      let activeRecorders ← subSize s.activeRecorders 1
      return { s with activeRecorders := activeRecorders, leases := s.leases - 1 }

def run (s : RecordingStore Name) (ops : List (Op Name)) : Panics (RecordingStore Name) :=
  ops.foldlM (step collision) s

end Names

end RecordingStore

end Oxiroute.Rtmp
