import JumpscaleX.Library.Runs
import Mathlib.Logic.Function.Basic

/-!
# File locks

The `FileLock` objects on one file name, in any number of processes.  The file,
the descriptors of the processes and the objects change by the steps that Python
takes: the test of `acquire`, its exclusive creation, the two halves of `release`.
-/

namespace JumpscaleX.FileLocks

/-- What an open file of a process belongs to. -/
inductive Descriptor
  | closed
  | lockFile
  | other
  deriving DecidableEq, Repr

/-- Where an object is in the method that its owner calls. -/
inductive Phase
  | idle
  | testing (timed : Bool)
  | creating
  | removing (last : Bool)
  | gone
  deriving DecidableEq, Repr

/-- An object.  `held` is no field of the source: it is set by the normal return
of `acquire`, and taken away by the end of `release`. -/
structure FileLock where
  fd : Option Nat
  phase : Phase
  held : Bool
  deriving DecidableEq, Repr

inductive LockError
  | fileLockException
  | fileExistsError
  | badFileDescriptor
  deriving DecidableEq, Repr

/-- How a call ends. -/
inductive Ending
  | returned
  | raised (error : LockError)
  deriving DecidableEq, Repr

/-- Steps of the objects, and of the other code in their processes. -/
inductive Action (L P : Type)
  | acquire (lock : L) (timed : Bool)
  | test (lock : L) (elapsed : Bool)
  | create (lock : L) (fd : Nat)
  | release (lock : L) (last : Bool)
  | remove (lock : L)
  | otherOpens (process : P) (fd : Nat)
  | otherCloses (process : P) (fd : Nat)
  deriving DecidableEq, Repr

structure Host (L P : Type) where
  file : Bool
  locks : L → FileLock
  files : P → Nat → Descriptor

/-- `FileLock.__init__`. -/
def FileLock.init : FileLock where
  fd := none
  phase := .idle
  held := false

/-- `if self.fd`: descriptor 0 counts as none. -/
def FileLock.hasFd (lock : FileLock) : Bool :=
  lock.fd.any (fun fd => decide (fd ≠ 0))

namespace Host

variable {L P : Type} [DecidableEq L] [DecidableEq P]

/-- No object has been used, and there is no lock file. -/
def start (files : P → Nat → Descriptor) : Host L P where
  file := false
  locks := fun _ => .init
  files := files

def set (s : Host L P) (lock : L) (value : FileLock) : Host L P :=
  { s with locks := Function.update s.locks lock value }

def setFd (s : Host L P) (process : P) (fd : Nat) (descriptor : Descriptor) : Host L P :=
  { s with files :=
      Function.update s.files process (Function.update (s.files process) fd descriptor) }

/-- `FileLock.locked`. -/
def locked (s : Host L P) : Bool := s.file

def acquire (s : Host L P) (lock : L) (timed : Bool) : Host L P × Option Ending :=
  match (s.locks lock).phase with
  | .idle => (s.set lock { s.locks lock with phase := .testing timed }, none)
  | _ => (s, none)

/-- One turn of the loop of `acquire`, up to the creation or the sleep. -/
def test (s : Host L P) (lock : L) (elapsed : Bool) : Host L P × Option Ending :=
  match (s.locks lock).phase with
  | .testing timed =>
      if s.locked then
        if (s.locks lock).hasFd then
          (s.set lock { s.locks lock with phase := .idle, held := true }, some .returned)
        else if !timed || elapsed then
          (s.set lock { s.locks lock with phase := .idle }, some (.raised .fileLockException))
        else
          (s, none)
      else
        (s.set lock { s.locks lock with phase := .creating }, none)
  | _ => (s, none)

/-- `os.open` with `O_CREAT | O_EXCL`; the kernel gives a descriptor that the process
does not use. -/
def create (processOf : L → P) (s : Host L P) (lock : L) (fd : Nat) :
    Host L P × Option Ending :=
  match (s.locks lock).phase with
  | .creating =>
      if s.file then
        (s.set lock { s.locks lock with phase := .idle }, some (.raised .fileExistsError))
      else if s.files (processOf lock) fd = .closed then
        ({ s with file := true }.set lock ⟨some fd, .idle, true⟩
          |>.setFd (processOf lock) fd .lockFile, some .returned)
      else
        (s, none)
  | _ => (s, none)

/-- `os.close`, with the descriptor that the object remembers. -/
def closeFd (processOf : L → P) (s : Host L P) (lock : L) : Option (Host L P) :=
  match (s.locks lock).fd with
  | some fd =>
      if s.files (processOf lock) fd = .closed then none
      else some (s.setFd (processOf lock) fd .closed)
  | none => some s

/-- `release` up to the removal of the file; `last` when the destructor calls it,
where what it raises is ignored. -/
def release (processOf : L → P) (s : Host L P) (lock : L) (last : Bool) :
    Host L P × Option Ending :=
  match (s.locks lock).phase with
  | .idle =>
      let removing := { s.locks lock with phase := .removing last }
      if (s.locks lock).hasFd && s.locked then
        match s.closeFd processOf lock with
        | some closed => (closed.set lock removing, none)
        | none =>
            (s.set lock { s.locks lock with
              phase := if last then .gone else .idle
              held := (s.locks lock).held && !last },
              if last then none else some (.raised .badFileDescriptor))
      else
        (s.set lock removing, none)
  | _ => (s, none)

/-- `j.sal.fs.remove`, which does nothing when there is no file. -/
def remove (s : Host L P) (lock : L) : Host L P × Option Ending :=
  match (s.locks lock).phase with
  | .removing last =>
      ({ s with file := false }.set lock
        { s.locks lock with phase := if last then .gone else .idle, held := false },
        some .returned)
  | _ => (s, none)

/-- What other code of the process does with descriptors of its own. -/
def otherOpens (s : Host L P) (process : P) (fd : Nat) : Host L P :=
  if s.files process fd = .closed then s.setFd process fd .other else s

def otherCloses (s : Host L P) (process : P) (fd : Nat) : Host L P :=
  if s.files process fd = .other then s.setFd process fd .closed else s

def perform (processOf : L → P) (s : Host L P) : Action L P → Host L P × Option Ending
  | .acquire lock timed => s.acquire lock timed
  | .test lock elapsed => s.test lock elapsed
  | .create lock fd => s.create processOf lock fd
  | .release lock last => s.release processOf lock last
  | .remove lock => s.remove lock
  | .otherOpens process fd => (s.otherOpens process fd, none)
  | .otherCloses process fd => (s.otherCloses process fd, none)

/-- One step; a step that no object can take changes nothing. -/
def step (processOf : L → P) (s : Host L P) (action : Action L P) : Host L P :=
  (s.perform processOf action).1

def ending (processOf : L → P) (s : Host L P) (action : Action L P) : Option Ending :=
  (s.perform processOf action).2

end Host

end JumpscaleX.FileLocks
