import EosBase.Lib.Bytes
import EosBase.Lib.Fallible

/-!
# The system call interface

The part of the `syscall` crate that the schemes share: the error numbers that
they answer with, and the bits of the flags that they test.  Words are read from
buffers by `read_num`, and names are cut at slashes, in more than one of them.
-/

namespace EosBase.Redox

inductive Errno where
  | EPERM
  | ENOENT
  | ESRCH
  | EINTR
  | EIO
  | EBADF
  | ECHILD
  | EAGAIN
  | EWOULDBLOCK
  | ENOMEM
  | EACCES
  | EEXIST
  | EXDEV
  | ENODEV
  | ENOTDIR
  | EISDIR
  | EINVAL
  | ENFILE
  | EPIPE
  | ERANGE
  | ENOLCK
  | ENOSYS
  | ENOTEMPTY
  | EPROTO
  | EOVERFLOW
  | EBADFD
  | ERESTART
  | EMSGSIZE
  | ENOPROTOOPT
  | EOPNOTSUPP
  | EAFNOSUPPORT
  | EADDRINUSE
  | ENOBUFS
  | EISCONN
  | ENOTCONN
  | ETIMEDOUT
  | ECONNREFUSED
  | ECANCELED
  | EOWNERDEAD
  /-- What a system call of the daemon itself failed with. -/
  | kernel (code : Nat)
  deriving DecidableEq, Repr

abbrev Result := Except Errno

def okOr {Value : Type} (error : Errno) : Option Value → Result Value
  | some value => .ok value
  | none => .error error

theorem okOr_ok {Value : Type} {error : Errno} {found} {value : Value}
    (done : okOr error found = .ok value) : found = some value := by
  cases found with
  | none => cases done
  | some found =>
    cases done
    rfl

/-- How a handler ends when it has no result. -/
inductive Fault where
  | panic
  | errno (error : Errno)
  deriving DecidableEq, Repr

abbrev Served := Except Fault

def orErrno {Value : Type} (error : Errno) : Option Value → Served Value
  | some value => .ok value
  | none => .error (.errno error)

theorem orErrno_ok {Value : Type} {error : Errno} {found} {value : Value}
    (done : orErrno error found = .ok value) : found = some value := by
  cases found with
  | none => cases done
  | some found =>
    cases done
    rfl

/-- A path or a file name, as the bytes of a `String`. -/
abbrev Name := List UInt8

/-- `'/'`. -/
def slash : UInt8 := 0x2f

/-- `"."`. -/
def dot : Name := [0x2e]

/-- `".."`. -/
def dotDot : Name := [0x2e, 0x2e]

/-- `"/scheme/"`. -/
def schemeDir : Name := [0x2f, 0x73, 0x63, 0x68, 0x65, 0x6d, 0x65, 0x2f]

abbrev Fd := Nat

def wordSize : Nat := 8

/-- `read_num` of so many bytes. -/
def readNum (width : Nat) (buffer : List UInt8) : Result Nat :=
  okOr .EINVAL ((slice? buffer 0 width).map ofLeBytes)

def O_RDONLY : Nat := 0x00010000
def O_WRONLY : Nat := 0x00020000
def O_RDWR : Nat := 0x00030000
def O_NONBLOCK : Nat := 0x00040000
def O_CREAT : Nat := 0x02000000
def O_TRUNC : Nat := 0x04000000
def O_EXCL : Nat := 0x08000000
def O_DIRECTORY : Nat := 0x10000000
def O_STAT : Nat := 0x20000000
def O_ACCMODE : Nat := O_RDONLY ||| O_WRONLY ||| O_RDWR

def nonblock (flags : Nat) : Bool := flags &&& O_NONBLOCK == O_NONBLOCK

def creating (flags : Nat) : Bool := flags &&& O_CREAT == O_CREAT

def AT_REMOVEDIR : Nat := 0x200

def MODE_TYPE : Nat := 0xF000
def MODE_DIR : Nat := 0x4000
def MODE_FILE : Nat := 0x8000
def MODE_PERM : Nat := 0x0FFF

end EosBase.Redox
