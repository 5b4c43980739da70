import EosBase.Redox.Syscall

/-!
# Unix domain sockets: messages

`ipcd/src/uds/mod.rs`: the packets that both kinds of sockets queue, how a
message is read from the buffer of `sendmsg`, and how one is written into the
buffer of `recvmsg`.

A file name or path is the bytes of a `String`.  Process credentials are kept as
the 32-bit words that are written.
-/

namespace EosBase.Uds

open Redox

structure Credential where
  pid : Nat
  uid : Nat
  gid : Nat
  deriving DecidableEq, Repr

structure AncillaryData where
  cred : Credential
  numFds : Nat
  name : Option Name
  deriving DecidableEq, Repr

def AncillaryData.new (cred : Credential) (name : Option Name) : AncillaryData :=
  ⟨cred, 0, name⟩

structure DataPacket where
  payload : List UInt8
  ancillaryData : AncillaryData
  readOffset : Nat
  ancillaryTaken : Bool
  deriving DecidableEq, Repr

def DataPacket.new (payload : List UInt8) (ancillaryData : AncillaryData) : DataPacket :=
  ⟨payload, ancillaryData, 0, false⟩

def cmsgHeaderLen : Nat := 16

def solSocket : Nat := 1

def scmRights : Nat := 1

def scmCredentials : Nat := 2

structure AncillaryDataHeader where
  level : Nat
  cType : Nat
  dataLen : Nat

def AncillaryDataHeader.fromStream (stream : List UInt8) : Result (Option AncillaryDataHeader) :=
  if stream.length < cmsgHeaderLen then
    .ok none
  else do
    let level ← readNum 4 stream
    let cType ← readNum 4 (stream.drop 4)
    let dataLen ← readNum wordSize (stream.drop 8)
    return some ⟨level, cType, dataLen⟩

namespace DataPacket

/-- The loop of `from_stream` over the control messages: the descriptors that they
announce together.  Every round takes a header, so there are fewer than bytes. -/
def countFds : Nat → List UInt8 → Nat → Result Nat
  | 0, _, numFds => .ok numFds
  | rounds + 1, stream, numFds => do
      match ← AncillaryDataHeader.fromStream stream with
      | none => return numFds
      | some header => do
          let rest := stream.drop cmsgHeaderLen
          let data ← okOr .EINVAL (slice? rest 0 header.dataLen)
          if header.level = solSocket ∧ header.cType = scmRights then do
            let more ← readNum wordSize data
            countFds rounds (rest.drop header.dataLen) ((numFds + more) % 2 ^ 64)
          else if header.level = solSocket ∧ header.cType = scmCredentials then
            countFds rounds (rest.drop header.dataLen) numFds
          else
            .error .EOPNOTSUPP

def fromStream (stream : List UInt8) (name : Option Name) (cred : Credential) :
    Result DataPacket := do
  let payloadLen ← readNum wordSize stream
  let payload ← okOr .EINVAL (slice? stream wordSize (wordSize + payloadLen))
  let numFds ← countFds stream.length (stream.drop (wordSize + payloadLen)) 0
  return .new payload { AncillaryData.new cred name with numFds := numFds }

end DataPacket

/-- `read_msghdr_info`: the sizes that the caller prepared, and the buffer with
them cleared. -/
def readMsghdrInfo (stream : List UInt8) : Result (Nat × Nat × List UInt8) :=
  if stream.length < 3 * wordSize then
    .error .EINVAL
  else do
    let preparedNameLen ← readNum wordSize stream
    let preparedWholeIovSize ← readNum wordSize (stream.drop wordSize)
    return (preparedNameLen, preparedWholeIovSize,
      List.replicate (3 * wordSize) 0 ++ stream.drop (3 * wordSize))

def overwrite (buffer : List UInt8) (offset : Nat) (data : List UInt8) : List UInt8 :=
  buffer.take offset ++ data ++ buffer.drop (offset + data.length)

/-- What `FpathWriter` leaves in a buffer of some size. -/
def fpathInner (scheme : Name) (path : Name) (room : Nat) : List UInt8 :=
  (schemeDir ++ scheme ++ slash :: path).take room

/-- `drop_fds`: the queue after it, and whether it held enough. -/
def dropFds (error : Errno) (fds : List Fd) (numFd : Nat) : List Fd × Result Unit :=
  (fds.drop numFd, if numFd ≤ fds.length then .ok () else .error error)

structure MsgWriter where
  buffer : List UInt8
  writtenLen : Nat

namespace MsgWriter

def new (buffer : List UInt8) : MsgWriter := ⟨buffer, 0⟩

def writeName (writer : MsgWriter) (name : Option Name) (nameBufSize : Nat) (scheme : Name) :
    MsgWriter :=
  if writer.buffer.length < writer.writtenLen + wordSize then
    { writer with writtenLen := writer.buffer.length }
  else
    match name with
    | some name =>
      let copyLen := min nameBufSize (writer.buffer.length - writer.writtenLen - wordSize)
      let written := fpathInner scheme name copyLen
      { buffer := overwrite (overwrite writer.buffer (writer.writtenLen + wordSize) written)
          writer.writtenLen (leBytes wordSize written.length)
        writtenLen := writer.writtenLen + wordSize + written.length }
    | none => { writer with writtenLen := writer.writtenLen + wordSize }

def writePayload (writer : MsgWriter) (payload : List UInt8) (fullLen iovSize : Nat) : MsgWriter :=
  if writer.buffer.length < writer.writtenLen + wordSize then
    { writer with writtenLen := writer.buffer.length }
  else
    let announced := overwrite writer.buffer writer.writtenLen (leBytes wordSize fullLen)
    let start := writer.writtenLen + wordSize
    let copyLen := min iovSize fullLen
    if announced.length < start + copyLen then
      ⟨announced, announced.length⟩
    else
      ⟨overwrite announced start (payload.take copyLen), start + copyLen⟩

/-- `write_cmsg`.  What has no room is marked by ones to the end of the buffer. -/
def writeCmsg (writer : MsgWriter) (level cType : Nat) (data : List UInt8) : MsgWriter × Bool :=
  let remaining := writer.buffer.length - writer.writtenLen
  if remaining < cmsgHeaderLen + data.length then
    (⟨overwrite writer.buffer writer.writtenLen (List.replicate remaining 1),
      writer.writtenLen + remaining⟩, false)
  else
    (⟨overwrite writer.buffer writer.writtenLen
        (leBytes 4 level ++ leBytes 4 cType ++ leBytes wordSize data.length ++ data),
      writer.writtenLen + cmsgHeaderLen + data.length⟩, true)

def writeRights (writer : MsgWriter) (numFds : Nat) : MsgWriter × Bool :=
  if numFds = 0 then (writer, true)
  else writer.writeCmsg solSocket scmRights (leBytes wordSize numFds)

def writeCredentials (writer : MsgWriter) (credential : Credential) : MsgWriter × Bool :=
  writer.writeCmsg solSocket scmCredentials
    (leBytes 4 credential.pid ++ leBytes 4 credential.uid ++ leBytes 4 credential.gid)

end MsgWriter

end EosBase.Uds
