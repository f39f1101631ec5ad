import Gost.Lib.Bytes

/-!
# TLS records on the wire

The record layer and the `ServerHello` message, as they are sent. A record is a type, a version, a
length of two bytes and the fragment of that length.
-/

namespace TlsRecord

open Bytes

/-! ## Records -/

def changeCipherSpec : UInt8 := 0x14

def handshake : UInt8 := 0x16

def applicationData : UInt8 := 0x17

def versionTLS10 : ℕ := 0x0301

def versionTLS12 : ℕ := 0x0303

structure Record where
  type : UInt8
  version : ℕ
  fragment : Bytes
deriving DecidableEq, Repr

/-- What stands before the fragment. -/
def Record.header (r : Record) : Bytes :=
  r.type :: putBigEndian 2 r.version ++ putBigEndian 2 r.fragment.length

def Record.encode (r : Record) : Bytes := r.header ++ r.fragment

/-! ## The server's hello -/

structure Extension where
  type : ℕ
  data : Bytes
deriving DecidableEq, Repr

def Extension.encode (e : Extension) : Bytes :=
  putBigEndian 2 e.type ++ putBigEndian 2 e.data.length ++ e.data

structure ServerHello where
  version : ℕ
  random : Bytes
  sessionID : Bytes
  cipherSuite : ℕ
  compressionMethod : UInt8
  extensions : List Extension
deriving DecidableEq, Repr

/-- What stands behind the length of the message. -/
def ServerHello.body (m : ServerHello) : Bytes :=
  let extensions := m.extensions.flatMap Extension.encode
  putBigEndian 2 m.version ++ m.random ++ UInt8.ofNat m.sessionID.length :: m.sessionID ++
    putBigEndian 2 m.cipherSuite ++ m.compressionMethod ::
      putBigEndian 2 extensions.length ++ extensions

def ServerHello.encode (m : ServerHello) : Bytes :=
  0x02 :: putBigEndian 3 m.body.length ++ m.body

end TlsRecord
