import Clipp.Clipboard.Wire
import Clipp.Gateway.Intake

open Foundation

namespace ClippModel.Gateway

open ClippModel.Registers ClippModel.Wire ClippModel.Wire.CryptoChannel ClippModel.Wire.RegisterWire
  ClippModel.Wire.Peer ClippModel.Clipboard ClippModel.Clipboard.ClipboardPayload
  ClippModel.Clipboard.ClipboardWire

def tagROKP : Bytes := [0x52, 0x4F, 0x4B, 0x50]

def blankItem (formatId : UInt32) : ClipboardPayload :=
  { meta_ := { ClipboardMessage.zero with formatId := formatId }, encoded := [] }

/-- The payload every path builds from a record: the stream behind a binary header, or the text and its
    terminator. -/
def buildItem (C : Codec) (rec : RegisterRecord) : Option ClipboardPayload :=
  if rec.isBinary then
    match tryParseBinaryValue rec.value with
    | none => none
    | some info => setUncompressedBytes C (blankItem info.formatId) (rec.value.drop info.streamOffset)
  else setUncompressedBytes C (blankItem clippFormatUtf8) (rec.value ++ [0])

def makeRegisterCurrent (C : Codec) (stamp : OriginStamp) (s : RegisterStore) (t : Readings) (name : Bytes) :
    Option ClipboardPayload × RegisterStore :=
  let read := s.read t name
  match read.result with
  | none => (none, read.store)
  | some rec => match buildItem C rec with
    | none => (none, read.store)
    | some payload =>
      let marked := if rec.isPrivate then payload.addFlags clpmFlagSourceMarkedPrivate else payload
      (some (marked.stampOrigin stamp), read.store)

structure PutAnswer where
  routed : Option ClipboardPayload
  reply : Bytes
  store : RegisterStore

/-- `hasCallback` tells an incoming connection, which hands clipboard items on, from an outgoing one. -/
def handleRput (C : Codec) (hasCallback : Bool) (stamp : OriginStamp) (s : RegisterStore) (t : Readings)
    (body : Bytes) : PutAnswer :=
  match tryDecodeName body with
  | none => { routed := none, reply := tagNONE, store := s }
  | some name =>
    if !isValidRegisterName name then { routed := none, reply := tagNONE, store := s }
    else
      let read := s.read t name
      match read.result with
      | none => { routed := none, reply := tagNONE, store := read.store }
      | some rec => match buildItem C rec with
        | none => { routed := none, reply := tagRERR, store := read.store }
        | some payload =>
          let relayed := (payload.stampOrigin stamp).addFlags clpmFlagRelay
          if hasCallback then { routed := some relayed, reply := tagROKP, store := read.store }
          else { routed := none, reply := tagRERR, store := read.store }

def handleRget (carries : Transport) (s : RegisterStore) (t : Readings) (body : Bytes) (sent : List Bytes) :
    RegisterStore × List Bytes :=
  let missing := (sendFrame carries sent tagNONE [] []).2
  match tryDecodeName body with
  | none => (s, missing)
  | some name =>
    if !isValidRegisterName name then (s, missing)
    else
      let read := s.read t name
      match read.result with
      | none => (read.store, missing)
      | some rec => (read.store, (sendFrame carries sent tagREGW (u32Sized (encodeRecord rec 0)) []).2)

end ClippModel.Gateway

namespace ClippModel.Cli

open ClippModel.Registers ClippModel.Wire ClippModel.Wire.CryptoChannel ClippModel.Wire.RegisterWire
  ClippModel.Wire.Peer ClippModel.Clipboard ClippModel.Clipboard.ClipboardPayload
  ClippModel.Clipboard.ClipboardWire ClippModel.Gateway

inductive Fetched where
  | record (rec : RegisterRecord)
  | absent
  | failed

/-- Records of other names and frames of other kinds are passed over. -/
def fetchRecord (name : Bytes) : List Bytes → Fetched
  | [] => .failed
  | frame :: rest =>
    if frame.length < 4 then .failed
    else if frame.take 4 = tagREGW then
      match tryDecodeRecord (frame.drop 4) with
      | none => .failed
      | some (candidate, _) => if candidate.name ≠ name then fetchRecord name rest else .record candidate
    else if frame.take 4 = tagNONE then .absent
    else fetchRecord name rest

def runPut (C : Codec) (stamp : OriginStamp) (carries : Transport) (sent : List Bytes) (name : Bytes)
    (incoming : List Bytes) : Option ClipboardPayload :=
  match fetchRecord name incoming with
  | .record rec => match buildItem C rec with
    | none => none
    | some payload =>
      let relayed := (payload.stampOrigin stamp).addFlags clpmFlagRelay
      if (sendClipboardPayload carries sent relayed).1 then some relayed else none
  | _ => none

end ClippModel.Cli
