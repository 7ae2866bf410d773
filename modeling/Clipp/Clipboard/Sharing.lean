import Clipp.Clipboard.Actions
import Clipp.Clipboard.Receive
import Clipp.Clipboard.Relaunch
import Clipp.Gateway.Promotion

open Foundation

namespace ClippModel.Clipboard

open ClippModel.Persistence ClippModel.Registers ClippModel.Registers.RegisterStore ClippModel.Wire.RegisterWire
  ClippModel.Clipboard.ClipboardPayload

def isClippImageFormat (formatId : UInt32) : Bool := formatId = clippFormatPng ∨ formatId = clippFormatJpeg

structure Occasion where
  clock : ActivityClock
  access : ClipboardAccess
  readings : Readings

structure Sharer (β : Type) extends Receiver β where
  undoSlot : UndoSlot
  localHost : HostId
  sent : List Sent

def reshared (nowMs : UInt64) (stored : ClipboardPayload) : ClipboardPayload :=
  let clone := clearTransportFlags stored
  { clone with meta_ := { clone.meta_ with timestamp := max nowMs (stored.meta_.timestamp + 1) } }

/-- The value and the flags a register takes over from an item: the logical text, or the image behind a header. -/
def registerContent (markPrivate : Bool) (formatId : UInt32) (bytes : Bytes) : Option (Bytes × UInt8) :=
  let flags := if markPrivate then RegisterFlags.private_ else 0
  if isClippTextFormat formatId then some (logicalText bytes, flags)
  else if isClippImageFormat formatId then
    some (encodeBinaryValue formatId bytes, flags ||| RegisterFlags.binaryHeader)
  else none

namespace Sharer

variable {β : Type}

/-- The clipboard is written first, and always: the user said to make this the clipboard. -/
def applyAndBroadcastPayload (C : Codec) (render : ClipboardPayload → Option β) (d : Sharer β) (occasion : Occasion)
    (payload : ClipboardPayload) : Sharer β :=
  let written := setClipboardData render d.clipboard d.guard occasion.access payload true true
  { d with
    clipboard := written.1
    guard := written.2
    activity := (d.activity.addItem occasion.clock payload).store
    registers := mirrorClipboardToDefaultRegister C d.registers occasion.readings payload
    sent := d.sent ++ [.clipboard payload] }

def reshareActivityItem (C : Codec) (render : ClipboardPayload → Option β) (d : Sharer β) (occasion : Occasion)
    (nowMs : UInt64) (itemID : Nat) : Bool × Sharer β :=
  match d.activity.payloadReference itemID with
  | none => (false, d)
  | some stored =>
    if stored.isPrivatePlaceholder then (false, d)
    else (true, { d.applyAndBroadcastPayload C render occasion (reshared nowMs stored) with undoSlot := .none })

def makeRegisterCurrent (C : Codec) (render : ClipboardPayload → Option β) (d : Sharer β) (t : Readings)
    (stamp : OriginStamp) (occasion : Occasion) (name : Bytes) : Bool × Sharer β :=
  let made := Gateway.makeRegisterCurrent C { stamp with originHostId := d.localHost } d.registers t name
  let read := { d with registers := made.2 }
  match made.1 with
  | none => (false, read)
  | some payload => (true, { read.applyAndBroadcastPayload C render occasion payload with undoSlot := .none })

/-- `now` is the reading of the clock at the broadcast. -/
def saveActivityItemAsRegister (C : Codec) (d : Sharer β) (t : Readings) (now : UInt64) (itemID : Nat) (name : Bytes)
    (markPrivate : Bool) : Bool × Sharer β :=
  match d.activity.payloadReference itemID with
  | none => (false, d)
  | some stored =>
    match tryGetUncompressedBytes C stored with
    | none => (false, d)
    | some bytes =>
      if bytes.isEmpty then (false, d)
      else match registerContent markPrivate stored.meta_.formatId bytes with
        | none => (false, d)
        | some (value, flags) =>
          let wrote := d.registers.upsertWithFlags t name value flags d.localHost
          if wrote.result = .ok then
            let told := broadcastRegisterRecord wrote.store now name
            (true, { d with registers := told.1, undoSlot := .none, sent := d.sent ++ told.2 })
          else (false, { d with registers := wrote.store })

end Sharer

end ClippModel.Clipboard
