import Clipp.Clipboard.Activity
import Clipp.Clipboard.Mirror

open Foundation

namespace ClippModel.Clipboard

open ClippModel.Persistence ClippModel.Registers ClippModel.Clipboard.ClipboardPayload

structure ClipboardHashGuard where
  currentValid : Bool := false
  currentHashAlg : UInt8 := 0
  currentHash : Sized 64 := zeroBytes 64
  deriving DecidableEq

namespace ClipboardHashGuard

/-- A payload without a hash is never current. -/
def isCurrent (g : ClipboardHashGuard) (payload : ClipboardPayload) : Bool :=
  payload.meta_.hashAlg ≠ 0 ∧ g.currentValid = true ∧ g.currentHashAlg = payload.meta_.hashAlg ∧
    g.currentHash = payload.meta_.hashBytes

def rememberCurrent (g : ClipboardHashGuard) (payload : ClipboardPayload) : ClipboardHashGuard :=
  if payload.meta_.hashAlg = 0 then { g with currentValid := false }
  else { currentValid := true, currentHashAlg := payload.meta_.hashAlg, currentHash := payload.meta_.hashBytes }

end ClipboardHashGuard

def isClipboardDataCurrent (g : ClipboardHashGuard) (payload : ClipboardPayload) : Bool :=
  payload.meta_.formatId ≠ clippFormatNone && g.isCurrent payload

/-- How far the operating system lets a write get: the clipboard could not be opened and emptied, or it
    was emptied and took nothing, or it took what it was given. -/
inductive ClipboardAccess where
  | unavailable
  | emptied
  | taken
  deriving DecidableEq

variable {β : Type}

/-- The clipboard of the operating system, empty or with content, next to the guard. `render` is the form a
    payload takes there, and absent for one that has none. -/
def setClipboardData (render : ClipboardPayload → Option β) (clipboard : Option β) (g : ClipboardHashGuard)
    (access : ClipboardAccess) (payload : ClipboardPayload) (markAsClippOriginated forceWrite : Bool) :
    Option β × ClipboardHashGuard :=
  if markAsClippOriginated && !forceWrite && g.isCurrent payload then (clipboard, g)
  else match access with
    | .unavailable => (clipboard, g)
    | .emptied => (none, g)
    | .taken =>
      match render payload with
      | none => (none, g)
      | some content => (some content, if markAsClippOriginated then g.rememberCurrent payload else g)

structure Receiver (β : Type) where
  activity : ClipboardActivityStore
  guard : ClipboardHashGuard
  clipboard : Option β
  registers : RegisterStore

structure Arrival where
  payload : ClipboardPayload
  clock : ActivityClock
  access : ClipboardAccess
  readings : Readings

def clearRelay (payload : ClipboardPayload) : ClipboardPayload :=
  { payload with meta_ := { payload.meta_ with flags := payload.meta_.flags &&& ~~~clpmFlagRelay } }

/-- A replayed item is history, and a placeholder has no content: neither touches the clipboard. -/
def isLive (payload : ClipboardPayload) : Bool := !payload.isReplay && !payload.isPrivatePlaceholder

/-- What a one-shot sender handed over is passed on, and kept, without the relay bit. -/
def handedOver (payload : ClipboardPayload) : ClipboardPayload :=
  if payload.isRelay && !payload.isReplay then clearRelay payload else payload

def forwarded (payload : ClipboardPayload) : Option ClipboardPayload :=
  if payload.isRelay && !payload.isReplay then some (clearRelay payload) else none

def onClipboardReceived (C : Codec) (render : ClipboardPayload → Option β) (s : Receiver β) (arrival : Arrival) :
    Receiver β × Option ClipboardPayload :=
  let live := isLive arrival.payload
  let payload := handedOver arrival.payload
  if live && isClipboardDataCurrent s.guard payload then (s, forwarded arrival.payload)
  else
    let activity := (s.activity.addItem arrival.clock payload).store
    if live then
      let written := setClipboardData render s.clipboard s.guard arrival.access payload true false
      ({ activity := activity
         guard := written.2
         clipboard := written.1
         registers := mirrorClipboardToDefaultRegister C s.registers arrival.readings payload },
        forwarded arrival.payload)
    else ({ s with activity := activity }, forwarded arrival.payload)

def received (C : Codec) (render : ClipboardPayload → Option β) (s : Receiver β) (arrivals : List Arrival) :
    Receiver β :=
  arrivals.foldl (fun s arrival => (onClipboardReceived C render s arrival).1) s

end ClippModel.Clipboard
