import Clipp.Cli.Interview
import Clipp.Cli.RegisterVerbs
import Clipp.Clipboard.LineEndings

open Foundation

namespace ClippModel.Cli

open ClippModel.Clipboard ClippModel.Clipboard.ClipboardPayload ClippModel.Gateway ClippModel.Peers
  ClippModel.Registers ClippModel.Wire ClippModel.Wire.CryptoChannel ClippModel.Wire.Peer
  ClippModel.Wire.RegisterWire

namespace Verdict

def map {μ ν : Type} (f : μ → ν) : Verdict μ → Verdict ν
  | .ignored => .ignored
  | .givenUp => .givenUp
  | .answered next => .answered (f next)

end Verdict

section Questions

variable {μ : Type}

def onTag (tag : Bytes) (next : μ) (otherwise : Bytes → Verdict μ) (frame : Bytes) : Verdict μ :=
  if frame.take 4 = tag then .answered next else otherwise frame

def waitsOn : Bytes → Verdict μ := fun _ => .ignored

/-- The record of this name, or that there is none; a record of another name is passed over. -/
def onRecord (name : Bytes) (frame : Bytes) : Verdict (Option RegisterRecord) :=
  if frame.take 4 = tagREGW then
    match tryDecodeRecord (frame.drop 4) with
    | none => .givenUp
    | some (rec, _) => if rec.name ≠ name then .ignored else .answered (some rec)
  else onTag tagNONE none waitsOn frame

def onList (frame : Bytes) : Verdict (List RegisterListEntry) :=
  if frame.take 4 = tagRLST then
    match tryDecodeList (frame.drop 4) with
    | none => .givenUp
    | some entries => .answered entries
  else .ignored

def askRecord (name : Bytes) (next : Option RegisterRecord → μ) : Question μ where
  frames := [tagRGET ++ u32Sized (encodeName name)]
  verdict frame := (onRecord name frame).map next
  endsChecked := false

def askList (next : List RegisterListEntry → μ) : Question μ where
  frames := [tagRLST]
  verdict frame := (onList frame).map next
  endsChecked := false

end Questions

section Copy

/-- What is written: text in canonical lines, or the stream of a picture behind its header. -/
def copiedRecord (name : Bytes) (isPrivate : Bool) (formatId : UInt32) (bytes : Bytes) (localHostId : HostId) :
    RegisterRecord :=
  let flags := if isPrivate then RegisterFlags.private_ else 0
  let blank : RegisterRecord := { name := name, value := [], written := {}, touched := {}, originHostId := localHostId,
                                  flags := flags }
  if formatId = clippFormatUtf8 then { blank with value := canonicalizeCrlfToLf bytes }
  else { blank with value := encodeBinaryValue formatId bytes, flags := flags ||| RegisterFlags.binaryHeader }

end Copy

section Paste

inductive PasteOutcome where
  | written (bytes : Bytes)
  | refusedTty
  | absent
  deriving DecidableEq

/-- A value as it is written out: a stream without its header, text in the line endings of the system. -/
def pastedBytes (windows : Bool) (rec : RegisterRecord) : Bytes :=
  if rec.isBinary then
    match tryParseBinaryValue rec.value with
    | none => rec.value
    | some info => if info.streamOffset ≤ rec.value.length then rec.value.drop info.streamOffset else rec.value
  else if windows then expandLfToCrlf rec.value
  else rec.value

def pasteRecord (tty windows : Bool) (rec : RegisterRecord) : PasteOutcome :=
  if rec.isPrivate ∧ tty then .refusedTty
  else if rec.isBinary ∧ tty then .refusedTty
  else .written (pastedBytes windows rec)

def pasteFound (tty windows : Bool) : Option RegisterRecord → PasteOutcome
  | none => .absent
  | some rec => pasteRecord tty windows rec

def registerPaste (name : Bytes) (tty windows : Bool) : Interview (Option PasteOutcome) PasteOutcome where
  start := none
  next
    | none => .inl (askRecord name fun found => some (pasteFound tty windows found))
    | some outcome => .inr (some outcome)

def runRegisterPaste (name : Bytes) (tty windows : Bool) : Option (Interview (Option PasteOutcome) PasteOutcome) :=
  if !isValidRegisterName name then none else some (registerPaste name tty windows)

/-- The text of the newest item, without the terminator it carries. -/
def recentBytes (C : Codec) (windows : Bool) (payload : ClipboardPayload) : Option Bytes :=
  (tryGetUncompressedBytes C payload).map fun plain =>
    let bytes := if windows then expandLfToCrlf plain else plain
    if bytes.getLast? = some 0 then bytes.dropLast else bytes

/-- `fetchRecent`: an item that is no text counts as none, and has the next peer tried. -/
def onRecent (C : Codec) (windows : Bool) (frame : Bytes) : Verdict (Option Bytes) :=
  if frame.take 4 = tagCLIP then
    match ClipboardWire.tryDecodeClipboardFrame frame with
    | none => .givenUp
    | some payload =>
      if payload.meta_.formatId ≠ clippFormatUtf8 then .answered none
      else match recentBytes C windows payload with
        | none => .givenUp
        | some bytes => .answered (some bytes)
  else onTag tagNONE none waitsOn frame

def runPaste (C : Codec) (windows : Bool) : Interview (Option (Option Bytes)) Bytes where
  start := none
  next
    | none => .inl { frames := [tagRCNT], verdict := fun frame => (onRecent C windows frame).map some,
                     endsChecked := true }
    | some content => .inr content

end Paste

section Put

inductive PutOutcome where
  | promoted
  | absent
  | malformed
  deriving DecidableEq

inductive PutStage where
  | fetching
  | fetched (rec : RegisterRecord)
  | ended (outcome : PutOutcome)

def putFound : Option RegisterRecord → PutStage
  | none => .ended .absent
  | some rec => .fetched rec

/-- The record goes back as a clipboard item for everyone, with a fence behind it. -/
def relayRecord (C : Codec) (stamp : OriginStamp) (rec : RegisterRecord) : Question PutStage ⊕ Option PutOutcome :=
  if rec.isBinary ∧ tryParseBinaryValue rec.value = none then .inr (some .malformed)
  else match buildItem C rec with
    | none => .inr none
    | some built =>
      let payload := (built.stampOrigin stamp).addFlags clpmFlagRelay
      if payload.encoded.length > ClipboardWire.kMaxEncodedPayloadBytes then .inr none
      else .inl { frames := [clipboardFrame payload, tagPING]
                  verdict := onTag tagPONG (.ended .promoted) waitsOn
                  endsChecked := true }

namespace Interview

/-- The stamp is that of the gateway that takes the item: each one tried gets an event guid, a time and a sequence number
    of its own. -/
def put (C : Codec) (stamp : OriginStamp) (name : Bytes) : Interview PutStage PutOutcome where
  start := .fetching
  next
    | .fetching => .inl (askRecord name putFound)
    | .fetched rec => relayRecord C stamp rec
    | .ended outcome => .inr (some outcome)

def runPut (C : Codec) (stamp : OriginStamp) (name : Bytes) : Option (Interview PutStage PutOutcome) :=
  if !isValidRegisterName name then none else some (put C stamp name)

end Interview

end Put

section Listing

def runRegisterLs (pattern : Bytes) : Interview (Option (List RegisterListEntry)) (List RegisterListEntry) where
  start := none
  next
    | none => .inl (askList some)
    | some entries => .inr (some (lsShown pattern entries))

end Listing

section Sweeping

/-- Whether the one name a sweep was given is absent, and whether its pattern matched nothing. -/
structure Swept where
  absent : Bool
  noMatch : Bool
  deriving DecidableEq

inductive SweepStage where
  | listing
  | acting (targets : List Bytes) (acted : Nat) (absent : Bool)
  | unmatched

def targetsOf (pattern : Bytes) (entries : List RegisterListEntry) : SweepStage :=
  let targets := globTargets pattern entries
  if targets.isEmpty then .unmatched else .acting targets 0 false

def askTarget (pattern : Bytes) (ask : Bytes → Bytes) (answer : Bytes → Bytes → Verdict Bool) (target : Bytes)
    (rest : List Bytes) (acted : Nat) (absent : Bool) : Question SweepStage where
  frames := [ask target]
  verdict frame := (answer target frame).map fun there =>
    if there then .acting rest (acted + 1) absent else .acting rest acted (absent || !hasWildcard pattern)
  endsChecked := false

/-- What `rm` and `touch` do: the names of a pattern are listed and matched, then each target is asked about. The
    targets acted on at a gateway that drops out count along with those of the next. -/
def sweeping (pattern : Bytes) (ask : Bytes → Bytes) (answer : Bytes → Bytes → Verdict Bool) :
    Interview SweepStage Swept where
  start := if hasWildcard pattern then .listing else .acting [pattern] 0 false
  next
    | .listing => .inl (askList (targetsOf pattern))
    | .acting (target :: rest) acted absent => .inl (askTarget pattern ask answer target rest acted absent)
    | .acting [] _ absent => .inr (some { absent := absent, noMatch := false })
    | .unmatched => .inr (some { absent := false, noMatch := true })
  counts
    | .acting _ acted _ => acted
    | .listing | .unmatched => 0

def sweep (pattern : Bytes) (ask : Bytes → Bytes) (answer : Bytes → Bytes → Verdict Bool) :
    Option (Interview SweepStage Swept) :=
  if !hasWildcard pattern ∧ !isValidRegisterName pattern then none else some (sweeping pattern ask answer)

def removal (target : Bytes) (localHostId : HostId) : RegisterRecord where
  name := target
  value := []
  written := {}
  touched := {}
  originHostId := localHostId
  flags := RegisterFlags.tombstone

def onRemoved : Bytes → Verdict Bool := onTag tagRDEL true (onTag tagNONE false waitsOn)

end Sweeping

end ClippModel.Cli
