import Clipp.Clipboard.Payload
import Clipp.Registers.Store

open Foundation

namespace ClippModel.Clipboard

open ClippModel.Registers ClippModel.Clipboard.ClipboardPayload

/-- Clipboard text without its conventional terminator. -/
def logicalText (bytes : Bytes) : Bytes := if bytes.getLast? = some 0 then bytes.dropLast else bytes

def mirroredText (C : Codec) (payload : ClipboardPayload) : Option Bytes :=
  if !isClippTextFormat payload.meta_.formatId then none
  else match tryGetUncompressedBytes C payload with
    | none => none
    | some bytes => some (logicalText bytes)

def mirrorClipboardToDefaultRegister (C : Codec) (s : RegisterStore) (t : Readings) (payload : ClipboardPayload) :
    RegisterStore :=
  match mirroredText C payload with
  | none => s
  | some text => s.mirrorDefault t text

end ClippModel.Clipboard

namespace ClippProof.Clipboard

open ClippModel.Clipboard ClippModel.Clipboard.ClipboardPayload

variable {C : Codec} {p : ClipboardPayload} {bytes text : Bytes}

theorem logicalText_length (bytes : Bytes) :
    (logicalText bytes).length ≤ bytes.length ∧ bytes.length ≤ (logicalText bytes).length + 1 := by
  unfold logicalText
  split_ifs
  · rw [List.length_dropLast]
    omega
  · omega

theorem mirroredText_eq_some : mirroredText C p = some text ↔ isClippTextFormat p.meta_.formatId = true ∧
    ∃ bytes, tryGetUncompressedBytes C p = some bytes ∧ text = logicalText bytes := by
  unfold mirroredText
  cases format : isClippTextFormat p.meta_.formatId with
  | false => simp
  | true =>
    cases content : tryGetUncompressedBytes C p with
    | none => simp
    | some bytes => simp [eq_comm]

end ClippProof.Clipboard
