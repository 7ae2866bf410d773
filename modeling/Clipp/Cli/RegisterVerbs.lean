import Clipp.Registers.Name
import Clipp.Wire.RegisterList

open Foundation

namespace ClippModel.Cli

open ClippModel.Registers ClippModel.Wire ClippModel.Wire.RegisterWire ClippModel.Wire.Peer

def hasWildcard (s : Bytes) : Bool := s.any (fun c => c = 0x2A ∨ c = 0x3F)

/-- The matcher falls back to the last star, which then takes one more byte. -/
def globFrom (pat str : Bytes) (p s : Nat) (star : Option Nat) (ss : Nat) (behind : ss ≤ s) : Bool :=
  if _ : s < str.length then
    if _ : p < pat.length ∧ (byteAt pat p = 0x3F ∨ byteAt pat p = byteAt str s) then
      globFrom pat str (p + 1) (s + 1) star ss (Nat.le_succ_of_le behind)
    else if _ : p < pat.length ∧ byteAt pat p = 0x2A then globFrom pat str (p + 1) s (some p) s le_rfl
    else match star with
      | some last => globFrom pat str (last + 1) (ss + 1) (some last) (ss + 1) le_rfl
      | none => false
  else ((pat.drop p).dropWhile (fun c => c = 0x2A)).isEmpty
  termination_by (str.length - ss, str.length - s, pat.length - p)
  decreasing_by
    · exact .right _ (.left _ _ (by omega))
    · rcases Nat.lt_or_eq_of_le behind with less | same
      · exact .left _ _ (by omega)
      · subst same
        exact .right _ (.right _ (by omega))
    · exact .left _ _ (by omega)

def globMatch (pat str : Bytes) : Bool := globFrom pat str 0 0 none 0 le_rfl

def receiveList : List Bytes → Option (List RegisterListEntry)
  | [] => none
  | frame :: rest =>
    if frame.length < 4 then none
    else if frame.take 4 = tagRLST then tryDecodeList (frame.drop 4)
    else receiveList rest

/-- What `ls` shows: the mirror entry only for a pattern that matches the empty name. -/
def lsShown (pattern : Bytes) (entries : List RegisterListEntry) : List RegisterListEntry :=
  entries.filter (fun e => pattern.isEmpty || globMatch pattern e.name)

def globTargets (pattern : Bytes) (entries : List RegisterListEntry) : List Bytes :=
  (entries.filter (fun e => !e.name.isEmpty && globMatch pattern e.name)).map RegisterListEntry.name

end ClippModel.Cli
