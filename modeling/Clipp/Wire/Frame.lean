import Clipp.Foundation.ByteOrder

open Foundation

namespace ClippModel.Wire

namespace CryptoChannel

def kMaxCiphertextMessageBytes : Nat := 64 * 1024 * 1024
def secretstreamABytes : Nat := 17
def kMaxPlaintext : Nat := kMaxCiphertextMessageBytes - secretstreamABytes

/-- What the socket does with the next frame, given the frames it has carried. -/
abbrev Transport := List Bytes → Bytes → Bool

def u32Sized (body : Bytes) : Bytes := body.take (body.length % 2 ^ 32)

def sendFrame (carries : Transport) (sent : List Bytes) (tag4 bodyA bodyB : Bytes) : Bool × List Bytes :=
  if 4 + bodyA.length + bodyB.length > kMaxPlaintext then (false, sent)
  else
    let plaintext := tag4 ++ bodyA ++ bodyB
    if carries sent plaintext then (true, sent ++ [plaintext]) else (false, sent)

end CryptoChannel

end ClippModel.Wire

namespace ClippProof.Wire

open ClippModel.Wire ClippModel.Wire.CryptoChannel

variable {carries : Transport} {sent : List Bytes} {tag body bodyA bodyB : Bytes}

theorem u32Sized_eq (small : body.length < 2 ^ 32) : u32Sized body = body := by
  rw [u32Sized, Nat.mod_eq_of_lt small, List.take_length]

theorem sendFrame_too_large (large : kMaxPlaintext < 4 + bodyA.length + bodyB.length) :
    sendFrame carries sent tag bodyA bodyB = (false, sent) := by
  rw [sendFrame, if_pos large]

theorem sendFrame_carried (fits : 4 + bodyA.length + bodyB.length ≤ kMaxPlaintext)
    (carried : carries sent (tag ++ bodyA ++ bodyB) = true) :
    sendFrame carries sent tag bodyA bodyB = (true, sent ++ [tag ++ bodyA ++ bodyB]) := by
  have notLarge : ¬ 4 + bodyA.length + bodyB.length > kMaxPlaintext := not_lt.mpr fits
  rw [sendFrame, if_neg notLarge]
  exact if_pos carried

def Carries (carries : Transport) : List Bytes → List Bytes → Prop
  | _, [] => True
  | sent, frame :: rest => carries sent frame = true ∧ Carries carries (sent ++ [frame]) rest

theorem carries_always (sent frames : List Bytes) : Carries (fun _ _ => true) sent frames := by
  induction frames generalizing sent with
  | nil => trivial
  | cons frame rest ih => exact ⟨rfl, ih _⟩

theorem Carries.left {front back : List Bytes} (carried : Carries carries sent (front ++ back)) :
    Carries carries sent front := by
  induction front generalizing sent with
  | nil => trivial
  | cons frame rest ih => exact ⟨carried.1, ih carried.2⟩

theorem Carries.last {front : List Bytes} {frame : Bytes} (carried : Carries carries sent (front ++ [frame])) :
    carries (sent ++ front) frame = true := by
  induction front generalizing sent with
  | nil =>
    rw [List.append_nil]
    exact carried.1
  | cons head rest ih =>
    have further := ih carried.2
    rwa [List.append_assoc, List.singleton_append] at further

end ClippProof.Wire
