import Clipp.Foundation.ByteOrder

namespace Foundation

structure Sealing where
  key : Bytes
  nonce : Bytes
  ad : Bytes
  plain : Bytes
  deriving DecidableEq

structure Aead where
  encrypt : (key nonce ad plain : Bytes) → Bytes
  decrypt : (key nonce ad cipher : Bytes) → Option Bytes

namespace Aead

def cipherOf (A : Aead) (s : Sealing) : Bytes := A.encrypt s.key s.nonce s.ad s.plain

/-- Ideal authenticated encryption in a world where exactly the logged messages were sealed: each
    of them opens, and whatever opens is one of them under its own key, nonce and header. -/
structure Ideal (A : Aead) (tagBytes : Nat) (log : List Sealing) : Prop where
  size : ∀ s ∈ log, (A.cipherOf s).length = s.plain.length + tagBytes
  opens : ∀ s ∈ log, A.decrypt s.key s.nonce s.ad (A.cipherOf s) = some s.plain
  authentic : ∀ key nonce ad cipher plain, A.decrypt key nonce ad cipher = some plain →
    ∃ s ∈ log, s.key = key ∧ s.nonce = nonce ∧ s.ad = ad ∧ A.cipherOf s = cipher

def table (tagBytes : Nat) (s : Sealing) : Aead where
  encrypt _ _ _ plain := plain ++ List.replicate tagBytes 0
  decrypt key nonce ad cipher :=
    if s.key = key ∧ s.nonce = nonce ∧ s.ad = ad ∧ s.plain ++ List.replicate tagBytes 0 = cipher then
      some s.plain
    else none

theorem table_ideal (tagBytes : Nat) (s : Sealing) : (table tagBytes s).Ideal tagBytes [s] where
  size q member := by
    rw [List.mem_singleton.mp member]
    simp [cipherOf, table]
  opens q member := by
    rw [List.mem_singleton.mp member]
    simp [cipherOf, table]
  authentic key nonce ad cipher plain opened := by
    simp only [table] at opened
    split_ifs at opened with same
    exact ⟨s, List.mem_singleton_self s, same⟩

/-- What was sealed opens, whatever else was. -/
structure Correct (A : Aead) (keyBytes tagBytes : Nat) : Prop where
  size : ∀ s : Sealing, s.key.length = keyBytes → (A.cipherOf s).length = s.plain.length + tagBytes
  opens : ∀ s : Sealing, s.key.length = keyBytes → A.decrypt s.key s.nonce s.ad (A.cipherOf s) = some s.plain

def keyTagged (tagBytes : Nat) : Aead where
  encrypt key _ _ plain := plain ++ key.take tagBytes
  decrypt key _ _ cipher :=
    if cipher.drop (cipher.length - tagBytes) = key.take tagBytes then some (cipher.take (cipher.length - tagBytes))
    else none

theorem keyTagged_correct {keyBytes tagBytes : Nat} (fits : tagBytes ≤ keyBytes) :
    (keyTagged tagBytes).Correct keyBytes tagBytes where
  size s sized := by simp [cipherOf, keyTagged, sized, fits]
  opens s sized := by simp [cipherOf, keyTagged, sized, fits]

end Aead

end Foundation
