import Clipp.Foundation.SecretStream
import Mathlib.Data.List.Infix

namespace Foundation

structure SessionKeys (κ : Type) where
  rx : κ
  tx : κ
  deriving DecidableEq

def SessionKeys.swap {κ : Type} (keys : SessionKeys κ) : SessionKeys κ := { rx := keys.tx, tx := keys.rx }

inductive Direction where
  | toServer
  | toClient
  deriving DecidableEq

/-- The session keys of either side, from its own key pair and the public key of the other. -/
structure KeyExchange (ρ π κ : Type) where
  publicKey : ρ → π
  client : (publicKey : π) → (secretKey : ρ) → (serverPublicKey : π) → Option (SessionKeys κ)
  server : (publicKey : π) → (secretKey : ρ) → (clientPublicKey : π) → Option (SessionKeys κ)

namespace KeyExchange

variable {ρ π κ : Type} {K : KeyExchange ρ π κ}

inductive Derives (K : KeyExchange ρ π κ) : κ → Direction → π → π → Prop where
  | clientTx {c s : π} {secret : ρ} {keys : SessionKeys κ} :
      K.client c secret s = some keys → Derives K keys.tx .toServer c s
  | clientRx {c s : π} {secret : ρ} {keys : SessionKeys κ} :
      K.client c secret s = some keys → Derives K keys.rx .toClient c s
  | serverRx {c s : π} {secret : ρ} {keys : SessionKeys κ} :
      K.server s secret c = some keys → Derives K keys.rx .toServer c s
  | serverTx {c s : π} {secret : ρ} {keys : SessionKeys κ} :
      K.server s secret c = some keys → Derives K keys.tx .toClient c s

/-- Both sides come to the same two keys, and a key tells its direction and its two public keys. -/
structure Ideal (K : KeyExchange ρ π κ) : Prop where
  agrees : ∀ a b, ∃ keys, K.client (K.publicKey a) a (K.publicKey b) = some keys ∧
    K.server (K.publicKey b) b (K.publicKey a) = some keys.swap
  separates : ∀ {key d d' c c' s s'}, Derives K key d c s → Derives K key d' c' s' → d = d' ∧ c = c' ∧ s = s'

def named (publicKey : ρ → π) : KeyExchange ρ π (π × π × Direction) where
  publicKey := publicKey
  client c _ s := some { rx := (c, s, .toClient), tx := (c, s, .toServer) }
  server s _ c := some { rx := (c, s, .toServer), tx := (c, s, .toClient) }

theorem named_derives {publicKey : ρ → π} {key : π × π × Direction} {d : Direction} {c s : π}
    (derived : Derives (named publicKey) key d c s) : key = (c, s, d) := by
  cases derived with
  | clientTx computed =>
    cases computed
    rfl
  | clientRx computed =>
    cases computed
    rfl
  | serverRx computed =>
    cases computed
    rfl
  | serverTx computed =>
    cases computed
    rfl

theorem named_ideal (publicKey : ρ → π) : (named publicKey).Ideal where
  agrees a b := ⟨_, rfl, rfl⟩
  separates first second := by
    have same := (named_derives first).symm.trans (named_derives second)
    simp only [Prod.mk.injEq] at same
    exact ⟨same.2.2, same.1, same.2.1⟩

end KeyExchange

/-- A stream whose two ends start from a shared key and the header the sender made up. -/
structure KeyedStream (κ σ : Type) extends SecretStream σ where
  initPush : (key : κ) → (header : Bytes) → Option σ
  initPull : (key : κ) → (header : Bytes) → Option σ

namespace KeyedStream

variable {κ σ : Type}

structure Ideal (S : KeyedStream κ σ) (aBytes : Nat) (inStep : σ → σ → Prop) : Prop
    extends S.toSecretStream.Ideal aBytes inStep where
  starts : ∀ key header, ∃ tx rx, S.initPush key header = some tx ∧ S.initPull key header = some rx ∧ inStep tx rx

def counted (κ : Type) (aBytes : Nat) : KeyedStream κ Nat where
  toSecretStream := SecretStream.counted aBytes
  initPush _ _ := some 0
  initPull _ _ := some 0

theorem counted_ideal (κ : Type) (aBytes : Nat) : (counted κ aBytes).Ideal aBytes (· = ·) where
  toIdeal := SecretStream.counted_ideal aBytes
  starts _ _ := ⟨0, 0, rfl, rfl, rfl⟩

end KeyedStream

structure Strand (κ σ : Type) where
  key : κ
  header : Bytes
  state : σ
  messages : List Bytes

namespace Strand

variable {κ σ : Type} {a b c : Strand κ σ}

/-- What one end opened so far is what the other sealed first, from the same start. -/
structure Follows (opened sealed : Strand κ σ) : Prop where
  key : sealed.key = opened.key
  header : sealed.header = opened.header
  messages : opened.messages <+: sealed.messages

theorem Follows.refl (a : Strand κ σ) : a.Follows a := ⟨rfl, rfl, List.prefix_rfl⟩

theorem Follows.trans (left : a.Follows b) (right : b.Follows c) : a.Follows c where
  key := right.key.trans left.key
  header := right.header.trans left.header
  messages := left.messages.trans right.messages

end Strand

end Foundation
