import Clipp.Foundation.ByteOrder

namespace Foundation

/-- Sealing and opening a sequence of messages, each under the state its predecessors left. -/
structure SecretStream (σ : Type) where
  push : σ → Bytes → Option (Bytes × σ)
  pull : σ → Bytes → Option (Bytes × σ)

namespace SecretStream

variable {σ : Type}

/-- Sealing always succeeds and adds `aBytes`; opening takes them off; two states in step open what
    was sealed and stay in step. -/
structure Ideal (S : SecretStream σ) (aBytes : Nat) (inStep : σ → σ → Prop) : Prop where
  seals : ∀ tx plain, ∃ cipher next, S.push tx plain = some (cipher, next) ∧
    cipher.length = plain.length + aBytes
  opens : ∀ tx rx plain cipher next, inStep tx rx → S.push tx plain = some (cipher, next) →
    ∃ further, S.pull rx cipher = some (plain, further) ∧ inStep next further
  opened_size : ∀ rx cipher plain further, S.pull rx cipher = some (plain, further) →
    cipher.length = plain.length + aBytes

inductive Sealed (S : SecretStream σ) (frame : Bytes → Bytes) : σ → List Bytes → Bytes → σ → Prop where
  | nil (tx : σ) : Sealed S frame tx [] [] tx
  | cons {tx next last : σ} {plain cipher more : Bytes} {plains : List Bytes}
      (pushed : S.push tx plain = some (cipher, next)) (rest : Sealed S frame next plains more last) :
      Sealed S frame tx (plain :: plains) (frame cipher ++ more) last

theorem Sealed.append {S : SecretStream σ} {frame : Bytes → Bytes} {tx mid last : σ} {front back : List Bytes}
    {bytes more : Bytes} (sealed : Sealed S frame tx front bytes mid) (further : Sealed S frame mid back more last) :
    Sealed S frame tx (front ++ back) (bytes ++ more) last := by
  induction sealed with
  | nil => exact further
  | cons pushed rest ih =>
    rw [List.cons_append, List.append_assoc]
    exact .cons pushed (ih further)

def counted (aBytes : Nat) : SecretStream Nat where
  push n plain := some (plain ++ List.replicate aBytes (UInt8.ofNat n), n + 1)
  pull n cipher :=
    if aBytes ≤ cipher.length ∧ cipher.drop (cipher.length - aBytes) = List.replicate aBytes (UInt8.ofNat n) then
      some (cipher.take (cipher.length - aBytes), n + 1)
    else none

theorem counted_ideal (aBytes : Nat) : (counted aBytes).Ideal aBytes (· = ·) where
  seals n plain := ⟨_, _, rfl, by simp⟩
  opens tx rx plain cipher next same pushed := by
    obtain ⟨rfl, rfl⟩ := Prod.mk.inj (Option.some.inj pushed)
    subst same
    refine ⟨tx + 1, ?_, rfl⟩
    simp [counted]
  opened_size rx cipher plain further opened := by
    simp only [counted] at opened
    split_ifs at opened with whole
    obtain ⟨rfl, -⟩ := Prod.mk.inj (Option.some.inj opened)
    rw [List.length_take]
    omega

end SecretStream

end Foundation
