import DeskSync.Lib.Bytes

/-!
# Ideal authenticated encryption

An authenticated cipher with associated data encrypts a message under a key, a nonce and associated
data. It is *ideal* when decryption under such a triple succeeds exactly on what was encrypted under it:
`decrypt` takes the log of the encryptions made so far, by anybody, and answers from it. Encryption
itself is deterministic and may refuse a message (one that is too long). It is *correct* when decryption
succeeds at least there.

`ofEncrypt` is the ideal cipher of an encryption function; `ofEncrypt_ideal` asks of that function what
decryption needs, that it is injective in the message.
-/

namespace DeskSync

/-- One encryption that took place. -/
structure Sealing (K : Type) where
  key : K
  nonce : Bytes
  aad : Bytes
  msg : Bytes
  deriving DecidableEq

structure Aead (K : Type) where
  encrypt : K → (nonce aad msg : Bytes) → Option Bytes
  decrypt : List (Sealing K) → K → (nonce aad ct : Bytes) → Option Bytes

namespace Aead

variable {K : Type}

/-- Decryption succeeds exactly on what was encrypted; a ciphertext ends in a tag of `tag` bytes. -/
structure Ideal (A : Aead K) (tag : ℕ) : Prop where
  decrypt_eq_some {log : List (Sealing K)} {k : K} {nonce aad ct msg : Bytes} :
    A.decrypt log k nonce aad ct = some msg ↔
      ⟨k, nonce, aad, msg⟩ ∈ log ∧ A.encrypt k nonce aad msg = some ct
  length_encrypt {k : K} {nonce aad ct msg : Bytes} :
    A.encrypt k nonce aad msg = some ct → ct.length = msg.length + tag

/-- Decryption gives back what was encrypted. -/
structure Correct (A : Aead K) (tag : ℕ) : Prop where
  decrypt_encrypt {log : List (Sealing K)} {k : K} {nonce aad ct msg : Bytes} :
    ⟨k, nonce, aad, msg⟩ ∈ log → A.encrypt k nonce aad msg = some ct →
      A.decrypt log k nonce aad ct = some msg
  length_encrypt {k : K} {nonce aad ct msg : Bytes} :
    A.encrypt k nonce aad msg = some ct → ct.length = msg.length + tag

theorem Ideal.correct {A : Aead K} {tag : ℕ} (h : A.Ideal tag) : A.Correct tag where
  decrypt_encrypt hmem henc := h.decrypt_eq_some.2 ⟨hmem, henc⟩
  length_encrypt := h.length_encrypt

section OfEncrypt
variable [DecidableEq K] (enc : K → Bytes → Bytes → Bytes → Option Bytes)

/-- The ideal cipher of an encryption function: decryption looks the ciphertext up in the log. -/
def ofEncrypt : Aead K where
  encrypt := enc
  decrypt log k nonce aad ct :=
    (log.find? fun e => e.key = k ∧ e.nonce = nonce ∧ e.aad = aad ∧
      enc k nonce aad e.msg = some ct).map Sealing.msg

variable {enc} {tag : ℕ}

theorem ofEncrypt_ideal
    (hinj : ∀ k nonce aad m m' ct, enc k nonce aad m = some ct → enc k nonce aad m' = some ct → m = m')
    (hlen : ∀ k nonce aad m ct, enc k nonce aad m = some ct → ct.length = m.length + tag) :
    (ofEncrypt enc).Ideal tag where
  decrypt_eq_some := by
    intro log k nonce aad ct msg
    simp only [ofEncrypt, Option.map_eq_some_iff]
    constructor
    · rintro ⟨⟨k', nonce', aad', msg'⟩, hfind, rfl⟩
      have hmem := List.mem_of_find?_eq_some hfind
      have hopens := List.find?_some hfind
      rw [decide_eq_true_eq] at hopens
      obtain ⟨rfl, rfl, rfl, henc⟩ := hopens
      exact ⟨hmem, henc⟩
    · rintro ⟨hmem, henc⟩
      cases hfind : log.find? fun e => e.key = k ∧ e.nonce = nonce ∧ e.aad = aad ∧
          enc k nonce aad e.msg = some ct with
      | none =>
        refine absurd ?_ (List.find?_eq_none.1 hfind _ hmem)
        rw [decide_eq_true_eq]
        exact ⟨rfl, rfl, rfl, henc⟩
      | some e =>
        have hopens := List.find?_some hfind
        rw [decide_eq_true_eq] at hopens
        obtain ⟨-, -, -, henc'⟩ := hopens
        exact ⟨e, rfl, hinj _ _ _ _ _ _ henc' henc⟩
  length_encrypt := hlen _ _ _ _ _

end OfEncrypt

end Aead

end DeskSync
