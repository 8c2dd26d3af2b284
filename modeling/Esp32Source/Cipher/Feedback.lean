import Mathlib.Algebra.GroupWithZero.Nat

/-!
# Cipher feedback

The feedback mode of a block function, with a text of any length.  A register
of one block runs along the text together with an offset into it: the block
function is applied to the register at each block boundary, a text element is
combined with the register at the offset, and the element of the ciphertext
replaces it there.

Encryption and decryption put the same elements into the register, so that
they pass through the same registers and undo each other, also where the text
ends inside a block.
-/

namespace Esp32Source.Cipher

universe u

variable {α : Type u} {n : Nat} [NeZero n]

/-- The register, and the offset of its next element. -/
structure Feedback (α : Type u) (n : Nat) where
  register : Vector α n
  offset : Fin n

namespace Feedback

/-- A text starts at a block boundary. -/
def start (initial : Vector α n) : Feedback α n where
  register := initial
  offset := Fin.ofNat n 0

variable (block : Vector α n → Vector α n)

/-- The register that the next element is combined with. -/
def ready (feedback : Feedback α n) : Vector α n :=
  if feedback.offset.val = 0 then block feedback.register
  else feedback.register

def mask (feedback : Feedback α n) : α :=
  (feedback.ready block).get feedback.offset

/-- Behind an element of the ciphertext. -/
def absorb (feedback : Feedback α n) (cipher : α) : Feedback α n where
  register := (feedback.ready block).set feedback.offset cipher
  offset := Fin.ofNat n (feedback.offset.val + 1)

end Feedback

variable (combine : α → α → α) (block : Vector α n → Vector α n)

def cfbEncrypt (feedback : Feedback α n) : List α → List α
  | [] => []
  | plain :: rest =>
      let cipher := combine (feedback.mask block) plain
      cipher :: cfbEncrypt (feedback.absorb block cipher) rest

def cfbDecrypt (feedback : Feedback α n) : List α → List α
  | [] => []
  | cipher :: rest =>
      combine (feedback.mask block) cipher ::
        cfbDecrypt (feedback.absorb block cipher) rest

theorem length_cfbEncrypt (feedback : Feedback α n) (text : List α) :
    (cfbEncrypt combine block feedback text).length = text.length := by
  induction text generalizing feedback with
  | nil => rfl
  | cons plain rest inductionHypothesis =>
      rw [cfbEncrypt, List.length_cons, List.length_cons,
        inductionHypothesis]

theorem length_cfbDecrypt (feedback : Feedback α n) (text : List α) :
    (cfbDecrypt combine block feedback text).length = text.length := by
  induction text generalizing feedback with
  | nil => rfl
  | cons cipher rest inductionHypothesis =>
      rw [cfbDecrypt, List.length_cons, List.length_cons,
        inductionHypothesis]

/-- Decryption undoes encryption from the same register and offset. -/
theorem cfbDecrypt_cfbEncrypt
    (cancel : ∀ mask plain, combine mask (combine mask plain) = plain)
    (feedback : Feedback α n) (text : List α) :
    cfbDecrypt combine block feedback
      (cfbEncrypt combine block feedback text) = text := by
  induction text generalizing feedback with
  | nil => rfl
  | cons plain rest inductionHypothesis =>
      have same := inductionHypothesis
        (feedback.absorb block (combine (feedback.mask block) plain))
      rw [cfbEncrypt, cfbDecrypt, cancel, same]

end Esp32Source.Cipher
