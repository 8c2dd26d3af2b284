import Esp32Source.Blufi.Security

/-!
# A Diffie-Hellman library

The mbedTLS functions computed on natural numbers, as concrete parameters for
runs of the security module.  The random exponent is given.

Of the hash only its value at the empty string is given, and the cipher leaves
an empty input as it is; other inputs are answered with an error.
-/

namespace Esp32Source.Blufi

open Memory

/-- `mbedtls_dhm_context` -/
structure DhContext where
  p : Nat := 0
  g : Nat := 0
  gy : Nat := 0
  x : Nat := 0
  gx : Nat := 0
  k : Nat := 0
  deriving DecidableEq, Repr

/-- `mbedtls_mpi_size` -/
def mpiSize (number : Nat) : Nat :=
  if number = 0 then 0 else Nat.log2 number / 8 + 1

def mpiReadBinary (bytes : List UInt8) : Nat :=
  decode bytes.reverse

def mpiWriteBinary (number length : Nat) : List UInt8 :=
  (encode length number).reverse

/-- The next number with its two length bytes, and the bytes behind it. -/
def dhmReadBignum : List UInt8 → Option (Nat × List UInt8)
  | high :: low :: rest =>
      let length := high.toNat * 256 + low.toNat
      if length ≤ rest.length then
        some (mpiReadBinary (rest.take length), rest.drop length)
      else none
  | _ => none

/-- `2 ≤ value ≤ P - 2` -/
def dhmCheckRange (value p : Nat) : Bool :=
  2 ≤ value ∧ value + 2 ≤ p

/-- `MBEDTLS_ERR_DHM_BAD_INPUT_DATA` -/
def dhmBadInputData : Int := -0x3080

def textbookReadParams (context : DhContext) (bytes : List UInt8) :
    Int × DhContext :=
  match dhmReadBignum bytes with
  | none => (dhmBadInputData, context)
  | some (p, behindP) =>
      let context := { context with p }
      match dhmReadBignum behindP with
      | none => (dhmBadInputData, context)
      | some (g, behindG) =>
          let context := { context with g }
          match dhmReadBignum behindG with
          | none => (dhmBadInputData, context)
          | some (gy, _) =>
              let context := { context with gy }
              if dhmCheckRange gy p then (0, context)
              else (dhmBadInputData, context)

/-- `mbedtls_mpi_exp_mod`, which takes odd moduli only. -/
def mpiExpMod (base exponent modulus : Nat) : Option Nat :=
  if modulus % 2 = 1 then some (base ^ exponent % modulus) else none

def textbookMakePublic (x : Nat) (context : DhContext) (olen : Nat) :
    Written DhContext :=
  match mpiExpMod context.g x context.p with
  | none => { ret := dhmBadInputData, dhm := context, output := [] }
  | some gx =>
      let context := { context with x, gx }
      if dhmCheckRange gx context.p then
        { ret := 0, dhm := context, output := mpiWriteBinary gx olen }
      else { ret := dhmBadInputData, dhm := context, output := [] }

def textbookCalcSecret (context : DhContext) (outputSize : Nat) :
    WrittenSecret DhContext :=
  let refused : WrittenSecret DhContext :=
    { ret := dhmBadInputData, dhm := context, output := [], olen := none }
  if outputSize < mpiSize context.p then refused
  else if ¬ dhmCheckRange context.gy context.p then refused
  else
    match mpiExpMod context.gy context.x context.p with
    | none => refused
    | some k =>
        -- the secret is written without leading zeros
        { ret := 0, dhm := { context with k },
          output := mpiWriteBinary k (mpiSize k), olen := some (mpiSize k) }

/-- The digest of the empty string. -/
def md5Empty : List UInt8 :=
  [0xd4, 0x1d, 0x8c, 0xd9, 0x8f, 0x00, 0xb2, 0x04,
    0xe9, 0x80, 0x09, 0x98, 0xec, 0xf8, 0x42, 0x7e]

/-- The library; the environment is the random exponent. -/
def textbookMbedtls : Mbedtls DhContext (List UInt8) Nat where
  dhmInit := {}
  aesInit := []
  dhmReadParams _ context bytes := textbookReadParams context bytes
  sizeP context := mpiSize context.p
  dhmMakePublic x context _ olen := textbookMakePublic x context olen
  dhmCalcSecret _ context outputSize :=
    textbookCalcSecret context outputSize
  md5 _ input := if input = [] then (0, md5Empty) else (-1, [])
  aesSetkeyEnc _ key _ := key
  aesCryptCfb128 _ _ _ _ input := if input = [] then (0, []) else (-1, input)

/-! ## Messages -/

/-- The message that consists of the bytes, with zeros behind it.  A byte is
taken as a digit, since a list is slow to evaluate at an index. -/
def Message.ofBytes (bytes : List UInt8) : Message where
  data index := UInt8.ofNat (decode bytes / 256 ^ index)
  len := bytes.length

theorem Message.ofBytes_data (bytes : List UInt8) (index : Nat) :
    (Message.ofBytes bytes).data index = bytes.getD index 0 :=
  ofNat_decode_div bytes index

/-- A number behind its two length bytes. -/
def bignum (number : Nat) : List UInt8 :=
  (encode 2 (mpiSize number)).reverse ++
    mpiWriteBinary number (mpiSize number)

/-- The parameters `P`, `G` and `GY`. -/
def dhParams (p g gy : Nat) : List UInt8 :=
  bignum p ++ bignum g ++ bignum gy

/-- The message `SEC_TYPE_DH_PARAM_LEN` for parameters. -/
def dhParamLenMessage (params : List UInt8) : Message :=
  Message.ofBytes
    (secTypeDhParamLen :: (encode 2 params.length).reverse)

/-- The message `SEC_TYPE_DH_PARAM_DATA` with them. -/
def dhParamDataMessage (params : List UInt8) : Message :=
  Message.ofBytes (secTypeDhParamData :: params)

/-! ## The documented lengths -/

theorem length_mpiWriteBinary (number length : Nat) :
    (mpiWriteBinary number length).length = length := by
  rw [mpiWriteBinary, List.length_reverse, length_encode]

/-- A number that is no greater has no more bytes. -/
theorem mpiSize_mono {left right : Nat} (atMost : left ≤ right) :
    mpiSize left ≤ mpiSize right := by
  by_cases leftZero : left = 0
  · rw [mpiSize, if_pos leftZero]
    exact Nat.zero_le _
  · have rightNonzero : right ≠ 0 := by
      omega
    rw [mpiSize, mpiSize, if_neg leftZero, if_neg rightNonzero]
    have bits : left.log2 ≤ right.log2 := by
      rw [Nat.le_log2 rightNonzero]
      exact Nat.le_trans (Nat.log2_self_le leftZero) atMost
    exact Nat.add_le_add_right (Nat.div_le_div_right bits) 1

theorem mpiSize_mpiExpMod_le {base exponent modulus power : Nat}
    (isPower : mpiExpMod base exponent modulus = some power) :
    mpiSize power ≤ mpiSize modulus := by
  rw [mpiExpMod] at isPower
  by_cases isOdd : modulus % 2 = 1
  · rw [if_pos isOdd] at isPower
    have positive : 0 < modulus := by
      omega
    have below := Nat.mod_lt (base ^ exponent) positive
    rw [← Option.some_inj.mp isPower]
    exact mpiSize_mono (Nat.le_of_lt below)
  · rw [if_neg isOdd] at isPower
    cases isPower

theorem textbookMakePublic_bounds (x : Nat) (context : DhContext)
    (olen : Nat) :
    (textbookMakePublic x context olen).output.length ≤ olen ∧
      (textbookMakePublic x context olen).dhm.p = context.p := by
  rw [textbookMakePublic]
  cases mpiExpMod context.g x context.p with
  | none =>
      exact ⟨Nat.zero_le olen, rfl⟩
  | some gx =>
      dsimp only
      split
      · exact ⟨Nat.le_of_eq (length_mpiWriteBinary gx olen), rfl⟩
      · exact ⟨Nat.zero_le olen, rfl⟩

theorem textbookCalcSecret_bounds (context : DhContext)
    (outputSize : Nat) :
    (textbookCalcSecret context outputSize).output.length ≤
        mpiSize context.p ∧
      ∀ olen, (textbookCalcSecret context outputSize).olen = some olen →
        olen ≤ mpiSize context.p := by
  have noLength : ∀ olen, (none : Option Nat) = some olen →
      olen ≤ mpiSize context.p := by
    intro olen isSome
    cases isSome
  simp only [textbookCalcSecret]
  split
  · exact ⟨Nat.zero_le _, noLength⟩
  · split
    · exact ⟨Nat.zero_le _, noLength⟩
    · cases isPower : mpiExpMod context.gy context.x context.p with
      | none =>
          exact ⟨Nat.zero_le _, noLength⟩
      | some k =>
          have short := mpiSize_mpiExpMod_le isPower
          refine ⟨?_, ?_⟩
          · rw [length_mpiWriteBinary]
            exact short
          · intro olen isSize
            rw [← Option.some_inj.mp isSize]
            exact short

theorem textbookMbedtls_documented : textbookMbedtls.Documented where
  makePublic_length x context _ olen :=
    (textbookMakePublic_bounds x context olen).1
  makePublic_sizeP x context _ olen :=
    congrArg mpiSize (textbookMakePublic_bounds x context olen).2
  calcSecret_length _ context outputSize :=
    (textbookCalcSecret_bounds context outputSize).1
  calcSecret_olen _ context outputSize :=
    (textbookCalcSecret_bounds context outputSize).2
  md5_length _ input := by
    by_cases isEmpty : input = []
    · simp [textbookMbedtls, isEmpty, md5Empty]
    · simp [textbookMbedtls, isEmpty]

end Esp32Source.Blufi
