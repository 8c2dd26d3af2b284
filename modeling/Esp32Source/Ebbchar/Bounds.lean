import Esp32Source.Ebbchar.Driver

/-!
# The bounds of the copies

`dev_write` copies as many bytes to `message` as user space asks for, and
`dev_read` copies as many to user space as `strlen` last measured.  Neither
looks at the limit of the other side: the size of `message` and a terminator in
it, or the length of the user's buffer.

The value that `copy_from_user` returns is tested for being negative, which it
never is, so a copy that ends early is handled as a complete one.
-/

namespace Esp32Source.Ebbchar

open Memory Machine

/-! ## Writes -/

/-- The bytes that `copy_from_user` stores, with the zeros that it fills in. -/
def fromUser (buffer : List UInt8) (uncopied : Nat) : List UInt8 :=
  let copied := buffer.take (buffer.length - uncopied)
  copied ++ List.replicate (buffer.length - copied.length) 0

theorem length_fromUser (buffer : List UInt8) (uncopied : Nat) :
    (fromUser buffer uncopied).length = buffer.length := by
  simp only [fromUser, List.length_append, List.length_take,
    List.length_replicate]
  omega

/-- A write that goes through has stored all bytes inside `message`, and has
found a NUL there. -/
theorem devWrite_eq_ok_iff {driver next : Driver} {buffer : List UInt8}
    {uncopied : Nat} {reply : Reply} :
    devWrite driver buffer uncopied = .ok (next, reply) ↔
      buffer.length ≤ 256 ∧
        next.message.cells =
          overlay (fromUser buffer uncopied) driver.message.cells ∧
        0 ∈ next.message.cells ∧
        next = { driver with
          message := next.message
          sizeOfMessage := (cText next.message.cells).length
          paDatReg := applyCommand next.message driver.paDatReg } ∧
        reply = { result := buffer.length } := by
  have notNegative : ¬ ((uncopied : Int) < 0) := by
    omega
  have size := length_fromUser buffer uncopied
  have copies : copyFromUser driver.message buffer uncopied =
      driver.message.store 0 (fromUser buffer uncopied) :=
    rfl
  constructor
  · intro isWritten
    obtain ⟨message, copied, rest⟩ := bind_eq_ok_iff.mp isWritten
    rw [copies] at copied
    obtain ⟨fits, cells⟩ := Buffer.store_eq_ok_iff.mp copied
    rw [patch_zero] at cells
    dsimp only at rest
    rw [if_neg notNegative] at rest
    obtain ⟨length, measured, rest⟩ := bind_eq_ok_iff.mp rest
    obtain ⟨hasNul, isLength⟩ := strlen_eq_ok_iff.mp measured
    rw [List.drop_zero] at hasNul isLength
    cases rest
    refine ⟨by omega, cells, hasNul, ?_, rfl⟩
    rw [isLength]
  · rintro ⟨short, cells, hasNul, isNext, isReply⟩
    have copied : driver.message.store 0 (fromUser buffer uncopied) =
        .ok next.message := by
      apply Buffer.store_eq_ok_iff.mpr
      rw [patch_zero]
      exact ⟨by omega, cells⟩
    have measured : strlen next.message 0 =
        .ok (cText next.message.cells).length := by
      apply strlen_eq_ok_iff.mpr
      rw [List.drop_zero]
      exact ⟨hasNul, rfl⟩
    rw [devWrite, copies, copied]
    simp only [bind, Except.bind, if_neg notNegative, measured]
    rw [isReply, ← isNext]
    rfl

/-- What is measured is shorter than `message`. -/
def Measured (driver : Driver) : Prop :=
  driver.sizeOfMessage ≤ 255

theorem measured_of_devWrite {driver next : Driver} {buffer : List UInt8}
    {uncopied : Nat} {reply : Reply}
    (isWritten : devWrite driver buffer uncopied = .ok (next, reply)) :
    Measured next := by
  obtain ⟨_, _, hasNul, isNext, _⟩ := devWrite_eq_ok_iff.mp isWritten
  have shorter := (length_cText_lt_iff _).mpr hasNul
  rw [next.message.length_cells] at shorter
  rw [Measured, isNext]
  exact Nat.le_of_lt_succ shorter

/-! ## Calls -/

/-- A write stores only inside `message` and leaves a NUL there, so that
`strlen` and `strcmp` stay inside it; a read copies no more than `len` bytes
and returns no more. -/
def Driver.StaysInside (driver : Driver) : Call → Prop
  | .write buffer uncopied =>
      ∃ next reply,
        devWrite driver buffer uncopied = .ok (next, reply) ∧
          0 ∈ next.message.cells
  | .read len uncopied =>
      (devRead driver len uncopied).userBytes.length ≤ len ∧
        (devRead driver len uncopied).result ≤ len
  | _ => True

/-- The bytes of a write fit, and there is a NUL among them or behind them; a
read asks for as many bytes as are copied. -/
def Driver.Fits (driver : Driver) : Call → Prop
  | .write buffer uncopied =>
      buffer.length ≤ 256 ∧
        (0 ∈ fromUser buffer uncopied ∨
          0 ∈ driver.message.cells.drop buffer.length)
  | .read len uncopied => driver.sizeOfMessage - uncopied ≤ len
  | _ => True

theorem devWrite_staysInside_iff (driver : Driver) (buffer : List UInt8)
    (uncopied : Nat) :
    driver.StaysInside (.write buffer uncopied) ↔
      driver.Fits (.write buffer uncopied) := by
  have size := length_fromUser buffer uncopied
  have splits :
      0 ∈ overlay (fromUser buffer uncopied) driver.message.cells ↔
        0 ∈ fromUser buffer uncopied ∨
          0 ∈ driver.message.cells.drop buffer.length := by
    rw [overlay, size, List.mem_append]
  constructor
  · rintro ⟨next, reply, isWritten, hasNul⟩
    obtain ⟨short, cells, _⟩ := devWrite_eq_ok_iff.mp isWritten
    rw [cells, splits] at hasNul
    exact ⟨short, hasNul⟩
  · rintro ⟨short, hasNul⟩
    obtain ⟨message, _, cells⟩ :=
      driver.message.store_of_fits 0 (fromUser buffer uncopied) (by omega)
    rw [patch_zero] at cells
    rw [← splits, ← cells] at hasNul
    refine ⟨{ driver with
        message
        sizeOfMessage := (cText message.cells).length
        paDatReg := applyCommand message driver.paDatReg },
      { result := buffer.length }, ?_, hasNul⟩
    apply devWrite_eq_ok_iff.mpr
    exact ⟨short, cells, hasNul, rfl, rfl⟩

theorem devRead_staysInside_iff {driver : Driver}
    (measured : Measured driver) (len uncopied : Nat) :
    driver.StaysInside (.read len uncopied) ↔
      driver.Fits (.read len uncopied) := by
  rw [Measured] at measured
  have copied :
      (devRead driver len uncopied).userBytes.length =
        driver.sizeOfMessage - uncopied := by
    have fits : 0 + (driver.sizeOfMessage - uncopied) ≤ 256 := by
      omega
    have window := driver.message.length_window fits
    by_cases complete : uncopied = 0
    · rw [devRead, if_pos complete]
      exact window
    · rw [devRead, if_neg complete]
      exact window
  rw [Driver.StaysInside, Driver.Fits, copied]
  constructor
  · intro inside
    exact inside.1
  · intro fits
    refine ⟨fits, ?_⟩
    by_cases complete : uncopied = 0
    · rw [devRead, if_pos complete]
      rw [complete, Nat.sub_zero] at fits
      exact Int.ofNat_le.mpr fits
    · rw [devRead, if_neg complete]
      have negative : negativeEfault ≤ 0 := by
        decide
      exact Int.le_trans negative (Int.natCast_nonneg len)

theorem staysInside_iff {driver : Driver} (measured : Measured driver)
    (call : Call) : driver.StaysInside call ↔ driver.Fits call := by
  cases call with
  | write buffer uncopied =>
      exact devWrite_staysInside_iff driver buffer uncopied
  | read len uncopied =>
      exact devRead_staysInside_iff measured len uncopied
  | «open» => exact Iff.rfl
  | release => exact Iff.rfl
  | work => exact Iff.rfl

/-- A call that stays inside is handled, and leaves a measured message. -/
theorem Measured.handle {driver : Driver} (measured : Measured driver)
    {call : Call} (inside : driver.StaysInside call) :
    ∃ next reply,
      handle driver call = .ok (next, reply) ∧ Measured next := by
  cases call with
  | write buffer uncopied =>
      obtain ⟨next, reply, isWritten, _⟩ := inside
      exact ⟨next, reply, isWritten, measured_of_devWrite isWritten⟩
  | read len uncopied => exact ⟨driver, _, rfl, measured⟩
  | «open» => exact ⟨_, _, rfl, measured⟩
  | release => exact ⟨driver, _, rfl, measured⟩
  | work => exact ⟨_, _, rfl, measured⟩

/-! ## Runs -/

def StaysInsideAfter (paDatReg : BitVec 32) (front : List Call)
    (call : Call) : Prop :=
  ∃ driver,
    driverAfter paDatReg front = .ok driver ∧ driver.StaysInside call

def FitsAfter (paDatReg : BitVec 32) (front : List Call) (call : Call) :
    Prop :=
  ∀ driver, driverAfter paDatReg front = .ok driver → driver.Fits call

theorem driverAfter_measured {paDatReg : BitVec 32} {history : List Call}
    {driver : Driver}
    (reached : driverAfter paDatReg history = .ok driver) :
    Measured driver := by
  refine after_induction
    (motive := fun _ driver => Measured driver) ?_ ?_ reached
  · exact Nat.zero_le 255
  · intro front call state next reply _ measured handled
    cases call with
    | write buffer uncopied => exact measured_of_devWrite handled
    | read len uncopied =>
        cases handled
        exact measured
    | «open» =>
        cases handled
        exact measured
    | release =>
        cases handled
        exact measured
    | work =>
        cases handled
        exact measured

/-- In every run, every copy stays inside its limits exactly when every call
fits. -/
theorem copies_stay_inside_iff (paDatReg : BitVec 32)
    (history : List Call) :
    AtEveryStep (StaysInsideAfter paDatReg) history ↔
      AtEveryStep (FitsAfter paDatReg) history := by
  constructor
  · intro inside front call behind shape driver reached
    obtain ⟨same, reachedSame, isInside⟩ := inside front call behind shape
    cases reached.symm.trans reachedSame
    exact (staysInside_iff (driverAfter_measured reached) call).mp isInside
  · intro fits
    induction history using List.reverseRecOn with
    | nil => exact atEveryStep_nil _
    | append_singleton history call inductionHypothesis =>
        obtain ⟨earlierFits, lastFits⟩ := atEveryStep_concat_iff.mp fits
        have earlier := inductionHypothesis earlierFits
        have run : ∃ driver, driverAfter paDatReg history = .ok driver ∧
            Measured driver := by
          refine after_total_of_steps (fun _ driver => Measured driver) _
            ?_ ?_ earlier
          · exact Nat.zero_le 255
          intro front event driver reached measured inside
          obtain ⟨same, reachedSame, isInside⟩ := inside
          cases reachedSame.symm.trans reached
          exact measured.handle isInside
        obtain ⟨driver, reached, measured⟩ := run
        refine atEveryStep_concat_iff.mpr ⟨earlier, driver, reached, ?_⟩
        exact (staysInside_iff measured call).mpr (lastFits driver reached)

/-- `"hello"` read with a buffer of two bytes copies five, and 256 bytes
without NUL leave `strlen` nothing to stop at. -/
theorem shortRead_copies_too_much :
    (driverAfter 0 [.write (ascii "hello") 0]).map
        (fun driver => devRead driver 2 0) =
      .ok { result := 5, userBytes := ascii "hello" } ∧
      driverAfter 0 [.write (List.replicate 256 97) 0] =
        .error .outOfBounds ∧
      ¬ ∀ paDatReg history,
        AtEveryStep (StaysInsideAfter paDatReg) history := by
  have runsOff : driverAfter 0 [.write (List.replicate 256 97) 0] =
      .error .outOfBounds := by
    decide +kernel
  refine ⟨by decide +kernel, runsOff, ?_⟩
  intro always
  have inside := always 0 [.write (List.replicate 256 97) 0, .release]
    [.write (List.replicate 256 97) 0] .release [] rfl
  obtain ⟨driver, reached, _⟩ := inside
  rw [runsOff] at reached
  cases reached

/-! ## Partial copies -/

/-- A copy that is not complete changes nothing, and is not reported as
written. -/
def RejectsPartialCopy (driver : Driver) (buffer : List UInt8)
    (uncopied : Nat) : Prop :=
  ∃ next reply,
    devWrite driver buffer uncopied = .ok (next, reply) ∧
      next.message = driver.message ∧
      next.sizeOfMessage = driver.sizeOfMessage ∧
      next.paDatReg = driver.paDatReg ∧
      reply.result ≠ buffer.length

/-- No partial copy is rejected: where the call returns, it returns `len`, and
the LED follows a message of new bytes, zeros and old bytes. -/
theorem partialCopy_never_rejected (driver : Driver)
    (buffer : List UInt8) (uncopied : Nat) (isPartial : 1 ≤ uncopied)
    (atMost : uncopied ≤ buffer.length) :
    ¬ RejectsPartialCopy driver buffer uncopied ∧
      ∀ next reply,
        devWrite driver buffer uncopied = .ok (next, reply) →
          reply.result = buffer.length ∧
            next.message.cells =
              buffer.take (buffer.length - uncopied) ++
                (List.replicate uncopied 0 ++
                  driver.message.cells.drop buffer.length) ∧
            next.paDatReg = applyCommand next.message driver.paDatReg := by
  have stored : fromUser buffer uncopied =
      buffer.take (buffer.length - uncopied) ++
        List.replicate uncopied 0 := by
    have rest : buffer.length - min (buffer.length - uncopied)
        buffer.length = uncopied := by
      omega
    simp only [fromUser, List.length_take, rest]
  have returns : ∀ next reply,
      devWrite driver buffer uncopied = .ok (next, reply) →
        reply.result = buffer.length := by
    intro next reply isWritten
    obtain ⟨_, _, _, _, isReply⟩ := devWrite_eq_ok_iff.mp isWritten
    rw [isReply]
  constructor
  · rintro ⟨next, reply, isWritten, _, _, _, notReported⟩
    exact notReported (returns next reply isWritten)
  · intro next reply isWritten
    obtain ⟨_, cells, _, isNext, _⟩ := devWrite_eq_ok_iff.mp isWritten
    refine ⟨returns next reply isWritten, ?_, ?_⟩
    · rw [cells, overlay, length_fromUser, stored, List.append_assoc]
    · rw [isNext]

/-- Two of the four bytes of `"1\nab"` are copied: the LED is switched on and
four bytes are reported. -/
theorem partialCommand_switches_on :
    (devWrite (Driver.initial 0) (ascii "1\nab") 2).map
        (fun result => (result.1.paDatReg, result.2.result)) =
      .ok (0x400, 4) ∧
      ¬ ∀ driver buffer uncopied, 1 ≤ uncopied →
        uncopied ≤ buffer.length →
          RejectsPartialCopy driver buffer uncopied := by
  have switched :
      (devWrite (Driver.initial 0) (ascii "1\nab") 2).map
          (fun result => (result.1.paDatReg, result.2.result)) =
        .ok (0x400, 4) := by
    decide +kernel
  refine ⟨switched, ?_⟩
  intro always
  obtain ⟨next, reply, isWritten, _, _, sameLevel, _⟩ :=
    always (Driver.initial 0) (ascii "1\nab") 2 (by decide) (by decide)
  rw [isWritten] at switched
  injection switched with isResult
  injection isResult with isLevel _
  rw [sameLevel] at isLevel
  exact absurd isLevel (by decide)

theorem partialCopy_never_rejected_command :
    ¬ RejectsPartialCopy (Driver.initial 0) (ascii "1\nab") 2 :=
  (partialCopy_never_rejected (Driver.initial 0) (ascii "1\nab") 2
    (by decide) (by decide)).1

end Esp32Source.Ebbchar
