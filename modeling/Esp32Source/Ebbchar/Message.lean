import Esp32Source.Ebbchar.Driver

/-!
# What a read returns after a history of writes

`dev_write` copies its text over the beginning of the static buffer and
measures the buffer with `strlen`.  It stores no terminator, so the tail of a
longer earlier text becomes part of the message.
-/

namespace Esp32Source.Ebbchar

open Memory Machine

/-- A read with a buffer of at least 255 bytes returns exactly `payload` and
its length. -/
def ReadsBack (driver : Driver) (payload : List UInt8) : Prop :=
  ∀ len, 255 ≤ len →
    devRead driver len 0 =
      { result := payload.length, userBytes := payload }

/-- A read returns the text that the buffer holds. -/
theorem Holds.devRead_eq {text : List UInt8} {driver : Driver}
    (holds : Holds text driver) (len : Nat) :
    devRead driver len 0 =
      { result := text.length, userBytes := text } := by
  have front : driver.message.window 0 text.length = text := by
    rw [Buffer.window, window, holds.padded, List.drop_zero, List.take_left]
  simp only [devRead, Nat.sub_zero, if_pos, holds.size, front]

theorem Holds.readsBack_iff {text : List UInt8} {driver : Driver}
    (holds : Holds text driver) (payload : List UInt8) :
    ReadsBack driver payload ↔ text = payload := by
  constructor
  · intro reads
    have reply := reads 255 (Nat.le_refl 255)
    rw [holds.devRead_eq] at reply
    exact congrArg Reply.userBytes reply
  · intro same len _
    rw [holds.devRead_eq, same]

/-- After any history of complete writes the driver is in a state from which a
read returns exactly the last text if and only if no earlier text was
longer. -/
theorem devRead_returns_last_payload_iff
    (paDatReg : BitVec 32) (history : List Call)
    (wellFormed : ∀ call, call ∈ history → call.WellFormed)
    (earlier : List (List UInt8)) (last : List UInt8)
    (written : payloads history = earlier ++ [last]) :
    ∃ driver,
      driverAfter paDatReg history = .ok driver ∧
        (ReadsBack driver last ↔
          ∀ payload, payload ∈ earlier → payload.length ≤ last.length) := by
  obtain ⟨driver, reached, holds⟩ :=
    driverAfter_holds paDatReg wellFormed
  refine ⟨driver, reached, ?_⟩
  rw [holds.readsBack_iff, written, overlayAll_concat_eq_last_iff]

def longThenShort : List Call :=
  [.write (ascii "hello") 0, .write (ascii "hi") 0]

theorem longThenShort_wellFormed :
    ∀ call, call ∈ longThenShort → call.WellFormed := by
  decide

/-- The text `"hi"` written after `"hello"` reads back as `"hillo"`. -/
theorem devRead_returns_stale_tail :
    (∀ call, call ∈ longThenShort → call.WellFormed) ∧
      payloads longThenShort = [ascii "hello"] ++ [ascii "hi"] ∧
      ∃ driver,
        driverAfter 0 longThenShort = .ok driver ∧
          devRead driver 255 0 =
            { result := 5, userBytes := ascii "hillo" } ∧
          ¬ ReadsBack driver (ascii "hi") := by
  obtain ⟨driver, reached, holds⟩ :=
    driverAfter_holds 0 longThenShort_wellFormed
  refine ⟨longThenShort_wellFormed, rfl, driver, reached, ?_, ?_⟩
  · rw [holds.devRead_eq]
    decide
  · rw [holds.readsBack_iff]
    decide

theorem devRead_returns_last_payload_iff_longThenShort :
    ∃ driver,
      driverAfter 0 longThenShort = .ok driver ∧
        (ReadsBack driver (ascii "hi") ↔
          ∀ payload, payload ∈ [ascii "hello"] →
            payload.length ≤ (ascii "hi").length) :=
  devRead_returns_last_payload_iff 0 longThenShort longThenShort_wellFormed
    [ascii "hello"] (ascii "hi") rfl

end Esp32Source.Ebbchar
