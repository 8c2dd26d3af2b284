import Esp32Source.UdpServerOriginal.Boot

/-!
# From the datagram to the station

A datagram `S;P` or `S;P;R` is written to the credential file, and the boot
that follows starts the station from the file.  Every stage but one passes the
bytes of the name and the password on as they are: the file is written with
`fprintf` and the datagram as its format.  The semicolons separate what the
format does to the three parts, so the name and the password survive exactly
when neither has a percent sign, and the boot is reached exactly when the
percent signs of the rest come in pairs.
-/

namespace Esp32Source.UdpServerOriginal

open Memory Machine UdpServer Wifi

/-- `S;P`, or `S;P;R` with a remark `R`. -/
def datagramOf (ssid pwd : List UInt8) (remark : Option (List UInt8)) :
    List UInt8 :=
  match remark with
  | none => ssid ++ separator :: pwd
  | some text => ssid ++ separator :: (pwd ++ separator :: text)

/-- Everything that the environment decides between the datagram and the call
of `wifi_init_sta`. -/
structure Trip where
  receiver : Receiver
  rxBuffer : Buffer 128
  storage : Storage
  stored : StorageAnswers
  sends : Bool
  boot : BootAnswers

/-- Receive and store the datagram, then boot: the call of `wifi_init_sta`, if
there is one. -/
def roundTrip (trip : Trip) (datagram : List UInt8) :
    Except Fault (Option StaCall) := do
  let (storage, _) ← udpServerTask trip.receiver trip.rxBuffer trip.storage
    datagram trip.stored trip.sends
  let (_, ended) ← appMain (reset storage) trip.boot
  return ended.staCall

/-- The storage calls of the trip find the partition unmounted and succeed. -/
structure Trip.Succeeds (trip : Trip) : Prop where
  unmounted : trip.storage.mounted = false
  stored : trip.stored.Succeed
  read : trip.boot.read.Succeed

/-- The datagrams that the round trip is about. -/
structure Provisions (ssid pwd : List UInt8)
    (remark : Option (List UInt8)) : Prop where
  ssidNonempty : 1 ≤ ssid.length
  ssidShort : ssid.length ≤ 32
  ssidPlain : separator ∉ ssid
  pwdShort : pwd.length ≤ 63
  pwdPlain : separator ∉ pwd
  short : (datagramOf ssid pwd remark).length ≤ 127
  free : NulFree (datagramOf ssid pwd remark)
  oneLine : 10 ∉ datagramOf ssid pwd remark

/-- `wifi_init_sta` is called with the name and the password of the datagram
and sets both. -/
def RoundTrips (trip : Trip) (ssid pwd : List UInt8)
    (remark : Option (List UInt8)) : Prop :=
  ∃ call,
    roundTrip trip (datagramOf ssid pwd remark) = .ok (some call) ∧
      call.ssid = ssid ∧ call.pwd = pwd ∧
      ssidText call.config.lead = ssid ∧
      passwordText call.config.lead = pwd

/-- Name and password have no percent sign, and those of the remark come in
pairs. -/
def PercentSafe (ssid pwd : List UInt8) (remark : Option (List UInt8)) :
    Prop :=
  percent ∉ ssid ∧ percent ∉ pwd ∧
    ∀ text, remark = some text → percentsPaired text = true

/-! ## The parts of a datagram -/

theorem separator_mem_datagramOf (ssid pwd : List UInt8)
    (remark : Option (List UInt8)) :
    separator ∈ datagramOf ssid pwd remark := by
  cases remark <;> simp [datagramOf]

theorem takeWhile_before_separator {front : List UInt8}
    (plain : separator ∉ front) (rest : List UInt8) :
    (front ++ separator :: rest).takeWhile (· ≠ separator) = front := by
  rw [List.takeWhile_append_of_pos, List.takeWhile_cons_of_neg (by simp),
    List.append_nil]
  intro byte member
  have other : byte ≠ separator := fun same => plain (same ▸ member)
  simpa using other

theorem datagramSsid_datagramOf {ssid : List UInt8}
    (plain : separator ∉ ssid) (pwd : List UInt8)
    (remark : Option (List UInt8)) :
    datagramSsid (datagramOf ssid pwd remark) = ssid := by
  cases remark with
  | none =>
      exact takeWhile_before_separator plain _
  | some text =>
      exact takeWhile_before_separator plain _

theorem datagramPasswd_datagramOf {ssid pwd : List UInt8}
    (ssidPlain : separator ∉ ssid) (pwdPlain : separator ∉ pwd)
    (remark : Option (List UInt8)) :
    datagramPasswd (datagramOf ssid pwd remark) = pwd := by
  obtain ⟨tail, shape, password⟩ :=
    split_at_separator (separator_mem_datagramOf ssid pwd remark)
  rw [datagramSsid_datagramOf ssidPlain] at shape
  rw [password]
  cases remark with
  | none =>
      injection List.append_cancel_left shape with _ isPassword
      rw [← isPassword, List.takeWhile_eq_self_iff]
      intro byte member
      have other : byte ≠ separator := fun same => pwdPlain (same ▸ member)
      simpa using other
  | some text =>
      injection List.append_cancel_left shape with _ isPassword
      rw [← isPassword, takeWhile_before_separator pwdPlain]

/-- What `fprintf` makes of a datagram is a datagram again: each part is
written on its own. -/
theorem formatOutput_datagramOf_iff {ssid pwd written : List UInt8}
    {remark : Option (List UInt8)} :
    formatOutput (datagramOf ssid pwd remark) = .ok written ↔
      ∃ ssidWritten pwdWritten remarkWritten,
        formatOutput ssid = .ok ssidWritten ∧
          formatOutput pwd = .ok pwdWritten ∧
          (remark.mapM formatOutput : Except Fault _) =
            .ok remarkWritten ∧
          written = datagramOf ssidWritten pwdWritten remarkWritten := by
  have plain : separator ≠ percent := by decide
  cases remark with
  | none =>
      rw [datagramOf, formatOutput_append_cons plain]
      constructor
      · intro formatted
        obtain ⟨ssidWritten, ssidFormatted, behind⟩ :=
          bind_eq_ok_iff.mp formatted
        obtain ⟨pwdWritten, pwdFormatted, same⟩ := map_eq_ok_iff.mp behind
        exact ⟨ssidWritten, pwdWritten, none, ssidFormatted, pwdFormatted,
          rfl, same.symm⟩
      · rintro ⟨ssidWritten, pwdWritten, _, ssidFormatted, pwdFormatted,
          ⟨⟩, same⟩
        rw [ssidFormatted, pwdFormatted, same]
        rfl
  | some text =>
      rw [datagramOf, formatOutput_append_cons plain,
        formatOutput_append_cons plain]
      constructor
      · intro formatted
        obtain ⟨ssidWritten, ssidFormatted, behind⟩ :=
          bind_eq_ok_iff.mp formatted
        obtain ⟨tail, tailFormatted, same⟩ := map_eq_ok_iff.mp behind
        obtain ⟨pwdWritten, pwdFormatted, last⟩ :=
          bind_eq_ok_iff.mp tailFormatted
        obtain ⟨textWritten, textFormatted, tailSame⟩ :=
          map_eq_ok_iff.mp last
        refine ⟨ssidWritten, pwdWritten, some textWritten, ssidFormatted,
          pwdFormatted, ?_, ?_⟩
        · rw [Option.mapM_some, textFormatted]
          rfl
        · rw [← same, ← tailSame]
          rfl
      · rintro ⟨ssidWritten, pwdWritten, remarkWritten, ssidFormatted,
          pwdFormatted, remarkFormatted, same⟩
        rw [Option.mapM_some] at remarkFormatted
        obtain ⟨textWritten, textFormatted, isRemark⟩ :=
          map_eq_ok_iff.mp remarkFormatted
        rw [ssidFormatted, pwdFormatted, textFormatted, same, ← isRemark]
        rfl

/-! ## The stages -/

theorem takes_of_short (receiver : Receiver) {datagram : List UInt8}
    (short : datagram.length ≤ 127) :
    receiver.takes datagram = datagram := by
  cases receiver with
  | recvfrom =>
      exact List.take_of_length_le short
  | recvmsg =>
      exact List.take_of_length_le (by omega)

/-- The task writes what `fprintf` makes of the datagram. -/
theorem udpServerTask_stores (receiver : Receiver) (rxBuffer : Buffer 128)
    {storage : Storage} {answers : StorageAnswers}
    (unmounted : storage.mounted = false) (succeed : answers.Succeed)
    {datagram : List UInt8} (short : datagram.length ≤ 127)
    (free : NulFree datagram) (sends : Bool) :
    (udpServerTask receiver rxBuffer storage datagram answers sends).map
        Prod.fst =
      (formatOutput datagram).map fun written =>
        { storage with
          files :=
            Function.update storage.files wifiCredential (some written) } := by
  obtain ⟨received, terminated, first, second, cells⟩ :=
    rxBuffer.terminate_of_fits datagram (by omega)
  have text : cText terminated.cells = datagram := by
    rw [cells, cText_terminated free]
  have echoed := terminated.load_of_fits 0 datagram.length (by omega)
  rw [udpServerTask, takes_of_short receiver short]
  dsimp only [bind, Except.bind]
  rw [first]
  dsimp only
  rw [second]
  dsimp only
  cases formatted : formatOutput datagram with
  | error fault =>
      rw [wearLevellingStorage, mountRwWl_of_unmounted unmounted,
        succeed.1, if_pos rfl]
      dsimp only
      rw [succeed.2, if_pos rfl, text, formatted]
      rfl
  | ok written =>
      have writes := wearLevellingStorage_writes unmounted succeed
        wifiCredential (text.symm ▸ formatted)
      rw [writes]
      dsimp only
      rw [echoed]
      rfl

/-- A boot from a file that holds a datagram calls `wifi_init_sta` with its
parts. -/
theorem appMain_of_datagramOf {storage : Storage} {answers : BootAnswers}
    (unmounted : storage.mounted = false) (succeed : answers.read.Succeed)
    {ssid pwd : List UInt8} {remark : Option (List UInt8)}
    (provisions : Provisions ssid pwd remark)
    (holds : storage.files wifiCredential =
      some (datagramOf ssid pwd remark)) :
    ∃ final ended call,
      appMain storage answers = .ok (final, ended) ∧
        ended.staCall = some call ∧
        call.ssid = ssid ∧ call.pwd = pwd ∧
        ssidText call.config.lead = ssid ∧
        passwordText call.config.lead = pwd := by
  have separated := separator_mem_datagramOf ssid pwd remark
  have nonempty : datagramOf ssid pwd remark ≠ [] :=
    List.ne_nil_of_mem separated
  have oneRecord :=
    fgetsRecords_of_line nonempty provisions.short provisions.oneLine
  obtain ⟨row, behind, read, size, shape⟩ :=
    wearLevellingStorageRead_row unmounted succeed holds nonempty (by
      rw [oneRecord, List.length_singleton]
      decide)
  rw [fgetsRecord_of_line provisions.short provisions.oneLine] at shape
  obtain ⟨line, rest, calls, cells⟩ :=
    appMain_of_separated read size shape provisions.free separated
  rw [datagramSsid_datagramOf provisions.ssidPlain] at calls cells
  rw [datagramPasswd_datagramOf provisions.ssidPlain provisions.pwdPlain]
    at cells
  have ssidFree : NulFree ssid := by
    intro byte member
    apply provisions.free
    cases remark <;> exact List.mem_append_left _ member
  have pwdFree : NulFree pwd := by
    intro byte member
    apply provisions.free
    cases remark <;> simp [datagramOf, member]
  have ssidShort := provisions.ssidShort
  have pwdShort := provisions.pwdShort
  have ssidInside : 0 + 32 ≤ 192 := by decide
  have pwdInside : (ssid.length + 1) + 64 ≤ 192 := by omega
  obtain ⟨call, starts⟩ :=
    wifiInitSta_starts storage line answers ssidInside pwdInside
  obtain ⟨final, ended, returned, isCall, _⟩ := starts.ends
  have fromPwd : line.cells.drop (ssid.length + 1) = pwd ++ 0 :: rest := by
    rw [cells, List.drop_append, List.drop_of_length_le (by omega)]
    simp
  refine ⟨final, ended, call, calls.trans returned, isCall, ?_, ?_, ?_, ?_⟩
  · rw [starts.ssid, List.drop_zero, cells, cText_terminated ssidFree]
  · rw [starts.pwd, fromPwd, cText_terminated pwdFree]
  · rw [ssidText, starts.ssidField, Buffer.window, Memory.window,
      List.drop_zero, cells, cText_take_terminated ssidFree _ ssidShort]
  · rw [passwordText, starts.pwdField, Buffer.window, Memory.window,
      fromPwd, cText_take_terminated pwdFree _ (by omega)]

/-- The parts that are written are no longer, and have no new bytes. -/
theorem Provisions.written {ssid pwd ssidWritten pwdWritten : List UInt8}
    {remark remarkWritten : Option (List UInt8)}
    (provisions : Provisions ssid pwd remark)
    (ssidFormatted : formatOutput ssid = .ok ssidWritten)
    (pwdFormatted : formatOutput pwd = .ok pwdWritten)
    (formatted : formatOutput (datagramOf ssid pwd remark) =
      .ok (datagramOf ssidWritten pwdWritten remarkWritten)) :
    Provisions ssidWritten pwdWritten remarkWritten := by
  have whole := formatOutput_subset formatted
  have nonempty : ssid ≠ [] :=
    List.ne_nil_of_length_pos provisions.ssidNonempty
  exact
    { ssidNonempty :=
        List.length_pos_iff.mpr (formatOutput_ne_nil ssidFormatted nonempty)
      ssidShort :=
        (formatOutput_length ssidFormatted).1.trans provisions.ssidShort
      ssidPlain := fun member =>
        provisions.ssidPlain (formatOutput_subset ssidFormatted _ member)
      pwdShort :=
        (formatOutput_length pwdFormatted).1.trans provisions.pwdShort
      pwdPlain := fun member =>
        provisions.pwdPlain (formatOutput_subset pwdFormatted _ member)
      short := (formatOutput_length formatted).1.trans provisions.short
      free := fun byte member => provisions.free byte (whole byte member)
      oneLine := fun member => provisions.oneLine (whole _ member) }

/-! ## The round trip -/

/-- What `fprintf` made of the datagram reaches `wifi_init_sta`. -/
theorem roundTrip_of_written {trip : Trip} (succeeds : trip.Succeeds)
    {ssid pwd ssidWritten pwdWritten : List UInt8}
    {remark remarkWritten : Option (List UInt8)}
    (provisions : Provisions ssid pwd remark)
    (arrives : Provisions ssidWritten pwdWritten remarkWritten)
    (formatted : formatOutput (datagramOf ssid pwd remark) =
      .ok (datagramOf ssidWritten pwdWritten remarkWritten)) :
    ∃ call,
      roundTrip trip (datagramOf ssid pwd remark) = .ok (some call) ∧
        call.ssid = ssidWritten ∧ call.pwd = pwdWritten ∧
        ssidText call.config.lead = ssidWritten ∧
        passwordText call.config.lead = pwdWritten := by
  have stores := udpServerTask_stores trip.receiver trip.rxBuffer
    succeeds.unmounted succeeds.stored provisions.short provisions.free
    trip.sends
  rw [formatted] at stores
  obtain ⟨⟨storage, echo⟩, received, isStorage⟩ := map_eq_ok_iff.mp stores
  have holds : (reset storage).files wifiCredential =
      some (datagramOf ssidWritten pwdWritten remarkWritten) := by
    change storage = _ at isStorage
    rw [reset, isStorage]
    dsimp only
    rw [Function.update_self]
  have afterReset : (reset storage).mounted = false := rfl
  obtain ⟨final, ended, call, boots, isCall, strings⟩ :=
    appMain_of_datagramOf afterReset succeeds.read arrives holds
  refine ⟨call, ?_, strings⟩
  rw [roundTrip, received]
  dsimp only [bind, Except.bind]
  rw [boots]
  dsimp only
  rw [isCall]
  rfl

/-- The round trip ends where `fprintf` has nothing to convert. -/
theorem roundTrip_of_fault {trip : Trip} (succeeds : trip.Succeeds)
    {ssid pwd : List UInt8} {remark : Option (List UInt8)}
    (provisions : Provisions ssid pwd remark) {fault : Fault}
    (formatted : formatOutput (datagramOf ssid pwd remark) =
      .error fault) :
    roundTrip trip (datagramOf ssid pwd remark) = .error fault := by
  have stores := udpServerTask_stores trip.receiver trip.rxBuffer
    succeeds.unmounted succeeds.stored provisions.short provisions.free
    trip.sends
  rw [formatted] at stores
  rw [roundTrip]
  cases received : udpServerTask trip.receiver trip.rxBuffer trip.storage
      (datagramOf ssid pwd remark) trip.stored trip.sends with
  | error earlier =>
      rw [received] at stores
      injection stores with same
      rw [same]
      rfl
  | ok result =>
      rw [received] at stores
      cases stores

/-- A remark is formatted when its percent signs come in pairs. -/
theorem remark_formatted_iff (remark : Option (List UInt8)) :
    (∃ written, (remark.mapM formatOutput : Except Fault _) =
        .ok written) ↔
      ∀ text, remark = some text → percentsPaired text = true := by
  cases remark with
  | none =>
      refine iff_of_true ⟨none, rfl⟩ ?_
      intro text isText
      cases isText
  | some text =>
      rw [Option.mapM_some]
      constructor
      · rintro ⟨written, formatted⟩ other isOther
        obtain ⟨textWritten, textFormatted, _⟩ := map_eq_ok_iff.mp formatted
        cases isOther
        exact (formatOutput_isOk_iff text).mp ⟨textWritten, textFormatted⟩
      · intro paired
        obtain ⟨written, formatted⟩ :=
          (formatOutput_isOk_iff text).mpr (paired text rfl)
        exact ⟨some written, by rw [formatted]; rfl⟩

/-- Whatever the environment decides, a datagram `S;P` or `S;P;R` reaches the
station unchanged exactly when name and password have no percent sign and
those of the remark come in pairs. -/
theorem roundTrips_iff {trip : Trip} {ssid pwd : List UInt8}
    {remark : Option (List UInt8)} (succeeds : trip.Succeeds)
    (provisions : Provisions ssid pwd remark) :
    RoundTrips trip ssid pwd remark ↔ PercentSafe ssid pwd remark := by
  cases formatted : formatOutput (datagramOf ssid pwd remark) with
  | error fault =>
      refine iff_of_false ?_ ?_
      · rintro ⟨call, returned, _⟩
        rw [roundTrip_of_fault succeeds provisions formatted] at returned
        cases returned
      · rintro ⟨ssidSafe, pwdSafe, remarkSafe⟩
        obtain ⟨remarkWritten, remarkFormatted⟩ :=
          (remark_formatted_iff remark).mpr remarkSafe
        have whole := formatOutput_datagramOf_iff.mpr
          ⟨ssid, pwd, remarkWritten, formatOutput_of_plain ssidSafe,
            formatOutput_of_plain pwdSafe, remarkFormatted, rfl⟩
        rw [formatted] at whole
        cases whole
  | ok written =>
      obtain ⟨ssidWritten, pwdWritten, remarkWritten, ssidFormatted,
        pwdFormatted, remarkFormatted, isWritten⟩ :=
        formatOutput_datagramOf_iff.mp formatted
      rw [isWritten] at formatted
      have arrives :=
        provisions.written ssidFormatted pwdFormatted formatted
      obtain ⟨call, returned, ssidArg, pwdArg, ssidField, pwdField⟩ :=
        roundTrip_of_written succeeds provisions arrives formatted
      have remarkSafe :=
        (remark_formatted_iff remark).mp ⟨remarkWritten, remarkFormatted⟩
      constructor
      · rintro ⟨other, otherReturned, otherSsid, otherPwd, _⟩
        rw [returned] at otherReturned
        injection otherReturned with isSome
        injection isSome with isCall
        rw [← isCall, ssidArg] at otherSsid
        rw [← isCall, pwdArg] at otherPwd
        exact ⟨(written_eq_self_iff ssidFormatted).mp otherSsid,
          (written_eq_self_iff pwdFormatted).mp otherPwd, remarkSafe⟩
      · rintro ⟨ssidSafe, pwdSafe, _⟩
        have sameSsid := (written_eq_self_iff ssidFormatted).mpr ssidSafe
        have samePwd := (written_eq_self_iff pwdFormatted).mpr pwdSafe
        rw [sameSsid] at ssidArg ssidField
        rw [samePwd] at pwdArg pwdField
        exact ⟨call, returned, ssidArg, pwdArg, ssidField, pwdField⟩

/-- A trip on which every call succeeds and the connection comes up. -/
def smoothTrip : Trip where
  receiver := .recvfrom
  rxBuffer := Buffer.zero 128
  storage := { mounted := false, files := fun _ => none }
  stored := { mountSucceeds := true, fopenSucceeds := true }
  sends := true
  boot :=
    { read := { mountSucceeds := true, fopenSucceeds := true }
      memory := Buffer.zero 192
      bits := { connected := true, failed := false }
      write := { mountSucceeds := true, fopenSucceeds := true } }

theorem smoothTrip_succeeds : smoothTrip.Succeeds :=
  ⟨rfl, ⟨rfl, rfl⟩, ⟨rfl, rfl⟩⟩

/-- A name with two percent signs loses one of them. -/
theorem percentName_is_changed :
    Provisions (ascii "cafe%%bar") (ascii "12345678") none ∧
      (roundTrip smoothTrip
          (datagramOf (ascii "cafe%%bar") (ascii "12345678") none)).map
        (Option.map StaCall.ssid) = .ok (some (ascii "cafe%bar")) ∧
      ¬ ∀ trip : Trip, trip.Succeeds → ∀ ssid pwd remark,
        Provisions ssid pwd remark → RoundTrips trip ssid pwd remark := by
  have provisions :
      Provisions (ascii "cafe%%bar") (ascii "12345678") none :=
    ⟨by decide, by decide, by decide, by decide, by decide, by decide,
      by decide, by decide⟩
  have changed :
      (roundTrip smoothTrip
          (datagramOf (ascii "cafe%%bar") (ascii "12345678") none)).map
        (Option.map StaCall.ssid) = .ok (some (ascii "cafe%bar")) := by
    decide +kernel
  refine ⟨provisions, changed, ?_⟩
  intro always
  obtain ⟨call, returned, ssidArg, _⟩ :=
    always smoothTrip smoothTrip_succeeds _ _ _ provisions
  rw [returned] at changed
  injection changed with isSome
  injection isSome with isSsid
  rw [ssidArg] at isSsid
  revert isSsid
  decide

/-- A name without percent signs, and a datagram that ends with the
password. -/
theorem roundTrips_iff_plainCredentials :
    RoundTrips smoothTrip (ascii "cafe-network") (ascii "12345678") none ↔
      PercentSafe (ascii "cafe-network") (ascii "12345678") none :=
  roundTrips_iff smoothTrip_succeeds
    ⟨by decide, by decide, by decide, by decide, by decide, by decide,
      by decide, by decide⟩

end Esp32Source.UdpServerOriginal
