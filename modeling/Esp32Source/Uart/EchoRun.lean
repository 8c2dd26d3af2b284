import Esp32Source.Memory.StringCopy
import Esp32Source.Uart.EchoTask

/-!
# The echo task from pass to pass

`uart_read_bytes` stores what has arrived at the front of `data`, over what the
passes before left there.  A frame found at 19 is copied without its last
byte, so that what is sent depends on those passes: once a frame was found
at 20, its last byte stays behind all later ones.

The configuration of the ports and the delays are left out.
-/

namespace Esp32Source.Uart

open Memory Machine

/-! ## The task -/

/-- What `uart_read_bytes` delivers in one pass. -/
structure Received where
  bytes : List UInt8
  atMost : bytes.length ≤ bufSize

/-- The two arrays of the task. -/
structure Echo where
  data : Buffer bufSize
  data3 : Buffer 16
  deriving DecidableEq

/-- The task up to its loop: the length of what happens to be in the new block
is printed. -/
def startEcho (block : Option (Buffer bufSize)) : Except Fault Echo := do
  let data ← follow block
  let _ ← strlen data 0
  return { data, data3 := Buffer.zero 16 }

/-- One pass of the loop, with the bytes it gives to `uart_write_bytes`. -/
def Echo.pass (echo : Echo) (received : Received) :
    Except Fault (Echo × List UInt8) := do
  let data := echo.data.storeFront received.bytes received.atMost
  let (data3, sent) ← echoTaskRead data echo.data3
  return ({ data, data3 }, sent)

/-- `echo_task_read`, from the allocation of `data` on. -/
def echoTaskAfter (block : Option (Buffer bufSize))
    (history : List Received) : Except Fault Echo := do
  let start ← startEcho block
  after Echo.pass start history

/-- What `echo_task_write` sends, again and again. -/
def data1 : List UInt8 :=
  [0xEF, 0xEF, 0xEF, 0xEF, 0x0F, 0xEF, 0xEF, 0xEF, 0xEF, 0xEF, 0xEF, 0x0F,
    0x0F, 0x0F, 0x0F, 0x0F]

/-! ## What the passes find -/

/-- `data` behind the passes. -/
def dataAfter (data : Buffer bufSize) (history : List Received) :
    Buffer bufSize :=
  history.foldl
    (fun data received => data.storeFront received.bytes received.atMost)
    data

/-- The pass finds a frame at `cnt`. -/
def FoundAt (cnt : Nat) (data : Buffer bufSize) (front : List Received)
    (received : Received) : Prop :=
  FirstMatch (dataAfter data (front ++ [received])) cnt

/-- The frame that a pass finds at `cnt`. -/
def frameAt (cnt : Nat) (data : Buffer bufSize) (front : List Received)
    (received : Received) : List UInt8 :=
  (dataAfter data (front ++ [received])).window (cnt - 19) 16

/-- If the pass finds a frame, it is not behind 20. -/
def FoundInTime (data : Buffer bufSize) (front : List Received)
    (received : Received) : Prop :=
  ∀ cnt, FoundAt cnt data front received → cnt ≤ 20

/-- Some pass has found a frame at 20. -/
def FoundWhole (data : Buffer bufSize) (history : List Received) : Prop :=
  ∃ front received behind,
    history = front ++ received :: behind ∧ FoundAt 20 data front received

theorem dataAfter_concat (data : Buffer bufSize) (history : List Received)
    (received : Received) :
    dataAfter data (history ++ [received]) =
      (dataAfter data history).storeFront received.bytes
        received.atMost := by
  rw [dataAfter, List.foldl_append]
  rfl

theorem not_foundWhole_nil (data : Buffer bufSize) :
    ¬ FoundWhole data [] := by
  rintro ⟨front, received, behind, shape, _⟩
  simp at shape

theorem foundWhole_concat_iff {data : Buffer bufSize}
    {history : List Received} {received : Received} :
    FoundWhole data (history ++ [received]) ↔
      FoundWhole data history ∨ FoundAt 20 data history received := by
  constructor
  · rintro ⟨front, earlier, behind, shape, found⟩
    rcases concat_eq_append_cons_iff.mp shape with
      ⟨_, rfl, rfl⟩ | ⟨rest, _, inFront⟩
    · exact Or.inr found
    · exact Or.inl ⟨front, earlier, rest, inFront, found⟩
  · rintro (⟨front, earlier, behind, rfl, found⟩ | found)
    · exact ⟨front, earlier, behind ++ [received], by simp, found⟩
    · exact ⟨history, received, [], rfl, found⟩

/-! ## One pass -/

section Run

variable {start echo : Echo} {history : List Received} {received : Received}

/-- What a run has come to: the last byte of `data3` is that of a frame
exactly when one was found at 20. -/
structure Echoes (start : Echo) (history : List Received) (echo : Echo) :
    Prop where
  data : echo.data = dataAfter start.data history
  lastByte :
    echo.data3.cells[15]? = some 0x0F ↔ FoundWhole start.data history

theorem Echo.pass_eq_ok_iff {next : Echo} {sent : List UInt8} :
    echo.pass received = .ok (next, sent) ↔
      next.data = echo.data.storeFront received.bytes received.atMost ∧
        scan next.data echo.data3 = .ok next.data3 ∧
        sent = next.data3.cells := by
  obtain ⟨data, data3⟩ := next
  rw [pass, bind_eq_ok_iff]
  constructor
  · rintro ⟨⟨copied, cells⟩, scanned, returned⟩
    cases returned
    rw [echoTaskRead, bind_eq_ok_iff] at scanned
    obtain ⟨middle, scanned, same⟩ := scanned
    cases same
    exact ⟨rfl, scanned, rfl⟩
  · rintro ⟨isData, scanned, rfl⟩
    dsimp only at isData scanned
    rw [← isData]
    exact ⟨(data3, data3.cells), echoTaskRead_eq_ok_iff.mpr scanned, rfl⟩

/-- The frame at 20 has its last byte at the end of `data3`. -/
theorem last_of_frame_at_twenty {data : Buffer bufSize} {data3 : Buffer 16}
    (found : FirstMatch data 20)
    (cells : data3.cells = data.window (20 - 19) 16) :
    data3.cells[15]? = some 0x0F := by
  have last := last_of_patternAt found.holds
  have size : data.cells.length = 1024 := data.length_cells
  have inside : 16 < data.cells.length := by
    omega
  rw [List.getD_eq_getElem?_getD, List.getElem?_eq_getElem inside,
    Option.getD_some] at last
  rw [cells, Buffer.window, Memory.window,
    List.getElem?_take_of_lt (by decide), List.getElem?_drop,
    List.getElem?_eq_getElem inside, last]

/-- A pass stays inside `data3` exactly when its frame is found in time. -/
theorem Echoes.passes_iff (echoes : Echoes start history echo) :
    (∃ next sent, echo.pass received = .ok (next, sent)) ↔
      FoundInTime start.data history received := by
  have isData : echo.data.storeFront received.bytes received.atMost =
      dataAfter start.data (history ++ [received]) := by
    rw [dataAfter_concat, echoes.data]
  simp only [Echo.pass_eq_ok_iff, isData]
  constructor
  · rintro ⟨next, _, same, scanned, _⟩ cnt found
    rw [same] at scanned
    have fits := ((scan_of_firstMatch found _ _).mp scanned).1
    omega
  · intro inTime
    rcases firstMatch_or_none (dataAfter start.data (history ++ [received]))
      with ⟨cnt, found⟩ | noMatch
    · have atMost := inTime cnt found
      have inRange := found.inRange
      have large : bufSize = 1024 := rfl
      have size := echo.data3.length_cells
      have fits :=
        (dataAfter start.data (history ++ [received])).length_window
          (by omega : cnt - 19 + (cnt - 4) ≤ bufSize)
      have scanned := (scan_of_firstMatch found echo.data3
        ⟨_, by rw [List.length_append, fits, List.length_drop]; omega⟩).mpr
        ⟨by omega, rfl⟩
      exact ⟨⟨_, _⟩, _, rfl, scanned, rfl⟩
    · exact ⟨⟨_, _⟩, _, rfl, scanFrom_of_no_match noMatch, rfl⟩

/-- What a pass leaves at the end of `data3` decides whether it sends its frame
whole. -/
theorem Echoes.next {next : Echo} {sent : List UInt8}
    (echoes : Echoes start history echo)
    (passed : echo.pass received = .ok (next, sent)) :
    Echoes start (history ++ [received]) next ∧
      ∀ cnt, FoundAt cnt start.data history received →
        (sent = frameAt cnt start.data history received ↔
          FoundWhole start.data (history ++ [received])) := by
  obtain ⟨isData, scanned, rfl⟩ := Echo.pass_eq_ok_iff.mp passed
  rw [echoes.data, ← dataAfter_concat] at isData
  rw [isData] at scanned
  rcases firstMatch_or_none (dataAfter start.data (history ++ [received]))
    with ⟨cnt, found⟩ | noMatch
  · obtain ⟨fits, cells⟩ := (scan_of_firstMatch found _ _).mp scanned
    have inRange := found.inRange
    rcases Nat.lt_or_ge cnt 20 with before | behind
    · obtain rfl : cnt = 19 := by
        omega
      have notTwenty : ¬ FoundAt 20 start.data history received :=
        fun other => absurd (found.unique other) (by decide)
      have sameFound : FoundWhole start.data (history ++ [received]) ↔
          FoundWhole start.data history := by
        rw [foundWhole_concat_iff]
        exact or_iff_left notTwenty
      have sameLast : next.data3.cells[15]? = echo.data3.cells[15]? := by
        have front :=
          (dataAfter start.data (history ++ [received])).length_window
            (by decide : 19 - 19 + (19 - 4) ≤ bufSize)
        rw [cells, List.getElem?_append_right (by omega), front,
          List.getElem?_drop]
      refine ⟨⟨isData, by rw [sameLast, sameFound, echoes.lastByte]⟩, ?_⟩
      intro other otherFound
      rw [found.unique otherFound, sameFound, ← echoes.lastByte, frameAt,
        cells]
      exact window_at_nineteen found.holds
    · obtain rfl : cnt = 20 := by
        omega
      have whole : FoundWhole start.data (history ++ [received]) :=
        foundWhole_concat_iff.mpr (Or.inr found)
      have size := echo.data3.length_cells
      rw [List.drop_of_length_le (Nat.le_of_eq size),
        List.append_nil] at cells
      refine ⟨⟨isData, iff_of_true (last_of_frame_at_twenty found cells)
        whole⟩, ?_⟩
      intro other otherFound
      rw [found.unique otherFound]
      exact iff_of_true cells whole
  · have notFound (cnt : Nat) :
        ¬ FoundAt cnt start.data history received :=
      fun found => found.some_match noMatch
    have same : next.data3 = echo.data3 := by
      rw [scan, scanFrom_of_no_match noMatch] at scanned
      exact (Except.ok.inj scanned).symm
    refine ⟨⟨isData, ?_⟩, fun cnt found => absurd found (notFound cnt)⟩
    rw [same, foundWhole_concat_iff, or_iff_left (notFound 20)]
    exact echoes.lastByte

/-- The task comes to its loop with the new block, if there is one and the
`strlen` ends inside it. -/
theorem startEcho_eq_ok_iff {block : Option (Buffer bufSize)} :
    startEcho block = .ok start ↔
      block = some start.data ∧ 0 ∈ start.data.cells ∧
        start.data3 = Buffer.zero 16 := by
  obtain ⟨data, data3⟩ := start
  simp only [startEcho, bind_eq_ok_iff, follow_eq_ok_iff, strlen_eq_ok_iff,
    List.drop_zero]
  constructor
  · rintro ⟨found, isBlock, length, ⟨hasNul, _⟩, returned⟩
    cases returned
    exact ⟨isBlock, hasNul, rfl⟩
  · rintro ⟨isBlock, hasNul, rfl⟩
    exact ⟨data, isBlock, _, ⟨hasNul, rfl⟩, rfl⟩

theorem echoes_start (zeroed : start.data3 = Buffer.zero 16) :
    Echoes start [] start := by
  have lastByte : (Buffer.zero 16).cells[15]? ≠ some 0x0F := by
    decide
  refine ⟨rfl, iff_of_false ?_ (not_foundWhole_nil _)⟩
  rw [zeroed]
  exact lastByte

/-- A run goes on exactly as long as every frame is found in time. -/
theorem echoes_iff (zeroed : start.data3 = Buffer.zero 16) :
    (∃ echo, after Echo.pass start history = .ok echo) ↔
      AtEveryStep (FoundInTime start.data) history := by
  constructor
  · rintro ⟨echo, reached⟩ front received behind rfl
    obtain ⟨middle, reachedFront, rest⟩ :=
      after_append_eq_ok_iff.mp reached
    have echoes : Echoes start front middle :=
      after_induction (echoes_start zeroed)
        (fun _ _ _ _ _ _ echoes passed => (echoes.next passed).1)
        reachedFront
    rw [← List.singleton_append, after_append_eq_ok_iff] at rest
    obtain ⟨next, one, _⟩ := rest
    rw [after_singleton, map_eq_ok_iff] at one
    obtain ⟨⟨next, sent⟩, passed, _⟩ := one
    exact echoes.passes_iff.mp ⟨next, sent, passed⟩
  · intro inTime
    obtain ⟨echo, reached, _⟩ :=
      after_total_of_steps (Echoes start) (FoundInTime start.data)
        (echoes_start zeroed)
        (fun _ _ _ _ echoes inTime => by
          obtain ⟨next, sent, passed⟩ := echoes.passes_iff.mpr inTime
          exact ⟨next, sent, passed, (echoes.next passed).1⟩)
        inTime
    exact ⟨echo, reached⟩

theorem echoTaskAfter_eq_ok_iff {block : Option (Buffer bufSize)} :
    echoTaskAfter block history = .ok echo ↔
      ∃ start, startEcho block = .ok start ∧
        after Echo.pass start history = .ok echo :=
  bind_eq_ok_iff

/-- A pass behind a run that found all its frames in time. -/
theorem pass_of_inTime {data : Buffer bufSize} (hasNul : 0 ∈ data.cells)
    (inTime : AtEveryStep (FoundInTime data) (history ++ [received])) :
    ∃ middle next sent,
      echoTaskAfter (some data) history = .ok middle ∧
        middle.pass received = .ok (next, sent) ∧
        ∀ cnt, FoundAt cnt data history received →
          (sent = frameAt cnt data history received ↔
            FoundWhole data (history ++ [received])) := by
  have started : startEcho (some data) = .ok ⟨data, Buffer.zero 16⟩ :=
    startEcho_eq_ok_iff.mpr ⟨rfl, hasNul, rfl⟩
  have zeroed : (⟨data, Buffer.zero 16⟩ : Echo).data3 = Buffer.zero 16 := rfl
  rw [atEveryStep_concat_iff] at inTime
  obtain ⟨middle, reached⟩ := (echoes_iff zeroed).mpr inTime.1
  have echoes : Echoes ⟨data, Buffer.zero 16⟩ history middle :=
    after_induction (echoes_start zeroed)
      (fun _ _ _ _ _ _ echoes passed => (echoes.next passed).1) reached
  obtain ⟨next, sent, passed⟩ := echoes.passes_iff.mpr inTime.2
  exact ⟨middle, next, sent,
    echoTaskAfter_eq_ok_iff.mpr ⟨_, started, reached⟩, passed,
    (echoes.next passed).2⟩

/-! ## Runs -/

/-- The block exists, and the `strlen` in front of the loop ends inside it. -/
def StartsWith (block : Option (Buffer bufSize)) (data : Buffer bufSize) :
    Prop :=
  block = some data ∧ 0 ∈ data.cells

/-- The task stays inside its arrays exactly as long as the new block has a NUL
and no frame is found behind 20. -/
theorem echoTask_runs_iff {block : Option (Buffer bufSize)} :
    (∃ echo, echoTaskAfter block history = .ok echo) ↔
      ∃ data, StartsWith block data ∧
        AtEveryStep (FoundInTime data) history := by
  constructor
  · rintro ⟨echo, reached⟩
    obtain ⟨start, started, runs⟩ := echoTaskAfter_eq_ok_iff.mp reached
    obtain ⟨isBlock, hasNul, zeroed⟩ := startEcho_eq_ok_iff.mp started
    exact ⟨start.data, ⟨isBlock, hasNul⟩,
      (echoes_iff zeroed).mp ⟨echo, runs⟩⟩
  · rintro ⟨data, ⟨isBlock, hasNul⟩, inTime⟩
    have started : startEcho block = .ok ⟨data, Buffer.zero 16⟩ :=
      startEcho_eq_ok_iff.mpr ⟨isBlock, hasNul, rfl⟩
    have zeroed : (⟨data, Buffer.zero 16⟩ : Echo).data3 = Buffer.zero 16 :=
      rfl
    obtain ⟨echo, reached⟩ := (echoes_iff zeroed).mpr inTime
    exact ⟨echo, echoTaskAfter_eq_ok_iff.mpr ⟨_, started, reached⟩⟩

/-- Whatever is received, and whatever was in the new block: the task stays
inside its arrays exactly as long as the block has a NUL and no frame is found
behind 20, and a frame is sent whole exactly when one was found at 20, in this
pass or in any before. -/
theorem echoTask_sends_whole_iff (block : Option (Buffer bufSize))
    (history : List Received) :
    ((∃ echo, echoTaskAfter block history = .ok echo) ↔
      ∃ data, StartsWith block data ∧
        AtEveryStep (FoundInTime data) history) ∧
      ∀ data front received, StartsWith block data →
        AtEveryStep (FoundInTime data) (front ++ [received]) →
        ∃ middle next sent,
          echoTaskAfter block front = .ok middle ∧
            middle.pass received = .ok (next, sent) ∧
            ∀ cnt, FoundAt cnt data front received →
              (sent = frameAt cnt data front received ↔
                FoundWhole data (front ++ [received])) := by
  refine ⟨echoTask_runs_iff, ?_⟩
  rintro data front received ⟨isBlock, hasNul⟩ inTime
  rw [isBlock]
  exact pass_of_inTime hasNul inTime

/-- Passes that deliver at most sixteen bytes leave the rest of the block as it
was. -/
theorem dataAfter_of_short (data : Buffer bufSize)
    (short : ∀ received, received ∈ history →
      received.bytes.length ≤ 16)
    {index : Nat} (behind : 16 ≤ index) :
    (dataAfter data history).cells[index]? = data.cells[index]? := by
  induction history using List.reverseRecOn with
  | nil =>
      rfl
  | append_singleton history received inductionHypothesis =>
      rw [List.forall_mem_append, List.forall_mem_singleton] at short
      have cells : (dataAfter data (history ++ [received])).cells =
          overlay received.bytes (dataAfter data history).cells := by
        rw [dataAfter_concat]
        rfl
      rw [cells, overlay, List.getElem?_append_right (by omega),
        List.getElem?_drop, ← inductionHypothesis short.1]
      congr 1
      omega

/-- A frame behind 19 needs a byte behind the sixteenth. -/
theorem foundAt_nineteen_of_short {front : List Received} {cnt : Nat}
    {data : Buffer bufSize}
    (quiet : ∀ index, 16 ≤ index → index < 36 →
      data.cells[index]? ≠ some 0x0F)
    (short : ∀ earlier, earlier ∈ front ++ [received] →
      earlier.bytes.length ≤ 16)
    (found : FoundAt cnt data front received) : cnt = 19 := by
  by_contra notNineteen
  have inRange := found.inRange
  have last := last_of_patternAt found.holds
  have size := (dataAfter data (front ++ [received])).length_cells
  have large : bufSize = 1024 := rfl
  have inside :
      cnt - 4 < (dataAfter data (front ++ [received])).cells.length := by
    omega
  rw [List.getD_eq_getElem?_getD, List.getElem?_eq_getElem inside,
    Option.getD_some] at last
  apply quiet (cnt - 4) (by omega) (by omega)
  rw [← dataAfter_of_short data short (by omega),
    List.getElem?_eq_getElem inside, last]

/-- With at most sixteen bytes in a pass, which is the length of a frame, and a
block that has a NUL, the task stays inside its arrays, and no frame is ever
sent as it was received. -/
theorem shortReads_never_send_frame {block : Option (Buffer bufSize)}
    {data : Buffer bufSize} (starts : StartsWith block data)
    (quiet : ∀ index, 16 ≤ index → index < 36 →
      data.cells[index]? ≠ some 0x0F)
    (short : ∀ received, received ∈ history →
      received.bytes.length ≤ 16) :
    (∃ echo, echoTaskAfter block history = .ok echo) ∧
      ∀ front received behind, history = front ++ received :: behind →
        ∃ middle next sent,
          echoTaskAfter block front = .ok middle ∧
            middle.pass received = .ok (next, sent) ∧
            ∀ cnt, FoundAt cnt data front received →
              sent ≠ frameAt cnt data front received := by
  have nineteen {front : List Received} {received : Received}
      {behind : List Received} (shape : history = front ++ received :: behind)
      {cnt : Nat} (found : FoundAt cnt data front received) :
      cnt = 19 := by
    refine foundAt_nineteen_of_short quiet ?_ found
    intro earlier member
    apply short
    rw [shape, ← List.singleton_append, ← List.append_assoc]
    exact List.mem_append_left behind member
  have inTime : AtEveryStep (FoundInTime data) history := by
    intro front received behind shape cnt found
    rw [nineteen shape found]
    decide
  refine ⟨echoTask_runs_iff.mpr ⟨data, starts, inTime⟩, ?_⟩
  intro front received behind shape
  have wholeFront : history = (front ++ [received]) ++ behind := by
    rw [shape, List.append_assoc, List.singleton_append]
  obtain ⟨middle, next, sent, reached, passed, whole⟩ :=
    @pass_of_inTime front received data starts.2 (by
      intro earlier event rest isPart
      apply inTime earlier event (rest ++ behind)
      rw [wholeFront, isPart, List.append_assoc, List.cons_append])
  rw [← starts.1] at reached
  refine ⟨middle, next, sent, reached, passed, ?_⟩
  intro cnt found isFrame
  obtain ⟨earlier, other, rest, isPart, twenty⟩ :=
    (whole cnt found).mp isFrame
  have isTwenty : 20 = 19 := by
    apply nineteen _ twenty
    · exact rest ++ behind
    · rw [wholeFront, isPart, List.append_assoc, List.cons_append]
  exact absurd isTwenty (by decide)

end Run

/-- A block of zeros. -/
def zeroBlock : Buffer bufSize :=
  Buffer.zero bufSize

theorem startsWith_zeroBlock : StartsWith (some zeroBlock) zeroBlock :=
  ⟨rfl, List.mem_replicate.mpr ⟨by decide, rfl⟩⟩

def oneFrame : Received :=
  ⟨data1, by decide⟩

/-- A byte and a frame. -/
def lateFrame : Received :=
  ⟨0 :: data1, by decide⟩

/-- Behind a frame that comes alone, one that comes a byte late is sent
whole. -/
theorem echoTask_sends_whole_iff_lateFrame :
    ∃ middle next sent,
      echoTaskAfter (some zeroBlock) [oneFrame] = .ok middle ∧
        middle.pass lateFrame = .ok (next, sent) ∧ sent = data1 := by
  have runs : ∃ echo,
      echoTaskAfter (some zeroBlock) ([oneFrame] ++ [lateFrame]) =
        .ok echo := by
    have isOk :
        (echoTaskAfter (some zeroBlock)
          ([oneFrame] ++ [lateFrame])).toOption.isSome = true := by
      decide +kernel
    cases reached :
        echoTaskAfter (some zeroBlock) ([oneFrame] ++ [lateFrame]) with
    | error fault =>
        rw [reached] at isOk
        cases isOk
    | ok echo =>
        exact ⟨echo, rfl⟩
  obtain ⟨staysInside, sends⟩ :=
    echoTask_sends_whole_iff (some zeroBlock) ([oneFrame] ++ [lateFrame])
  obtain ⟨data, ⟨isData, _⟩, inTime⟩ := staysInside.mp runs
  cases isData
  obtain ⟨middle, next, sent, reached, passed, whole⟩ :=
    sends zeroBlock [oneFrame] lateFrame startsWith_zeroBlock inTime
  have found : FoundAt 20 zeroBlock [oneFrame] lateFrame := by
    refine ⟨by decide, by decide +kernel, ?_⟩
    intro earlier notBefore before
    obtain rfl : earlier = 19 := by
      omega
    decide +kernel
  have isFrame := (whole 20 found).mpr
    ⟨[oneFrame], lateFrame, [], rfl, found⟩
  refine ⟨middle, next, sent, reached, passed, ?_⟩
  rw [isFrame]
  decide +kernel

/-- A frame that comes alone is not sent whole. -/
theorem shortReads_never_send_frame_oneFrame :
    ∃ middle next sent,
      echoTaskAfter (some zeroBlock) [] = .ok middle ∧
        middle.pass oneFrame = .ok (next, sent) ∧ sent ≠ data1 := by
  have quiet : ∀ index, 16 ≤ index → index < 36 →
      zeroBlock.cells[index]? ≠ some 0x0F := by
    decide +kernel
  obtain ⟨_, never⟩ :=
    @shortReads_never_send_frame [oneFrame] _ zeroBlock startsWith_zeroBlock
      quiet (by decide)
  obtain ⟨middle, next, sent, reached, passed, notFrame⟩ :=
    never [] oneFrame [] rfl
  have found : FoundAt 19 zeroBlock [] oneFrame :=
    ⟨by decide, by decide +kernel, fun earlier notBefore before =>
      absurd before (Nat.not_lt_of_le notBefore)⟩
  have isFrame : frameAt 19 zeroBlock [] oneFrame = data1 := by
    decide +kernel
  refine ⟨middle, next, sent, reached, passed, ?_⟩
  rw [← isFrame]
  exact notFrame 19 found

end Esp32Source.Uart
