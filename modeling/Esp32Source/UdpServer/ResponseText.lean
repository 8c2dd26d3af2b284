import Esp32Source.UdpServer.Http

/-!
# The text of a response

All requests of a client share one buffer, and nothing clears it between two
responses.  The handler writes a body over the beginning of what the earlier
ones left, without a terminator behind it and without a look at the size of
the buffer.  The text is the body of the last response exactly when every body
leaves room for a terminator and none is shorter than one before it.
-/

namespace Esp32Source.UdpServer

open Memory Machine

/-! ## The events of a response -/

/-- The handler between two responses, with its buffer. -/
structure Resting (handler : HttpHandler)
    (buffer : Buffer maxHttpOutputBuffer) : Prop where
  noBlock : handler.outputBuffer = 0
  noBytes : handler.outputLen = 0
  userData : handler.userData = some buffer

theorem after_leading (handler : HttpHandler) (response : Response) :
    after httpEventHandler handler response.leading = .ok handler := by
  have quiet (events : List HttpEvent)
      (each : ∀ event, event ∈ events →
        httpEventHandler handler event = .ok (handler, espOk)) :
      after httpEventHandler handler events = .ok handler := by
    induction events using List.reverseRecOn with
    | nil => rfl
    | append_singleton events event inductionHypothesis =>
        rw [List.forall_mem_append, List.forall_mem_singleton] at each
        exact after_concat_of_ok (inductionHypothesis each.1) each.2
  apply quiet
  intro event member
  rw [Response.leading, List.mem_append, List.mem_cons] at member
  rcases member with connected | sent | headers
  · cases connects : response.connects with
    | true =>
        rw [connects, if_pos rfl] at connected
        rw [List.mem_singleton.mp connected]
        rfl
    | false =>
        rw [connects] at connected
        cases connected
  · rw [sent]
    rfl
  · rw [List.eq_of_mem_replicate headers]
    rfl

/-- The parts of a body are copied one behind the other, and the run ends
where they leave the buffer. -/
theorem after_parts_eq_ok_iff {handler next : HttpHandler}
    {buffer : Buffer maxHttpOutputBuffer} (resting : Resting handler buffer)
    (contentLength : Int) (parts : List (List UInt8)) :
    after httpEventHandler handler
        (parts.map fun data => .onData data false contentLength none) =
      .ok next ↔
      ∃ filled,
        buffer.store 0 parts.flatten = .ok filled ∧
          next = { handler with
            userData := some filled, outputLen := parts.flatten.length } := by
  induction parts using List.reverseRecOn generalizing next with
  | nil =>
      have nothing : buffer.store 0 [] = .ok buffer := by
        rw [Buffer.store_eq_ok_iff]
        exact ⟨Nat.zero_le _, (patch_nil 0 buffer.cells).symm⟩
      have unchanged : { handler with
          userData := some buffer, outputLen := 0 } = handler := by
        rw [← resting.userData, ← resting.noBytes]
      constructor
      · intro isNext
        cases isNext
        exact ⟨buffer, nothing, unchanged.symm⟩
      · rintro ⟨filled, stored, isNext⟩
        cases nothing.symm.trans stored
        rw [isNext]
        exact congrArg Except.ok unchanged.symm
  | append_singleton parts last inductionHypothesis =>
      rw [List.map_append, List.map_singleton, after_concat_eq_ok_iff,
        List.flatten_concat]
      constructor
      · rintro ⟨middle, output, reached, handled⟩
        obtain ⟨filled, stored, isMiddle⟩ := inductionHypothesis.mp reached
        subst isMiddle
        obtain ⟨longer, appended, isNext⟩ := bind_eq_ok_iff.mp handled
        cases isNext
        have behind : filled.store (0 + parts.flatten.length) last =
            .ok longer := by
          rw [Nat.zero_add]
          exact appended
        refine ⟨longer, Buffer.store_append_eq_ok_iff.mpr
          ⟨filled, stored, behind⟩, ?_⟩
        rw [List.length_append]
      · rintro ⟨longer, storesBoth, isNext⟩
        obtain ⟨filled, stored, behind⟩ :=
          Buffer.store_append_eq_ok_iff.mp storesBoth
        rw [Nat.zero_add] at behind
        refine ⟨_, espOk, inductionHypothesis.mpr ⟨filled, stored, rfl⟩,
          bind_eq_ok_iff.mpr ⟨longer, behind, ?_⟩⟩
        rw [isNext, List.length_append]
        rfl

theorem after_closing {handler : HttpHandler}
    (noBlock : handler.outputBuffer = 0) (response : Response) :
    after httpEventHandler handler response.closing =
      .ok { handler with outputLen := 0 } := by
  have resets : handler.reset = .ok { handler with outputLen := 0 } := by
    rw [HttpHandler.reset, if_neg (not_not_intro noBlock)]
  have finished :
      after httpEventHandler handler [.onFinish] =
        .ok { handler with outputLen := 0 } := by
    rw [after_singleton, httpEventHandler, resets]
    rfl
  have resetsAgain :
      httpEventHandler { handler with outputLen := 0 } .disconnected =
        .ok ({ handler with outputLen := 0 }, espOk) := by
    rw [httpEventHandler, HttpHandler.reset,
      if_neg (not_not_intro noBlock)]
    rfl
  rw [Response.closing]
  cases disconnects : response.disconnects with
  | true => exact after_concat_of_ok finished resetsAgain
  | false => exact finished

/-- A request returns exactly when the body fits, and leaves it at the
beginning of the buffer. -/
theorem espHttpClientPerform_eq_ok_iff {handler next : HttpHandler}
    {buffer : Buffer maxHttpOutputBuffer} (resting : Resting handler buffer)
    (response : Response) :
    espHttpClientPerform handler response = .ok next ↔
      ∃ filled,
        buffer.store 0 response.body = .ok filled ∧
          next = { handler with userData := some filled } := by
  have closes (filled : Buffer maxHttpOutputBuffer) (length : Nat) :
      after httpEventHandler
          { handler with userData := some filled, outputLen := length }
          response.closing =
        .ok { handler with userData := some filled } := by
    have noBlock : { handler with
        userData := some filled, outputLen := length }.outputBuffer = 0 :=
      resting.noBlock
    rw [after_closing noBlock, ← resting.noBytes]
  rw [espHttpClientPerform, Response.events, after_append_eq_ok_iff]
  constructor
  · rintro ⟨middle, opened, closed⟩
    obtain ⟨same, isSame, delivered⟩ := after_append_eq_ok_iff.mp opened
    cases (after_leading handler response).symm.trans isSame
    obtain ⟨filled, stored, isMiddle⟩ :=
      (after_parts_eq_ok_iff resting _ _).mp delivered
    subst isMiddle
    rw [closes] at closed
    cases closed
    exact ⟨filled, stored, rfl⟩
  · rintro ⟨filled, stored, isNext⟩
    have delivered := (after_parts_eq_ok_iff resting
      response.body.length response.parts).mpr ⟨filled, stored, rfl⟩
    refine ⟨_, after_append_eq_ok_iff.mpr
      ⟨handler, after_leading handler response, delivered⟩, ?_⟩
    rw [closes, isNext]

/-! ## The buffer as a string -/

theorem responseText_of_zeroPadded {handler : HttpHandler}
    {buffer : Buffer maxHttpOutputBuffer}
    (userData : handler.userData = some buffer) {text : List UInt8}
    (padded : ZeroPadded text buffer.cells) (free : NulFree text)
    (shorter : text.length < maxHttpOutputBuffer) :
    handler.responseText = .ok text := by
  have length := strlen_of_zeroPadded padded free shorter
  have loaded := buffer.load_of_fits 0 text.length (by omega)
  have front : buffer.window 0 text.length = text := by
    rw [Buffer.window, Memory.window, List.drop_zero, padded,
      List.take_left]
  rw [HttpHandler.responseText, userData]
  simp only [bind, Except.bind, length, loaded, front]

/-- A buffer without a terminator has no text. -/
theorem responseText_of_nulFree {handler : HttpHandler}
    {buffer : Buffer maxHttpOutputBuffer}
    (userData : handler.userData = some buffer)
    (free : NulFree buffer.cells) :
    handler.responseText = .error .outOfBounds := by
  have unterminated : strlen buffer 0 = .error .outOfBounds := by
    simp only [strlen, List.drop_zero, cText_of_nulFree free]
    exact if_neg (lt_irrefl _)
  rw [HttpHandler.responseText, userData]
  simp only [bind, Except.bind, unterminated]

/-! ## Series of requests -/

/-- The bodies of the responses so far. -/
def bodies (history : List Exchange) : List (List UInt8) :=
  history.map fun exchange => exchange.response.body

/-- The request returns, and the buffer reads as the body of its response,
truncated to the longest text that the buffer can hold. -/
def ShowsBody (history : List Exchange) (exchange : Exchange) : Prop :=
  ∃ handler next,
    restAfter history = .ok handler ∧
      espHttpClientPerform handler exchange.response = .ok next ∧
      next.responseText =
        .ok (exchange.response.body.take (maxHttpOutputBuffer - 1))

/-- The body leaves room for a terminator, and no earlier one is longer. -/
def CoversEarlier (history : List Exchange) (exchange : Exchange) : Prop :=
  exchange.response.body.length ≤ maxHttpOutputBuffer - 1 ∧
    ∀ earlier, earlier ∈ bodies history →
      earlier.length ≤ exchange.response.body.length

/-- Between two requests the buffer holds what the bodies left of each
other. -/
def Collected (history : List Exchange) (handler : HttpHandler) : Prop :=
  ∃ buffer, Resting handler buffer ∧
    ZeroPadded (overlayAll [] (bodies history)) buffer.cells

theorem bodies_concat (history : List Exchange) (exchange : Exchange) :
    bodies (history ++ [exchange]) =
      bodies history ++ [exchange.response.body] := by
  rw [bodies, List.map_append, List.map_singleton, bodies]

theorem nulFree_overlayAll_bodies {history : List Exchange}
    (free : ∀ exchange, exchange ∈ history →
      NulFree exchange.response.body) :
    NulFree (overlayAll [] (bodies history)) := by
  intro byte member
  obtain ⟨body, isBody, inBody⟩ := mem_overlayAll member
  obtain ⟨exchange, inHistory, same⟩ := List.mem_map.mp isBody
  rw [← same] at inBody
  exact free exchange inHistory byte inBody

/-- A body that leaves room for a terminator replaces what it covers. -/
theorem Collected.perform {history : List Exchange} {handler : HttpHandler}
    (collected : Collected history handler) {exchange : Exchange}
    (room : exchange.response.body.length ≤ maxHttpOutputBuffer - 1) :
    ∃ next,
      espHttpClientPerform handler exchange.response = .ok next ∧
        Collected (history ++ [exchange]) next := by
  obtain ⟨buffer, resting, padded⟩ := collected
  have fits : 0 + exchange.response.body.length ≤ maxHttpOutputBuffer := by
    omega
  obtain ⟨filled, stored, cells⟩ :=
    buffer.store_of_fits 0 exchange.response.body fits
  refine ⟨_, (espHttpClientPerform_eq_ok_iff resting _).mpr
    ⟨filled, stored, rfl⟩, filled, ⟨resting.noBlock, resting.noBytes, rfl⟩,
    ?_⟩
  rw [bodies_concat, overlayAll_concat, cells, patch_zero]
  apply padded.overlay
  rw [buffer.length_cells]
  omega

/-- What the buffer reads as behind bodies that leave room for a
terminator. -/
theorem Collected.responseText {history : List Exchange}
    {handler : HttpHandler} (collected : Collected history handler)
    (free : ∀ exchange, exchange ∈ history →
      NulFree exchange.response.body)
    (room : ∀ body, body ∈ bodies history →
      body.length ≤ maxHttpOutputBuffer - 1) :
    handler.responseText = .ok (overlayAll [] (bodies history)) := by
  obtain ⟨buffer, resting, padded⟩ := collected
  have shorter := (length_overlayAll_le_iff _ _).mpr room
  refine responseText_of_zeroPadded resting.userData padded
    (nulFree_overlayAll_bodies free) ?_
  have positive : 0 < maxHttpOutputBuffer := by
    decide
  omega

/-- The body is a string that leaves room for its terminator. -/
def Exchange.Fits (exchange : Exchange) : Prop :=
  NulFree exchange.response.body ∧
    exchange.response.body.length ≤ maxHttpOutputBuffer - 1

theorem room_of_fits {history : List Exchange}
    (fits : ∀ exchange, exchange ∈ history → exchange.Fits) :
    ∀ body, body ∈ bodies history →
      body.length ≤ maxHttpOutputBuffer - 1 := by
  intro body isBody
  obtain ⟨exchange, inHistory, same⟩ := List.mem_map.mp isBody
  rw [← same]
  exact (fits exchange inHistory).2

theorem restAfter_collected {history : List Exchange}
    (fits : ∀ exchange, exchange ∈ history → exchange.Fits) :
    ∃ handler,
      restAfter history = .ok handler ∧ Collected history handler := by
  have run : ∃ handler,
      restAfter history = .ok handler ∧
        Collected history handler ∧
          ∀ exchange, exchange ∈ history → exchange.Fits := by
    refine after_total
      (fun front handler => Collected front handler ∧
        ∀ exchange, exchange ∈ front → exchange.Fits)
      Exchange.Fits ?_ ?_ fits
    · refine ⟨⟨Buffer.zero maxHttpOutputBuffer, ⟨rfl, rfl, rfl⟩, ?_⟩, ?_⟩
      · exact zeroPadded_replicate maxHttpOutputBuffer
      · intro exchange member
        cases member
    · intro front exchange handler earlier allowed
      obtain ⟨next, performed, collected⟩ :=
        earlier.1.perform allowed.2
      have allFit : ∀ other, other ∈ front ++ [exchange] → other.Fits := by
        rw [List.forall_mem_append, List.forall_mem_singleton]
        exact ⟨earlier.2, allowed⟩
      have text := collected.responseText
        (fun other member => (allFit other member).1) (room_of_fits allFit)
      have returns : ∃ output,
          restRequest handler exchange = .ok (next, output) := by
        rw [restRequest, performed]
        simp only [bind, Except.bind, text]
        split
        · exact ⟨_, rfl⟩
        · exact ⟨none, rfl⟩
      obtain ⟨output, returned⟩ := returns
      exact ⟨next, output, returned, collected, allFit⟩
  obtain ⟨handler, reached, collected, _⟩ := run
  exact ⟨handler, reached, collected⟩

/-- The whole function returns if every body leaves room for a terminator, and
the buffer reads as what the bodies left of each other. -/
theorem httpRestWithUrl_returns {answer : RestRequest → Response}
    (fits : ∀ exchange, exchange ∈ restExchanges answer → exchange.Fits) :
    ∃ handler,
      httpRestWithUrl answer = .ok handler ∧
        handler.responseText =
          .ok (overlayAll [] (bodies (restExchanges answer))) := by
  obtain ⟨handler, reached, collected⟩ := restAfter_collected fits
  exact ⟨handler, reached, collected.responseText
    (fun exchange member => (fits exchange member).1) (room_of_fits fits)⟩

/-- One request, behind requests whose bodies left room for a terminator. -/
theorem showsBody_iff {history : List Exchange} {exchange : Exchange}
    (fits : ∀ earlier, earlier ∈ history → earlier.Fits)
    (free : NulFree exchange.response.body) :
    ShowsBody history exchange ↔ CoversEarlier history exchange := by
  obtain ⟨handler, reached, collected⟩ := restAfter_collected fits
  by_cases room :
      exchange.response.body.length ≤ maxHttpOutputBuffer - 1
  · obtain ⟨next, performed, collectedNext⟩ := collected.perform room
    have allFit : ∀ other, other ∈ history ++ [exchange] → other.Fits := by
      rw [List.forall_mem_append, List.forall_mem_singleton]
      exact ⟨fits, free, room⟩
    have text := collectedNext.responseText
      (fun other member => (allFit other member).1) (room_of_fits allFit)
    rw [bodies_concat] at text
    have whole := List.take_of_length_le room
    constructor
    · rintro ⟨first, second, isHandler, isNext, shows⟩
      cases reached.symm.trans isHandler
      cases performed.symm.trans isNext
      rw [text, whole] at shows
      injection shows with isBody
      exact ⟨room, (overlayAll_concat_eq_last_iff _ _).mp isBody⟩
    · intro covers
      refine ⟨handler, next, reached, performed, ?_⟩
      rw [text, whole, (overlayAll_concat_eq_last_iff _ _).mpr covers.2]
  · refine iff_of_false ?_ (fun covers => room covers.1)
    rintro ⟨first, next, isHandler, performed, shows⟩
    cases reached.symm.trans isHandler
    obtain ⟨buffer, resting, _⟩ := collected
    obtain ⟨filled, stored, isNext⟩ :=
      (espHttpClientPerform_eq_ok_iff resting _).mp performed
    obtain ⟨fitsBuffer, cells⟩ := Buffer.store_eq_ok_iff.mp stored
    -- the body has exactly the size of the buffer
    have covered : overlay exchange.response.body buffer.cells =
        exchange.response.body := by
      rw [overlay_eq_new_iff, buffer.length_cells]
      omega
    rw [patch_zero, covered] at cells
    have userData : next.userData = some filled := by
      rw [isNext]
    rw [responseText_of_nulFree userData (by rw [cells]; exact free)]
      at shows
    cases shows

theorem fits_of_covers {history : List Exchange}
    (covers : AtEveryStep CoversEarlier history)
    (free : ∀ exchange, exchange ∈ history →
      NulFree exchange.response.body) :
    ∀ exchange, exchange ∈ history → exchange.Fits := by
  intro exchange member
  obtain ⟨front, behind, shape⟩ := List.append_of_mem member
  exact ⟨free exchange member, (covers front exchange behind shape).1⟩

/-- In every series of requests, however the bodies are split, each response
is shown as it is exactly when each body leaves room for a terminator and is
no shorter than the ones before it. -/
theorem responses_shown_iff (history : List Exchange)
    (free : ∀ exchange, exchange ∈ history →
      NulFree exchange.response.body) :
    AtEveryStep ShowsBody history ↔ AtEveryStep CoversEarlier history := by
  induction history using List.reverseRecOn with
  | nil =>
      exact iff_of_true (atEveryStep_nil _) (atEveryStep_nil _)
  | append_singleton history exchange inductionHypothesis =>
      rw [List.forall_mem_append, List.forall_mem_singleton] at free
      rw [atEveryStep_concat_iff, atEveryStep_concat_iff,
        inductionHypothesis free.1]
      refine and_congr_right ?_
      intro covers
      exact showsBody_iff (fits_of_covers covers free.1) free.2

/-- A response of one part, on a connection that stays open. -/
def onePart (text : String) : Response where
  connects := false
  headers := 1
  parts := [ascii text]
  disconnects := false

/-- The first response is longer than the others. -/
def shorterAnswers : RestRequest → Response
  | .get => onePart "hello"
  | _ => onePart "hi"

/-- The second response is shown with the end of the first. -/
theorem shorterBody_keeps_tail :
    (∀ exchange, exchange ∈ restExchanges shorterAnswers →
        NulFree exchange.response.body) ∧
      (do
        let handler ← restAfter ((restExchanges shorterAnswers).take 1)
        let next ← espHttpClientPerform handler (shorterAnswers .post)
        next.responseText) = .ok (ascii "hillo") ∧
      ¬ AtEveryStep ShowsBody (restExchanges shorterAnswers) := by
  have printed :
      (do
        let handler ← restAfter ((restExchanges shorterAnswers).take 1)
        let next ← espHttpClientPerform handler (shorterAnswers .post)
        next.responseText) = .ok (ascii "hillo") := by
    decide +kernel
  refine ⟨by decide +kernel, printed, ?_⟩
  intro shows
  obtain ⟨handler, next, reached, performed, text⟩ :=
    shows [⟨.get, shorterAnswers .get⟩] ⟨.post, shorterAnswers .post⟩ _ rfl
  have isHandler :
      restAfter ((restExchanges shorterAnswers).take 1) = .ok handler :=
    reached
  have isNext :
      espHttpClientPerform handler (shorterAnswers .post) = .ok next :=
    performed
  simp only [isHandler, isNext, bind, Except.bind] at printed
  have different : ascii "hillo" ≠
      (shorterAnswers .post).body.take (maxHttpOutputBuffer - 1) := by
    decide +kernel
  rw [printed] at text
  injection text with same
  exact different same

/-- All responses have the same body, the first in two parts. -/
def steadyAnswers : RestRequest → Response
  | .get =>
      { connects := true, headers := 2,
        parts := [ascii "he", ascii "llo"], disconnects := true }
  | _ => onePart "hello"

theorem responses_shown_iff_steadyAnswers :
    AtEveryStep ShowsBody (restExchanges steadyAnswers) := by
  have same : ∀ exchange, exchange ∈ restExchanges steadyAnswers →
      exchange.response.body = ascii "hello" := by
    decide +kernel
  have free : ∀ exchange, exchange ∈ restExchanges steadyAnswers →
      NulFree exchange.response.body := by
    intro exchange member
    rw [same exchange member]
    decide +kernel
  refine (responses_shown_iff (restExchanges steadyAnswers) free).mpr ?_
  intro front exchange behind shape
  rw [shape, List.forall_mem_append, List.forall_mem_cons] at same
  refine ⟨?_, ?_⟩
  · rw [same.2.1]
    decide +kernel
  · intro earlier isEarlier
    obtain ⟨other, member, isBody⟩ := List.mem_map.mp isEarlier
    rw [← isBody, same.1 other member, same.2.1]

end Esp32Source.UdpServer
