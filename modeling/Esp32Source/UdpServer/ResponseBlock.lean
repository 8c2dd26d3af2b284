import Esp32Source.UdpServer.Http

/-!
# The block of a response

Without a buffer of its user, `_http_event_handler` collects a response in a
block of its own.  Two static variables, the block and the number of collected
bytes, are shared by the events that fill the block and by the two that free
it, and they outlive a failed allocation.

A response may announce more bytes than `malloc` can be asked for: the length
is a 64-bit number, and its low 32 bits are allocated.  Below 2^32 the block
has the announced length, and then no order of events leaves it: what is live
is the one block, it holds what came since the last reset, and the next reset
frees it.
-/

namespace Esp32Source.UdpServer

open Memory Machine

/-- The handler of a client without `user_data`, before its first event. -/
def HttpHandler.withoutUser : HttpHandler where
  outputBuffer := 0
  outputLen := 0
  heap := Heap.empty
  userData := none

def collectorAfter (history : List HttpEvent) : Except Fault HttpHandler :=
  after httpEventHandler HttpHandler.withoutUser history

/-- What the block holds, or nothing if there is none. -/
def HttpHandler.content (handler : HttpHandler) : List UInt8 :=
  (handler.heap.block handler.outputBuffer).getD []

/-! ## What a server sends -/

/-- `HTTP_EVENT_ON_FINISH` and `HTTP_EVENT_DISCONNECTED`. -/
def HttpEvent.resets : HttpEvent → Bool
  | .onFinish => true
  | .disconnected => true
  | _ => false

/-- What came in responses that are not chunked since the last reset. -/
structure Delivery where
  announced : Option Int
  bytes : List UInt8
  deriving DecidableEq, Repr

def deliver (delivery : Delivery) : HttpEvent → Delivery × Unit
  | .onData data false contentLength _ =>
      (⟨some contentLength, delivery.bytes ++ data⟩, ())
  | .onFinish => (⟨none, []⟩, ())
  | .disconnected => (⟨none, []⟩, ())
  | _ => (delivery, ())

def sinceReset (history : List HttpEvent) : Delivery :=
  final deliver ⟨none, []⟩ history

theorem sinceReset_concat (history : List HttpEvent) (event : HttpEvent) :
    sinceReset (history ++ [event]) =
      (deliver (sinceReset history) event).1 :=
  final_concat history event

/-- Between two resets the content length is constant, not negative, and an
upper bound on the bytes delivered. -/
def KeepsAnnouncement (front : List HttpEvent) : HttpEvent → Prop
  | .onData data false contentLength _ =>
      0 ≤ contentLength ∧
        (∀ earlier, (sinceReset front).announced = some earlier →
          earlier = contentLength) ∧
        (((sinceReset front).bytes ++ data).length : Int) ≤ contentLength
  | _ => True

/-- The announced length is a `size_t`, and the number of delivered bytes an
`int`. -/
def FitsSizes (front : List HttpEvent) : HttpEvent → Prop
  | .onData data false contentLength _ =>
      contentLength < 2 ^ 32 ∧
        ((sinceReset front).bytes ++ data).length < 2 ^ 31
  | _ => True

/-! ## What the handler keeps -/

/-- If the event is handled, no allocation fails at it. -/
def Allocates (front : List HttpEvent) (event : HttpEvent) : Prop :=
  ∀ handler next code,
    collectorAfter front = .ok handler →
      httpEventHandler handler event = .ok (next, code) → code = espOk

/-- No allocation failed since the last reset. -/
def AllocatesSinceReset (history : List HttpEvent) : Prop :=
  ∀ front event behind, history = front ++ event :: behind →
    (∀ later, later ∈ event :: behind → later.resets = false) →
      Allocates front event

/-- The block and the count after a history of events. -/
structure Collects (history : List HttpEvent) (handler : HttpHandler) :
    Prop where
  noUser : handler.userData = none
  live_iff : ∀ address, (handler.heap.block address).isSome ↔
    address = handler.outputBuffer ∧ address ≠ 0
  size : handler.outputBuffer ≠ 0 →
    (sinceReset history).announced = some (handler.content.length : Int)
  inside : handler.outputLen ≤ handler.content.length
  isInt : handler.outputLen < 2 ^ 31
  counted : handler.outputLen ≤ (sinceReset history).bytes.length
  collected : AllocatesSinceReset history →
    handler.content.take handler.outputLen = (sinceReset history).bytes

/-- The events up to here are handled, and the block is as it should be. -/
def CollectsResponse (history : List HttpEvent) : Prop :=
  ∃ handler, collectorAfter history = .ok handler ∧
    Collects history handler

/-- A reset leaves no block and no count, and no other event frees
anything. -/
structure Releases (event : HttpEvent) (handler next : HttpHandler) :
    Prop where
  released : event.resets = true →
    next.outputBuffer = 0 ∧ next.outputLen = 0 ∧
      ∀ address, next.heap.block address = none
  kept : event.resets = false → ∀ address,
    (handler.heap.block address).isSome →
      (next.heap.block address).isSome

def ReleasesAtReset (front : List HttpEvent) (event : HttpEvent) : Prop :=
  ∀ handler next code,
    collectorAfter front = .ok handler →
      httpEventHandler handler event = .ok (next, code) →
        Releases event handler next

theorem AllocatesSinceReset.front {history : List HttpEvent}
    {event : HttpEvent}
    (allocates : AllocatesSinceReset (history ++ [event]))
    (noReset : event.resets = false) : AllocatesSinceReset history := by
  intro front earlier behind shape noResets
  apply allocates front earlier (behind ++ [event])
  · rw [shape, List.append_assoc, List.cons_append]
  · intro later member
    rcases List.mem_append.mp (List.cons_append ▸ member) with
      inside | isLast
    · exact noResets later inside
    · rw [List.mem_singleton.mp isLast]
      exact noReset

theorem AllocatesSinceReset.last {history : List HttpEvent}
    {event : HttpEvent}
    (allocates : AllocatesSinceReset (history ++ [event]))
    (noReset : event.resets = false) : Allocates history event := by
  apply allocates history event [] rfl
  intro later member
  rw [List.mem_singleton.mp member]
  exact noReset

/-! ## Filling the block -/

/-- The handler has a block of the announced length. -/
structure Filling (history : List HttpEvent) (handler : HttpHandler)
    (contentLength : Int) : Prop where
  noUser : handler.userData = none
  notNull : handler.outputBuffer ≠ 0
  live_iff : ∀ address, (handler.heap.block address).isSome ↔
    address = handler.outputBuffer
  size : (handler.content.length : Int) = contentLength
  counted : handler.outputLen ≤ (sinceReset history).bytes.length
  collected : AllocatesSinceReset history →
    handler.content.take handler.outputLen = (sinceReset history).bytes

theorem HttpHandler.content_of_live {handler : HttpHandler}
    {block : List UInt8}
    (live : handler.heap.block handler.outputBuffer = some block) :
    handler.content = block := by
  rw [HttpHandler.content, live, Option.getD_some]

theorem copyToOutputBuffer_of_fits {handler : HttpHandler}
    {data : List UInt8} (notNull : handler.outputBuffer ≠ 0)
    (live : (handler.heap.block handler.outputBuffer).isSome)
    (fits : handler.outputLen + data.length ≤ handler.content.length) :
    handler.copyToOutputBuffer data = .ok { handler with
      heap := ⟨Function.update handler.heap.block handler.outputBuffer
        (some (patch handler.outputLen data handler.content))⟩
      outputLen := handler.outputLen + data.length } := by
  obtain ⟨block, isBlock⟩ := Option.isSome_iff_exists.mp live
  rw [HttpHandler.content_of_live isBlock] at fits ⊢
  rw [HttpHandler.copyToOutputBuffer, Heap.load_of_live notNull isBlock]
  simp only [bind, Except.bind, if_pos fits,
    Heap.store_of_live notNull isBlock]
  rfl

/-- Data that the server announced stays inside the block. -/
theorem Filling.append {history : List HttpEvent} {handler : HttpHandler}
    {data : List UInt8} {contentLength : Int} {answer : Option Nat}
    (filling : Filling history handler contentLength)
    (keeps : KeepsAnnouncement history
      (.onData data false contentLength answer))
    (fits : FitsSizes history
      (.onData data false contentLength answer)) :
    ∃ next, handler.copyToOutputBuffer data = .ok next ∧
      Collects (history ++ [.onData data false contentLength answer])
        next ∧
      ∀ address, (handler.heap.block address).isSome →
        (next.heap.block address).isSome := by
  obtain ⟨_, _, bounded⟩ := keeps
  have counted := filling.counted
  have size := filling.size
  have isInt := fits.2
  rw [List.length_append] at bounded isInt
  have inside :
      handler.outputLen + data.length ≤ handler.content.length := by
    omega
  have live : (handler.heap.block handler.outputBuffer).isSome :=
    (filling.live_iff _).mpr rfl
  refine ⟨_, copyToOutputBuffer_of_fits filling.notNull live inside, ?_, ?_⟩
  · have content : HttpHandler.content { handler with
        heap := ⟨Function.update handler.heap.block handler.outputBuffer
          (some (patch handler.outputLen data handler.content))⟩
        outputLen := handler.outputLen + data.length } =
          patch handler.outputLen data handler.content := by
      apply HttpHandler.content_of_live
      exact Function.update_self _ _ _
    have length := length_patch inside
    refine ⟨filling.noUser, ?_, ?_, ?_, ?_, ?_, ?_⟩
    · intro address
      by_cases own : address = handler.outputBuffer
      · rw [own]
        simp [filling.notNull]
      · have dead := (filling.live_iff address).not.mpr own
        simp [dead, own]
    · intro _
      rw [sinceReset_concat, content, length, size]
      rfl
    · rw [content, length]
      exact inside
    · exact Nat.lt_of_le_of_lt (by dsimp only; omega) isInt
    · rw [sinceReset_concat]
      simp only [deliver, List.length_append]
      omega
    · intro allocates
      rw [content, take_patch_end inside,
        filling.collected (allocates.front rfl), sinceReset_concat]
      rfl
  · intro address isLive
    by_cases own : address = handler.outputBuffer
    · rw [own]
      simp
    · simp only [Function.update_of_ne own, isLive]

theorem Collects.filling {history : List HttpEvent}
    {handler : HttpHandler} {data : List UInt8} {contentLength : Int}
    {answer : Option Nat} (collects : Collects history handler)
    (notNull : handler.outputBuffer ≠ 0)
    (keeps : KeepsAnnouncement history
      (.onData data false contentLength answer)) :
    Filling history handler contentLength where
  noUser := collects.noUser
  notNull := notNull
  live_iff := by
    intro address
    rw [collects.live_iff]
    constructor
    · intro both
      exact both.1
    · intro own
      exact ⟨own, own ▸ notNull⟩
  size := keeps.2.1 _ (collects.size notNull)
  counted := collects.counted
  collected := collects.collected

/-- Nothing is live while there is no block. -/
theorem Collects.content_of_null {history : List HttpEvent}
    {handler : HttpHandler} (collects : Collects history handler)
    (null : handler.outputBuffer = 0) :
    (∀ address, handler.heap.block address = none) ∧
      handler.content = [] := by
  have dead : ∀ address, handler.heap.block address = none := by
    intro address
    rw [← Option.not_isSome_iff_eq_none, collects.live_iff, null]
    exact fun both => both.2 both.1
  refine ⟨dead, ?_⟩
  rw [HttpHandler.content, dead]
  rfl

/-- A new block has the announced length, as long as that is a `size_t`. -/
theorem Collects.filling_of_malloc {history : List HttpEvent}
    {handler : HttpHandler} {address : Nat} {contentLength : Int}
    (collects : Collects history handler)
    (null : handler.outputBuffer = 0) (notNull : address ≠ 0)
    (positive : 0 ≤ contentLength) (isSize : contentLength < 2 ^ 32) :
    Filling history
      { handler with
        heap := ⟨Function.update handler.heap.block address
          (some (List.replicate (contentLength % 2 ^ 32).toNat 0))⟩
        outputBuffer := address
        outputLen := 0 } contentLength := by
  obtain ⟨dead, noContent⟩ := collects.content_of_null null
  refine ⟨collects.noUser, notNull, ?_, ?_, Nat.zero_le _, ?_⟩
  · intro other
    by_cases own : other = address
    · rw [own]
      simp
    · simp [own, dead]
  · rw [HttpHandler.content_of_live (Function.update_self _ _ _),
      List.length_replicate, Int.emod_eq_of_lt positive isSize,
      Int.toNat_of_nonneg positive]
  · intro allocates
    have collected := collects.collected allocates
    rw [noContent, List.take_nil] at collected
    rw [← collected]
    exact List.take_zero

/-! ## One event -/

/-- The event is handled, and what the handler keeps is kept. -/
def HandlesEvent (history : List HttpEvent) (handler : HttpHandler)
    (event : HttpEvent) : Prop :=
  ∃ next code, httpEventHandler handler event = .ok (next, code) ∧
    Collects (history ++ [event]) next ∧ Releases event handler next

theorem onData_of_null {handler : HttpHandler}
    (noUser : handler.userData = none) (null : handler.outputBuffer = 0)
    (data : List UInt8) {contentLength : Int} {answer : Option Nat}
    {heap : Heap (List UInt8)} {address : Nat}
    (allocated : handler.heap.malloc answer
      (List.replicate (contentLength % 2 ^ 32).toNat 0) =
        (heap, address)) :
    handler.onData data contentLength answer =
      let opened : HttpHandler :=
        { handler with heap, outputBuffer := address, outputLen := 0 }
      if address = 0 then .ok (opened, espFail)
      else do return (← opened.copyToOutputBuffer data, espOk) := by
  rw [HttpHandler.onData, noUser]
  dsimp only
  rw [if_pos null, allocated]

theorem onData_of_block {handler : HttpHandler}
    (noUser : handler.userData = none) (notNull : handler.outputBuffer ≠ 0)
    (data : List UInt8) (contentLength : Int) (answer : Option Nat) :
    handler.onData data contentLength answer =
      do return (← handler.copyToOutputBuffer data, espOk) := by
  rw [HttpHandler.onData, noUser]
  dsimp only
  rw [if_neg notNull]

/-- Data of a response that is not chunked fills the block, after it is
allocated if there is none. -/
theorem Collects.onData {history : List HttpEvent}
    {handler : HttpHandler} {data : List UInt8} {contentLength : Int}
    {answer : Option Nat}
    (reached : collectorAfter history = .ok handler)
    (collects : Collects history handler)
    (keeps : KeepsAnnouncement history
      (.onData data false contentLength answer))
    (fits : FitsSizes history (.onData data false contentLength answer)) :
    HandlesEvent history handler
      (.onData data false contentLength answer) := by
  have noReset :
      ¬ (HttpEvent.onData data false contentLength answer).resets = true :=
    Bool.false_ne_true
  by_cases null : handler.outputBuffer = 0
  · obtain ⟨dead, noContent⟩ := collects.content_of_null null
    rcases handler.heap.malloc_cases answer
        (List.replicate (contentLength % 2 ^ 32).toNat 0) with
      failed | ⟨address, notNull, _, _, succeeded⟩
    · have handled : httpEventHandler handler
          (.onData data false contentLength answer) =
            .ok ({ handler with outputBuffer := 0, outputLen := 0 },
              espFail) :=
        onData_of_null collects.noUser null data failed
      refine ⟨_, espFail, handled, ?_, ?_⟩
      · refine ⟨collects.noUser, ?_, ?_, Nat.zero_le _,
          Nat.two_pow_pos 31, Nat.zero_le _, ?_⟩
        · intro address
          simp [dead]
        · intro notNull
          exact absurd rfl notNull
        · intro allocates
          -- this is the event at which the allocation failed
          have isOk := allocates.last rfl _ _ _ reached handled
          exact absurd isOk (by decide)
      · exact ⟨fun isReset => absurd isReset noReset,
          fun _ _ isLive => isLive⟩
    · have filling := collects.filling_of_malloc null notNull keeps.1
        fits.1
      obtain ⟨next, copied, collectsNext, live⟩ :=
        filling.append keeps fits
      have handled : httpEventHandler handler
          (.onData data false contentLength answer) =
            .ok (next, espOk) := by
        refine (onData_of_null collects.noUser null data succeeded).trans ?_
        dsimp only
        rw [if_neg notNull, copied]
        rfl
      refine ⟨next, espOk, handled, collectsNext,
        fun isReset => absurd isReset noReset, ?_⟩
      intro _ other isLive
      rw [dead] at isLive
      cases isLive
  · have filling := collects.filling null keeps
    obtain ⟨next, copied, collectsNext, live⟩ := filling.append keeps fits
    have handled : httpEventHandler handler
        (.onData data false contentLength answer) = .ok (next, espOk) := by
      refine (onData_of_block collects.noUser null data _ _).trans ?_
      rw [copied]
      rfl
    exact ⟨next, espOk, handled, collectsNext,
      fun isReset => absurd isReset noReset, fun _ => live⟩

/-- Both resets free the block, if there is one, and clear the count. -/
theorem Collects.reset {history : List HttpEvent} {handler : HttpHandler}
    (collects : Collects history handler) :
    handler.reset = .ok
        { handler with
          heap := Heap.empty, outputBuffer := 0, outputLen := 0 } := by
  by_cases null : handler.outputBuffer = 0
  · obtain ⟨dead, _⟩ := collects.content_of_null null
    have nothingLive : handler.heap = Heap.empty := Heap.ext dead
    rw [HttpHandler.reset, if_neg (not_not_intro null), ← nothingLive,
      ← null]
  · have live := (collects.live_iff handler.outputBuffer).mpr ⟨rfl, null⟩
    obtain ⟨block, isBlock⟩ := Option.isSome_iff_exists.mp live
    have nothingLive : Heap.mk (Function.update handler.heap.block
        handler.outputBuffer none) = Heap.empty := by
      apply Heap.ext
      intro address
      by_cases own : address = handler.outputBuffer
      · rw [own]
        exact Function.update_self _ _ _
      · have dead := (collects.live_iff address).not.mpr
          (fun both => own both.1)
        rw [Option.not_isSome_iff_eq_none] at dead
        exact (Function.update_of_ne own _ _).trans dead
    rw [HttpHandler.reset, if_pos null, Heap.free_of_live null isBlock,
      nothingLive]
    rfl

theorem Collects.reset_event {history : List HttpEvent}
    {handler : HttpHandler} {event : HttpEvent}
    (collects : Collects history handler) (isReset : event.resets = true)
    (handled : httpEventHandler handler event =
      (do return (← handler.reset, espOk)))
    (clears : sinceReset (history ++ [event]) = ⟨none, []⟩) :
    HandlesEvent history handler event := by
  rw [collects.reset] at handled
  refine ⟨_, espOk, handled, ?_, ?_⟩
  · refine ⟨collects.noUser, ?_, ?_, Nat.zero_le _, Nat.two_pow_pos 31,
      Nat.zero_le _, ?_⟩
    · intro address
      simp [Heap.empty]
    · intro notNull
      exact absurd rfl notNull
    · intro _
      rw [clears]
      exact List.take_zero
  · refine ⟨fun _ => ⟨rfl, rfl, fun _ => rfl⟩, ?_⟩
    intro noReset
    rw [isReset] at noReset
    cases noReset

/-- The other events change neither the handler nor what is collected. -/
theorem Collects.quiet {history : List HttpEvent} {handler : HttpHandler}
    {event : HttpEvent} (collects : Collects history handler)
    (noReset : event.resets = false)
    (handled : httpEventHandler handler event = .ok (handler, espOk))
    (keepsDelivery : sinceReset (history ++ [event]) =
      sinceReset history) : HandlesEvent history handler event := by
  refine ⟨handler, espOk, handled, ?_, ?_⟩
  · refine ⟨collects.noUser, collects.live_iff, ?_, collects.inside,
      collects.isInt, ?_, ?_⟩
    · rw [keepsDelivery]
      exact collects.size
    · rw [keepsDelivery]
      exact collects.counted
    · intro allocates
      rw [keepsDelivery]
      exact collects.collected (allocates.front noReset)
  · refine ⟨?_, fun _ _ isLive => isLive⟩
    intro isReset
    rw [noReset] at isReset
    cases isReset

/-- Whatever the event, the handler keeps what it has to. -/
theorem Collects.handles {history : List HttpEvent}
    {handler : HttpHandler} {event : HttpEvent}
    (reached : collectorAfter history = .ok handler)
    (collects : Collects history handler)
    (keeps : KeepsAnnouncement history event)
    (fits : FitsSizes history event) : HandlesEvent history handler event := by
  cases event with
  | onData data chunked contentLength answer =>
      cases chunked with
      | false =>
          exact collects.onData reached keeps fits
      | true =>
          exact collects.quiet rfl rfl (sinceReset_concat _ _)
  | onFinish =>
      exact collects.reset_event rfl rfl (sinceReset_concat _ _)
  | disconnected =>
      exact collects.reset_event rfl rfl (sinceReset_concat _ _)
  | error | onConnected | headerSent | onHeader | redirect =>
      exact collects.quiet rfl rfl (sinceReset_concat _ _)

/-! ## Runs -/

theorem collects_initial : Collects [] HttpHandler.withoutUser := by
  refine ⟨rfl, ?_, ?_, Nat.zero_le _, Nat.two_pow_pos 31, Nat.zero_le _, ?_⟩
  · intro address
    simp [HttpHandler.withoutUser, Heap.empty]
  · intro notNull
    exact absurd rfl notNull
  · intro _
    exact List.take_zero

theorem collectsResponse_of_announced {history : List HttpEvent}
    (announced : AtEveryStep KeepsAnnouncement history)
    (fits : AtEveryStep FitsSizes history) : CollectsResponse history := by
  have everywhere := atEveryStep_and_iff.mpr ⟨announced, fits⟩
  refine after_total_of_steps Collects
    (fun front event => KeepsAnnouncement front event ∧
      FitsSizes front event) collects_initial ?_ everywhere
  intro front event handler reached collects allowed
  obtain ⟨next, code, handled, collectsNext, _⟩ :=
    collects.handles reached allowed.1 allowed.2
  exact ⟨next, code, handled, collectsNext⟩

/-- A response in two parts, and one whose block cannot be allocated. -/
def twoResponses : List HttpEvent :=
  [.onConnected, .onData [104] false 2 (some 4096),
    .onData [105] false 2 none, .onFinish, .disconnected,
    .onData [104, 105] false 2 none, .disconnected]

/-- A length of 2^32 + 1 bytes is announced, and two of them arrive. -/
def longResponse : List HttpEvent :=
  [.onData [104, 105] false (2 ^ 32 + 1) (some 4096)]

end Esp32Source.UdpServer
