import Mathlib.Algebra.Group.Int.Defs
import Esp32Source.Machine.History
import Esp32Source.Memory.Heap

/-!
# The HTTP client

`_http_event_handler` collects the body of a response.  It copies to the
buffer of its user, if the client was configured with one, and else to a block
of the announced length that it allocates itself.  The block and the number of
collected bytes are static variables, so that they live as long as the
program.

`http_rest_with_url` makes seven requests through one client, all with the
same local buffer.  Which events a request brings is given with its response.
Log output and the settings of the requests are left out; `size_t` has 32
bits.
-/

namespace Esp32Source.UdpServer

open Memory Machine

def maxHttpOutputBuffer : Nat := 1024

def espOk : Int := 0
def espFail : Int := -1

/-! ## The event handler -/

/-- An event, with the members of `evt` that are read for it.  The length is
`esp_http_client_get_content_length`, and the last member of `onData` the
answer of `malloc`, if it is called. -/
inductive HttpEvent where
  | error
  | onConnected
  | headerSent
  | onHeader
  | onData (data : List UInt8) (chunked : Bool) (contentLength : Int)
      (allocated : Option Nat)
  | onFinish
  | disconnected
  | redirect
  deriving DecidableEq, Repr

/-- The static variables of the handler, the heap, and the buffer that
`user_data` points to, if any. -/
structure HttpHandler where
  outputBuffer : Nat
  outputLen : Nat
  heap : Heap (List UInt8)
  userData : Option (Buffer maxHttpOutputBuffer)

namespace HttpHandler

/-- The `memcpy` to the handler's own block. -/
def copyToOutputBuffer (handler : HttpHandler) (data : List UInt8) :
    Except Fault HttpHandler := do
  let block ← handler.heap.load handler.outputBuffer
  if handler.outputLen + data.length ≤ block.length then
    let heap ← handler.heap.store handler.outputBuffer
      (patch handler.outputLen data block)
    return { handler with
      heap, outputLen := handler.outputLen + data.length }
  else .error .outOfBounds

/-- `HTTP_EVENT_ON_DATA` of a response that is not chunked. -/
def onData (handler : HttpHandler) (data : List UInt8)
    (contentLength : Int) (allocated : Option Nat) :
    Except Fault (HttpHandler × Int) :=
  match handler.userData with
  | some buffer => do
      let buffer ← buffer.store handler.outputLen data
      return ({ handler with
        userData := some buffer,
        outputLen := handler.outputLen + data.length }, espOk)
  | none =>
      if handler.outputBuffer = 0 then
        -- the block is written before it is read
        let (heap, outputBuffer) := handler.heap.malloc allocated
          (List.replicate (contentLength % 2 ^ 32).toNat 0)
        let handler := { handler with heap, outputBuffer, outputLen := 0 }
        if outputBuffer = 0 then .ok (handler, espFail)
        else do return (← handler.copyToOutputBuffer data, espOk)
      else do return (← handler.copyToOutputBuffer data, espOk)

/-- What `HTTP_EVENT_ON_FINISH` and `HTTP_EVENT_DISCONNECTED` do. -/
def reset (handler : HttpHandler) : Except Fault HttpHandler :=
  if handler.outputBuffer ≠ 0 then do
    let heap ← handler.heap.free handler.outputBuffer
    return { handler with heap, outputBuffer := 0, outputLen := 0 }
  else .ok { handler with outputLen := 0 }

end HttpHandler

def httpEventHandler (handler : HttpHandler) :
    HttpEvent → Except Fault (HttpHandler × Int)
  | .onData data chunked contentLength allocated =>
      if chunked then .ok (handler, espOk)
      else handler.onData data contentLength allocated
  | .onFinish => do return (← handler.reset, espOk)
  | .disconnected => do return (← handler.reset, espOk)
  | .error => .ok (handler, espOk)
  | .onConnected => .ok (handler, espOk)
  | .headerSent => .ok (handler, espOk)
  | .onHeader => .ok (handler, espOk)
  | .redirect => .ok (handler, espOk)

/-! ## Requests -/

/-- A response that is not chunked, as the client delivers it. -/
structure Response where
  connects : Bool
  headers : Nat
  parts : List (List UInt8)
  disconnects : Bool
  deriving DecidableEq, Repr

namespace Response

def body (response : Response) : List UInt8 :=
  response.parts.flatten

/-- The events in front of the body. -/
def leading (response : Response) : List HttpEvent :=
  (if response.connects then [.onConnected] else []) ++
    .headerSent :: List.replicate response.headers .onHeader

/-- The events that deliver the body. -/
def delivery (response : Response) : List HttpEvent :=
  response.parts.map fun data =>
    .onData data false response.body.length none

/-- The events behind the body. -/
def closing (response : Response) : List HttpEvent :=
  if response.disconnects then [.onFinish, .disconnected] else [.onFinish]

def events (response : Response) : List HttpEvent :=
  response.leading ++ response.delivery ++ response.closing

end Response

/-- The requests of `http_rest_with_url`. -/
inductive RestRequest where
  | get
  | post
  | getAgain
  | put
  | patch
  | delete
  | head
  deriving DecidableEq, Repr

/-- `local_response_buffer` is printed behind these requests. -/
def RestRequest.printed : RestRequest → Bool
  | .get => true
  | .getAgain => true
  | _ => false

/-- A request with its response. -/
structure Exchange where
  request : RestRequest
  response : Response

/-- `local_response_buffer`, read as a string. -/
def HttpHandler.responseText (handler : HttpHandler) :
    Except Fault (List UInt8) :=
  match handler.userData with
  | some buffer => do
      let length ← strlen buffer 0
      buffer.load 0 length
  | none => .error .nullPointer

/-- `esp_http_client_perform` -/
def espHttpClientPerform (handler : HttpHandler) (response : Response) :
    Except Fault HttpHandler :=
  after httpEventHandler handler response.events

/-- A request up to the next one, with what is printed. -/
def restRequest (handler : HttpHandler) (exchange : Exchange) :
    Except Fault (HttpHandler × Option (List UInt8)) := do
  let handler ← espHttpClientPerform handler exchange.response
  if exchange.request.printed then
    let text ← handler.responseText
    return (handler, some text)
  else return (handler, none)

/-- Before the first request. -/
def HttpHandler.initial : HttpHandler where
  outputBuffer := 0
  outputLen := 0
  heap := Heap.empty
  userData := some (Buffer.zero maxHttpOutputBuffer)

def restAfter (history : List Exchange) : Except Fault HttpHandler :=
  after restRequest HttpHandler.initial history

/-- What `http_rest_with_url` requests, given the answers. -/
def restExchanges (answer : RestRequest → Response) : List Exchange :=
  [.get, .post, .getAgain, .put, .patch, .delete, .head].map
    fun request => { request, response := answer request }

def httpRestWithUrl (answer : RestRequest → Response) :
    Except Fault HttpHandler :=
  restAfter (restExchanges answer)

end Esp32Source.UdpServer
