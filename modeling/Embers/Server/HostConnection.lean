import Embers.Protocol.Connection

/-!
# Requests to a host

Requests to a host's server go out as they come, up to a number of them, before the first of them is
answered. The server answers a connection's requests in order, each under its id, and the connection
gives an answer to the call whose request has the id. An answer to no request in flight ends the
connection, and with it every call that waits.

`HostLink` is one connection with its callers and the host: the commands in the channel, the
requests in flight, and the messages on their way. A step is one of a caller, of `serve_host` or of
the host, in any order; events on the way are passed over, as what is done with them is not a matter
of requests.
-/

namespace Embers

open Protocol

variable {α β γ : Type}

/-- A call of `request`, and the channel for its reply. -/
abbrev CallId : Type := ℕ

inductive Reply (β : Type) where
  /-- The call has yet to get its command into the channel. -/
  | unsent
  | waiting
  | answered (response : ServerResponse β)
  /-- The message could not be sent. -/
  | failed
  /-- The sender was dropped: the connection was lost. -/
  | lost
  deriving DecidableEq, Repr

def maxRequestsInFlight : ℕ := 32

def maxHostCommands : ℕ := 64

structure HostLink (α β γ : Type) where
  /-- The message of each call. -/
  messages : List (ClientMessage α)
  replies : List (Reply β)
  commands : List CallId
  /-- Requests sent and not yet answered, by id. Nobody waits for an answer about host graphics. -/
  inFlight : List (RequestId × Option CallId)
  serving : Bool
  hostGraphics : Bool
  graphicsChanged : Bool
  toldHostGraphics : Bool
  /-- The number that the next request's id is made of. -/
  requestIds : ℕ
  toHost : List (ClientMessage α)
  fromHost : List (ServerEnvelope β γ)
  hostOpen : Bool
  /-- What the host answered, oldest first. -/
  handled : List (ClientMessage α × ServerResponse β)

inductive HostStep (α β γ : Type) where
  /-- A call starts, with a message under a new id. -/
  | call (message : ClientMessage α)
  /-- The call's command is taken into the channel, or the connection is lost by then. -/
  | submit (call : CallId)
  /-- Another part of the program takes an id. -/
  | newRequestId
  | setHostGraphics (enabled : Bool)
  /-- `serve_host` takes a command, and its message can be sent or not. -/
  | take (sent : Bool)
  /-- `serve_host` tells the host of the setting. -/
  | tell (sent : Bool)
  | receive
  /-- The host answers a request, under its id, or without one if it cannot read it. -/
  | handle (response : ServerResponse β)
  | event (event : γ)
  /-- The host's end closes. -/
  | close
  /-- Reading fails. -/
  | lose
  /-- The last `HostConnection` is dropped. -/
  | release

namespace HostLink

variable (link : HostLink α β γ)

/-- The events are those that came before the subscription was answered. -/
def start (hostGraphics : Bool) (requestIds : ℕ) (queued : List γ) : HostLink α β γ :=
  ⟨[], [], [], [], true, hostGraphics, true, false, requestIds, [], queued.map .event, true, []⟩

def newRequestId : RequestId := ⟨UInt64.ofNat link.requestIds⟩

def settle (call : CallId) (reply : Reply β) : HostLink α β γ :=
  { link with replies := link.replies.set call reply }

/-- The senders for the calls are dropped. -/
def drop (calls : List CallId) : HostLink α β γ :=
  { link with replies := link.replies.mapIdx fun call reply ↦
      if call ∈ calls then .lost else reply }

/-- The calls whose replies the connection holds. -/
def live : List CallId := link.inFlight.filterMap Prod.snd ++ link.commands

def stop : HostLink α β γ :=
  { link.drop link.live with serving := false, inFlight := [], commands := [] }

/-- A reply that is held under the same id is dropped. -/
def insertInFlight (requestId : RequestId) (reply : Option CallId) : HostLink α β γ :=
  { link.drop ((link.inFlight.filter (·.1 = requestId)).filterMap Prod.snd) with
    inFlight := link.inFlight.filter (·.1 ≠ requestId) ++ [(requestId, reply)] }

def send (message : ClientMessage α) (reply : Option CallId) : HostLink α β γ :=
  { link.insertInFlight message.requestId reply with toHost := link.toHost ++ [message] }

def answer (response : ServerResponse β) : HostLink α β γ :=
  match response.requestId.bind fun requestId ↦ link.inFlight.find? (·.1 = requestId) with
  | none => link.stop
  | some (requestId, reply) =>
    let link := { link with inFlight := link.inFlight.filter (·.1 ≠ requestId) }
    match reply with
    | none => link
    | some call => link.settle call (.answered response)

/-- One step, if it can be taken. -/
def step : HostStep α β γ → Option (HostLink α β γ)
  | .call message =>
    if message.requestId = link.newRequestId then
      some { link with
        messages := link.messages ++ [message]
        replies := link.replies ++ [.unsent]
        requestIds := link.requestIds + 1 }
    else none
  | .submit call =>
    match link.replies[call]? with
    | some .unsent =>
      if link.serving = false then some (link.settle call .lost)
      else if link.commands.length < maxHostCommands then
        some { link.settle call .waiting with commands := link.commands ++ [call] }
      else none
    | _ => none
  | .newRequestId => some { link with requestIds := link.requestIds + 1 }
  | .setHostGraphics enabled => some { link with hostGraphics := enabled, graphicsChanged := true }
  | .take sent =>
    if link.serving = true ∧ link.inFlight.length < maxRequestsInFlight then
      match link.commands with
      | [] => none
      | call :: commands =>
        match link.messages[call]? with
        | none => none
        | some message =>
          if sent then some (send { link with commands } message (some call))
          else some (stop (settle { link with commands } call .failed))
    else none
  | .tell sent =>
    if link.serving = true ∧ link.inFlight.length < maxRequestsInFlight ∧
        link.graphicsChanged = true then
      if link.hostGraphics = link.toldHostGraphics then some { link with graphicsChanged := false }
      else if sent then
        some (send { link with
          graphicsChanged := false
          toldHostGraphics := link.hostGraphics
          requestIds := link.requestIds + 1 } (.setHostGraphics link.newRequestId link.hostGraphics)
            none)
      else some (stop { link with
        graphicsChanged := false
        requestIds := link.requestIds + 1 })
    else none
  | .receive =>
    if link.serving = false then none
    else match link.fromHost with
      | [] => if link.hostOpen then none else some link.stop
      | .event _ :: fromHost => some { link with fromHost }
      | .response response :: fromHost => some (answer { link with fromHost } response)
  | .handle response =>
    if link.hostOpen = false then none
    else match link.toHost with
      | [] => none
      | message :: toHost =>
        if response.requestId.all (· = message.requestId) then
          some { link with
            toHost
            fromHost := link.fromHost ++ [.response response]
            handled := link.handled ++ [(message, response)] }
        else none
  | .event event =>
    if link.hostOpen then some { link with fromHost := link.fromHost ++ [.event event] } else none
  | .close => some { link with hostOpen := false }
  | .lose => if link.serving then some link.stop else none
  | .release =>
    if link.serving = true ∧ link.inFlight.length < maxRequestsInFlight ∧ link.commands = [] then
      some link.stop
    else none

def run (link : HostLink α β γ) : List (HostStep α β γ) → Option (HostLink α β γ)
  | [] => some link
  | next :: steps => (link.step next).bind fun link ↦ run link steps

end HostLink

end Embers
