import LarpBot.Application.ConversationCore
import LarpBot.Foundation.Redelivery

/-!
# Replies of the gateway

What `_telegram` and `_vk` do with an update of a private dialog: `BotEngine.handle` answers it, and
the answer goes back in the HTTP response or out through the messenger. A failure at any point is an
HTTP response without success, and whoever sent the update may send it again.
-/

namespace LarpBot

open Atomic

/-- A call of a request: a port of the services, the clock of the process, the messenger. -/
inductive GatewayCall
  | port (call : Call)
  | timeMs
  | send (platform : Platform) (userId : Int) (requestId text : String) (buttons : List Button)

/-- The messenger accepts a message, or `transport.send` raises. -/
@[reducible] def GatewayCall.Ans : GatewayCall → Type
  | port c => c.Ans
  | timeMs => Int
  | send _ _ _ _ _ => Bool

@[reducible] def gatewayCalls : Signature :=
  ⟨GatewayCall, GatewayCall.Ans⟩

structure GatewayInput where
  ports : Input
  timeMs : Int := 0
  accepted : Bool := true

@[reducible] def gateway : Handler gatewayCalls World GatewayInput
  | .port c, i, w => c.perform i.ports w
  | .timeMs, i, w => (i.timeMs, w)
  | .send _ _ _ _ _, i, w => (i.accepted, w)

abbrev Serve (α : Type) := Prog gatewayCalls Failure α

/-- A response with status 200. -/
inductive Served
  | deferred (requestId : String)
  /-- The update is answered with a call of `sendMessage`. -/
  | inline (result : BotResponse) (chatId : Int)
  | ok
deriving DecidableEq, Repr

/-- How an update comes in. -/
inductive Webhook
  | telegram (requestId : String) (deadlineMs : Int)
  | vk
deriving DecidableEq, Repr

/-- A request that carries an update. Requests of one lane are served one after another. -/
structure Incoming (G : Type) where
  lane : G
  webhook : Webhook
  message : InboundMessage

namespace InboundMessage

variable (message : InboundMessage)

/-- `inbound.chat_id or inbound.identity.platform_user_id`. -/
def chat : Int :=
  (message.chatId.filter (· ≠ 0)).getD message.identity.platformUserId

/-- `inbound.peer_id or inbound.identity.platform_user_id`. -/
def peer : Int :=
  (message.peerId.filter (· ≠ 0)).getD message.identity.platformUserId

end InboundMessage

/-- A call of a service. -/
def onPort (c : Call) : Serve c.Ans :=
  Prog.ofCall (S := gatewayCalls) (.port c)

/-- `await app.transport.send(...)`. -/
def sendAck (platform : Platform) (userId : Int) (requestId : String) (result : BotResponse) :
    Serve Unit :=
  (Prog.ofCall (S := gatewayCalls)
      (.send platform userId (requestId ++ ":ack") result.text result.buttons)).bind fun accepted =>
    if accepted then .done () else .fail (.fault (.integration "transport"))

section Handler

variable (safetyMarginMs : Int)

/-- The end of `_telegram`, once the update is handled. -/
def respondTelegram (requestId : String) (deadlineMs : Int) (message : InboundMessage)
    (result : BotResponse) : Serve Served :=
  if result.silent then .done (.deferred requestId)
  else
    (Prog.ofCall (S := gatewayCalls) .timeMs).bind fun nowMs =>
      let inlineSafe := !result.deferred && !result.commandEnqueued &&
        nowMs + safetyMarginMs < deadlineMs
      if inlineSafe then .done (.inline result message.chat)
      else (sendAck .telegram message.chat requestId result).bind fun _ =>
        .done (.deferred requestId)

/-- The end of `_vk`, once the update is handled. -/
def respondVk (message : InboundMessage) (result : BotResponse) : Serve Served :=
  if result.silent then .done .ok
  else (sendAck .vk message.peer message.updateId result).bind fun _ => .done .ok

def Webhook.respond (message : InboundMessage) (result : BotResponse) : Webhook → Serve Served
  | .telegram requestId deadlineMs =>
    respondTelegram safetyMarginMs requestId deadlineMs message result
  | .vk => respondVk message result

variable (bot : Deployment) (dialogs : Dialogs)

/-- `_telegram` and `_vk` from the parsed update on. -/
def serve (webhook : Webhook) (message : InboundMessage) : Serve Served :=
  ((handle bot dialogs message).embed onPort).bind (webhook.respond safetyMarginMs message)

def incoming (G : Type) : Jobs gatewayCalls Failure Served (Incoming G) G where
  program request := serve safetyMarginMs bot dialogs request.webhook request.message
  group := Incoming.lane

end Handler

end LarpBot
