import LarpBot.Application.GatewayReplies
import LarpBot.Laws.Deliveries

/-!
# A reply reaches its user

The row of the user is saved with the number of the update before the reply goes out, and an update
that the row names gets no second answer. So a reply gets through if nothing ends the request between
the save and the reply (`replies_sent`); where the messenger fails once, the next delivery of the
update succeeds and the reply is lost (`reply_lost`).

The requests may be served in any number of lanes, and the others may do what they like in between.
-/

namespace LarpBot

open Atomic

section Server

variable (G : Type)

abbrev Server := Fleet gatewayCalls Failure Served (Incoming G) G World

abbrev Served.Visit := Record gatewayCalls Served (Incoming G) World

end Server

variable {G : Type} {bot : Deployment} {dialogs : Dialogs} {safetyMarginMs : Int}

/-- The response to a message has left the gateway: it was returned inline, or the messenger has
accepted it. -/
def Carries (message : InboundMessage) (response : BotResponse) : Served.Visit G → Prop
  | .finished request (.inline result chatId) =>
    request.message = message ∧ result = response ∧ chatId = message.chat
  | .called request (.send _ _ _ text buttons) _ accepted _ =>
    request.message = message ∧ accepted = true ∧ text = response.text ∧ buttons = response.buttons
  | _ => False

instance carriesDecidable {message : InboundMessage} {response : BotResponse} :
    (record : Served.Visit G) → Decidable (Carries message response record)
  | .finished _ (.inline _ _) => inferInstanceAs (Decidable (_ ∧ _))
  | .called _ (.send _ _ _ _ _) _ _ _ => inferInstanceAs (Decidable (_ ∧ _))
  | .finished _ (.deferred _) | .finished _ .ok | .called _ (.port _) _ _ _
  | .called _ .timeMs _ _ _ => .isFalse fun h => h

def Replied (history : List (Served.Visit G)) (message : InboundMessage) (response : BotResponse) :
    Prop :=
  ∃ record ∈ history, Carries message response record

instance {history : List (Served.Visit G)} {message : InboundMessage} {response : BotResponse} :
    Decidable (Replied history message response) :=
  inferInstanceAs (Decidable (∃ record ∈ history, _))

/-- What is left of a request that has a reply to give: it asks for the time, it sends, or it returns
the reply. -/
def replying : Serve Served → Bool
  | .call .timeMs _ | .call (.send _ _ _ _ _) _ | .done (.inline _ _) => true
  | _ => false

/-- The messenger accepts what is sent to it, and no request is cut off that has a reply to give. -/
def Uninterrupted (s : Server G) : Label (Incoming G) G GatewayInput World → Prop
  | .call g i => ∀ request platform userId requestId text buttons,
      s.Calls g request (.send platform userId requestId text buttons) → i.accepted = true
  | .abandon g => ∀ request p, s.Working g request p → replying p = false
  | _ => True

/-- What is left of a request between the save of the user and the reply. -/
inductive OwesReply (safetyMarginMs : Int) (request : Incoming G) (response : BotResponse) :
    Serve Served → Prop
  | responds (hsilent : response.silent = false) : OwesReply safetyMarginMs request response
      (request.webhook.respond safetyMarginMs request.message response)
  | sends {platform : Platform} {userId : Int} {requestId : String} {served : Served} :
    OwesReply safetyMarginMs request response
      ((sendAck platform userId requestId response).bind fun _ => .done served)
  | returns : OwesReply safetyMarginMs request response (.done (.inline response request.message.chat))

/-- What is left of a request: it has not read the row yet, it handles the update, it has a reply to
give, or it is over. -/
inductive Serving (safetyMarginMs : Int) (bot : Deployment) (dialogs : Dialogs)
    (request : Incoming G) : Serve Served → Prop
  | fresh : Serving safetyMarginMs bot dialogs request
      (serve safetyMarginMs bot dialogs request.webhook request.message)
  | talking {user : User} {p : Act Turn}
      (hnew : user.base.lastUpdateId ≠ some request.message.updateId)
      (hp : Minding user (fun reply : Turn => reply.1.identity = user.identity ∧
        reply.1.base.lastUpdateId = some request.message.updateId) p) :
      Serving safetyMarginMs bot dialogs request
        (((p.bind storeReply).embed onPort).bind
          (request.webhook.respond safetyMarginMs request.message))
  | owing {response : BotResponse} {p : Serve Served}
      (h : OwesReply safetyMarginMs request response p) : Serving safetyMarginMs bot dialogs request p
  | ended (served : Served) : Serving safetyMarginMs bot dialogs request (.done served)
  | failed (failure : Failure) : Serving safetyMarginMs bot dialogs request (.fail failure)

variable {request : Incoming G} {response : BotResponse}

/-- What is left once the update is handled. -/
theorem serving_respond (response : BotResponse) : Serving safetyMarginMs bot dialogs request
    (request.webhook.respond safetyMarginMs request.message response) := by
  cases hsilent : response.silent with
  | false => exact .owing (.responds hsilent)
  | true =>
    cases request.webhook with
    | telegram requestId deadlineMs =>
      rw [Webhook.respond, respondTelegram, if_pos hsilent]
      exact .ended _
    | vk =>
      rw [Webhook.respond, respondVk, if_pos hsilent]
      exact .ended _

/-- A request that has a reply to give: what it does next, and what is left then. -/
theorem OwesReply.next {p : Serve Served} (h : OwesReply safetyMarginMs request response p) :
    (∃ next, p = .call .timeMs next ∧ ∀ nowMs, OwesReply safetyMarginMs request response (next nowMs)) ∨
      (∃ platform userId requestId next served failure,
        p = .call (.send platform userId requestId response.text response.buttons) next ∧
          next true = .done served ∧ next false = .fail failure) ∨
      p = .done (.inline response request.message.chat) := by
  cases h with
  | responds hsilent =>
    cases request.webhook with
    | telegram requestId deadlineMs =>
      rw [Webhook.respond, respondTelegram, if_neg (by simp [hsilent])]
      refine .inl ⟨_, rfl, fun nowMs => ?_⟩
      show OwesReply _ _ _ (if _ then _ else _)
      split
      · exact .returns
      · exact .sends
    | vk =>
      rw [Webhook.respond, respondVk, if_neg (by simp [hsilent])]
      exact .inr (.inl ⟨_, _, _, _, _, _, rfl, rfl, rfl⟩)
  | sends => exact .inr (.inl ⟨_, _, _, _, _, _, rfl, rfl, rfl⟩)
  | returns => exact .inr (.inr rfl)

theorem OwesReply.replying {p : Serve Served} (h : OwesReply safetyMarginMs request response p) :
    replying p = true := by
  rcases h.next with ⟨next, rfl, -⟩ | ⟨_, _, _, _, _, _, rfl, -⟩ | rfl <;> rfl

/-- The row has been read: the update is dropped, or its handling begins. -/
theorem serving_read (stored : Option User) : Serving safetyMarginMs bot dialogs request
    ((((storedOrNew request.message.identity stored).bind fun user =>
      handleFor bot dialogs user request.message).embed onPort).bind
        (request.webhook.respond safetyMarginMs request.message)) := by
  have hfor (user : User) : Serving safetyMarginMs bot dialogs request
      (((handleFor bot dialogs user request.message).embed onPort).bind
        (request.webhook.respond safetyMarginMs request.message)) := by
    unfold handleFor
    split
    · exact serving_respond _
    · next hnew => exact .talking hnew (minding_settle bot dialogs)
  cases stored with
  | some user => exact hfor user
  | none =>
    rw [storedOrNew]
    cases User.new request.message.identity.platform request.message.identity.platformUserId with
    | ok user => exact hfor user
    | error fault => exact .failed _

/-- What is left after a call. -/
theorem Serving.own {p : Serve Served} (h : Serving safetyMarginMs bot dialogs request p)
    {op : GatewayCall} {next : op.Ans → Serve Served} (hp : p = .call (S := gatewayCalls) op next)
    (a : op.Ans) : Serving safetyMarginMs bot dialogs request (next a) := by
  cases h with
  | fresh =>
    obtain ⟨rfl, hnext⟩ := Prog.call.inj hp
    cases hnext
    exact serving_read a
  | @talking user q hnew hq =>
    cases q with
    | done reply =>
      obtain ⟨rfl, hnext⟩ := Prog.call.inj hp
      cases hnext
      exact serving_respond reply.2
    | fail failure => exact nomatch hp
    | call c next' =>
      obtain ⟨rfl, hnext⟩ := Prog.call.inj hp
      cases hnext
      exact .talking hnew (hq.2 a trivial)
  | owing howes =>
    rcases howes.next with ⟨next', rfl, hstill⟩ | ⟨_, _, _, next', _, _, rfl, htrue, hfalse⟩ | rfl
    · obtain ⟨rfl, hnext⟩ := Prog.call.inj hp
      cases hnext
      exact .owing (hstill a)
    · obtain ⟨rfl, hnext⟩ := Prog.call.inj hp
      cases hnext
      cases a with
      | true => exact htrue ▸ .ended _
      | false => exact hfalse ▸ .failed _
    · exact nomatch hp
  | ended served => exact nomatch hp
  | failed failure => exact nomatch hp

/-- A request that saves the row with the number of its update has the reply to give next. -/
theorem Serving.saves {p : Serve Served} (h : Serving safetyMarginMs bot dialogs request p)
    {user : User} {next : Unit → Serve Served}
    (hp : p = .call (S := gatewayCalls) (.port (.users (.save user))) next)
    (hnamed : user.base.lastUpdateId = some request.message.updateId) :
    ∃ response, next () =
      request.webhook.respond safetyMarginMs request.message response := by
  cases h with
  | fresh => exact nomatch (Prog.call.inj hp).1
  | @talking read q hnew hq =>
    cases q with
    | done reply =>
      obtain ⟨-, hnext⟩ := Prog.call.inj hp
      cases hnext
      exact ⟨reply.2, rfl⟩
    | fail failure => exact nomatch hp
    | call c next' =>
      obtain ⟨hcall, -⟩ := Prog.call.inj hp
      obtain rfl := GatewayCall.port.inj hcall
      -- a save in the middle of a dialog keeps the update that the row named
      exact absurd (hq.1.2.symm.trans hnamed) hnew
  | owing howes =>
    rcases howes.next with ⟨_, rfl, -⟩ | ⟨_, _, _, _, _, _, rfl, -⟩ | rfl
    · exact nomatch (Prog.call.inj hp).1
    · exact nomatch (Prog.call.inj hp).1
    · exact nomatch hp
  | ended served => exact nomatch hp
  | failed failure => exact nomatch hp

section Runs

variable [DecidableEq G] {s₀ s s' : Server G}

/-- Every request that is served is at a point of its program. -/
theorem servings (hs : Fleet.Reaches (incoming safetyMarginMs bot dialogs G) gateway Uninterrupted s₀ s)
    (hidle : s₀.Idle) {g : G} {request : Incoming G} {p : Serve Served}
    (hworking : s.Working g request p) : Serving safetyMarginMs bot dialogs request p := by
  have hattempts := (hs.rule (K := fun _ => True)
    (R := fun _ request p => Serving safetyMarginMs bot dialogs request p) (fun _ => True)
    (fun _ _ => True) hidle trivial (Along.of_forall fun _ _ => trivial) (fun _ _ _ => trivial)
    (fun _ _ _ _ => trivial) (fun _ _ _ => .fresh)
    (fun _ _ _ _ _ _ _ _ _ _ _ hserving => ⟨trivial, trivial, hserving.own rfl _⟩)
    (fun _ _ _ _ _ _ _ _ _ => trivial) fun _ _ _ _ _ hserving => hserving).2.2
  obtain ⟨rest, hlane⟩ := hworking
  exact (hattempts g).2 request p rest hlane

/-- The reply has left the gateway, or its request is still about to give it. -/
def RepliedOrOwed (safetyMarginMs : Int) (g : G) (request : Incoming G) (response : BotResponse)
    (s : Server G) : Prop :=
  Replied s.history request.message response ∨
    ∃ p, s.Working g request p ∧ OwesReply safetyMarginMs request response p

/-- One step of a run. -/
theorem RepliedOrOwed.step {g : G} {l : Label (Incoming G) G GatewayInput World}
    (h : RepliedOrOwed safetyMarginMs g request response s) (hl : Uninterrupted s l) :
    RepliedOrOwed safetyMarginMs g request response
      (s.step (incoming safetyMarginMs bot dialogs G) gateway l) := by
  rcases h with ⟨record, hrecord, hcarries⟩ | ⟨p, hworking, howes⟩
  · refine .inl ⟨record, ?_, hcarries⟩
    have hhistory : (s.step (incoming safetyMarginMs bot dialogs G) gateway l).history = s.history ∨
        ∃ latest, (s.step (incoming safetyMarginMs bot dialogs G) gateway l).history =
          latest :: s.history := s.history_step l
    rcases hhistory with hsame | ⟨latest, hmore⟩
    · rw [hsame]
      exact hrecord
    · rw [hmore]
      exact List.mem_cons_of_mem _ hrecord
  · have hgoes : Fleet.Goes (incoming safetyMarginMs bot dialogs G) gateway s l g request p :=
      hworking.goes l
    cases hgoes with
    | stays hp => exact .inr ⟨p, hp, howes⟩
    | calls i op next hlabel hp hnext hhistory =>
      subst hlabel hp
      rcases howes.next with ⟨next', hcall, hstill⟩ | ⟨_, _, _, next', _, _, hcall, -⟩ | hdone
      · obtain ⟨rfl, hafter⟩ := Prog.call.inj hcall
        cases hafter
        exact .inr ⟨_, hnext, hstill _⟩
      · obtain ⟨rfl, -⟩ := Prog.call.inj hcall
        have haccepted : i.accepted = true := hl _ _ _ _ _ _ hworking.calls
        rw [RepliedOrOwed, hhistory]
        exact .inl ⟨_, List.mem_cons_self, rfl, haccepted, rfl, rfl⟩
      · exact nomatch hdone
    | returns a hlabel hp hhistory =>
      subst hp
      rcases howes.next with ⟨_, hcall, -⟩ | ⟨_, _, _, _, _, _, hcall, -⟩ | hdone
      · exact nomatch hcall
      · exact nomatch hcall
      · obtain rfl := Prog.done.inj hdone
        rw [RepliedOrOwed, hhistory]
        exact .inl ⟨_, List.mem_cons_self, rfl, rfl, rfl⟩
    | abandoned hlabel =>
      subst hlabel
      exact absurd howes.replying (by simp [hl request p hworking])

/-- In every run in which the messenger accepts what is sent to it and no request is cut off that has
a reply to give: when a request saves its user with the number of its update, it has a response, and
unless this is a silent one it leaves the gateway, or the request is still at it. -/
theorem replies_sent
    (hs : Fleet.Reaches (incoming safetyMarginMs bot dialogs G) gateway Uninterrupted s₀ s)
    (hidle : s₀.Idle) {g : G} {user : User} {next : Unit → Serve Served}
    (hsaves : s.Working g request (.call (S := gatewayCalls) (.port (.users (.save user))) next))
    (hnamed : user.base.lastUpdateId = some request.message.updateId) :
    ∃ response, next () = request.webhook.respond safetyMarginMs request.message response ∧
      ∀ i s', Fleet.Reaches (incoming safetyMarginMs bot dialogs G) gateway Uninterrupted
          (s.step (incoming safetyMarginMs bot dialogs G) gateway (.call g i)) s' →
        response.silent = false → RepliedOrOwed safetyMarginMs g request response s' := by
  obtain ⟨response, hnext⟩ := (servings hs hidle hsaves).saves rfl hnamed
  refine ⟨response, hnext, fun i s' hs' hsilent => ?_⟩
  induction hs' with
  | refl =>
    obtain ⟨rest, hlane⟩ := hsaves
    refine .inr ⟨_, ⟨rest, ?_⟩, .responds hsilent⟩
    simp only [Fleet.step, hlane, Function.update_self, ← hnext]
  | step _ hl ih => exact ih.step hl

end Runs

/-! ## A message that the messenger refuses once -/

section Sample

def vkRequest : Incoming Unit where
  lane := ()
  webhook := .vk
  message := nicknameField

def requestInput (accepted : Bool) : GatewayInput where
  ports := answering fun _ _ => .accepted
  accepted := accepted

/-- A delivery of the request up to the save of its user. -/
def untilSave (n : Nat) : List (Label (Incoming Unit) Unit GatewayInput World) :=
  .publish vkRequest :: .start () :: List.replicate n (.call () (requestInput true))

def server (schedule : List (Label (Incoming Unit) Unit GatewayInput World)) : Server Unit :=
  Fleet.play (incoming 500 sampleBot idleDialogs Unit) gateway { world := renamingWorld } schedule

theorem untilSave_reached : Fleet.Reaches (incoming 500 sampleBot idleDialogs Unit) gateway Uninterrupted
    { world := renamingWorld } (server (untilSave 2)) := by
  refine Fleet.Reaches.refl.play fun s l hl => ?_
  simp only [untilSave, List.replicate, List.mem_cons, List.not_mem_nil, or_false] at hl
  rcases hl with rfl | rfl | rfl | rfl
  · trivial
  · trivial
  · exact fun _ _ _ _ _ _ _ => rfl
  · exact fun _ _ _ _ _ _ _ => rfl

/-- What the request is answered with. -/
def nicknameQuestion : BotResponse where
  text := nicknamePrompt
  buttons := [⟨cancelDialog, cancelDialog⟩]

/-- The question for the nickname goes out. -/
theorem nickname_asked : ∃ response, response.silent = false ∧
    RepliedOrOwed 500 () vkRequest response (server (untilSave 4)) := by
  have hreached : ∃ user next, (server (untilSave 2)).Working () vkRequest
      (.call (S := gatewayCalls) (.port (.users (.save user))) next) ∧
        user.base.lastUpdateId = some vkRequest.message.updateId ∧
        ∃ op next', next () = .call (S := gatewayCalls) op next' :=
    ⟨_, _, ⟨[], rfl⟩, rfl, _, _, rfl⟩
  obtain ⟨user, next, hsaves, hnamed, op, next', hcall⟩ := hreached
  obtain ⟨response, hnext, hsent⟩ := replies_sent untilSave_reached (fun _ => rfl) hsaves hnamed
  have hsilent : response.silent = false := by
    by_contra h
    rw [hcall, vkRequest, Webhook.respond, respondVk, if_pos (by simpa using h)] at hnext
    exact nomatch hnext
  have haccepts : Uninterrupted (server (untilSave 3)) (.call () (requestInput true)) :=
    fun _ _ _ _ _ _ _ => rfl
  exact ⟨response, hsilent, hsent (requestInput true) _ (.step .refl haccepts) hsilent⟩

/-- The messenger refuses the question; the request comes again and is answered without it. -/
def refusedOnce : List (Label (Incoming Unit) Unit GatewayInput World) :=
  .call () (requestInput false) :: .abandon () ::
    Fleet.attempt () 1 (requestInput true) (.finish ())

theorem reply_lost : ∃ (s₀ s s' : Server Unit) (user : User) (next : Unit → Serve Served),
    s₀.Idle ∧
    Fleet.Reaches (incoming 500 sampleBot idleDialogs Unit) gateway (fun _ l => ∀ w, l ≠ .outside w)
      s₀ s ∧
    s.Working () vkRequest (.call (S := gatewayCalls) (.port (.users (.save user))) next) ∧
    user.base.lastUpdateId = some vkRequest.message.updateId ∧
    next () = vkRequest.webhook.respond 500 vkRequest.message nicknameQuestion ∧
    nicknameQuestion.silent = false ∧
    Fleet.Reaches (incoming 500 sampleBot idleDialogs Unit) gateway (fun _ l => ∀ w, l ≠ .outside w)
      (s.step (incoming 500 sampleBot idleDialogs Unit) gateway (.call () (requestInput true))) s' ∧
    s'.Idle ∧ (∃ earlier, s'.history = .finished vkRequest .ok :: earlier) ∧
    ¬ Replied s'.history vkRequest.message nicknameQuestion := by
  refine ⟨{ world := renamingWorld }, server (untilSave 2),
    (server (untilSave 3)).play (incoming 500 sampleBot idleDialogs Unit) gateway refusedOnce, _, _,
    fun _ => rfl, Fleet.Reaches.refl.play ?_, ⟨[], rfl⟩, rfl, rfl, rfl,
    Fleet.Reaches.refl.play ?_, fun _ => rfl, ⟨_, rfl⟩, ?_⟩
  · simp [untilSave]
  · simp [refusedOnce, Fleet.attempt]
  · decide +kernel

end Sample

end LarpBot
