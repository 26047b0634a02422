import LarpBot.Laws.Deliveries
import LarpBot.Laws.LinkSpellings
import LarpBot.Laws.ProfileEdits

/-!
# Profile dialogs end in a valid profile

Every message to a profile dialog is answered, every row that the dialog stores is one that it goes on
from, and a profile that it completes is valid (`profile_dialogs`). A step is followed along its text
from the stage that the row is at; the run over the messages of a user is `Dialogue`.

What the queue refuses and what the other dialogs raise ends a message too; the row that was stored
before is one to go on from.
-/

namespace LarpBot

open Atomic Act

/-! ## One message -/

section Messages

variable {bot : Deployment} {dialogs : Dialogs} {F : Failure → Prop} {user : User} {field text : String}
  {message : InboundMessage}

/-- The rows that a message stores and leaves are rows to go on from. -/
@[reducible] def Goes (bot : Deployment) (F : Failure → Prop) (p : Act Turn) : Prop :=
  Sound (Resumable bot) F (fun reply => Resumable bot reply.1) p

theorem sound_goes {p : Act Turn} (hp : Sound (Finished bot) F (Proceeds bot) p) : Goes bot F p := by
  refine hp.mono (fun c hc => ?_) (fun _ hreply => hreply.1) fun _ h => h
  cases c with
  | users c =>
    cases c with
    | save stored => exact Finished.resumable hc
    | _ => trivial
  | _ => trivial

theorem goes_elsewhere (huser : Resumable bot user) {p : Act Turn}
    (hp : Sound (Elsewhere bot user) F (fun reply => Elsewhere bot user reply.1) p) : Goes bot F p :=
  sound_elsewhere hp (fun _ helse => helse.resumable huser) fun _ helse => helse.resumable huser

theorem proceeds_beginProfile (huser : Resumable bot user) {editing : Bool} {eventId : Option EventId} :
    Proceeds bot (beginProfile user editing eventId) := by
  refine proceeds_asked huser ?_ .fullName
  have hflow (context : DialogContext) (flow : String) (hother : flow ≠ "field") :
      (context.setText "profile_flow" flow).holds "profile_flow" "field" = false := by
    simp [DialogContext.holds, hother]
  have hother : (if editing then "reset" else "initial") ≠ "field" := by
    split <;> decide
  cases eventId with
  | none => exact hflow _ _ hother
  | some eventId =>
    dsimp only
    rw [DialogContext.setText, holds_set (by decide)]
    exact hflow _ _ hother

/-- The context of the edit of a field holds the name of the profile. -/
theorem fieldContext_of (huser : Resumable bot user) (hcomplete : user.profileComplete = true) (field : String) :
    ∃ context, fieldContext user field = .ok context ∧ Named context ∧
      Editing bot (user.withContext context) field := by
  have hedits {context : DialogContext} (hflow : context.holds "profile_flow" "field" = true)
      (hkey : context.get "profile_field" = some (.text field)) : Editing bot (user.withContext context) field := by
    refine ⟨isValid_mapBase _ huser.valid (base_isValid huser.valid), ?_, ?_, ?_, ?_⟩
    · rw [User.withContext, User.base_mapBase]
      exact huser.title
    · rw [← hcomplete]
      cases user <;> rfl
    · rwa [dialogContext_withContext]
    · rwa [dialogContext_withContext]
  unfold fieldContext
  cases hdetails : user.base.passDetails with
  | some details =>
    have hvalid : PassAgrees details := by
      have hbase := base_isValid huser.valid
      unfold UserBase.isValid at hbase
      rw [hdetails] at hbase
      simp only [Bool.and_eq_true] at hbase
      exact isValid_iff.mp hbase.1.2
    refine ⟨_, rfl, ⟨_, ?_, hvalid.name⟩, hedits ?_ ?_⟩
    · simp [HoldsName, DialogContext.withDetails]
    · simp [DialogContext.withDetails, DialogContext.setText, holds_set]
      simp [DialogContext.holds]
    · simp [DialogContext.withDetails]
  | none =>
    obtain ⟨fullName, hname, -⟩ := Finished.title ⟨huser, hcomplete⟩
    obtain ⟨surname, name, htitle⟩ := huser.title fullName hname
    rw [hname]
    simp only [htitle.split, List.take_succ_cons, List.take_zero]
    refine ⟨_, rfl, ⟨(surname, name, "-"), ?_, htitle.first.name, htitle.second.name, .inl rfl⟩, hedits ?_ ?_⟩
    · simp [HoldsName]
    · simp [DialogContext.setText, holds_set]
      simp [DialogContext.holds]
    · simp

theorem goes_beginProfileField (huser : Resumable bot user) (hcomplete : user.profileComplete = true)
    (hidle : user.dialogState = "IDLE") : Goes bot F (beginProfileField user field) := by
  obtain ⟨context, hcontext, hname, hediting⟩ := fieldContext_of huser hcomplete field
  have hvalue : (value (fieldContext user field) : Act DialogContext) = .done context := by
    rw [hcontext]
    rfl
  refine sound_after hvalue ?_
  have hname' : Named (user.withContext context).dialogContext := by rwa [dialogContext_withContext]
  have hmenu : Resumable bot (user.withContext context) := by
    refine ⟨hediting.valid, hediting.title, fun hstart => ?_⟩
    rw [dialogState_withContext, hidle] at hstart
    exact absurd hstart (by decide)
  dsimp only
  generalize user.withContext context = updated at hediting hname' hmenu ⊢
  split
  · exact (hediting.asks .fullName rfl).1
  · exact (hediting.asks .nickname rfl).1
  · cases updated <;> exact (hediting.asks .contact rfl).1
  · exact (hediting.asks .crossplay rfl).1
  · exact (hediting.asks (.needsPass rfl hname') rfl).1
  · next hdetails =>
    refine (hediting.asks (.phone (fun hpass => absurd hpass (by decide)) fun _ => ?_) rfl).1
    rw [hdetails]
    rfl
  · next hdetails =>
    refine (hediting.asks (.email (fun hpass => absurd hpass (by decide)) fun _ => ?_) rfl).1
    rw [hdetails]
    rfl
  · next hdetails =>
    refine (hediting.asks (.citizenship (.inr ⟨by decide, ?_⟩) hname') rfl).1
    rw [hdetails]
    rfl
  · next details hdetails =>
    show Resumable bot _
    split
    · refine (hediting.asks (.latinName (.inr ?_) hname' fun hfield => absurd hfield (by decide)) rfl).1
      rw [hdetails]
      rfl
    · exact hmenu
  · exact hmenu

variable (hkeep : dialogs.KeepProfiles bot F)
include hkeep

theorem sound_profileStep (hfold : FoldsCase bot.casefold) (huser : Resumable bot user)
    (hstart : startsWith "PROFILE_" user.dialogState = true) :
    Sound (Finished bot) F (Proceeds bot) (profileStep bot dialogs user message text) := by
  unfold profileStep
  dsimp only
  split
  · have hbegin : Proceeds bot (beginProfile user) := proceeds_beginProfile huser
    exact ⟨hbegin.1, hbegin.2⟩
  · next hformat =>
    have hflow := huser.flow hstart (by simpa using hformat)
    unfold InFlow at hflow
    split
    · next hfield =>
      rw [if_pos hfield] at hflow
      obtain ⟨hcomplete, field, hkey, hedited⟩ := hflow
      exact sound_profileFieldStep hkeep hfold ⟨huser.valid, huser.title, hcomplete, hfield, hkey⟩ hedited
    · next hfield =>
      rw [if_neg hfield] at hflow
      exact sound_questionnaireStep hkeep hfold huser ((Bool.not_eq_true _).mp hfield) hflow

theorem goes_main (huser : Resumable bot user) : Goes bot F (mainMenuReply dialogs user text) := by
  refine sound_bind (sound_elsewhere (hkeep.main user text huser.valid) (fun _ helse => helse.resumable huser)
    fun _ h => h) fun response _ => ?_
  exact huser

theorem goes_profileResponse (huser : Resumable bot user) {heading : Option String} :
    Goes bot F (profileResponse dialogs user heading) := by
  refine (sound_profileResponse hkeep huser.valid fun _ helse => helse.resumable huser).mono (fun _ h => h)
    (fun reply hreply => ?_) fun _ h => h
  rwa [hreply]

theorem goes_startIdle (huser : Resumable bot user) (hidle : user.dialogState = "IDLE") :
    Goes bot F (startIdle dialogs user message text) := by
  have hbegin {editing : Bool} : Goes bot F (pure (beginProfile user editing)) :=
    (proceeds_beginProfile huser).1
  unfold startIdle
  split
  · split
    · exact goes_profileResponse hkeep huser
    · exact hbegin
  · split
    · show Resumable bot _
      split
      · exact huser
      · exact (proceeds_beginProfile huser).1
    · split
      · exact hbegin
      · split
        · split
          · next hcomplete => exact goes_beginProfileField huser hcomplete hidle
          · exact hbegin
        · exact goes_elsewhere huser (hkeep.commands user message text huser.valid)

theorem goes_cancelCurrent (huser : Resumable bot user) : Goes bot F (cancelCurrent dialogs user) := by
  unfold cancelCurrent
  split
  · exact goes_profileResponse hkeep huser.idle
  · exact goes_main hkeep huser.idle

theorem goes_continueState (hfold : FoldsCase bot.casefold) (huser : Resumable bot user) :
    Goes bot F (continueState bot dialogs user message text) := by
  unfold continueState
  split
  · next hstart => exact sound_goes (sound_profileStep hkeep hfold huser hstart)
  · exact goes_elsewhere huser (hkeep.steps user message text huser.valid)

theorem goes_route (hfold : FoldsCase bot.casefold) (huser : Resumable bot user) :
    Goes bot F (route bot dialogs user message text) := by
  have hcleared := huser.idle
  unfold route
  split
  · exact huser
  · split
    · exact goes_main hkeep hcleared
    · split
      · exact goes_cancelCurrent hkeep huser
      · split
        · exact goes_elsewhere hcleared (hkeep.moderators _ hcleared.valid)
        · split
          · exact goes_elsewhere hcleared (hkeep.admin _ hcleared.valid)
          · split
            · exact goes_elsewhere hcleared (hkeep.game _ message text hcleared.valid)
            · split
              · exact goes_continueState hkeep hfold huser
              · next hidle => exact goes_startIdle hkeep huser (not_not.mp hidle)

theorem goes_startGameSignup (huser : Resumable bot user) {event : Event} :
    Goes bot F (startGameSignup dialogs user message event) := by
  refine sound_bind (sound_call (c := .outside .now) trivial) fun now _ => ?_
  split
  · exact goes_elsewhere huser (hkeep.select user message _ huser.valid)
  · next hclosed =>
    cases hopens : event.registrationOpenAt with
    | none =>
      rw [Event.registrationIsOpen, hopens] at hclosed
      exact absurd rfl hclosed
    | some opensAt => exact goes_main hkeep huser

theorem goes_startOver (huser : Resumable bot user) {token : Option String} :
    Goes bot F (startOver dialogs user message token) := by
  have hcleared := huser.idle
  have hevent : Sound (Resumable bot) F (fun _ => True) (signupEvent token) := by
    cases token with
    | none => trivial
    | some token =>
      refine sound_bind (sound_call (c := .events (.getBySignupToken token)) trivial) fun found hfound => ?_
      obtain ⟨event, rfl⟩ : ∃ event, found = .ok event := hfound
      trivial
  refine sound_bind hevent fun event _ => ?_
  split
  · have hbegin : Proceeds bot (beginProfile user.clear false (event.map Event.eventId)) :=
      proceeds_beginProfile hcleared
    exact hbegin.1
  · cases event with
    | none => exact goes_main hkeep hcleared
    | some event => exact goes_startGameSignup hkeep hcleared

theorem goes_withButtons (huser : Resumable bot user) {isAdmin : Bool} {response : BotResponse} :
    Goes bot F (withButtons dialogs isAdmin (user, response)) := by
  have hbuttons (buttons : List Button) :
      Resumable bot (user.mapBase fun base => { base with lastBotButtons := buttons }) := by
    refine Elsewhere.resumable ?_ huser
    have hvalid := huser.valid
    rw [isValid_eq, Bool.and_eq_true] at hvalid
    exact ⟨User.identity_mapBase _ _, by simp, by simp, by simp, by simp, by simp, by cases user <;> rfl,
      by rw [hasContacts_mapBase]; exact hvalid.2, .inl ⟨by cases user <;> rfl, by cases user <;> rfl⟩⟩
  have hback : Sound (Resumable bot) F (fun _ => True) (withWayBack dialogs isAdmin user response) := by
    unfold withWayBack
    split
    · split
      · refine sound_bind (sound_elsewhere (hkeep.access user huser.valid)
          (fun _ helse => helse.resumable huser) fun _ h => h) fun access _ => ?_
        trivial
      · trivial
    · trivial
  refine sound_bind hback fun response _ => ?_
  exact hbuttons response.buttons

/-- A message to a row that can be gone on from. -/
theorem goes_answerMessage (hfold : FoldsCase bot.casefold) (huser : Resumable bot user) :
    Goes bot F (answerMessage bot dialogs user message) := by
  unfold answerMessage
  dsimp only
  split
  · exact sound_bind (goes_startOver hkeep huser) fun _ hreply => goes_withButtons hkeep hreply
  · split
    · exact huser
    · exact sound_bind (goes_route hkeep hfold huser) fun _ hreply => goes_withButtons hkeep hreply

end Messages

/-! ## The messages of a user -/

/-- The rows of a user: a new one, what the rest of the bot makes of a row, what a message leaves of it, and
what is stored on the way, also when the message fails after that. -/
inductive Dialogue (bot : Deployment) (dialogs : Dialogs) : User → Prop
  | new {platform : Platform} {userId : Nat} {user : User} (hpositive : 0 < userId)
    (hnew : User.new platform userId = .ok user) : Dialogue bot dialogs user
  | elsewhere {user user' : User} (h : Dialogue bot dialogs user) (helse : Elsewhere bot user user') :
    Dialogue bot dialogs user'
  | answered {user : User} {message : InboundMessage} {reply : Turn} (h : Dialogue bot dialogs user)
    (hreply : (answerMessage bot dialogs user message).MayReturn Resolves reply) : Dialogue bot dialogs reply.1
  | saved {user stored : User} {message : InboundMessage} (h : Dialogue bot dialogs user)
    (hsaved : (answerMessage bot dialogs user message).MayCall Resolves (.users (.save stored))) :
    Dialogue bot dialogs stored

section Messaging

variable {bot : Deployment} {dialogs : Dialogs} {F : Failure → Prop} {user : User}

theorem resumable_new {platform : Platform} {userId : Nat} (hpositive : 0 < userId)
    (hnew : User.new platform userId = .ok user) : Resumable bot user := by
  have hidle : startsWith "PROFILE_" "IDLE" ≠ true := by decide
  cases platform with
  | system => cases hnew
  | telegram =>
    obtain rfl := Except.ok.inj hnew
    refine ⟨?_, fun _ h => (by cases h), fun hstart => absurd hstart hidle⟩
    simp [User.isValid, User.base, UserBase.isValid, User.identity, User.telegramHandle,
      normalizeTelegramHandle, hpositive]
  | vk =>
    obtain rfl := Except.ok.inj hnew
    refine ⟨?_, fun _ h => (by cases h), fun hstart => absurd hstart hidle⟩
    simp [User.isValid, User.base, UserBase.isValid, User.identity, User.telegramHandle,
      normalizeTelegramHandle, hpositive]

/-- Every row of a user is one to go on from. -/
theorem resumable_dialogue (hfold : FoldsCase bot.casefold) (hkeep : dialogs.KeepProfiles bot F)
    (h : Dialogue bot dialogs user) : Resumable bot user := by
  induction h with
  | new hpositive hnew => exact resumable_new hpositive hnew
  | elsewhere _ helse ih => exact helse.resumable ih
  | answered _ hreply ih => exact (goes_answerMessage hkeep hfold ih).returned hreply
  | saved _ hsaved ih => exact (goes_answerMessage hkeep hfold ih).called hsaved

/-- In every run of messages of a user, whatever was stored before: a message fails only where the queue or
another dialog does, the rows that a profile dialog stores are valid and complete, and what it leaves is in
the dialog still or is a valid and complete profile. -/
theorem profile_dialogs (hfold : FoldsCase bot.casefold) (hkeep : dialogs.KeepProfiles bot F)
    (h : Dialogue bot dialogs user) (message : InboundMessage) :
    (∀ failure, (answerMessage bot dialogs user message).MayRaise Resolves failure →
      failure = queueRefused ∨ F failure) ∧
    (startsWith "PROFILE_" user.dialogState = true → ∀ text,
      (∀ stored, (profileStep bot dialogs user message text).MayCall Resolves (.users (.save stored)) →
        stored.isValid bot = true ∧ stored.profileComplete = true) ∧
      ∀ reply, (profileStep bot dialogs user message text).MayReturn Resolves reply →
        startsWith "PROFILE_" reply.1.dialogState = true ∨
          reply.1.isValid bot = true ∧ reply.1.profileComplete = true) := by
  have huser := resumable_dialogue hfold hkeep h
  refine ⟨fun failure hraise => (goes_answerMessage hkeep hfold huser).raised hraise, fun hstart text => ?_⟩
  have hstep : Sound (Finished bot) F (Proceeds bot) (profileStep bot dialogs user message text) :=
    sound_profileStep hkeep hfold huser hstart
  refine ⟨fun stored hsaved => ?_, fun reply hreply => ?_⟩
  · have hfinished : Finished bot stored := hstep.called hsaved
    exact ⟨hfinished.resumable.valid, hfinished.complete⟩
  · obtain ⟨hresumable, hgoes⟩ := hstep.returned hreply
    exact hgoes.imp_right fun hcomplete => ⟨hresumable.valid, hcomplete⟩

end Messaging

theorem idleDialogs_keepProfiles : idleDialogs.KeepProfiles sampleBot fun _ => False := by
  have hself {user : User} (hvalid : user.isValid sampleBot = true) : Elsewhere sampleBot user user := by
    rw [isValid_eq, Bool.and_eq_true] at hvalid
    exact ⟨rfl, rfl, rfl, rfl, rfl, rfl, rfl, hvalid.2, .inl ⟨rfl, rfl⟩⟩
  exact ⟨fun _ _ _ => trivial, fun _ _ => trivial, fun _ _ => trivial, fun _ _ _ h => hself h, fun _ h => hself h,
    fun _ h => hself h, fun _ _ _ h => hself h, fun _ _ _ h => hself h, fun _ _ _ h => hself h⟩

/-- A new user opens the profile. -/
def openedProfile : User :=
  (beginProfile (.vk { vkId := 7 })).1.mapBase fun base =>
    { base with lastBotButtons := exitOnly (beginProfile (.vk { vkId := 7 })).1 }

theorem openedProfile_reached : Dialogue sampleBot idleDialogs openedProfile := by
  have hnew : Dialogue sampleBot idleDialogs (.vk { vkId := 7 }) :=
    .new (by decide : 0 < 7) (rfl : User.new .vk 7 = .ok _)
  have hanswer : answerMessage sampleBot idleDialogs (.vk { vkId := 7 }) (renamingMessage "1" profileLabel) =
      .done (openedProfile, (beginProfile (.vk { vkId := 7 })).2) := rfl
  have hreply : (answerMessage sampleBot idleDialogs (.vk { vkId := 7 })
      (renamingMessage "1" profileLabel)).MayReturn Resolves
        (openedProfile, (beginProfile (.vk { vkId := 7 })).2) := by
    rw [hanswer]
    exact .done _
  exact hnew.answered hreply

/-- Its name is given. -/
theorem profile_dialogs_opened :
    (∀ failure, (answerMessage sampleBot idleDialogs openedProfile (renamingMessage "2" "Новиков Новый")).MayRaise
        Resolves failure → failure = queueRefused ∨ False) ∧
    (startsWith "PROFILE_" openedProfile.dialogState = true → ∀ text,
      (∀ stored, (profileStep sampleBot idleDialogs openedProfile (renamingMessage "2" "Новиков Новый")
          text).MayCall Resolves (.users (.save stored)) →
        stored.isValid sampleBot = true ∧ stored.profileComplete = true) ∧
      ∀ reply, (profileStep sampleBot idleDialogs openedProfile (renamingMessage "2" "Новиков Новый")
          text).MayReturn Resolves reply →
        startsWith "PROFILE_" reply.1.dialogState = true ∨
          reply.1.isValid sampleBot = true ∧ reply.1.profileComplete = true) :=
  profile_dialogs foldsCase_sampleBot idleDialogs_keepProfiles openedProfile_reached _

end LarpBot
