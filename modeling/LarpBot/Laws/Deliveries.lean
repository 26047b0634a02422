import LarpBot.Application.ConversationCore
import LarpBot.Laws.Maintenance
import LarpBot.Foundation.Traces

/-!
# Deliveries of updates

The row of a user names one update: the last one that was handled. `handle` drops an update that the
row names and handles any other, so an update that comes again is dropped as long as no other update
of its user has been handled since. Between the two any number of updates may fail, and the rest of
the world may go on.
-/

namespace LarpBot

open Atomic Act

/-! ## The gateway -/

/-- One delivery of an update. Deliveries run side by side, each in a lane of its own; a delivery
that failed may be made again, and so may one that was completed. -/
structure Arrival (G : Type) where
  lane : G
  message : InboundMessage
deriving DecidableEq, Repr

section Gateway

variable (G : Type) (bot : Deployment) (dialogs : Dialogs)

/-- The deliveries as jobs. -/
def arrivals : Jobs ports Failure BotResponse (Arrival G) G where
  program arrival := handle bot dialogs arrival.message
  group := Arrival.lane

abbrev Gateway := Fleet ports Failure BotResponse (Arrival G) G World

abbrev Visits := List (Record ports BotResponse (Arrival G) World)

end Gateway

variable {G : Type} {bot : Deployment} {dialogs : Dialogs}

/-- The update that the row of a user names. -/
def World.lastUpdate (w : World) (identity : BotIdentity) : Option String :=
  (w.users.find? identity).bind fun user => user.base.lastUpdateId

/-- The update whose handling a record completes: the row is saved and names it. -/
def completes : Record ports BotResponse (Arrival G) World → Option (BotIdentity × String)
  | .called arrival (.users (.save user)) _ _ _ =>
    if user.base.lastUpdateId = some arrival.message.updateId then
      some (arrival.message.identity, arrival.message.updateId)
    else none
  | _ => none

/-- The updates that have been handled, the latest first. -/
def handledUpdates (history : Visits G) : List (BotIdentity × String) :=
  history.filterMap completes

/-- The handling of an update has been completed. -/
def Handled (history : Visits G) (message : InboundMessage) : Prop :=
  (message.identity, message.updateId) ∈ handledUpdates history

instance (history : Visits G) (message : InboundMessage) : Decidable (Handled history message) :=
  inferInstanceAs (Decidable (_ ∈ _))

/-- The last update of a user that has been handled. -/
def lastHandled (history : Visits G) (identity : BotIdentity) : Option String :=
  ((handledUpdates history).find? (·.1 = identity)).map Prod.snd

/-- The job that a lane is working on. -/
def underWay : Lane ports Failure BotResponse (Arrival G) → Option (Arrival G)
  | .resting _ => none
  | .working arrival _ _ => some arrival

/-- The condition on a step. Deliveries of one user do not overlap, an update that has been handled
comes again only while it is the last one of its user, and the rest of the world leaves the updates
that the rows name alone. -/
def Timely (s : Gateway G) : Label (Arrival G) G Input World → Prop
  | .call g _ => ∀ arrival ∈ underWay (s.lanes g),
      (∀ g' ≠ g, ∀ other ∈ underWay (s.lanes g'),
        other.message.identity ≠ arrival.message.identity) ∧
      (Handled s.history arrival.message →
        lastHandled s.history arrival.message.identity = some arrival.message.updateId)
  | .outside w => ∀ user ∈ s.world.users.rows ++ w.users.rows,
      w.lastUpdate user.identity = s.world.lastUpdate user.identity
  | _ => True

/-- What a record of an update that had been handled before may be: a call that changes nothing. -/
def Ignored : Record ports BotResponse (Arrival G) World → Visits G → Prop
  | .called arrival _ before _ after, earlier => Handled earlier arrival.message → after = before
  | .finished _ _, _ => True

/-! ## The row after one call -/

section Calls

variable {w : World} {i : Input} {identity : BotIdentity} {user : User}

theorem lastUpdate_modify {users : Users} {k : BotIdentity} {f : User → User}
    (hf : ∀ user, (f user).identity = user.identity)
    (h : ∀ user, (f user).base.lastUpdateId = user.base.lastUpdateId) :
    ((users.modify k f hf).find? identity).bind (fun user => user.base.lastUpdateId) =
      (users.find? identity).bind fun user => user.base.lastUpdateId := by
  rw [Table.find?_modify]
  split
  · next hk =>
    rw [hk]
    cases users.find? k with
    | none => rfl
    | some user => exact h user
  · rfl

/-- Only a save changes the update that a row names. -/
theorem lastUpdate_perform {c : Call} (hc : ∀ user, c ≠ .users (.save user)) :
    (c.perform i w).2.lastUpdate identity = w.lastUpdate identity := by
  cases c with
  | users c =>
    cases c with
    | save user => exact absurd rfl (hc user)
    | claimDelivery platform userId operationId buttons =>
      simp only [Call.perform, World.lastUpdate, UserCall.perform, Users.claimDelivery]
      split
      · rfl
      · split
        · rfl
        · exact lastUpdate_modify (User.identity_mapBase _) fun user => by simp
    | setLarpExperience =>
      exact lastUpdate_modify (User.identity_mapBase _) fun user => by simp
    | grantLarpExperience =>
      exact lastUpdate_modify (User.identity_mapBase _) fun user => by simp
    | updateTelegramHandle =>
      exact lastUpdate_modify (fun user => by cases user <;> rfl) fun user => by cases user <;> rfl
    | updateTelegramLink =>
      exact lastUpdate_modify (fun user => by cases user <;> rfl) fun user => by cases user <;> rfl
    | _ => rfl
  | outside c =>
    simp only [Call.perform, World.lastUpdate, OutsideCall.record]
    split <;> rfl
  | _ => rfl

theorem lastUpdate_save :
    ((Call.users (.save user)).perform i w).2.lastUpdate identity =
      if identity = user.identity then user.base.lastUpdateId else w.lastUpdate identity := by
  simp only [Call.perform, UserCall.perform, World.lastUpdate, Users.save, Table.find?_insert]
  by_cases h : user.identity = identity
  · simp [h]
  · simp [Ne.symm h]

/-- A call of a conversation with a user leaves the rows of others alone, and the update that the
own row names. -/
theorem lastUpdate_minds {c : Call} (hc : c.Minds user)
    (h : w.lastUpdate user.identity = user.base.lastUpdateId) :
    (c.perform i w).2.lastUpdate identity = w.lastUpdate identity := by
  by_cases hsave : ∃ stored, c = .users (.save stored)
  · obtain ⟨stored, rfl⟩ := hsave
    obtain ⟨hidentity, hlast⟩ : stored.identity = user.identity ∧
      stored.base.lastUpdateId = user.base.lastUpdateId := hc
    rw [lastUpdate_save, hidentity, hlast]
    by_cases hid : identity = user.identity
    · rw [if_pos hid, hid, h]
    · rw [if_neg hid]
  · exact lastUpdate_perform fun stored hstored => hsave ⟨stored, hstored⟩

end Calls

/-! ## What a conversation does with the row -/

/-- The row of the same user, naming the same update. -/
def User.Keeps (user user' : User) : Prop :=
  user'.identity = user.identity ∧ user'.base.lastUpdateId = user.base.lastUpdateId

namespace User.Keeps

variable {user user' user'' : User}

theorem refl (user : User) : user.Keeps user := ⟨rfl, rfl⟩

theorem trans (h : user.Keeps user') (h' : user'.Keeps user'') : user.Keeps user'' :=
  ⟨h'.1.trans h.1, h'.2.trans h.2⟩

theorem mapBase (h : user.Keeps user') {f : UserBase → UserBase}
    (hf : ∀ base, (f base).lastUpdateId = base.lastUpdateId) : user.Keeps (user'.mapBase f) := by
  refine h.trans ⟨User.identity_mapBase f user', ?_⟩
  rw [User.base_mapBase]
  exact hf user'.base

theorem inState (h : user.Keeps user') (state : String) : user.Keeps (user'.inState state) :=
  h.mapBase fun _ => rfl

theorem withContext (h : user.Keeps user') (context : DialogContext) :
    user.Keeps (user'.withContext context) :=
  h.mapBase fun _ => rfl

theorem clear (h : user.Keeps user') : user.Keeps user'.clear :=
  h.mapBase fun _ => rfl

theorem named (h : user.Keeps user') (fullName : String) : user.Keeps (user'.named fullName) :=
  h.mapBase fun _ => rfl

theorem withPass (h : user.Keeps user') (needsPass : Bool) (details : Option PassDetails) :
    user.Keeps (user'.withPass needsPass details) :=
  h.mapBase fun _ => rfl

/-- A dialog that minds the row as it has become minds the row as it was. -/
theorem minding {α : Type} (h : user.Keeps user') {Q Q' : α → Prop} {p : Act α}
    (hp : Minding user' Q p) (hQ : ∀ a, Q a → Q' a) : Minding user Q' p := by
  refine hp.mono (fun _ _ _ => trivial) (fun op hop => ?_) hQ
  cases op with
  | users c =>
    cases c with
    | save stored => exact h.trans hop
    | _ => trivial
  | _ => trivial

theorem turn (h : user.Keeps user') {p : Act Turn} (hp : Minding user' user'.Succeeds p) :
    Minding user user.Succeeds p :=
  h.minding hp fun _ hreply => h.trans hreply

end User.Keeps

section Conduct

variable {user user' : User} {message : InboundMessage} {text : String} {α : Type}

theorem minding_value {Q : α → Prop} {x : Except Fault α} (h : ∀ a, x = .ok a → Q a) :
    Minding user Q (value x) := by
  cases x with
  | ok a => exact h a rfl
  | error fault => trivial

theorem minding_present {Q : α → Prop} {name : String} {x : Option α} (h : ∀ a, Q a) :
    Minding user Q (present name x) := by
  cases x with
  | some a => exact h a
  | none => trivial

theorem minding_call (user : User) {c : Call} (hc : c.Minds user) : Minding user (fun _ => True) (one c) :=
  ⟨hc, fun _ _ => trivial⟩

theorem minding_lookup {context : DialogContext} {name : String} :
    Minding user (fun _ => True) (context.lookup name) := by
  unfold DialogContext.lookup
  split <;> trivial

theorem succeeds_ask (h : user.Keeps user') {state : String} {buttons : User → List Button} :
    user.Succeeds (ask user' state text buttons) :=
  h.inState state

theorem succeeds_contactPrompt (h : user.Keeps user') :
    user.Succeeds (profileContactPrompt user') := by
  cases user' <;> exact h.inState _

theorem succeeds_beginProfile (h : user.Keeps user') {editing : Bool} {eventId : Option EventId} :
    user.Succeeds (beginProfile user' editing eventId) :=
  succeeds_ask (h.withContext _)

theorem succeeds_editMenu (h : user.Keeps user') : user.Succeeds (profileEditMenu user') := h

variable (bot dialogs)

theorem minding_profileResponse (h : user.Keeps user') {heading : Option String} :
    Minding user user.Succeeds (profileResponse dialogs user' heading) := by
  refine Prog.Makes.bind (h.minding (dialogs.minds_role user') fun _ h => h) fun _ _ => ?_
  exact h

theorem minding_main (h : user.Keeps user') :
    Minding user user.Succeeds (mainMenuReply dialogs user' text) := by
  refine Prog.Makes.bind (h.minding (dialogs.minds_main user' text) fun _ h => h) fun _ _ => ?_
  exact h

theorem minding_resolvedVkId (profile : TelegramUser) (force : Bool) :
    Minding user (fun _ => True) (resolvedVkId dialogs profile force) := by
  unfold resolvedVkId
  split
  · split
    · trivial
    · split
      · trivial
      · split
        · exact Prog.Makes.bind (minding_call user trivial) fun _ _ => trivial
        · trivial
  · trivial

theorem minding_refreshTelegramLink (profile : TelegramUser) (force : Bool) :
    Minding user (fun refreshed => User.Keeps (.telegram profile) (.telegram refreshed))
      (refreshTelegramLink dialogs profile force) := by
  refine Prog.Makes.bind (minding_resolvedVkId dialogs profile force) fun linkedVkId _ => ?_
  exact Prog.Makes.bind (minding_call user trivial) fun _ _ => ⟨rfl, rfl⟩

theorem minding_refreshLink (h : user.Keeps user') (force : Bool) :
    Minding user user.Keeps (refreshLink dialogs user' force) := by
  cases user' with
  | telegram profile =>
    refine Prog.Makes.bind (minding_refreshTelegramLink dialogs profile force) fun _ hkeeps => ?_
    exact h.trans hkeeps
  | vk profile => exact h

theorem minding_publishProfile (h : user.Keeps user') {names : List String} :
    Minding user (fun _ => True) (publishProfile bot user' message names) := by
  refine Prog.Makes.bind (minding_call user (c := .users (.save user')) h) fun _ _ => ?_
  refine Prog.Makes.bind (minding_value fun _ _ => trivial) fun _ _ => ?_
  exact Prog.Makes.bind (minding_call user trivial) fun _ _ =>
    minding_present fun _ => trivial

theorem minding_completeProfileEdit (h : user.Keeps user') {previous : Option String} :
    Minding user user.Succeeds (completeProfileEdit bot dialogs user' message previous) := by
  refine Prog.Makes.bind (minding_refreshLink dialogs h false) fun refreshed hrefreshed => ?_
  refine Prog.Makes.bind (minding_publishProfile bot hrefreshed) fun _ _ => ?_
  exact minding_profileResponse dialogs hrefreshed.clear

theorem minding_text {context : DialogContext} {name : String} :
    Minding user (fun _ => True) (context.lookup name >>= fun value => pure value.str) :=
  Prog.Makes.bind minding_lookup fun _ _ => trivial

theorem minding_passDetails {context : DialogContext} :
    Minding user (fun _ => True) (passDetailsFromContext context) := by
  have latin (foreigner : Bool) (name : String) : Minding user (fun _ => True)
      (if foreigner then do return some (← (context.lookup name >>= fun value => pure value.str))
        else return none) := by
    split
    · exact Prog.Makes.bind minding_text fun _ _ => trivial
    · trivial
  refine Prog.Makes.bind minding_lookup fun foreigner _ => ?_
  iterate 3 refine Prog.Makes.bind minding_text fun _ _ => ?_
  iterate 3 refine Prog.Makes.bind (latin _ _) fun _ _ => ?_
  iterate 2 refine Prog.Makes.bind minding_text fun _ _ => ?_
  exact minding_value fun _ _ => trivial

theorem minding_requiredPass {needsPass : Bool} {context : DialogContext} :
    Minding user (fun _ => True) (requiredPass needsPass context) := by
  unfold requiredPass
  split
  · exact Prog.Makes.bind minding_passDetails fun _ _ => trivial
  · trivial

theorem minding_assigned (h : user.Keeps user') : Minding user user.Keeps (assigned bot user') := by
  refine minding_value fun stored hstored => ?_
  split at hstored
  · rwa [← Except.ok.inj hstored]
  · exact nomatch hstored

/-- A row that is assigned before the conversation goes on with it. -/
theorem minding_afterAssigned (h : user.Keeps user') {next : User → Act Turn}
    (hnext : ∀ stored, user.Keeps stored → Minding user user.Succeeds (next stored)) :
    Minding user user.Succeeds (assigned bot user' >>= next) :=
  (minding_assigned bot h).bind hnext

theorem minding_storeContact (h : user.Keeps user') {context : DialogContext} :
    Minding user user.Keeps (storeContact bot dialogs user' context) := by
  cases user' with
  | telegram profile =>
    refine Prog.Makes.bind minding_lookup fun contact _ => ?_
    have hcontact : user.Keeps (.telegram { profile with vkUrl := some contact.str }) := h
    refine Prog.Makes.bind (minding_assigned bot hcontact) fun stored hstored => ?_
    exact minding_refreshLink dialogs hstored true
  | vk profile => exact minding_assigned bot h

theorem minding_finishProfile (h : user.Keeps user') :
    Minding user user.Succeeds (finishProfile bot dialogs user' message) := by
  refine Prog.Makes.bind minding_lookup fun fullName _ => ?_
  refine Prog.Makes.bind minding_lookup fun crossplay _ => ?_
  refine Prog.Makes.bind minding_lookup fun needsPass _ => ?_
  have hnamed : user.Keeps ((user'.named fullName.str).mapBase fun base =>
      { base with crossplay := some crossplay.truth }) := (h.named _).mapBase fun _ => rfl
  refine minding_afterAssigned bot hnamed fun named hnamed => ?_
  refine Prog.Makes.bind minding_requiredPass fun details _ => ?_
  refine minding_afterAssigned bot (hnamed.withPass _ details) fun passed hpassed => ?_
  refine Prog.Makes.bind (minding_storeContact bot dialogs hpassed) fun stored hstored => ?_
  refine Prog.Makes.bind (minding_publishProfile bot hstored) fun _ _ => ?_
  split
  · exact minding_profileResponse dialogs hstored.clear
  · split
    · refine Prog.Makes.bind (hstored.clear.turn (dialogs.minds_select _ _ _)) fun _ hreply => ?_
      exact hreply
    · exact hstored.clear

theorem minding_patronymsDiffer {context : DialogContext} {parts : String × String × Option String} :
    Minding user (fun _ => True) (patronymsDiffer context parts) :=
  Prog.Makes.bind minding_lookup fun _ _ => trivial

theorem minding_questionnaireStep (h : user.Keeps user') :
    Minding user user.Succeeds (questionnaireStep bot dialogs user' message text) := by
  unfold questionnaireStep
  dsimp only
  split
  · split
    · exact h
    · exact succeeds_ask (h.withContext _)
  · split
    · exact h
    · show user.Succeeds _
      split
      · exact succeeds_ask (h.withContext _)
      · exact succeeds_contactPrompt (h.withContext _)
  · split
    · split
      · exact h
      · exact succeeds_ask (h.withContext _)
    · split
      · exact succeeds_ask (h.withContext _)
      · split
        · exact h
        · exact succeeds_ask (h.withContext _)
  · split
    · exact h
    · exact minding_finishProfile bot dialogs (h.withContext _)
  · split
    · exact h
    · show user.Succeeds _
      split
      · exact succeeds_ask (h.withContext _)
      · exact succeeds_ask (h.withContext _)
  · split
    · exact h
    · refine Prog.Makes.bind minding_patronymsDiffer fun differ _ => ?_
      split
      · exact h
      · exact succeeds_ask (h.withContext _)
  · split
    · exact h
    · exact succeeds_ask (h.withContext _)
  · split
    · exact h
    · exact succeeds_contactPrompt (h.withContext _)
  · trivial

theorem minding_storedDetails {Q : PassDetails → Prop} (h : ∀ details, Q details) :
    Minding user Q (storedDetails user') := by
  unfold storedDetails
  split
  · exact h _
  · trivial

theorem minding_amendDetails (h : user.Keeps user') {details : PassDetails} :
    Minding user user.Keeps (amendDetails bot user' details) :=
  Prog.Makes.bind (Q := fun _ => True) (minding_value fun _ _ => trivial) fun _ _ =>
    minding_assigned bot (h.mapBase fun _ => rfl)

/-- An amendment of the questionnaire that completes the edit. -/
theorem minding_amended (h : user.Keeps user') {details : PassDetails} {next : User → Act Turn}
    (hnext : ∀ amended, user.Keeps amended → Minding user user.Succeeds (next amended)) :
    Minding user user.Succeeds (amendDetails bot user' details >>= next) :=
  (minding_amendDetails bot h).bind hnext

theorem minding_nameFieldStep (h : user.Keeps user') {parts : String × String × Option String} :
    Minding user user.Succeeds (nameFieldStep bot dialogs user' message text parts) := by
  unfold nameFieldStep
  dsimp only
  split
  · exact minding_afterAssigned bot ((h.withContext _).named _) fun _ hstored =>
      minding_completeProfileEdit bot dialogs hstored
  · split
    · exact succeeds_ask (h.withContext _)
    · refine minding_amended bot (h.withContext _) fun amended hamended => ?_
      exact minding_afterAssigned bot (hamended.named _) fun _ hstored =>
        minding_completeProfileEdit bot dialogs hstored

theorem minding_contactFieldStep (h : user.Keeps user') :
    Minding user user.Succeeds (contactFieldStep bot dialogs user' message text) := by
  unfold contactFieldStep
  split
  · next profile =>
    split
    · exact h
    · next url _ =>
      have hcontact : user.Keeps (.telegram { profile with vkUrl := some url }) := h
      refine minding_afterAssigned bot hcontact fun stored hstored => ?_
      refine Prog.Makes.bind (minding_refreshLink dialogs hstored true) fun _ hrefreshed => ?_
      exact minding_completeProfileEdit bot dialogs hrefreshed
  · next profile =>
    have hcontact (handle : Option String) :
        user.Keeps (.vk { profile with telegramHandle := handle }) := h
    split
    · exact minding_afterAssigned bot (hcontact none) fun _ hstored =>
        minding_completeProfileEdit bot dialogs hstored
    · split
      · exact h
      · exact minding_afterAssigned bot (hcontact _) fun _ hstored =>
          minding_completeProfileEdit bot dialogs hstored

theorem minding_citizenshipFieldStep (h : user.Keeps user') {foreigner : Bool} :
    Minding user user.Succeeds (citizenshipFieldStep bot dialogs user' message foreigner) := by
  refine (minding_storedDetails fun _ => trivial).bind fun details (_ : True) => ?_
  split
  · exact succeeds_ask h
  · exact minding_amended bot h fun _ hamended => minding_completeProfileEdit bot dialogs hamended

theorem minding_latinFieldStep (h : user.Keeps user') {field : String}
    {parts : String × String × Option String} :
    Minding user user.Succeeds (latinFieldStep bot dialogs user' message field parts) := by
  refine (minding_storedDetails fun _ => trivial).bind fun details (_ : True) => ?_
  iterate 3 refine Prog.Makes.bind minding_lookup fun _ _ => ?_
  refine minding_amended bot h fun amended hamended => ?_
  split
  · refine Prog.Makes.bind minding_lookup fun fullName _ => ?_
    exact minding_afterAssigned bot (hamended.named _) fun _ hstored =>
      minding_completeProfileEdit bot dialogs hstored
  · exact minding_completeProfileEdit bot dialogs hamended

theorem minding_profileFieldStep (h : user.Keeps user') :
    Minding user user.Succeeds (profileFieldStep bot dialogs user' message text) := by
  refine Prog.Makes.bind minding_lookup fun field _ => ?_
  have hcomplete {edited : User} {previous : Option String} (hedited : user.Keeps edited) :
      Minding user user.Succeeds (completeProfileEdit bot dialogs edited message previous) :=
    minding_completeProfileEdit bot dialogs hedited
  have hassigned {edited : User} {previous : Option String} (hedited : user.Keeps edited) :
      Minding user user.Succeeds (assigned bot edited >>= fun stored =>
        completeProfileEdit bot dialogs stored message previous) :=
    minding_afterAssigned bot hedited fun _ hstored => hcomplete hstored
  split
  · dsimp only
    split
    · exact hassigned (h.mapBase fun _ => rfl)
    · split
      · exact hassigned (h.mapBase fun _ => rfl)
      · exact h
  · split
    · exact h
    · exact minding_nameFieldStep bot dialogs h
  · exact minding_contactFieldStep bot dialogs h
  · split
    · exact h
    · exact hassigned (h.mapBase fun _ => rfl)
  · split
    · exact h
    · split
      · exact hassigned (h.withPass _ _)
      · split
        · exact hcomplete h
        · exact succeeds_ask h
  · split
    · exact h
    · dsimp only
      split
      · show user.Succeeds _
        split
        · exact succeeds_ask (h.withContext _)
        · exact succeeds_ask (h.withContext _)
      · exact minding_citizenshipFieldStep bot dialogs (h.withContext _)
  · split
    · exact h
    · refine Prog.Makes.bind minding_patronymsDiffer fun differ _ => ?_
      split
      · exact h
      · split
        · exact succeeds_ask (h.withContext _)
        · exact minding_latinFieldStep bot dialogs (h.withContext _)
  · split
    · exact h
    · dsimp only
      split
      · exact succeeds_ask (h.withContext _)
      · refine (minding_storedDetails fun _ => trivial).bind fun details (_ : True) => ?_
        exact minding_amended bot (h.withContext _) fun _ hamended => hcomplete hamended
  · split
    · exact h
    · dsimp only
      split
      · refine Prog.Makes.bind minding_passDetails fun details _ => ?_
        exact hassigned ((h.withContext _).withPass _ _)
      · refine (minding_storedDetails fun _ => trivial).bind fun details (_ : True) => ?_
        exact minding_amended bot (h.withContext _) fun _ hamended => hcomplete hamended
  · trivial

theorem minding_profileStep (h : user.Keeps user') :
    Minding user user.Succeeds (profileStep bot dialogs user' message text) := by
  have hbegin : user.Keeps (beginProfile user').1 := succeeds_beginProfile h
  unfold profileStep
  dsimp only
  split
  · exact hbegin
  · split
    · exact minding_profileFieldStep bot dialogs h
    · exact minding_questionnaireStep bot dialogs h

theorem minding_beginProfileField (h : user.Keeps user') {field : String} :
    Minding user user.Succeeds (beginProfileField user' field) := by
  refine Prog.Makes.bind (Q := fun _ => True) (minding_value fun _ _ => trivial) fun context _ => ?_
  have hcontext := h.withContext context
  dsimp only
  split
  · exact succeeds_ask hcontext
  · exact succeeds_ask hcontext
  · exact succeeds_contactPrompt hcontext
  · exact succeeds_ask hcontext
  · exact succeeds_ask hcontext
  · exact succeeds_ask hcontext
  · exact succeeds_ask hcontext
  · exact succeeds_ask hcontext
  · show user.Succeeds _
    split
    · exact succeeds_ask hcontext
    · exact succeeds_editMenu hcontext
  · exact succeeds_editMenu hcontext

theorem minding_startIdle (h : user.Keeps user') :
    Minding user user.Succeeds (startIdle dialogs user' message text) := by
  unfold startIdle
  split
  · split
    · exact minding_profileResponse dialogs h
    · exact succeeds_beginProfile h
  · split
    · show user.Succeeds _
      split
      · exact succeeds_editMenu h
      · exact succeeds_beginProfile h
    · split
      · exact succeeds_beginProfile h
      · split
        · split
          · exact minding_beginProfileField h
          · exact succeeds_beginProfile h
        · exact h.turn (dialogs.minds_start _ _ _)

theorem minding_signupEvent {token : Option String} :
    Minding user (fun _ => True) (signupEvent token) := by
  cases token with
  | none => trivial
  | some token =>
    refine Prog.Makes.bind (minding_call user trivial) fun _ _ => ?_
    exact Prog.Makes.bind (Q := fun _ => True) (minding_value fun _ _ => trivial) fun _ _ => trivial

theorem minding_startGameSignup (h : user.Keeps user') {event : Event} :
    Minding user user.Succeeds (startGameSignup dialogs user' message event) := by
  unfold startGameSignup
  refine Prog.Makes.bind (minding_call user (c := .outside .now) trivial) fun now _ => ?_
  split
  · exact h.turn (dialogs.minds_select _ _ _)
  · split
    · trivial
    · exact minding_main dialogs h

theorem minding_startOver (h : user.Keeps user') {token : Option String} :
    Minding user user.Succeeds (startOver dialogs user' message token) := by
  have hbegin (eventId : Option EventId) :
      user.Keeps (beginProfile user'.clear false eventId).1 := succeeds_beginProfile h.clear
  refine Prog.Makes.bind minding_signupEvent fun event _ => ?_
  split
  · have hkeeps := hbegin (event.map Event.eventId)
    generalize beginProfile user'.clear false (event.map Event.eventId) = reply at hkeeps ⊢
    exact hkeeps
  · split
    · exact minding_startGameSignup dialogs h.clear
    · exact minding_main dialogs h.clear

theorem minding_route (h : user.Keeps user') :
    Minding user user.Succeeds (route bot dialogs user' message text) := by
  unfold route
  split
  · exact h
  · split
    · exact minding_main dialogs h.clear
    · split
      · unfold cancelCurrent
        split
        · exact minding_profileResponse dialogs h.clear
        · exact minding_main dialogs h.clear
      · split
        · exact h.clear.turn (dialogs.minds_moderators _)
        · split
          · exact h.clear.turn (dialogs.minds_admin _)
          · split
            · exact h.clear.turn (dialogs.minds_game _ _ _)
            · split
              · unfold continueState
                split
                · exact minding_profileStep bot dialogs h
                · exact h.turn (dialogs.minds_continue _ _ _)
              · exact minding_startIdle dialogs h

theorem minding_withButtons {isAdmin : Bool} {reply : Turn} (h : user.Succeeds reply) :
    Minding user user.Succeeds (withButtons dialogs isAdmin reply) := by
  have hkeeps : user.Keeps reply.1 := h
  have hway : Minding user (fun _ => True) (withWayBack dialogs isAdmin reply.1 reply.2) := by
    unfold withWayBack
    split
    · split
      · exact Prog.Makes.bind (hkeeps.minding (dialogs.minds_access reply.1) fun _ h => h)
          fun _ _ => trivial
      · trivial
    · trivial
  refine Prog.Makes.bind hway fun response _ => ?_
  have hbuttons : user.Keeps (reply.1.mapBase fun base =>
      { base with lastBotButtons := response.buttons }) := hkeeps.mapBase fun _ => rfl
  exact hbuttons

theorem minding_answerMessage (h : user.Keeps user') :
    Minding user user.Succeeds (answerMessage bot dialogs user' message) := by
  unfold answerMessage
  dsimp only
  split
  · exact (minding_startOver dialogs h).bind fun _ hreply => minding_withButtons dialogs hreply
  · split
    · exact h
    · exact (minding_route bot dialogs h).bind fun _ hreply => minding_withButtons dialogs hreply

theorem minding_refreshHandle :
    Minding user user.Keeps (refreshHandle bot dialogs user message) := by
  cases user with
  | vk profile => exact User.Keeps.refl _
  | telegram profile =>
    refine Prog.Makes.bind (Q := fun _ => True) (minding_value fun _ _ => trivial) fun handle _ => ?_
    have hrenamed : User.Keeps (.telegram profile)
        (.telegram { profile with telegramHandle := handle }) := ⟨rfl, rfl⟩
    split
    · refine Prog.Makes.bind (minding_refreshTelegramLink dialogs _ false) fun refreshed h => ?_
      exact hrenamed.trans h
    · exact hrenamed

/-- The handling of an update stores no row but its user's, and keeps the update that this row names
until the end; the row that it ends with names the new one. -/
theorem minding_settle : Minding user (fun reply : Turn => reply.1.identity = user.identity ∧
    reply.1.base.lastUpdateId = some message.updateId) (settle bot dialogs user message) := by
  refine Prog.Makes.bind (minding_refreshHandle bot dialogs) fun refreshed hrefreshed => ?_
  refine (minding_answerMessage bot dialogs hrefreshed).bind fun reply hreply => ?_
  refine Prog.Makes.bind (minding_call user (c := .outside .now) trivial) fun now _ => ?_
  have hidentity : (reply.1.handled message.updateId now).identity = reply.1.identity :=
    User.identity_mapBase _ _
  have hnamed : (reply.1.handled message.updateId now).base.lastUpdateId = some message.updateId := by
    rw [User.handled, User.base_mapBase]
  exact ⟨hidentity.trans hreply.1, hnamed⟩

end Conduct

/-! ## Runs -/

section Runs

variable [DecidableEq G] {message : InboundMessage} {w w' : World}

/-- What is left of the handling of an update, and what the row of its user names meanwhile. -/
inductive Stage (bot : Deployment) (dialogs : Dialogs) (message : InboundMessage) (w : World) :
    Act BotResponse → Prop
  | fresh : Stage bot dialogs message w (handle bot dialogs message)
  | talking {user : User} {p : Act Turn} (hidentity : user.identity = message.identity)
      (hnew : user.base.lastUpdateId ≠ some message.updateId)
      (hlast : w.lastUpdate user.identity = user.base.lastUpdateId)
      (hp : Minding user (fun reply : Turn => reply.1.identity = user.identity ∧
        reply.1.base.lastUpdateId = some message.updateId) p) :
      Stage bot dialogs message w (p.bind storeReply)
  | answered (response : BotResponse) : Stage bot dialogs message w (.done response)
  | failed (failure : Failure) : Stage bot dialogs message w (.fail failure)

/-- The others leave what the row names alone. -/
theorem Stage.still {p : Act BotResponse} (h : Stage bot dialogs message w p)
    (hw : w'.lastUpdate message.identity = w.lastUpdate message.identity) :
    Stage bot dialogs message w' p := by
  cases h with
  | fresh => exact .fresh
  | talking hidentity hnew hlast hp =>
    refine .talking hidentity hnew ?_ hp
    rw [hidentity] at hlast ⊢
    exact hw.trans hlast
  | answered response => exact .answered response
  | failed failure => exact .failed failure

/-- What a call of an attempt does: it leaves the world alone and the update unhandled, or it keeps
to the row of a user who has not had this update handled, or it completes the handling. -/
inductive Conducts (message : InboundMessage) (w : World) : Call → Prop
  | reads {platform : Platform} {userId : Nat} : Conducts message w (.users (.get platform userId))
  | minds {user : User} {c : Call} (hidentity : user.identity = message.identity)
      (hnew : user.base.lastUpdateId ≠ some message.updateId)
      (hlast : w.lastUpdate user.identity = user.base.lastUpdateId) (hc : c.Minds user) :
      Conducts message w c
  | stores {user : User} (hidentity : user.identity = message.identity)
      (hnew : w.lastUpdate message.identity ≠ some message.updateId)
      (hnamed : user.base.lastUpdateId = some message.updateId) :
      Conducts message w (.users (.save user))

/-- The row that an attempt has read: the update is dropped, or its handling begins. -/
theorem stage_handleFor {user : User} (hidentity : user.identity = message.identity)
    (hlast : w.lastUpdate user.identity = user.base.lastUpdateId) :
    Stage bot dialogs message w (handleFor bot dialogs user message) := by
  unfold handleFor
  split
  · exact .answered _
  · next hnew => exact .talking hidentity hnew hlast (minding_settle bot dialogs)

theorem new_of_ok {platform : Platform} {userId : Nat} {user : User}
    (h : User.new platform userId = .ok user) :
    user.identity = ⟨platform, userId⟩ ∧ user.base.lastUpdateId = none := by
  cases platform <;> cases h <;> exact ⟨rfl, rfl⟩

theorem stage_read {stored : Option User} (hstored : w.users.find? message.identity = stored) :
    Stage bot dialogs message w ((storedOrNew message.identity stored).bind fun user =>
      handleFor bot dialogs user message) := by
  cases stored with
  | some user =>
    have hidentity : user.identity = message.identity := Table.key_of_find? hstored
    refine stage_handleFor hidentity ?_
    rw [World.lastUpdate, hidentity, hstored]
    rfl
  | none =>
    cases hnew : User.new message.identity.platform message.identity.platformUserId with
    | error fault =>
      simp only [storedOrNew, hnew]
      exact .failed _
    | ok user =>
      obtain ⟨hidentity, hlast⟩ := new_of_ok hnew
      simp only [storedOrNew, hnew]
      refine stage_handleFor hidentity ?_
      rw [World.lastUpdate, hidentity, hlast]
      exact congrArg (Option.bind · _) hstored

/-- A call of an attempt: what it does, and what is left after it. -/
theorem Stage.own {c : Call} {next : c.Ans → Act BotResponse} {p : Act BotResponse}
    (h : Stage bot dialogs message w p) (hp : p = .call c next) (i : Input) :
    Conducts message w c ∧
      Stage bot dialogs message (c.perform i w).2 (next (c.perform i w).1) := by
  cases h with
  | fresh =>
    cases hp
    exact ⟨.reads, stage_read rfl⟩
  | @talking user q hidentity hnew hlast hq =>
    cases q with
    | done reply =>
      cases hp
      refine ⟨.stores (hq.1.trans hidentity) ?_ hq.2, .answered _⟩
      rw [← hidentity, hlast]
      exact hnew
    | fail failure => exact nomatch hp
    | call c' next' =>
      cases hp
      refine ⟨.minds hidentity hnew hlast hq.1, .talking hidentity hnew ?_ (hq.2 _ trivial)⟩
      exact (lastUpdate_minds hq.1 hlast).trans hlast
  | answered response => exact nomatch hp
  | failed failure => exact nomatch hp

/-- The call of an attempt changes no row but that of its user. -/
theorem Conducts.other {c : Call} (h : Conducts message w c) {identity : BotIdentity}
    (hother : identity ≠ message.identity) (i : Input) :
    (c.perform i w).2.lastUpdate identity = w.lastUpdate identity := by
  cases h with
  | reads => rfl
  | minds hidentity hnew hlast hc => exact lastUpdate_minds hc hlast
  | stores hidentity hnew hnamed =>
    rw [lastUpdate_save, if_neg (hidentity ▸ hother)]

variable {s₀ s : Gateway G}

omit [DecidableEq G] in
theorem mem_underWay {g : G} {arrival : Arrival G} {p : Act BotResponse}
    (h : s.Working g arrival p) : arrival ∈ underWay (s.lanes g) := by
  obtain ⟨rest, hlane⟩ := h
  rw [hlane]
  exact Option.mem_some_self arrival

omit [DecidableEq G] in
/-- The rest of the world leaves the updates that the rows name alone, whoever has a row. -/
theorem lastUpdate_outside {w : World} (h : Timely s (.outside w)) (identity : BotIdentity) :
    w.lastUpdate identity = s.world.lastUpdate identity := by
  cases hold : s.world.users.find? identity with
  | some user =>
    have hkey := h user (List.mem_append_left _ (Table.mem_of_find? hold))
    rwa [Table.key_of_find? hold] at hkey
  | none =>
    cases hnew : w.users.find? identity with
    | some user =>
      have hkey := h user (List.mem_append_right _ (Table.mem_of_find? hnew))
      rwa [Table.key_of_find? hnew] at hkey
    | none => rw [World.lastUpdate, World.lastUpdate, hold, hnew]

/-- Every attempt under way is at a stage of the handling of its update. -/
theorem stages (hs : Fleet.Reaches (arrivals G bot dialogs) storage Timely s₀ s) (hidle : s₀.Idle) :
    ∀ g arrival p, s.Working g arrival p → Stage bot dialogs arrival.message s.world p := by
  refine hs.attempt_rule (fun _ => True)
    (fun arrival p w => Stage bot dialogs arrival.message w p) hidle (fun _ _ => trivial) ?_ ?_ ?_ ?_
  · exact fun _ _ _ => .fresh
  · exact fun _ _ i _ _ _ _ _ _ hstage => (hstage.own rfl i).2
  · intro s g i arrival c next g' other p _ htimely hcalls hstage hg hworking hknown
    have hapart := (htimely arrival (mem_underWay hcalls)).1 g' hg.symm other (mem_underWay hworking)
    exact hknown.still ((hstage.own rfl i).1.other hapart i)
  · exact fun s w g arrival p _ htimely _ hknown => hknown.still (lastUpdate_outside htimely _)

/-- The row of each user names the last update that was handled. -/
def Names (s : Gateway G) : Prop :=
  ∀ identity id, lastHandled s.history identity = some id → s.world.lastUpdate identity = some id

omit [DecidableEq G] in
theorem lastHandled_of_none {record : Record ports BotResponse (Arrival G) World}
    {history : Visits G} (h : completes record = none) (identity : BotIdentity) :
    lastHandled (record :: history) identity = lastHandled history identity := by
  rw [lastHandled, handledUpdates, List.filterMap_cons_none h]
  rfl

omit [DecidableEq G] in
theorem lastHandled_of_some {record : Record ports BotResponse (Arrival G) World}
    {history : Visits G} {owner : BotIdentity} {id : String} (h : completes record = some (owner, id))
    (identity : BotIdentity) :
    lastHandled (record :: history) identity =
      if owner = identity then some id else lastHandled history identity := by
  rw [lastHandled, handledUpdates, List.filterMap_cons_some h, List.find?_cons]
  by_cases howner : owner = identity
  · simp [howner]
  · simp [howner, lastHandled, handledUpdates]

omit [DecidableEq G] in
/-- One call of an attempt: the rows go on naming the last updates, and if the update had been
handled before, the call changes nothing. -/
theorem names_call {arrival : Arrival G} {c : Call} {i : Input} (hnames : Names s)
    (hconducts : Conducts arrival.message s.world c)
    (htimely : Handled s.history arrival.message →
      lastHandled s.history arrival.message.identity = some arrival.message.updateId) :
    let record := .called arrival c s.world (c.perform i s.world).1 (c.perform i s.world).2
    (∀ identity id, lastHandled (record :: s.history) identity = some id →
      (c.perform i s.world).2.lastUpdate identity = some id) ∧ Ignored record s.history := by
  have hnamed (hhandled : Handled s.history arrival.message) :
      s.world.lastUpdate arrival.message.identity = some arrival.message.updateId :=
    hnames _ _ (htimely hhandled)
  cases hconducts with
  | reads =>
    refine ⟨fun identity id hlast => ?_, fun _ => rfl⟩
    rw [lastHandled_of_none rfl] at hlast
    exact hnames identity id hlast
  | @minds user c hidentity hnew hlast hc =>
    refine ⟨fun identity id hid => ?_, fun hhandled => ?_⟩
    · rw [lastUpdate_minds hc hlast]
      rw [lastHandled_of_none] at hid
      · exact hnames identity id hid
      · cases c with
        | users c =>
          cases c with
          | save stored => exact if_neg fun h => hnew (hc.2.symm.trans h)
          | _ => rfl
        | _ => rfl
    · refine absurd ?_ hnew
      rw [← hlast, hidentity]
      exact hnamed hhandled
  | @stores user hidentity hnew hsaved =>
    refine ⟨fun identity id hid => ?_, fun hhandled => absurd (hnamed hhandled) hnew⟩
    have hcompletes (answer) (before after) : completes (.called arrival (.users (.save user))
        before answer after : Record ports BotResponse (Arrival G) World) =
          some (arrival.message.identity, arrival.message.updateId) := if_pos hsaved
    rw [lastHandled_of_some (hcompletes _ _ _)] at hid
    rw [lastUpdate_save, hidentity]
    split at hid
    · next howner => rw [if_pos howner.symm, hsaved, hid]
    · next howner =>
      rw [if_neg (Ne.symm howner)]
      exact hnames identity id hid

/-- In every run in which an update that has been handled comes again only while it is the last one
of its user, an update that comes again changes nothing. -/
theorem redelivered_update_ignored
    (hs : Fleet.Reaches (arrivals G bot dialogs) storage Timely s₀ s) (hidle : s₀.Idle)
    (hhistory : s₀.history = []) : Along Ignored s.history := by
  suffices Names s ∧ Along Ignored s.history from this.2
  induction hs with
  | refl =>
    rw [Names, hhistory]
    exact ⟨fun _ _ h => (nomatch h), trivial⟩
  | @step s l hs hl ih =>
    obtain ⟨hnames, hpast⟩ := ih
    cases l with
    | publish arrival => exact ⟨hnames, hpast⟩
    | outside w =>
      refine ⟨fun identity id hlast => ?_, hpast⟩
      exact (lastUpdate_outside hl identity).trans (hnames identity id hlast)
    | start g => rw [Fleet.step]; split <;> exact ⟨hnames, hpast⟩
    | call g i =>
      rw [Fleet.step]
      split
      · next arrival c next rest hlane =>
        have hworking : s.Working g arrival (.call c next) := ⟨rest, hlane⟩
        have hstage := stages hs hidle g arrival _ hworking
        obtain ⟨hnamed, hignored⟩ := names_call (i := i) hnames (hstage.own rfl i).1
          (hl arrival (mem_underWay hworking)).2
        exact ⟨hnamed, hignored, hpast⟩
      · exact ⟨hnames, hpast⟩
    | finish g =>
      rw [Fleet.step]
      split
      · exact ⟨hnames, trivial, hpast⟩
      · exact ⟨hnames, hpast⟩
    | abandon g => rw [Fleet.step]; split <;> exact ⟨hnames, hpast⟩

end Runs

/-! ## An answer that is taken again -/

section Sample

/-- The other dialogs answer nothing and change nothing. -/
def idleDialogs : Dialogs where
  resolvesVkUsers := false
  main _ text := return { text := text, buttons := [⟨profileLabel, profileLabel⟩] }
  hasAdminAccess _ := return false
  userRoleLabel _ := return "Игрок"
  selectEvent user _ _ := return (user, { text := "" })
  adminMenu user := return (user, { text := "" })
  moderatorManagementMenu user := return (user, { text := "" })
  adminGameAction user _ _ := return (user, { text := "" })
  continueDialog user _ _ := return (user, { text := "" })
  startCommand user _ _ := return (user, { text := "" })
  minds_main _ _ := trivial
  minds_access _ := trivial
  minds_role _ := trivial
  minds_select user _ _ := User.Keeps.refl user
  minds_admin user := User.Keeps.refl user
  minds_moderators user := User.Keeps.refl user
  minds_game user _ _ := User.Keeps.refl user
  minds_continue user _ _ := User.Keeps.refl user
  minds_start user _ _ := User.Keeps.refl user

/-- A player with a complete profile and no nickname. -/
def renamingPlayer : User :=
  .vk { vkId := 7, fullName := some "Иванов Иван", crossplay := some false, needsPass := some false }

def renamingWorld : World where
  users := Users.save Table.empty renamingPlayer

def renamingMessage (updateId text : String) (callback : Option String := none) :
    InboundMessage where
  identity := ⟨.vk, 7⟩
  updateId := updateId
  text := text
  callback := callback

def nameField : InboundMessage := renamingMessage "1" "ФИО" (some "profile:field:name")
def newName : InboundMessage := renamingMessage "2" "Новиков Новый"
def nicknameField : InboundMessage := renamingMessage "3" "Никнейм" (some "profile:field:nickname")

/-- A delivery that completes, after those before it. -/
def delivered (message : InboundMessage) : List (Label (Arrival Unit) Unit Input World) :=
  .publish ⟨(), message⟩ :: Fleet.attempt () 8 (answering fun _ _ => .accepted) (.finish ())

def visits (messages : List InboundMessage) : Gateway Unit :=
  Fleet.play (arrivals Unit sampleBot idleDialogs) storage { world := renamingWorld }
    (messages.flatMap delivered)

instance {s : Gateway Unit} : (l : Label (Arrival Unit) Unit Input World) → Decidable (Timely s l)
  | .call g _ =>
    decidable_of_iff (∀ arrival ∈ underWay (s.lanes g), Handled s.history arrival.message →
        lastHandled s.history arrival.message.identity = some arrival.message.updateId)
      ⟨fun h arrival harrival => ⟨fun _ hother => absurd rfl hother, h arrival harrival⟩,
        fun h arrival harrival => (h arrival harrival).2⟩
  | .outside w => inferInstanceAs (Decidable (∀ user ∈ s.world.users.rows ++ w.users.rows,
      w.lastUpdate user.identity = s.world.lastUpdate user.identity))
  | .publish _ | .start _ | .finish _ | .abandon _ => .isTrue trivial

theorem visits_reached : Fleet.Reaches (arrivals Unit sampleBot idleDialogs) storage Timely
    { world := renamingWorld } (visits [nameField, newName, newName]) :=
  Fleet.Reaches.refl.play_meets (by decide +kernel)

/-- The name comes a second time right after the first. -/
theorem second_name_ignored : Along Ignored (visits [nameField, newName, newName]).history := by
  have hreached := visits_reached
  generalize visits [nameField, newName, newName] = s at hreached ⊢
  exact redelivered_update_ignored hreached (fun _ => rfl) rfl

/-- The name comes a second time after the question for the nickname, and becomes the nickname. -/
theorem name_taken_for_nickname : ∃ s₀ s : Gateway Unit, s₀.Idle ∧ s₀.history = [] ∧
    Fleet.Reaches (arrivals Unit sampleBot idleDialogs) storage (fun _ l => ∀ w, l ≠ .outside w) s₀ s ∧
    (∃ before, Fleet.play (arrivals Unit sampleBot idleDialogs) storage before
        (delivered newName) = s ∧ Handled before.history newName ∧
      (before.world.users.get .vk 7).map (·.base.nickname) = some none ∧
      (s.world.users.get .vk 7).map (·.base.nickname) = some (some "Новиков Новый")) := by
  refine ⟨{ world := renamingWorld }, visits [nameField, newName, nicknameField, newName],
    fun _ => rfl, rfl, Fleet.Reaches.refl.play ?_, visits [nameField, newName, nicknameField],
    rfl, ?_, ?_, ?_⟩
  · intro _ l hl w hw
    subst hw
    simp [delivered, Fleet.attempt] at hl
  · decide +kernel
  · decide +kernel
  · decide +kernel

end Sample

end LarpBot
