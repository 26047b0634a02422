import LarpBot.Application.GameClosings
import LarpBot.Laws.Maintenance
import LarpBot.Laws.Notices

/-!
# The calls of the statistics

The statistics keep tables and profiles current: besides maintenance they carry profiles to the
registrations, grant experience, and publish the profile projections that follow. They send nothing,
and they touch no field of an event but its tables.
-/

namespace LarpBot

open Atomic Act
open Prog (Makes)

variable (bot : Deployment) {command : OrderedRegistrationCommand}

/-- The calls that statistics and profile projections make. -/
def Call.IsQuiet (c : Call) : Prop :=
  match c with
  | .users _ => True
  | .events (.setPassTable _ _) => True
  | .registrations (.updateProfile _ _ _ _) => True
  | .outside (.publish command) => command.operation = .updateProfile
  | c => c.IsMaintenance anyWorkbook

abbrev quiet {α : Type} (Q : α → Prop) (p : Act α) : Prop :=
  makes anyWorkbook Call.IsQuiet Q p

variable {α : Type} {Q : α → Prop} {p : Act α}

theorem Call.IsMaintenance.isQuiet {c : Call} (hc : c.IsMaintenance anyWorkbook) : c.IsQuiet := by
  cases c with
  | users c => trivial
  | events c => cases c <;> trivial
  | registrations c => cases c <;> trivial
  | outside c => cases c <;> first | exact hc | exact hc.elim
  | _ => exact hc

theorem quiet_of_maintenance (hp : makes anyWorkbook (Call.IsMaintenance anyWorkbook) Q p) :
    quiet Q p :=
  makes_mono hp fun _ => Call.IsMaintenance.isQuiet

theorem quiet_of_reads (hp : makes anyWorkbook Call.IsRead Q p) : quiet Q p :=
  quiet_of_maintenance (maintenance_of_reads hp)

theorem quiet_rejectIf (c : Bool) (text : String) : quiet (fun _ => c = false) (rejectIf c text) := by
  cases c
  · exact rfl
  · trivial

theorem quiet_answered (e : Except Failure α) : quiet (fun a => e = .ok a) (answered e) := by
  cases e
  · trivial
  · exact rfl

theorem quiet_inTaskGroup (hp : quiet Q p) : quiet Q (inTaskGroup p) :=
  Makes.catching hp fun _ => trivial

theorem quiet_ensureMigrated (event : Event) :
    quiet ((anyWorkbook : Legal).Follows event) (ensureMigrated bot event) :=
  quiet_of_maintenance (maintenance_ensureMigrated bot trivial)

/-! ## Profile projections -/

theorem quiet_storedEvent (eventId : EventId) :
    quiet (fun event => event.eventId = eventId) (storedEvent eventId) := by
  refine makes_call trivial fun answer hanswer => ?_
  cases answer with
  | none => trivial
  | some event => exact (hanswer event rfl).1

theorem quiet_enqueueProfileUpdate (eventId : EventId) (identity : BotIdentity) (key : String) :
    quiet (fun _ => True) (enqueueProfileUpdate bot eventId identity key) := by
  refine (quiet_storedEvent eventId).bind fun _ _ => ?_
  dsimp only
  split
  · exact makes_call (c := .outside (.publish _)) rfl fun _ _ => makes_any (makes_present _ _)
  · trivial

theorem quiet_participationFor (identities : List BotIdentity) (event : Event) :
    quiet (fun _ => True) (participationFor bot identities event) := by
  refine (quiet_ensureMigrated bot event).bind fun _ _ => ?_
  refine Makes.bind (Makes.traverse (R := fun _ => True) fun _ _ => ?_) fun _ _ => ?_
  · exact makes_any (makes_one trivial)
  · exact makes_call trivial fun _ _ => trivial

theorem quiet_enqueueProfileUpdates (platform : Platform) (userId : Nat) (key : String)
    (excluded : List EventId) :
    quiet (fun _ => True) (enqueueProfileUpdates bot platform userId key excluded) := by
  refine (quiet_of_reads (reads_identitiesForLocalUser platform userId)).bind fun identities _ => ?_
  refine Makes.bind (makes_scanPages (R := fun _ => True) (fun _ => trivial) (fun page _ => ?_) _ _)
    fun _ _ => trivial
  refine Makes.bind (Makes.traverse (R := fun _ => True) fun event _ =>
    quiet_participationFor bot identities event) fun participations _ => ?_
  refine Makes.bind (Q := fun _ => True) (Makes.forEach (R := fun _ => True) fun owner _ => ?_)
    fun _ _ _ _ => trivial
  exact quiet_enqueueProfileUpdate bot _ _ _

theorem quiet_projectProfile (event : Event) (operationId : OperationId) (user : User) :
    quiet (fun _ => True) (projectProfile bot event operationId user) := by
  unfold projectProfile
  split
  · trivial
  · split
    · trivial
    · refine makes_call trivial fun row _ => ?_
      split
      · trivial
      · exact makes_call trivial fun _ _ => trivial

theorem quiet_projectProfilesForEvent (eventId : EventId) (profiles : List User)
    (operationId : OperationId) :
    quiet (fun _ => True) (projectProfilesForEvent bot eventId profiles operationId) := by
  refine (quiet_storedEvent eventId).bind fun event _ => ?_
  refine (quiet_ensureMigrated bot event).bind fun _ _ => ?_
  exact Makes.bind (Makes.traverse (R := fun _ => True) fun user _ =>
    quiet_projectProfile bot event operationId user) fun _ _ => trivial

/-! ## Tables -/

theorem quiet_ensureEventTables (event : Event) :
    quiet (fun _ => True) (ensureEventTables bot event) := by
  refine (quiet_ensureMigrated bot event).bind fun event _ => ?_
  refine Makes.bind (Q := fun _ => True) ?_ fun event _ => ?_
  · split
    · trivial
    · refine makes_call trivial fun rows _ => ?_
      exact makes_any (quiet_of_maintenance (maintenance_ensurePublicTable bot event rows))
  · split
    · trivial
    · exact makes_any (quiet_of_maintenance (maintenance_refresh bot event))

theorem quiet_refreshDailyPassTable (gameDate : Option GameDate) :
    quiet (fun _ => True) (refreshDailyPassTable bot gameDate) :=
  quiet_of_maintenance (maintenance_refreshDailyPassTable bot gameDate)

theorem quiet_eventPassProfiles (event : Event) :
    quiet (fun _ => True) (eventPassProfiles bot event none) :=
  quiet_of_reads (reads_eventPassProfiles bot event none)

theorem quiet_refreshStoredPassTable (eventId : EventId) :
    quiet (fun _ => True) (refreshStoredPassTable bot eventId) := by
  refine (quiet_storedEvent eventId).bind fun event _ => ?_
  refine Makes.bind (Q := fun _ => True) ?_ fun _ _ => quiet_refreshDailyPassTable bot _
  split
  · trivial
  · refine (quiet_ensureMigrated bot event).bind fun _ _ => ?_
    refine (quiet_eventPassProfiles bot event).bind fun _ _ => ?_
    exact makes_call trivial fun _ _ => makes_any (makes_present _ _)

theorem quiet_createPassTable (eventId : EventId) :
    quiet (fun _ => True) (createPassTable bot eventId) := by
  refine (quiet_storedEvent eventId).bind fun event _ => ?_
  split
  · exact quiet_refreshStoredPassTable bot _
  · refine (quiet_ensureMigrated bot event).bind fun _ _ => ?_
    refine (quiet_eventPassProfiles bot event).bind fun _ _ => ?_
    refine makes_call trivial fun _ _ => (makes_present _ _).bind fun created _ => ?_
    cases created with
    | none => trivial
    | some _ =>
      refine makes_call trivial fun stored _ => ?_
      cases stored with
      | true => trivial
      | false => exact makes_call trivial fun _ _ => (makes_present _ _).bind fun _ _ => trivial

theorem quiet_refreshEventTables (eventId : EventId) :
    quiet (fun _ => True) (refreshEventTables bot eventId) := by
  refine (quiet_storedEvent eventId).bind fun event _ => ?_
  refine (quiet_ensureEventTables bot event).bind fun event _ => ?_
  exact (quiet_createPassTable bot _).bind fun _ _ => makes_any (quiet_storedEvent _)

/-! ## Statistics -/

theorem quiet_validateNames (names : List String) (role : String) :
    quiet (fun _ => True) (validateNames names role) :=
  makes_any (quiet_rejectIf _ _)

theorem quiet_inspectMember (chatId : Int) (leaders : List BotIdentity) (operationId : OperationId)
    (user : TelegramUser) : quiet (fun _ => True) (inspectMember chatId leaders operationId user) := by
  refine makes_call trivial fun _ _ => (makes_present _ _).bind fun member _ => ?_
  split
  · trivial
  · refine (quiet_of_reads (reads_globalIdentities _)).bind fun identities _ => ?_
    split <;> trivial

theorem quiet_manualTelegramPlayers (chatId : Int) (leaders : List BotIdentity)
    (profiles : List User) (operationId : OperationId) :
    quiet (fun _ => True) (manualTelegramPlayers chatId leaders profiles operationId) := by
  refine Makes.bind (quiet_inTaskGroup (Makes.traverse (R := fun _ => True) fun user _ =>
    quiet_inspectMember chatId leaders operationId user)) fun results _ => ?_
  exact (quiet_rejectIf _ _).bind fun _ _ => trivial

theorem quiet_attendance (event : Event) (operationId : OperationId) (rows : List Registration)
    (leaders : List BotIdentity) (profiles : List User) :
    quiet (fun _ => True) (attendance event operationId rows leaders profiles) := by
  refine Makes.bind (Q := fun _ => True) ?_ fun inChat _ => ?_
  · split
    · trivial
    · exact quiet_manualTelegramPlayers _ _ _ _
  · split
    · trivial
    · refine (quiet_validateNames _ _).bind fun _ _ => ?_
      exact (quiet_validateNames _ _).bind fun _ _ => trivial

theorem quiet_grantExperience (eventId : EventId) (keys : List ParticipantKey)
    (operationId : OperationId) :
    quiet (fun _ => True) (grantExperience bot eventId keys operationId) := by
  refine makes_call trivial fun profiles _ => ?_
  refine Makes.bind (quiet_inTaskGroup (Makes.forEach (R := fun _ => True) fun user _ => ?_))
    fun _ _ => ?_
  · refine makes_call trivial fun _ _ => ?_
    exact (quiet_enqueueProfileUpdates bot _ _ _ _).bind fun _ _ => trivial
  · refine Makes.bind (Makes.traverse (R := fun _ => True) fun _ _ => makes_any (makes_one trivial))
      fun refreshed _ => ?_
    refine (quiet_projectProfilesForEvent bot _ _ _).bind fun projected _ => makes_whenever ?_
    exact (quiet_refreshEventTables bot eventId).bind fun _ _ => trivial

theorem quiet_addGame (eventId : EventId) (operationId : OperationId) :
    quiet (fun _ => True) (addGame bot eventId operationId) := by
  refine makes_call trivial fun stored _ => ?_
  cases stored with
  | none => trivial
  | some event =>
    refine (quiet_rejectIf _ _).bind fun _ _ => ?_
    refine (quiet_ensureMigrated bot event).bind fun _ _ => ?_
    refine makes_call trivial fun rows _ => makes_call trivial fun leaders _ => ?_
    refine makes_call trivial fun profiles _ => ?_
    refine (quiet_attendance event operationId rows leaders profiles).bind fun names _ => ?_
    refine makes_call trivial fun now _ => ?_
    refine makes_call trivial fun _ _ => (quiet_answered _).bind fun playerEdit _ => ?_
    refine makes_call trivial fun _ _ => (quiet_answered _).bind fun masterEdit _ => ?_
    refine makes_call trivial fun _ _ => (quiet_answered _).bind fun playerChanged _ => ?_
    refine makes_call trivial fun _ _ => (quiet_answered _).bind fun masterChanged _ => ?_
    refine (quiet_grantExperience bot _ _ _).bind fun _ _ => ?_
    dsimp only
    split <;> trivial

theorem quiet_applyStatistics : quiet (fun _ => True) (applyStatistics bot command) := by
  refine (quiet_of_reads (reads_identitiesForLocalUser _ _)).bind fun identities _ => ?_
  refine (quiet_of_reads (reads_anyAdmin identities)).bind fun admin _ => ?_
  split
  · trivial
  · split
    · refine makes_call trivial fun _ _ => (quiet_answered _).bind fun _ _ => ?_
      exact makes_call trivial fun _ _ => (quiet_answered _).bind fun _ _ => trivial
    · exact quiet_addGame bot _ _
    · trivial

theorem quiet_refreshDailyPassTablesForUser (platform : Platform) (userId : Nat) :
    quiet (fun _ => True) (refreshDailyPassTablesForUser bot platform userId) := by
  refine (quiet_of_reads (reads_identitiesForLocalUser platform userId)).bind fun identities _ => ?_
  refine (quiet_of_reads (reads_unarchivedEvents bot)).bind fun unarchived _ => ?_
  refine Makes.bind (Makes.traverse (R := fun _ => True) fun event _ => ?_) fun dates _ => ?_
  · unfold activeDate
    split
    · trivial
    · exact makes_call trivial fun _ _ => makes_call trivial fun _ _ => trivial
  · exact Makes.forEach (R := fun _ => True) fun gameDate _ => quiet_refreshDailyPassTable bot _

theorem quiet_syncProfile : quiet (fun _ => True) (syncProfile bot command) := by
  unfold syncProfile
  split
  · refine makes_call trivial fun user _ => ?_
    cases user with
    | none => trivial
    | some user =>
      refine makes_call trivial fun _ _ => (quiet_answered _).bind fun experienced _ => ?_
      refine makes_call trivial fun _ _ => ?_
      refine (quiet_enqueueProfileUpdates bot _ _ _ _).bind fun _ _ => ?_
      exact (quiet_refreshDailyPassTablesForUser bot _ _).bind fun _ _ => trivial
  · trivial

end LarpBot
