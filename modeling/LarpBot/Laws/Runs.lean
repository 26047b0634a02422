import LarpBot.Laws.Maintenance
import LarpBot.Laws.Notices

/-!
# Runs of the worker

A run of the worker starts from no queued command and goes on with any moves that the `Setting`
allows: commands that may be issued are published, attempts start, make a call, fail, finish; and
between two calls the rest of the bot moves the world, though it writes no registration but legacy
imports and profile projections. What every call of every command keeps, and the rest of the bot
keeps too, holds of the registrations of every state reached (`Setting.registrations_rule`).
-/

namespace LarpBot

open Atomic Act
open Prog (Makes)

/-- A profile projection, under an operation id of its own. -/
def Call.Projects (projects : OperationId → Prop) : Call → Prop
  | .registrations (.updateProfile _ op _ _) => projects op
  | _ => False

/-- What surrounds the worker: the commands that are issued, the workbooks that the outside may hand
out, and the operation ids of profile projections. -/
structure Setting where
  issued : OrderedRegistrationCommand → Prop
  legal : Workbooks
  projects : OperationId → Prop

namespace Setting

variable (setting : Setting)

/-- The calls that write registrations for nobody's command. -/
def Elsewhere (c : Call) : Prop :=
  c.LeavesRegistrations setting.legal ∨ c.Projects setting.projects

/-- The calls that the attempts at a command may make. -/
def Permits (command : OrderedRegistrationCommand) (c : Call) : Prop :=
  command.MayWrite setting.legal c ∨ c.Projects setting.projects

/-- The other services write registrations for nobody's command. -/
def Hosts (otherServices : OtherServices) : Prop :=
  ∀ command, makes setting.legal setting.Elsewhere (fun _ => True) (otherServices command)

/-- The moves that a run may take. -/
def Allows (s : Plant) : Move → Prop
  | .publish command => setting.issued command
  | .outside world => world.registrations = s.world.registrations ∨
      ∃ c now, setting.Elsewhere (.registrations c) ∧
        world.registrations = (c.perform now s.world.registrations).2
  | .call _ input => Input.Respects setting.legal input
  | .start _ | .finish _ | .abandon _ => True

variable {setting} (bot : Deployment) {otherServices : OtherServices}

theorem Elsewhere.permits {c : Call} (hc : setting.Elsewhere c)
    (command : OrderedRegistrationCommand) : setting.Permits command c :=
  hc.imp_left Call.LeavesRegistrations.mayWrite

theorem permits_process (hosts : setting.Hosts otherServices)
    (command : OrderedRegistrationCommand) :
    makes setting.legal (setting.Permits command) (fun _ => True)
      (process bot otherServices command) := by
  refine makes_process bot ?_ fun c hc => .inl hc.leavesRegistrations.mayWrite
  unfold mutate
  split
  · exact (makes_mono (hosts command) fun c hc => hc.permits command).bind fun _ _ => trivial
  · exact makes_mono (writes_apply bot) fun _ hc => .inl hc.mayWrite

/-- What the calls of the issued commands and of the rest of the bot keep, every run keeps. -/
theorem registrations_rule (Inv : Registrations → Prop) {C : Plant → Move → Prop} {s₀ s : Plant}
    (hs : Fleet.Reaches (queue bot otherServices) storage C s₀ s)
    (hC : ∀ s l, C s l → setting.Allows s l) (hosts : setting.Hosts otherServices)
    (hidle : s₀.Idle) (hinv : Inv s₀.world.registrations)
    (hcall : ∀ command c now t, setting.issued command →
      setting.Permits command (.registrations c) → Inv t → Inv (c.perform now t).2)
    (helsewhere : ∀ c now t, setting.Elsewhere (.registrations c) → Inv t →
      Inv (c.perform now t).2) : Inv s.world.registrations := by
  refine (hs.rule (K := setting.issued) (R := fun _ command p =>
      makes setting.legal (setting.Permits command) (fun _ => True) p)
    (fun w => Inv w.registrations) (fun _ _ => True) hidle hinv ?_ ?_ ?_ ?_ ?_ ?_ ?_).1
  · exact Along.of_forall fun _ _ => trivial
  · exact fun s command h => hC s _ h
  · intro s w h hw
    rcases hC s _ h with hsame | ⟨c, now, hc, hwrite⟩
    · exact hsame ▸ hw
    · exact hwrite ▸ helsewhere c now _ hc hw
  · exact fun _ command _ => permits_process bot hosts command
  · intro s g i command op next h hissued _ hw _ hp
    have hrespects : Input.Respects setting.legal i := hC s _ h
    refine ⟨?_, trivial, hp.2 _ (plausible_perform hrespects fun _ _ => trivial)⟩
    cases op with
    | registrations c => exact hcall command c (i .now) _ hissued hp.1 hw
    | outside c => exact (c.registrations_record (i c) s.world).symm ▸ hw
    | _ => exact hw
  · exact fun _ _ _ _ _ _ _ _ _ => trivial
  · exact fun _ _ _ _ _ h => h

end Setting

/-! ## A concrete setting -/

/-- Any command, any workbook, and projections under any operation id. -/
def anySetting : Setting :=
  ⟨fun _ => True, anyWorkbook, fun _ => True⟩

theorem anySetting_hosts : anySetting.Hosts noServices :=
  fun _ => trivial

/-- A step of the queue and not of what surrounds it. -/
def isOwnMove : Move → Bool
  | .outside _ => false
  | _ => true

theorem anySetting_play {bot : Deployment} {otherServices : OtherServices} {s : Plant}
    {schedule : List Move} (h : schedule.all isOwnMove = true) :
    Fleet.Reaches (queue bot otherServices) storage anySetting.Allows s
      (s.play (queue bot otherServices) storage schedule) := by
  refine Fleet.Reaches.refl.play fun _ l hl => ?_
  cases l with
  | outside world => exact nomatch List.all_eq_true.mp h _ hl
  | call lane input => exact respects_anyWorkbook input
  | _ => trivial

/-- The oldest command of a lane has returned, and is about to leave. -/
def returnsNext (s : Plant) (lane : String) (command : OrderedRegistrationCommand) : Bool :=
  match s.lanes lane with
  | .working job (.done _) _ => job = command
  | _ => false

theorem returns_of_check {s : Plant} {lane : String} {command : OrderedRegistrationCommand}
    (h : returnsNext s lane command = true) : ∃ reply, s.Returns lane command reply := by
  unfold returnsNext at h
  split at h
  · next job reply rest hlane => exact ⟨reply, rest, of_decide_eq_true h ▸ hlane⟩
  · cases h

/-- A good day, at some instant. -/
def goodDay (now : Time) : Input
  | .now => now
  | c => answering (fun _ _ => .accepted) c

theorem game_led :
    ([("game", (⟨.telegram, 1⟩ : BotIdentity))].map (id : EventId × BotIdentity → EventId × BotIdentity)).Nodup := by
  decide

/-- A player whose profile is complete. -/
def samplePlayer (player : Nat) : User :=
  .telegram {
    tgId := player
    fullName := some "Иванов Иван"
    larpExperience := some true
    crossplay := some true
    needsPass := some false
    vkUrl := some "https://vk.com/id1" }

def sampleKey (player : Nat) (eventId : EventId) : ParticipantKey :=
  sampleBot.keyOf ⟨.telegram, player⟩ eventId

theorem sampleKey_ne_empty (player : Nat) (eventId : EventId) : sampleKey player eventId ≠ "" := by
  simp [sampleKey, sampleBot, Deployment.keyOf, Platform.value]

end LarpBot
