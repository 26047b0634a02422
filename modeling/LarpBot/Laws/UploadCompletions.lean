import LarpBot.Application.UploadCompletion
import LarpBot.Foundation.Traces

/-!
# Completions that come more than once

The attempt that creates a game goes on to tell its masters, to send the links and to order the table
of passes. The next attempt only asks whether the game is stored: it tells no master and orders no
table. So an acknowledged completion has done all its work as long as the attempt that has created the
game is not given up before its end and no other delivery is acknowledged meanwhile
(`acknowledged_completions`); when that attempt fails, the retry is acknowledged and the masters never
hear of the game (`masters_never_told`).

The runs have any number of deliveries of one completion, at work at once and coming again after
failures. The rest of the world may do anything but touch what the completion is about.
-/

namespace LarpBot

open Atomic

/-! ## Runs -/

@[reducible] def completionStorage : Handler completionPorts World CompletionInput :=
  CompletionCall.perform

/-- Deliveries of one completion, each in a lane of its own or behind another one. -/
def completionJobs (bot : Deployment) (completion : EventCreated) :
    Jobs completionPorts Failure Unit Nat Nat where
  program _ := handleEventCreated bot completion
  group := id

abbrev CompletionRun := Fleet completionPorts Failure Unit Nat Nat World

abbrev CompletionEntries := List completionPorts.Entry

/-- The messages of a completion: to each master but the one who asked for the game, and to that
person. -/
def EventCreated.awaited (completion : EventCreated) : List CompletionNotice :=
  (completion.leaders.filter fun leader => some leader ≠ completion.requesterIdentity).map
    completion.leaderNotice ++ (completion.requesterNotice "complete").toList

/-- The message has been sent, and accepted. -/
def CompletionNotice.Told (notice : CompletionNotice) (w : World) : Prop :=
  ∃ delivery ∈ w.sent, delivery.platform = notice.profile.platform ∧
    delivery.userId = notice.userId ∧ delivery.requestId = notice.operationId ∧
    delivery.outcome = .accepted

instance CompletionNotice.instDecidableTold (notice : CompletionNotice) (w : World) :
    Decidable (notice.Told w) :=
  inferInstanceAs (Decidable (∃ delivery ∈ w.sent, _))

/-- The profile bears the marker of the message. -/
def CompletionNotice.Marked (notice : CompletionNotice) (users : Users) : Prop :=
  (users.get notice.profile.platform notice.profile.platformUserId).bind
    (fun user => user.base.lastDeliveryOperationId) = some notice.operationId

instance CompletionNotice.instDecidableMarked (notice : CompletionNotice) (users : Users) :
    Decidable (notice.Marked users) :=
  inferInstanceAs (Decidable (_ = _))

/-- What a completion has to do: the game is stored with its masters, its messages have been accepted, and the
refresh of the pass table is in the queue. -/
structure Completed (bot : Deployment) (completion : EventCreated) (game : Event) (w : World) :
    Prop where
  stored : (w.events.get game.eventId).isSome
  leaders : ∀ leader ∈ completion.leaders, (game.eventId, leader) ∈ w.leaders.rows
  told : ∀ notice ∈ completion.awaited, notice.Told w
  refreshed : ∃ gameDate, game.gameDate = some gameDate ∧
    dailyPassRefresh bot completion gameDate ∈ w.published

/-! ## The calls of an attempt -/

/-- The calls have created the game. -/
def HasCreated (completion : EventCreated) (game : Event) (made : CompletionEntries) : Prop :=
  ⟨.createEvent game completion.leaders, .ok ()⟩ ∈ made

/-- The calls have sent a message, or found its marker. -/
def HasTold (notice : CompletionNotice) (made : CompletionEntries) : Prop :=
  (∃ text buttons, ⟨.port (.outside (.send notice.profile.platform notice.userId
      notice.operationId text buttons)), .accepted⟩ ∈ made) ∨
  ∃ user, ⟨.port (.users (.get notice.profile.platform notice.profile.platformUserId)),
      some user⟩ ∈ made ∧ user.base.lastDeliveryOperationId = some notice.operationId

/-- The calls have ordered the table of passes. -/
def HasRefreshed (bot : Deployment) (completion : EventCreated) (game : Event)
    (made : CompletionEntries) : Prop :=
  ∃ gameDate, game.gameDate = some gameDate ∧
    ⟨.port (.outside (.publish (dailyPassRefresh bot completion gameDate))), some ()⟩ ∈ made

/-- What a creating attempt has to do besides. -/
def Fulfils (bot : Deployment) (completion : EventCreated) (game : Event)
    (made : CompletionEntries) : Prop :=
  (∀ notice ∈ completion.awaited, HasTold notice made) ∧ HasRefreshed bot completion game made

/-- Calls that have created the game have done the rest too. -/
def CreationSettled (bot : Deployment) (completion : EventCreated) (game : Event)
    (made : CompletionEntries) : Prop :=
  HasCreated completion game made → Fulfils bot completion game made

/-- A marker is set only where the message has been sent; the only game that is created is the one of
the completion, and no other call writes. -/
def Justified (completion : EventCreated) (game : Event) (made : CompletionEntries) :
    CompletionCall → Prop
  | .port (.users (.get _ _)) | .port (.events (.get _)) | .port (.outside _) | .getSecret _ => True
  | .port (.users (.claimDelivery platform userId _ _)) =>
    ∀ notice ∈ completion.awaited, notice.profile = ⟨platform, userId⟩ → HasTold notice made
  | .createEvent event leaders => event = game ∧ leaders = completion.leaders
  | .setYandexTableLinks _ _ _ => True
  | .port _ => False

/-- The attempt returns when the links are sent and the game is stored. -/
def Acknowledges (bot : Deployment) (completion : EventCreated) (game : Event)
    (made : CompletionEntries) : Prop :=
  CreationSettled bot completion game made ∧
    (∀ notice, completion.requesterNotice "complete" = some notice → HasTold notice made) ∧
    (HasCreated completion game made ∨
      ∃ event, ⟨.port (.events (.get game.eventId)), some event⟩ ∈ made)

section Calls

variable {bot : Deployment} {completion : EventCreated} {game : Event} {notice : CompletionNotice}
  {made made' : CompletionEntries} {c : CompletionCall} {a : c.Ans}

theorem HasTold.later (h : HasTold notice made) (hmade : made <:+ made') : HasTold notice made' := by
  rcases h with ⟨text, buttons, hmem⟩ | ⟨user, hmem, hmarker⟩
  · exact .inl ⟨text, buttons, hmade.subset hmem⟩
  · exact .inr ⟨user, hmade.subset hmem, hmarker⟩

theorem HasTold.cons (h : HasTold notice (⟨c, a⟩ :: made)) :
    HasTold notice [⟨c, a⟩] ∨ HasTold notice made := by
  rcases h with ⟨text, buttons, hmem⟩ | ⟨user, hmem, hmarker⟩
  · rcases List.mem_cons.mp hmem with hnow | hold
    · exact .inl (.inl ⟨text, buttons, List.mem_singleton.mpr hnow⟩)
    · exact .inr (.inl ⟨text, buttons, hold⟩)
  · rcases List.mem_cons.mp hmem with hnow | hold
    · exact .inl (.inr ⟨user, List.mem_singleton.mpr hnow, hmarker⟩)
    · exact .inr (.inr ⟨user, hold, hmarker⟩)

theorem HasRefreshed.later (h : HasRefreshed bot completion game made) (hmade : made <:+ made') :
    HasRefreshed bot completion game made' := by
  obtain ⟨gameDate, hdate, hmem⟩ := h
  exact ⟨gameDate, hdate, hmade.subset hmem⟩

theorem Fulfils.later (h : Fulfils bot completion game made) (hmade : made <:+ made') :
    Fulfils bot completion game made' :=
  ⟨fun notice hnotice => (h.1 notice hnotice).later hmade, h.2.later hmade⟩

/-- The profile of an awaited message says which one it is. -/
theorem awaited_of_profile {other : CompletionNotice} (h : notice ∈ completion.awaited)
    (hother : other ∈ completion.awaited) (hprofile : notice.profile = other.profile) :
    notice = other := by
  have hleader {notice : CompletionNotice} {leader : BotIdentity}
      (hmem : leader ∈ completion.leaders.filter fun leader =>
        some leader ≠ completion.requesterIdentity) (hnotice : completion.leaderNotice leader = notice) :
      notice.profile = leader ∧ some leader ≠ completion.requesterIdentity := by
    subst hnotice
    exact ⟨rfl, by simpa using (List.mem_filter.mp hmem).2⟩
  have hrequester {notice : CompletionNotice}
      (hnotice : notice ∈ (completion.requesterNotice "complete").toList) :
      completion.requesterNotice "complete" = some notice ∧
        some notice.profile = completion.requesterIdentity := by
    have hnotice := Option.mem_toList.mp hnotice
    refine ⟨hnotice, ?_⟩
    obtain ⟨requester, hsome, rfl⟩ := Option.map_eq_some_iff.mp hnotice
    rw [EventCreated.requesterIdentity, hsome]
    rfl
  rcases List.mem_append.mp h with hone | hone <;> rcases List.mem_append.mp hother with htwo | htwo
  · obtain ⟨leader, hmem, hnotice⟩ := List.mem_map.mp hone
    obtain ⟨leader', hmem', hnotice'⟩ := List.mem_map.mp htwo
    obtain rfl : leader = leader' := by
      rw [← (hleader hmem hnotice).1, hprofile, (hleader hmem' hnotice').1]
    rw [← hnotice, hnotice']
  · obtain ⟨leader, hmem, hnotice⟩ := List.mem_map.mp hone
    obtain ⟨hsame, hne⟩ := hleader hmem hnotice
    rw [← hsame, hprofile] at hne
    exact absurd (hrequester htwo).2 hne
  · obtain ⟨leader, hmem, hnotice⟩ := List.mem_map.mp htwo
    obtain ⟨hsame, hne⟩ := hleader hmem hnotice
    rw [← hsame, ← hprofile] at hne
    exact absurd (hrequester hone).2 hne
  · exact Option.some.inj ((hrequester hone).1.symm.trans (hrequester htwo).1)

end Calls

/-! ## What is left of an attempt -/

/-- Calls were added, and none of them has created the game. -/
def Adds (completion : EventCreated) (game : Event) (made made' : CompletionEntries) : Prop :=
  made <:+ made' ∧ (HasCreated completion game made' → HasCreated completion game made)

/-- Every call of a program is justified, none creates the game, and a value comes with `Q`. -/
def CompletionFollows {α : Type} (completion : EventCreated) (game : Event) (p : CompletionAct α)
    (made : CompletionEntries) (Q : CompletionEntries → α → Prop) : Prop :=
  p.Traced (fun _ _ => True) (Justified completion game) (fun _ _ => True)
    (fun made' a => Adds completion game made made' ∧ Q made' a) made

/-- The call does not create a game. -/
def CreatesNothing : CompletionCall → Prop
  | .createEvent _ _ => False
  | _ => True

section Programs

variable {bot : Deployment} {completion : EventCreated} {game : Event} {notice : CompletionNotice}
  {made made' : CompletionEntries} {c : CompletionCall} {α β : Type}

theorem Adds.refl : Adds completion game made made :=
  ⟨List.suffix_refl made, id⟩

theorem Adds.trans {made'' : CompletionEntries} (h : Adds completion game made made')
    (h' : Adds completion game made' made'') : Adds completion game made made'' :=
  ⟨h.1.trans h'.1, h.2 ∘ h'.2⟩

theorem Adds.cons {a : c.Ans} (hc : CreatesNothing c) :
    Adds completion game made (⟨c, a⟩ :: made) := by
  refine ⟨List.suffix_cons _ _, fun h => ?_⟩
  rcases List.mem_cons.mp h with heq | h
  · obtain ⟨rfl, -⟩ := Sigma.mk.inj_iff.mp heq
    exact hc.elim
  · exact h

theorem CompletionFollows.done {a : α} {Q : CompletionEntries → α → Prop} (h : Q made a) :
    CompletionFollows completion game (.done a) made Q :=
  ⟨.refl, h⟩

theorem CompletionFollows.bind {p : CompletionAct α} {f : α → CompletionAct β}
    {Q : CompletionEntries → α → Prop} {R : CompletionEntries → β → Prop}
    (hp : CompletionFollows completion game p made Q)
    (hf : ∀ made' a, Adds completion game made made' → Q made' a →
      CompletionFollows completion game (f a) made' R) :
    CompletionFollows completion game (p.bind f) made R := by
  refine Prog.Traced.bind hp ?_
  rintro made' a ⟨hadds, ha⟩
  refine (hf made' a hadds ha).mono (fun _ _ h => h) (fun _ _ h => h) ?_
  rintro made'' b ⟨hadds', hb⟩
  exact ⟨hadds.trans hadds', hb⟩

theorem CompletionFollows.one {f : c.Ans → CompletionAct α} {Q : CompletionEntries → α → Prop}
    (hc : CreatesNothing c) (hjust : Justified completion game made c)
    (hf : ∀ a, CompletionFollows completion game (f a) (⟨c, a⟩ :: made) Q) :
    CompletionFollows completion game ((CompletionAct.one c).bind f) made Q := by
  refine ⟨hjust, fun a _ => (hf a).mono (fun _ _ h => h) (fun _ _ h => h) ?_⟩
  rintro made' b ⟨hadds, hb⟩
  exact ⟨(Adds.cons hc).trans hadds, hb⟩

theorem CompletionFollows.value {answer : Except Fault α} {Q : CompletionEntries → α → Prop}
    (h : ∀ a, answer = .ok a → Q made a) :
    CompletionFollows completion game (CompletionAct.value answer) made Q := by
  cases answer with
  | ok a => exact .done (h a rfl)
  | error fault => trivial

theorem CompletionFollows.present {integration : String} {answer : Option α}
    {Q : CompletionEntries → α → Prop} (h : ∀ a, answer = some a → Q made a) :
    CompletionFollows completion game (CompletionAct.present integration answer) made Q := by
  cases answer with
  | some a => exact .done (h a rfl)
  | none => trivial

theorem CompletionFollows.keeping {p : CompletionAct α} {Q R : CompletionEntries → α → Prop}
    (h : CompletionFollows completion game p made Q)
    (hQ : ∀ made' a, Adds completion game made made' → Q made' a → R made' a) :
    CompletionFollows completion game p made R :=
  Prog.Traced.mono h (fun _ _ h => h) (fun _ _ h => h) fun made' a hQa =>
    ⟨hQa.1, hQ made' a hQa.1 hQa.2⟩

theorem CompletionFollows.forEach {f : α → CompletionAct Unit} {as : List α}
    {P : α → CompletionEntries → Prop} (hP : ∀ a made made', made <:+ made' → P a made → P a made')
    (hf : ∀ a ∈ as, ∀ made, CompletionFollows completion game (f a) made fun made' _ => P a made') :
    CompletionFollows completion game (Prog.forEach f as) made fun made' _ => ∀ a ∈ as, P a made' := by
  induction as generalizing made with
  | nil => exact .done fun a ha => absurd ha List.not_mem_nil
  | cons a as ih =>
    refine (hf a List.mem_cons_self made).bind fun made' _ _ ha => ?_
    have hrest : CompletionFollows completion game (Prog.forEach f as) made' fun made' _ =>
        ∀ b ∈ as, P b made' := ih fun b hb => hf b (List.mem_cons_of_mem a hb)
    refine Prog.Traced.mono hrest (fun _ _ h => h) (fun _ _ h => h) ?_
    rintro made'' _ ⟨hadds, hall⟩
    refine ⟨hadds, fun b hb => ?_⟩
    rcases List.mem_cons.mp hb with rfl | hb
    · exact hP b _ _ hadds.1 ha
    · exact hall b hb

/-- An awaited message that did not fail has been sent, by this attempt or before. -/
theorem follows_sendNotice (hnotice : notice ∈ completion.awaited) (text : String)
    (buttons : List Button) : CompletionFollows completion game (sendNotice notice text buttons) made
      fun made' _ => HasTold notice made' := by
  refine CompletionFollows.one trivial trivial fun profile => ?_
  show CompletionFollows completion game (if _ then _ else _) _ _
  split
  · next hmarked =>
    obtain ⟨user, rfl, hmarker⟩ := Option.bind_eq_some_iff.mp hmarked
    exact .done (.inr ⟨user, List.mem_cons_self, hmarker⟩)
  · refine CompletionFollows.one trivial trivial fun outcome => ?_
    cases outcome with
    | unreachable => trivial
    | failed => trivial
    | accepted =>
      have htold : HasTold notice (⟨.port (.outside (.send notice.profile.platform notice.userId
          notice.operationId text buttons)), .accepted⟩ :: ⟨.port (.users (.get
          notice.profile.platform notice.profile.platformUserId)), profile⟩ :: made) :=
        .inl ⟨text, buttons, List.mem_cons_self⟩
      refine CompletionFollows.one trivial (fun other hother hprofile => ?_) fun claimed => ?_
      · rw [awaited_of_profile hother hnotice hprofile]
        exact htold
      · exact .done (htold.later (List.suffix_cons _ _))

theorem gameDate_of_gameCreatedText {event : Event} {telegramUsername vkGroupId text : String}
    (h : gameCreatedText completion event telegramUsername vkGroupId = .ok text) :
    event.gameDate.isSome := by
  cases hdate : event.gameDate with
  | some gameDate => rfl
  | none =>
    exfalso
    unfold gameCreatedText at h
    simp only [hdate] at h
    by_cases htelegram : (!isTelegramName telegramUsername) = true
    · rw [if_pos htelegram] at h
      exact nomatch h
    · rw [if_neg htelegram] at h
      by_cases hvk : (!(decide (vkGroupId ≠ "") && vkGroupId.toList.all Char.isDigit &&
          vkGroupId.toList.any fun c => decide (c ≠ '0'))) = true
      · erw [if_pos hvk] at h
        exact nomatch h
      · erw [if_neg hvk] at h
        have hfails : Except.error (.runtimeError "new game has no signup token or date") =
            (.ok text : Except Fault String) := by
          cases htoken : event.signupToken with
          | none => rwa [htoken] at h
          | some signupToken => rwa [htoken] at h
        exact nomatch hfails

/-- The masters are told one after the other. -/
theorem follows_notifyLeaders (event : Event) :
    CompletionFollows completion game (notifyLeaders completion event) made fun made' _ =>
      ∀ leader ∈ completion.leaders.filter fun leader => some leader ≠ completion.requesterIdentity,
        HasTold (completion.leaderNotice leader) made' := by
  refine CompletionFollows.forEach (fun leader made made' hmade h => h.later hmade) ?_
  intro leader hleader made
  refine follows_sendNotice ?_ _ _
  exact List.mem_append_left _ (List.mem_map_of_mem hleader)

theorem follows_sendLinks (event : Event) :
    CompletionFollows completion game (sendLinks completion event) made fun made' _ =>
      (∀ notice, completion.requesterNotice "complete" = some notice → HasTold notice made') ∧
        event.gameDate.isSome := by
  refine CompletionFollows.one trivial trivial fun telegramUsername => ?_
  refine (CompletionFollows.present (Q := fun _ _ => True) fun _ _ => trivial).bind
    fun made' telegramUsername _ _ => ?_
  refine CompletionFollows.one trivial trivial fun vkGroupId => ?_
  refine (CompletionFollows.present (Q := fun _ _ => True) fun _ _ => trivial).bind
    fun made' vkGroupId _ _ => ?_
  refine (CompletionFollows.value (Q := fun _ _ => event.gameDate.isSome) fun text htext =>
    gameDate_of_gameCreatedText htext).bind fun made' text _ hdate => ?_
  unfold sendToRequester
  cases hnotice : completion.requesterNotice "complete" with
  | none => exact .done ⟨nofun, hdate⟩
  | some notice =>
    refine (follows_sendNotice ?_ _ _).keeping fun made' _ _ htold => ⟨?_, hdate⟩
    · rw [EventCreated.awaited, hnotice]
      exact List.mem_append_right _ (List.mem_singleton_self notice)
    · rintro _ ⟨⟩
      exact htold

theorem follows_queueDailyPassRefresh (hdate : game.gameDate.isSome) :
    CompletionFollows completion game (queueDailyPassRefresh bot completion game.gameDate) made
      fun made' _ => HasRefreshed bot completion game made' := by
  obtain ⟨gameDate, hdate⟩ := Option.isSome_iff_exists.mp hdate
  rw [hdate]
  refine CompletionFollows.one trivial trivial fun answer => ?_
  refine CompletionFollows.present fun _ hanswer => ⟨gameDate, hdate, ?_⟩
  subst hanswer
  exact List.mem_cons_self

/-- An attempt that creates the game and returns has done the rest too. -/
theorem follows_created : CompletionFollows completion game
    ((notifyLeaders completion game).bind fun _ => (sendLinks completion game).bind fun _ =>
      queueDailyPassRefresh bot completion game.gameDate) made
    fun made' _ => Fulfils bot completion game made' := by
  refine (follows_notifyLeaders game).bind fun made₁ _ _ hleaders => ?_
  refine (follows_sendLinks game).bind fun made₂ _ hadds hlinks => ?_
  refine (follows_queueDailyPassRefresh hlinks.2).keeping fun made₃ _ hadds' hrefreshed =>
    ⟨fun notice hnotice => ?_, hrefreshed⟩
  rcases List.mem_append.mp hnotice with hleader | hrequester
  · obtain ⟨leader, hmem, rfl⟩ := List.mem_map.mp hleader
    exact (hleaders leader hmem).later (hadds.1.trans hadds'.1)
  · exact (hlinks.1 notice (Option.mem_toList.mp hrequester)).later hadds'.1

/-- What a lane knows of the game when an attempt of it returns. -/
theorem traced_eventCreated (hgame : completion.game = some game)
    (hmade : CreationSettled bot completion game made) :
    (eventCreated bot completion).Traced (fun _ _ => True) (Justified completion game)
      (fun _ _ => True) (fun made' _ => Acknowledges bot completion game made') made := by
  unfold eventCreated
  rw [hgame]
  split
  · trivial
  · next event hevent =>
    obtain rfl : game = event := by
      split at hevent
      · exact Option.some.inj hevent
      · exact nomatch hevent
    refine ⟨trivial, fun found _ => ?_⟩
    cases found with
    | none =>
      refine ⟨⟨rfl, rfl⟩, fun answer _ => ?_⟩
      cases answer with
      | error fault => trivial
      | ok value =>
        have hcreated : HasCreated completion game (⟨.createEvent game completion.leaders, .ok value⟩ ::
            ⟨.port (.events (.get game.eventId)), none⟩ :: made) := List.mem_cons_self
        refine Prog.Traced.mono follows_created (fun _ _ h => h) (fun _ _ h => h) ?_
        rintro made' _ ⟨hadds, hfulfils⟩
        refine ⟨fun _ => hfulfils, fun notice hnotice => ?_, .inl (hadds.1.subset hcreated)⟩
        refine hfulfils.1 notice ?_
        rw [EventCreated.awaited, hnotice]
        exact List.mem_append_right _ (List.mem_singleton_self notice)
    | some existing =>
      have hfollows : CompletionFollows completion game
          ((CompletionAct.one (.setYandexTableLinks game.eventId (completion.url "master")
              (completion.url "public"))).bind fun answer =>
            (CompletionAct.value answer).bind fun _ =>
              (CompletionAct.events (.get game.eventId)).bind fun stored =>
                sendLinks completion (stored.getD existing))
          (⟨.port (.events (.get game.eventId)), some existing⟩ :: made)
          fun made' _ => ∀ notice, completion.requesterNotice "complete" = some notice →
            HasTold notice made' := by
        refine CompletionFollows.one trivial trivial fun answer => ?_
        refine (CompletionFollows.value (Q := fun _ _ => True) fun _ _ => trivial).bind
          fun made₁ _ _ _ => ?_
        refine CompletionFollows.one trivial trivial fun stored => ?_
        exact (follows_sendLinks _).keeping fun made₂ _ _ hlinks => hlinks.1
      refine Prog.Traced.mono hfollows (fun _ _ h => h) (fun _ _ h => h) ?_
      rintro made' _ ⟨hadds, htold⟩
      have hread : Adds completion game made made' :=
        (Adds.cons (c := .port (.events (.get game.eventId))) trivial).trans hadds
      refine ⟨fun hcreated => (hmade (hread.2 hcreated)).later hread.1, htold, .inr ⟨existing, ?_⟩⟩
      exact hadds.1.subset List.mem_cons_self

theorem traced_handleEventCreated (hsuccess : completion.success = true)
    (hgame : completion.game = some game) (hmade : CreationSettled bot completion game made) :
    (handleEventCreated bot completion).Traced (fun _ _ => True) (Justified completion game)
      (fun _ _ => True) (fun made' _ => Acknowledges bot completion game made') made := by
  unfold handleEventCreated
  rw [hsuccess]
  show Prog.Traced _ _ _ _ (if !completion.hasValidUrls then _ else _) _
  split
  · trivial
  · exact traced_eventCreated hgame hmade

end Programs

/-! ## What the calls do to the stores -/

/-- Nothing of a completion is taken back. -/
structure Advances (completion : EventCreated) (game : Event) (w w' : World) : Prop where
  stored : (w.events.get game.eventId).isSome → (w'.events.get game.eventId).isSome
  leaders : ∀ leader ∈ completion.leaders, (game.eventId, leader) ∈ w.leaders.rows →
    (game.eventId, leader) ∈ w'.leaders.rows
  sent : ∀ delivery ∈ w.sent, delivery ∈ w'.sent
  published : ∀ command ∈ w.published, command ∈ w'.published

/-- The rest of the world neither takes back what a completion has done nor does it itself. -/
structure LeavesCompletion (completion : EventCreated) (game : Event) (w w' : World) : Prop
    extends Advances completion game w w' where
  created : (w'.events.get game.eventId).isSome → (w.events.get game.eventId).isSome
  marked : ∀ notice ∈ completion.awaited, notice.Marked w'.users → notice.Marked w.users

section Stores

variable {bot : Deployment} {completion : EventCreated} {game : Event} {notice : CompletionNotice}
  {made : CompletionEntries} {w w' : World}

theorem CompletionNotice.Told.later (h : notice.Told w)
    (hsent : ∀ delivery ∈ w.sent, delivery ∈ w'.sent) : notice.Told w' := by
  obtain ⟨delivery, hmem, hdelivery⟩ := h
  exact ⟨delivery, hsent delivery hmem, hdelivery⟩

theorem LeavesCompletion.refl : LeavesCompletion completion game w w :=
  ⟨⟨id, fun _ _ h => h, fun _ h => h, fun _ h => h⟩, id, fun _ _ h => h⟩

theorem leaves_record (c : OutsideCall) (a : c.Ans) :
    LeavesCompletion completion game w (c.record a w) := by
  unfold OutsideCall.record
  split
  · exact ⟨⟨id, fun _ _ h => h, fun _ h => List.mem_append_left _ h, fun _ h => h⟩, id,
      fun _ _ h => h⟩
  · exact ⟨⟨id, fun _ _ h => h, fun _ h => h, fun _ h => h⟩, id, fun _ _ h => h⟩
  · exact ⟨⟨id, fun _ _ h => h, fun _ h => h, fun _ h => List.mem_append_left _ h⟩, id,
      fun _ _ h => h⟩
  · exact .refl

theorem leaves_setYandexTableLinks (eventId : EventId) (masterUrl publicUrl : Option String)
    (i : CompletionInput) : LeavesCompletion completion game w
      (CompletionCall.perform (.setYandexTableLinks eventId masterUrl publicUrl) i w).2 := by
  have hstored : ((w.events.setYandexTableLinks (i.ports .now) eventId masterUrl
      publicUrl).2.get game.eventId).isSome = (w.events.get game.eventId).isSome := by
    unfold Events.setYandexTableLinks
    split
    · rfl
    · split
      · rfl
      · unfold Events.get
        rw [Table.find?_modify]
        split
        · next hsame => rw [Option.isSome_map, hsame]
        · rfl
  exact ⟨⟨fun h => hstored.trans h, fun _ _ h => h, fun _ h => h, fun _ h => h⟩,
    fun h => hstored.symm.trans h, fun _ _ h => h⟩

/-- A marker of a profile is old, or it is the one that was set. -/
theorem marked_claimDelivery {users : Users} {platform : Platform} {userId : Nat}
    {operationId : OperationId} {buttons : List Button}
    (h : notice.Marked (users.claimDelivery platform userId operationId buttons).2) :
    notice.Marked users ∨ notice.profile = ⟨platform, userId⟩ := by
  by_cases hprofile : notice.profile = ⟨platform, userId⟩
  · exact .inr hprofile
  · left
    unfold Users.claimDelivery at h
    split at h
    · exact h
    · split at h
      · exact h
      · unfold CompletionNotice.Marked Users.get at h
        rwa [Table.find?_modify_of_ne _ hprofile] at h

theorem perform_createEvent (leaders : List BotIdentity) (i : CompletionInput) (w : World) :
    CompletionCall.perform (.createEvent game leaders) i w = match w.create game leaders with
      | .ok w' => (.ok (), w')
      | .error fault => (.error fault, w) := rfl

/-- A created game has its masters. -/
theorem created_game {leaders : List BotIdentity} (h : w.create game leaders = .ok w') :
    (w'.events.get game.eventId).isSome ∧
      (∀ leader ∈ leaders, (game.eventId, leader) ∈ w'.leaders.rows) ∧ w'.sent = w.sent ∧
      w'.published = w.published ∧ w'.users = w.users := by
  unfold World.create at h
  split at h
  · exact nomatch h
  · obtain rfl := Except.ok.inj h
    refine ⟨?_, fun leader hleader => ?_, rfl, rfl, rfl⟩
    · show (Table.find? (w.events.insertNew game) game.eventId).isSome
      rw [Table.find?_insertNew, if_pos rfl]
      simp
    · have hmem : (game.eventId, leader) ∈ leaders.map fun leader => (game.eventId, leader) :=
        List.mem_map_of_mem hleader
      obtain ⟨row, hrow⟩ := Option.isSome_iff_exists.mp
        (Table.isSome_find?_foldl_insertNew (t := w.leaders.ofEventRemoved game.eventId) hmem)
      rw [List.foldl_map] at hrow
      obtain ⟨hrow, rfl⟩ := Table.find?_eq_some_iff.mp hrow
      exact hrow

/-- What a justified call may do: it creates the game, it sets a marker, or it leaves all that the
completion is about. -/
theorem justified_cases {c : CompletionCall} (hjust : Justified completion game made c) :
    c = .createEvent game completion.leaders ∨
    (∃ platform userId operationId buttons,
      c = .port (.users (.claimDelivery platform userId operationId buttons)) ∧
      ∀ notice ∈ completion.awaited, notice.profile = ⟨platform, userId⟩ → HasTold notice made) ∨
    ∀ i w, LeavesCompletion completion game w (c.perform i w).2 := by
  cases c with
  | createEvent event leaders =>
    obtain ⟨rfl, rfl⟩ := hjust
    exact .inl rfl
  | setYandexTableLinks eventId masterUrl publicUrl =>
    exact .inr (.inr fun i w => leaves_setYandexTableLinks eventId masterUrl publicUrl i)
  | getSecret name => exact .inr (.inr fun i w => .refl)
  | port c =>
    cases c with
    | outside c => exact .inr (.inr fun i w => leaves_record c (i.ports c))
    | users c =>
      cases c with
      | get platform userId => exact .inr (.inr fun i w => .refl)
      | claimDelivery platform userId operationId buttons =>
        exact .inr (.inl ⟨platform, userId, operationId, buttons, rfl, hjust⟩)
      | _ => exact hjust.elim
    | events c =>
      cases c with
      | get eventId => exact .inr (.inr fun i w => .refl)
      | _ => exact hjust.elim
    | _ => exact hjust.elim

/-- A justified call takes nothing of a completion back. -/
theorem advances_perform {c : CompletionCall} (hjust : Justified completion game made c)
    (i : CompletionInput) : Advances completion game w (c.perform i w).2 := by
  rcases justified_cases hjust with rfl | ⟨_, _, _, _, rfl, -⟩ | hleaves
  · rw [perform_createEvent]
    cases hcreate : w.create game completion.leaders with
    | error fault => exact LeavesCompletion.refl.toAdvances
    | ok w' =>
      obtain ⟨hstored, hleaders, hsent, hpublished, -⟩ := created_game hcreate
      exact ⟨fun _ => hstored, fun leader hleader _ => hleaders leader hleader,
        fun _ h => hsent ▸ h, fun _ h => hpublished ▸ h⟩
  · exact ⟨id, fun _ _ h => h, fun _ h => h, fun _ h => h⟩
  · exact (hleaves i w).toAdvances

/-- The game is stored after a call when it was before, or the call has created it. -/
theorem created_perform {c : CompletionCall} (hjust : Justified completion game made c)
    (i : CompletionInput) (h : ((c.perform i w).2.events.get game.eventId).isSome) :
    (w.events.get game.eventId).isSome ∨ HasCreated completion game [⟨c, (c.perform i w).1⟩] ∧
      ∀ leader ∈ completion.leaders, (game.eventId, leader) ∈ (c.perform i w).2.leaders.rows := by
  rcases justified_cases hjust with rfl | ⟨_, _, _, _, rfl, -⟩ | hleaves
  · rw [perform_createEvent] at h ⊢
    cases hcreate : w.create game completion.leaders with
    | error fault =>
      rw [hcreate] at h
      exact .inl h
    | ok w' => exact .inr ⟨List.mem_singleton_self _, (created_game hcreate).2.1⟩
  · exact .inl h
  · exact .inl ((hleaves i w).created h)

theorem created_stored {c : CompletionCall} {i : CompletionInput}
    (h : (⟨.createEvent game completion.leaders, .ok ()⟩ : completionPorts.Entry) =
      ⟨c, (c.perform i w).1⟩) : ((c.perform i w).2.events.get game.eventId).isSome := by
  obtain ⟨hcall, hanswer⟩ := Sigma.mk.inj_iff.mp h
  subst hcall
  rw [perform_createEvent] at hanswer ⊢
  cases hcreate : w.create game completion.leaders with
  | error fault =>
    rw [hcreate] at hanswer
    exact nomatch eq_of_heq hanswer
  | ok w' => exact (created_game hcreate).1

/-- A new marker of an awaited message comes after that message. -/
theorem marked_perform {c : CompletionCall} (hjust : Justified completion game made c)
    (i : CompletionInput) (hnotice : notice ∈ completion.awaited)
    (h : notice.Marked (c.perform i w).2.users) : notice.Marked w.users ∨ HasTold notice made := by
  rcases justified_cases hjust with rfl | ⟨_, _, _, _, rfl, htold⟩ | hleaves
  · left
    rw [perform_createEvent] at h
    cases hcreate : w.create game completion.leaders with
    | error fault =>
      rw [hcreate] at h
      exact h
    | ok w' =>
      obtain ⟨-, -, -, -, husers⟩ := created_game hcreate
      rw [hcreate] at h
      exact husers ▸ h
  · exact (marked_claimDelivery h).imp_right (htold notice hnotice)
  · exact .inl ((hleaves i w).marked notice hnotice h)

/-- A call that sends a message has sent it, and one that finds its marker has found it. -/
theorem told_perform {c : CompletionCall} {i : CompletionInput}
    (h : HasTold notice [⟨c, (c.perform i w).1⟩]) :
    notice.Told (c.perform i w).2 ∨ notice.Marked w.users := by
  rcases h with ⟨text, buttons, hmem⟩ | ⟨user, hmem, hmarker⟩
  · left
    obtain ⟨hcall, hanswer⟩ := Sigma.mk.inj_iff.mp (List.mem_singleton.mp hmem)
    subst hcall
    have hanswer : i.ports (.send notice.profile.platform notice.userId notice.operationId text
      buttons) = .accepted := (eq_of_heq hanswer).symm
    exact ⟨_, List.mem_append_right _ (List.mem_singleton_self _), rfl, rfl, rfl, hanswer⟩
  · right
    obtain ⟨hcall, hanswer⟩ := Sigma.mk.inj_iff.mp (List.mem_singleton.mp hmem)
    subst hcall
    have hanswer : w.users.get notice.profile.platform notice.profile.platformUserId = some user :=
      (eq_of_heq hanswer).symm
    unfold CompletionNotice.Marked
    rw [hanswer]
    exact hmarker

theorem refreshed_perform {c : CompletionCall} {i : CompletionInput}
    (h : HasRefreshed bot completion game [⟨c, (c.perform i w).1⟩]) :
    ∃ gameDate, game.gameDate = some gameDate ∧
      dailyPassRefresh bot completion gameDate ∈ (c.perform i w).2.published := by
  obtain ⟨gameDate, hdate, hmem⟩ := h
  obtain ⟨hcall, hanswer⟩ := Sigma.mk.inj_iff.mp (List.mem_singleton.mp hmem)
  subst hcall
  have hanswer : i.ports (.publish (dailyPassRefresh bot completion gameDate)) = some () :=
    (eq_of_heq hanswer).symm
  refine ⟨gameDate, hdate, ?_⟩
  show _ ∈ (OutsideCall.record (.publish (dailyPassRefresh bot completion gameDate))
    (i.ports (.publish (dailyPassRefresh bot completion gameDate))) w).published
  rw [hanswer]
  exact List.mem_append_right _ (List.mem_singleton_self _)

end Stores

/-! ## Runs -/

/-- The attempt that has created the game is not given up before it has told the masters, sent the
links and ordered the table of passes, and no other delivery is acknowledged until then. The rest of
the world keeps to its own business. -/
def CreationsSettled (bot : Deployment) (completion : EventCreated) (game : Event)
    (s : CompletionRun) : Label Nat Nat CompletionInput World → Prop
  | .abandon g => CreationSettled bot completion game
      (callsSince (completionJobs bot completion) g s.history)
  | .finish g => ∀ g', g' ≠ g → CreationSettled bot completion game
      (callsSince (completionJobs bot completion) g' s.history)
  | .outside w => LeavesCompletion completion game s.world w
  | _ => True

/-- What the lanes have done is in the stores, and what is in the stores a lane has done. -/
structure CompletionKnown (bot : Deployment) (completion : EventCreated) (game : Event)
    (calls : Nat → CompletionEntries) (w : World) : Prop where
  told : ∀ g, ∀ notice ∈ completion.awaited, HasTold notice (calls g) → notice.Told w
  marked : ∀ notice ∈ completion.awaited, notice.Marked w.users → notice.Told w
  refreshed : ∀ g, HasRefreshed bot completion game (calls g) →
    ∃ gameDate, game.gameDate = some gameDate ∧
      dailyPassRefresh bot completion gameDate ∈ w.published
  found : ∀ g, (HasCreated completion game (calls g) ∨
    ∃ event, ⟨.port (.events (.get game.eventId)), some event⟩ ∈ calls g) →
      (w.events.get game.eventId).isSome
  stored : (w.events.get game.eventId).isSome →
    (∀ leader ∈ completion.leaders, (game.eventId, leader) ∈ w.leaders.rows) ∧
      ((∃ g, HasCreated completion game (calls g)) ∨ Completed bot completion game w)

section Runs

variable {bot : Deployment} {completion : EventCreated} {game : Event} {w w' : World}
  {calls calls' : Nat → CompletionEntries} {s₀ s : CompletionRun}

theorem Completed.later (h : Completed bot completion game w) (hw : Advances completion game w w') :
    Completed bot completion game w' where
  stored := hw.stored h.stored
  leaders leader hleader := hw.leaders leader hleader (h.leaders leader hleader)
  told notice hnotice := (h.told notice hnotice).later hw.sent
  refreshed := by
    obtain ⟨gameDate, hdate, hmem⟩ := h.refreshed
    exact ⟨gameDate, hdate, hw.published _ hmem⟩

/-- A lane that has fulfilled what its creation asks for has completed the game. -/
theorem CompletionKnown.completed (h : CompletionKnown bot completion game calls w) {g : Nat}
    (hstored : (w.events.get game.eventId).isSome)
    (hfulfils : Fulfils bot completion game (calls g)) : Completed bot completion game w where
  stored := hstored
  leaders := (h.stored hstored).1
  told notice hnotice := h.told g notice hnotice (hfulfils.1 notice hnotice)
  refreshed := h.refreshed g hfulfils.2

theorem CompletionKnown.outside (h : CompletionKnown bot completion game calls w)
    (hw : LeavesCompletion completion game w w') : CompletionKnown bot completion game calls w' where
  told g notice hnotice htold := (h.told g notice hnotice htold).later hw.sent
  marked notice hnotice hmarked :=
    (h.marked notice hnotice (hw.marked notice hnotice hmarked)).later hw.sent
  refreshed g hrefreshed := by
    obtain ⟨gameDate, hdate, hmem⟩ := h.refreshed g hrefreshed
    exact ⟨gameDate, hdate, hw.published _ hmem⟩
  found g hfound := hw.stored (h.found g hfound)
  stored hstored := by
    obtain ⟨hleaders, hcompleted⟩ := h.stored (hw.created hstored)
    exact ⟨fun leader hleader => hw.leaders leader hleader (hleaders leader hleader),
      hcompleted.imp_right fun hcompleted => hcompleted.later hw.toAdvances⟩

theorem CompletionKnown.call {c : CompletionCall} {i : CompletionInput} {g : Nat}
    (h : CompletionKnown bot completion game calls w)
    (hjust : Justified completion game (calls g) c)
    (hcalls : ∀ g', calls' g' = calls g' ∨
      g = g' ∧ calls' g' = ⟨c, (c.perform i w).1⟩ :: calls g')
    (hown : calls' g = ⟨c, (c.perform i w).1⟩ :: calls g) :
    CompletionKnown bot completion game calls' (c.perform i w).2 := by
  have hw := advances_perform (w := w) hjust i
  constructor
  · intro g' notice hnotice htold
    rcases hcalls g' with hsame | ⟨-, hcons⟩
    · rw [hsame] at htold
      exact (h.told g' notice hnotice htold).later hw.sent
    · rw [hcons] at htold
      rcases htold.cons with hnow | hbefore
      · rcases told_perform hnow with htold | hmarked
        · exact htold
        · exact (h.marked notice hnotice hmarked).later hw.sent
      · exact (h.told g' notice hnotice hbefore).later hw.sent
  · intro notice hnotice hmarked
    rcases marked_perform hjust i hnotice hmarked with hbefore | htold
    · exact (h.marked notice hnotice hbefore).later hw.sent
    · exact (h.told g notice hnotice htold).later hw.sent
  · intro g' hrefreshed
    have hkept (hold : HasRefreshed bot completion game (calls g')) :
        ∃ gameDate, game.gameDate = some gameDate ∧
          dailyPassRefresh bot completion gameDate ∈ (c.perform i w).2.published := by
      obtain ⟨gameDate, hdate, hmem⟩ := h.refreshed g' hold
      exact ⟨gameDate, hdate, hw.published _ hmem⟩
    rcases hcalls g' with hsame | ⟨-, hcons⟩
    · rw [hsame] at hrefreshed
      exact hkept hrefreshed
    · rw [hcons] at hrefreshed
      obtain ⟨gameDate, hdate, hmem⟩ := hrefreshed
      rcases List.mem_cons.mp hmem with hnow | hold
      · exact refreshed_perform ⟨gameDate, hdate, List.mem_singleton.mpr hnow⟩
      · exact hkept ⟨gameDate, hdate, hold⟩
  · intro g' hfound
    rcases hcalls g' with hsame | ⟨-, hcons⟩
    · rw [hsame] at hfound
      exact hw.stored (h.found g' hfound)
    · rw [hcons] at hfound
      rcases hfound with hcreated | ⟨event, hread⟩
      · rcases List.mem_cons.mp hcreated with hnow | hold
        · exact created_stored hnow
        · exact hw.stored (h.found g' (.inl hold))
      · rcases List.mem_cons.mp hread with hnow | hold
        · obtain ⟨hcall, hanswer⟩ := Sigma.mk.inj_iff.mp hnow
          subst hcall
          have hanswer : w.events.get game.eventId = some event := (eq_of_heq hanswer).symm
          refine hw.stored ?_
          rw [hanswer]
          rfl
        · exact hw.stored (h.found g' (.inr ⟨event, hold⟩))
  · intro hstored
    rcases created_perform hjust i hstored with hbefore | ⟨hcreated, hleaders⟩
    · obtain ⟨hleaders, hcompleted⟩ := h.stored hbefore
      refine ⟨fun leader hleader => hw.leaders leader hleader (hleaders leader hleader), ?_⟩
      refine hcompleted.imp ?_ fun hcompleted => hcompleted.later hw
      rintro ⟨g', hcreated⟩
      refine ⟨g', ?_⟩
      rcases hcalls g' with hsame | ⟨-, hcons⟩
      · rwa [hsame]
      · rw [hcons]
        exact List.mem_cons_of_mem _ hcreated
    · refine ⟨hleaders, .inl ⟨g, ?_⟩⟩
      rw [hown]
      exact List.mem_cons.mpr (.inl (List.mem_singleton.mp hcreated))

/-- The acknowledged delivery leaves a completed game, and its lane forgets its calls. -/
theorem CompletionKnown.finish {g : Nat} (calls' : Nat → CompletionEntries)
    (h : CompletionKnown bot completion game calls w)
    (hown : Acknowledges bot completion game (calls g))
    (hothers : ∀ g', g' ≠ g → CreationSettled bot completion game (calls g'))
    (hcalls : ∀ g', g' ≠ g → calls' g' = calls g') (hforgets : calls' g = []) :
    Completed bot completion game w ∧ CompletionKnown bot completion game calls' w := by
  have hstored := h.found g hown.2.2
  have hcompleted : Completed bot completion game w := by
    rcases (h.stored hstored).2 with ⟨g', hcreated⟩ | hcompleted
    · by_cases hg : g' = g
      · subst hg
        exact h.completed hstored (hown.1 hcreated)
      · exact h.completed hstored (hothers g' hg hcreated)
    · exact hcompleted
  have holder {P : CompletionEntries → Prop} (hnone : ¬P []) {g' : Nat} (hP : P (calls' g')) :
      P (calls g') := by
    by_cases hg : g' = g
    · rw [hg, hforgets] at hP
      exact absurd hP hnone
    · rwa [hcalls g' hg] at hP
  refine ⟨hcompleted, ⟨fun g' notice hnotice htold => ?_, h.marked, fun g' hrefreshed => ?_,
    fun _ _ => hstored, fun _ => ⟨hcompleted.leaders, .inr hcompleted⟩⟩⟩
  · refine h.told g' notice hnotice (holder (P := HasTold notice) ?_ htold)
    rintro (⟨_, _, hmem⟩ | ⟨_, hmem, _⟩)
    · exact absurd hmem List.not_mem_nil
    · exact absurd hmem List.not_mem_nil
  · refine h.refreshed g' (holder (P := HasRefreshed bot completion game) ?_ hrefreshed)
    rintro ⟨_, _, hmem⟩
    exact absurd hmem List.not_mem_nil

/-- What holds whenever nobody makes a call. -/
def CompletionsKnown (bot : Deployment) (completion : EventCreated) (game : Event)
    (history : List (Record completionPorts Unit Nat World)) (w : World) : Prop :=
  CompletionKnown bot completion game
      (fun g => callsSince (completionJobs bot completion) g history) w ∧
    ∀ job, .finished job () ∈ history → Completed bot completion game w

theorem completions_known (hsuccess : completion.success = true)
    (hgame : completion.game = some game) (hidle : s₀.Idle) (hnew : s₀.history = [])
    (hfresh : s₀.world.events.get game.eventId = none)
    (hmarkers : ∀ notice ∈ completion.awaited, ¬notice.Marked s₀.world.users)
    (hs : Fleet.Reaches (completionJobs bot completion) completionStorage
      (CreationsSettled bot completion game) s₀ s) :
    CompletionsKnown bot completion game s.history s.world := by
  refine (hs.settled_rule (A := fun _ _ => True) (Z := CreationSettled bot completion game)
    (T := fun _ => Justified completion game) (X := fun _ _ _ => True)
    (Q := fun _ made _ => Acknowledges bot completion game made)
    (CompletionsKnown bot completion game) hidle hnew ?_ ?_ ?_ ?_ ?_ ?_ ?_ ?_).1
  · refine ⟨⟨?_, ?_, ?_, ?_, ?_⟩, fun _ h => absurd h List.not_mem_nil⟩
    · rintro g notice - (⟨_, _, hmem⟩ | ⟨_, hmem, -⟩)
      · exact absurd hmem List.not_mem_nil
      · exact absurd hmem List.not_mem_nil
    · exact fun notice hnotice hmarked => absurd hmarked (hmarkers notice hnotice)
    · rintro g ⟨_, _, hmem⟩
      exact absurd hmem List.not_mem_nil
    · rintro g (hmem | ⟨_, hmem⟩)
      · exact absurd hmem List.not_mem_nil
      · exact absurd hmem List.not_mem_nil
    · intro hstored
      rw [hfresh] at hstored
      exact nomatch hstored
  · exact fun hmem => absurd hmem List.not_mem_nil
  · exact fun s g job p hC _ => hC
  · exact fun job made hmade => traced_handleEventCreated hsuccess hgame hmade
  · exact fun _ _ _ => trivial
  · exact fun s w hC h => ⟨h.1.outside hC, fun job hjob => (h.2 job hjob).later hC.toAdvances⟩
  · rintro s g i job c - - rfl hjust ⟨hknown, hfinished⟩
    refine ⟨hknown.call hjust (fun g' => callsSince_called (completionJobs bot completion) s.history
      g' job c s.world (c.perform i s.world).2 (c.perform i s.world).1) callsSince_own, ?_⟩
    intro job' hjob'
    rcases List.mem_cons.mp hjob' with hnow | hold
    · exact nomatch hnow
    · exact (hfinished job' hold).later (advances_perform hjust i)
  · rintro s g job ⟨⟩ hC - rfl hacknowledges ⟨hknown, -⟩
    obtain ⟨hcompleted, hknown⟩ := hknown.finish (fun g =>
      callsSince (completionJobs bot completion) g (.finished job () :: s.history)) hacknowledges hC
      (fun g' hg => callsSince_of_ne (Ne.symm hg)) (if_pos rfl)
    exact ⟨hknown, fun _ _ => hcompleted⟩

/-- In every run in which the attempt that has created the game is not given up before it has told
the masters, sent the links and ordered the table of passes, and no other delivery is acknowledged
before that, an acknowledged delivery has left the game with its masters, everybody told and the
table of passes ordered. -/
theorem acknowledged_completions (hsuccess : completion.success = true)
    (hgame : completion.game = some game) (hidle : s₀.Idle) (hnew : s₀.history = [])
    (hfresh : s₀.world.events.get game.eventId = none)
    (hmarkers : ∀ notice ∈ completion.awaited, ¬notice.Marked s₀.world.users)
    (hs : Fleet.Reaches (completionJobs bot completion) completionStorage
      (CreationsSettled bot completion game) s₀ s)
    {job : Nat} (hjob : .finished job () ∈ s.history) : Completed bot completion game s.world :=
  (completions_known hsuccess hgame hidle hnew hfresh hmarkers hs).2 job hjob

end Runs

/-! ### An attempt fails when it has created the game -/

section Samples

def completionBot : Deployment where
  participantKey platform userId eventId := s!"{platform.value}:{userId}:{eventId}"
  uuid5 := id
  casefold := id

def completionDraft : Event :=
  ({ eventId := "game", name := "Игра", signupToken := some "token", gameDate := some ⟨2030, 1, 2⟩ } :
    Event).withPublicTable "disk:/public/game.xlsx" "" none

/-- A game of two masters, one of whom has asked for it. -/
def completionSample : EventCreated where
  jobId := "job"
  publicUrls := [("master", "https://m"), ("public", "https://p"), ("pass", "https://t")]
  event := some completionDraft
  leaders := [⟨.telegram, 42⟩, ⟨.vk, 7⟩]
  requester := some ⟨.telegram, 42, 42⟩

def completionGame : Event :=
  { completionDraft.withPublicTable "disk:/public/game.xlsx" "https://p" none with
    publicRegistrationUrl := "https://m" }

/-- Every service answers. -/
def completionInput : CompletionInput where
  ports
    | .now => 5
    | .isAdmin _ _ | .passTableExists _ => some false
    | .send _ _ _ _ _ => .accepted
    | .kickMember _ _ _ => some true
    | .readLegacyRegistrations _ => some []
    | .createPublicEventWorkbook _ _ _ _ | .createPassTable _ _ | .replace _ _ _
    | .getChatMember _ _ _ | .resolveUserId _ => some none
    | .deleteEventWorkbook _ | .replacePassTable _ _ | .deletePassTable _
    | .deleteAchievementPresentation _ | .publish _ => some ()
    | .prepareStatistics _ _ _ _ | .commitStatistics _ _ | .hasAnyPlayer _ => .ok false
    | .linkStatistics _ => .ok ""
  secret name := if name = "VK_GROUP_ID" then some "100" else some "larp_bot"

def completionStart : CompletionRun where
  world := {}

/-- One attempt creates the game and makes all its calls. -/
def completionCalls : List (Label Nat Nat CompletionInput World) :=
  .publish 0 :: .start 0 :: List.replicate 11 (.call 0 completionInput)

/-- The first attempt fails when it has created the game, and the completion comes again. -/
def completionBroken : List (Label Nat Nat CompletionInput World) :=
  .publish 0 :: (Fleet.attempt 0 2 completionInput (.abandon 0) ++
    Fleet.attempt 0 8 completionInput (.finish 0))

def completionAfter (schedule : List (Label Nat Nat CompletionInput World)) : CompletionRun :=
  completionStart.play (completionJobs completionBot completionSample) completionStorage schedule

/-- The delivery is acknowledged. -/
def completionAcknowledged : CompletionRun :=
  (completionAfter completionCalls).step (completionJobs completionBot completionSample)
    completionStorage (.finish 0)

theorem completed_atOnce :
    (completionAcknowledged.history.any fun record => match record with
        | .finished _ _ => true
        | _ => false) = true ∧
      Completed completionBot completionSample completionGame completionAcknowledged.world := by
  have hcalls : Fleet.Reaches (completionJobs completionBot completionSample) completionStorage
      (CreationsSettled completionBot completionSample completionGame) completionStart
      (completionAfter completionCalls) := by
    refine Fleet.Reaches.refl.play fun s l hl => ?_
    simp only [completionCalls, List.mem_cons, List.mem_replicate] at hl
    rcases hl with rfl | rfl | ⟨-, rfl⟩ <;> trivial
  have hown : ∀ record ∈ (completionAfter completionCalls).history, record.job = 0 := by
    decide +kernel
  have hrun := hcalls.step (l := .finish 0) fun g hg => by
    have hnone : callsSince (completionJobs completionBot completionSample) g
        (completionAfter completionCalls).history = [] := by
      refine callsSince_of_forall fun record hrecord => ?_
      show record.job ≠ g
      rw [hown record hrecord]
      exact Ne.symm hg
    rw [hnone]
    exact fun hmem => absurd hmem List.not_mem_nil
  have hfinished : (completionAcknowledged.history.any fun record => match record with
      | .finished _ _ => true
      | _ => false) = true := by
    decide +kernel
  refine ⟨hfinished, ?_⟩
  obtain ⟨record, hrecord, hkind⟩ := List.any_eq_true.mp hfinished
  cases record with
  | called => exact nomatch hkind
  | finished job a =>
    refine acknowledged_completions rfl (by decide +kernel) (fun _ => rfl) rfl rfl ?_ hrun hrecord
    intro notice _ hmarked
    exact nomatch hmarked

/-- The retry is acknowledged: the game is stored and the links are sent, but the other master never
hears of it and no table of passes is ordered. -/
theorem masters_never_told :
    Fleet.Reaches (completionJobs completionBot completionSample) completionStorage (fun _ _ => True)
        completionStart (completionAfter completionBroken) ∧
      ((completionAfter completionBroken).history.any fun record => match record with
        | .finished _ _ => true
        | _ => false) = true ∧
      ((completionAfter completionBroken).world.events.get "game").isSome ∧
      ((completionAfter completionBroken).world.sent.map fun delivery => delivery.requestId) =
        ["job:complete"] ∧
      ¬(completionSample.leaderNotice ⟨.vk, 7⟩).Told (completionAfter completionBroken).world ∧
      (completionAfter completionBroken).world.published = [] := by
  refine ⟨Fleet.Reaches.refl.play fun _ _ _ => trivial, ?_⟩
  decide +kernel

end Samples

end LarpBot
