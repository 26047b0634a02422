import LarpBot.Application.EventAdministration
import LarpBot.Laws.Maintenance
import LarpBot.Laws.QueueMessages

/-!
# The lengths of messages

Telegram counts the UTF-16 code units of a message and refuses more than `maxMessageLength` of them.
The text of a confirmation is cut to that length: only the echo of the wish gives way, character by
character, so the text fits whenever it does with an empty wish (`confirmation_text_fits`).

Of the other texts nothing is cut. How long they are is said by the lengths of their parts.
-/

namespace LarpBot

open Atomic

/-! ## Units -/

/-- The UTF-16 code units of a character. -/
def charUnits (c : Char) : Nat :=
  if c.toNat < 0x10000 then 1 else 2

def units (text : List Char) : Nat :=
  (text.map charUnits).sum

theorem messageLength_eq (text : String) : messageLength text = units text.toList := rfl

@[simp] theorem units_nil : units [] = 0 := rfl

@[simp] theorem units_cons (c : Char) (text : List Char) :
    units (c :: text) = charUnits c + units text := by
  simp [units]

@[simp] theorem units_append (text rest : List Char) : units (text ++ rest) = units text + units rest := by
  simp [units]

@[simp] theorem messageLength_ofList (text : List Char) :
    messageLength (String.ofList text) = units text := by
  rw [messageLength_eq, String.toList_ofList]

theorem messageLength_append (text rest : String) :
    messageLength (text ++ rest) = messageLength text + messageLength rest := by
  rw [messageLength_eq, String.toList_append, units_append]
  rfl

theorem messageLength_empty : messageLength "" = 0 := rfl

/-! ## The head of a wish -/

theorem fitting_cons (budget : Int) (c : Char) (text : List Char) :
    fitting budget (c :: text) = if budget - charUnits c < 0 then []
      else c :: fitting (budget - charUnits c) text := by
  unfold charUnits
  rw [fitting]
  split <;> rfl

theorem fitting_prefix (budget : Int) (text : List Char) : fitting budget text <+: text := by
  induction text generalizing budget with
  | nil => exact List.prefix_refl _
  | cons c text ih =>
    rw [fitting_cons]
    split
    · exact List.nil_prefix
    · exact List.cons_prefix_cons.mpr ⟨rfl, ih _⟩

theorem units_fitting {budget : Int} (h : 0 ≤ budget) (text : List Char) :
    (units (fitting budget text) : Int) ≤ budget := by
  induction text generalizing budget with
  | nil => simpa [fitting] using h
  | cons c text ih =>
    rw [fitting_cons]
    split
    · simpa using h
    · rename_i hleft
      have hrest := ih (Int.not_lt.mp hleft)
      rw [units_cons]
      push_cast
      omega

/-- A longer head does not fit. -/
theorem fitting_longest {budget : Int} {text longer : List Char} (hlonger : longer <+: text)
    (hlength : (fitting budget text).length < longer.length) : budget < units longer := by
  induction text generalizing budget longer with
  | nil =>
    rw [List.prefix_nil.mp hlonger] at hlength
    exact absurd hlength (Nat.not_lt_zero _)
  | cons c text ih =>
    cases longer with
    | nil => exact absurd hlength (Nat.not_lt_zero _)
    | cons d longer =>
      obtain ⟨rfl, hrest⟩ := List.cons_prefix_cons.mp hlonger
      rw [units_cons]
      rw [fitting_cons] at hlength
      split at hlength
      · rename_i hleft
        push_cast
        omega
      · have hmore := ih hrest (Nat.lt_of_succ_lt_succ hlength)
        push_cast
        omega

/-- A text without the white space at its end. -/
def withoutTail (text : List Char) : List Char :=
  (text.reverse.dropWhile isPythonSpace).reverse

theorem units_withoutTail (text : List Char) : units (withoutTail text) ≤ units text := by
  have hsplit : withoutTail text ++ (text.reverse.takeWhile isPythonSpace).reverse = text := by
    rw [withoutTail, ← List.reverse_append, List.takeWhile_append_dropWhile, List.reverse_reverse]
  calc units (withoutTail text)
      ≤ units (withoutTail text) + units (text.reverse.takeWhile isPythonSpace).reverse :=
        Nat.le_add_right _ _
    _ = units text := by rw [← units_append, hsplit]

/-! ## The text of a confirmation -/

/-- The confirmation with a wish. -/
def confirmationText (event : Event) (inMainRoster : Bool)
    (masters : List (BotIdentity × Option User)) (wish : String) : String :=
  let linkText := if inMainRoster then "Мастера скоро отправят вам ссылку на чат игры!\n\n" else ""
  s!"✅ Участие в игре {eventReference event.name event.gameDate} подтверждено.\n\n" ++
    s!"{linkText}Пожелания по персонажу:\n{wish}\n\n" ++
    "Позже их можно изменить через «🎭 Пожелания по игре».\n\n" ++ masterContactsSection masters

/-- What is echoed of a wish of which some first characters are kept. -/
def echo (kept : List Char) : String :=
  String.ofList (withoutTail kept) ++ "…"

section Confirmation

variable (event : Event) (inMainRoster : Bool) (masters : List (BotIdentity × Option User))
  (wish : String)

/-- Around the wish the text stays as it is. -/
theorem messageLength_confirmationText :
    messageLength (confirmationText event inMainRoster masters wish) =
      messageLength (confirmationText event inMainRoster masters "") + messageLength wish := by
  unfold confirmationText
  simp only [messageLength_append, toString, messageLength_empty]
  omega

/-- The units that are left for the head of a wish that is cut. -/
def wishBudget : Int :=
  messageLength wish -
    ((messageLength (confirmationText event inMainRoster masters wish) : Int) - maxMessageLength) - 1

theorem confirmationSuccessText_eq :
    confirmationSuccessText event wish inMainRoster masters =
      if (messageLength (confirmationText event inMainRoster masters wish) : Int) - maxMessageLength ≤ 0
      then confirmationText event inMainRoster masters wish
      else confirmationText event inMainRoster masters
        (echo (fitting (wishBudget event inMainRoster masters wish) wish.toList)) := rfl

variable {event inMainRoster masters}

/-- What the budget is for: a head and the ellipsis after it. -/
theorem fits_iff_budget (kept : List Char) :
    messageLength (confirmationText event inMainRoster masters (String.ofList kept ++ "…")) ≤
        maxMessageLength ↔ (units kept : Int) ≤ wishBudget event inMainRoster masters wish := by
  have hellipsis : messageLength "…" = 1 := rfl
  unfold wishBudget
  rw [messageLength_confirmationText _ _ _ (String.ofList kept ++ "…"),
    messageLength_confirmationText _ _ _ wish, messageLength_append, messageLength_ofList, hellipsis]
  omega

end Confirmation

/-- If the confirmation fits with an ellipsis for a wish, it fits with every wish. A wish for which there
is room is echoed as it is, and of any other one as many first characters as there is room for. -/
theorem confirmation_text_fits (event : Event) (wish : String) (inMainRoster : Bool)
    (masters : List (BotIdentity × Option User))
    (h : messageLength (confirmationText event inMainRoster masters "…") ≤ maxMessageLength) :
    messageLength (confirmationSuccessText event wish inMainRoster masters) ≤ maxMessageLength ∧
    (messageLength (confirmationText event inMainRoster masters wish) ≤ maxMessageLength →
      confirmationSuccessText event wish inMainRoster masters =
        confirmationText event inMainRoster masters wish) ∧
    (maxMessageLength < messageLength (confirmationText event inMainRoster masters wish) →
      ∃ kept, kept <+: wish.toList ∧
        confirmationSuccessText event wish inMainRoster masters =
          confirmationText event inMainRoster masters (echo kept) ∧
        ∀ longer, longer <+: wish.toList → kept.length < longer.length →
          maxMessageLength <
            messageLength (confirmationText event inMainRoster masters (String.ofList longer ++ "…"))) := by
  rw [confirmationSuccessText_eq]
  by_cases hroom : (messageLength (confirmationText event inMainRoster masters wish) : Int) -
      maxMessageLength ≤ 0
  · rw [if_pos hroom]
    refine ⟨by omega, fun _ => rfl, fun hlong => ?_⟩
    omega
  · rw [if_neg hroom]
    have hbudget : 0 ≤ wishBudget event inMainRoster masters wish := by
      have hnil := (fits_iff_budget wish []).mp (by simpa using h)
      simpa using hnil
    refine ⟨?_, fun hshort => ?_, fun _ => ⟨_, fitting_prefix _ _, rfl, fun longer hlonger hlength => ?_⟩⟩
    · -- the white space at the end is given up on top
      have hkept := units_fitting hbudget wish.toList
      have htrimmed := units_withoutTail (fitting (wishBudget event inMainRoster masters wish) wish.toList)
      apply (fits_iff_budget wish _).mpr
      omega
    · omega
    · have hmore := fitting_longest hlonger hlength
      rw [← Nat.not_le, fits_iff_budget wish, Int.not_le]
      exact hmore

def chatterGame : Event where
  eventId := "game"
  name := "Игра"
  publicTableResourcePath := some "disk:/larp-bot/events/game/public_table_Игра.xlsx"
  publicTablePublicUrl := some "https://disk.yandex.ru/i/table"

set_option maxRecDepth 1000 in
theorem chatterGame_room :
    messageLength (confirmationText chatterGame true [] "…") ≤ maxMessageLength := by
  have hnone : eventMastersText [] = "" := rfl
  have hhead : messageLength "✅ Участие в игре " = 17 := rfl
  have hreference : messageLength (eventReference chatterGame.name chatterGame.gameDate) = 6 := by decide
  have hdone : messageLength " подтверждено.\n\n" = 16 := rfl
  have hlink : messageLength "Мастера скоро отправят вам ссылку на чат игры!\n\n" = 48 :=
    (messageLength_ofList _).trans rfl
  have hwish : messageLength "Пожелания по персонажу:\n" = 24 := rfl
  have hlater : messageLength "Позже их можно изменить через «🎭 Пожелания по игре».\n\n" = 55 :=
    (messageLength_ofList _).trans rfl
  have htell : messageLength "Если вы решите не участвовать в игре, пожалуйста сообщите об этом " = 66 :=
    (messageLength_ofList _).trans rfl
  have hwarning : messageLength
      "Если вы не придете на игру, ничего нам не сообщив, к вам могут быть применены санкции " = 86 :=
    (messageLength_ofList _).trans rfl
  unfold confirmationText masterContactsSection masterNoShowWarning
  simp only [messageLength_append, toString, if_true, List.filterMap_nil, List.isEmpty_nil, hnone, hhead,
    hreference, hdone, hlink, hwish, hlater, htell, hwarning]
  decide

/-- A wish of 5000 letters is cut. -/
theorem longWish_fits : messageLength
    (confirmationSuccessText chatterGame (String.ofList (List.replicate 5000 'а')) true []) ≤
      maxMessageLength :=
  (confirmation_text_fits chatterGame _ true [] chatterGame_room).1

/-! ## Parts and their lengths -/

/-- The date behind the name of a game. -/
def dateUnits : Option GameDate → Nat
  | none => 0
  | some gameDate => 3 + messageLength (formatGameDate gameDate)

theorem messageLength_eventReference (name : String) (gameDate : Option GameDate) :
    messageLength (eventReference name gameDate) = 2 + messageLength name + dateUnits gameDate := by
  have hopen : messageLength "«" = 1 := rfl
  have hclose : messageLength "»" = 1 := rfl
  have hbefore : messageLength "» (" = 3 := rfl
  have hafter : messageLength ")" = 1 := rfl
  cases gameDate <;>
  · simp only [eventReference, dateUnits, messageLength_append, toString, hopen, hclose, hbefore, hafter]
    omega

theorem messageLength_intercalate (separator : String) (parts : List String) :
    messageLength (separator.intercalate parts) =
      (parts.map messageLength).sum + (parts.length - 1) * messageLength separator := by
  induction parts with
  | nil => simp [messageLength_empty]
  | cons part parts ih =>
    cases parts with
    | nil => simp
    | cons next parts =>
      rw [String.intercalate_cons_cons, messageLength_append, messageLength_append, ih]
      simp only [List.map_cons, List.sum_cons, List.length_cons, Nat.add_sub_cancel, Nat.succ_mul]
      omega

theorem stripped_stripped (text : String) : stripped (stripped text) = stripped text :=
  stripBy_stripBy isPythonSpace text

/-! ## Broadcasts -/

/-- The units of a message to players: the name and the date of the game, and what is sent. -/
def playerTextUnits (name : String) (gameDate : Option GameDate) (message : String) : Nat :=
  32 + messageLength name + dateUnits gameDate + messageLength (stripped message)

/-- The units of a message with a chat link. -/
def linkTextUnits (name : String) (gameDate : Option GameDate) (message : String) : Nat :=
  47 + messageLength name + dateUnits gameDate + messageLength (stripped message)

theorem messageLength_playerNotificationText (name message : String) (gameDate : Option GameDate) :
    messageLength (playerNotificationText name message gameDate) =
      playerTextUnits name gameDate message := by
  have hgreeting : messageLength "Сообщение от мастеров игры " = 27 := rfl
  have hcolon : messageLength ":\n\n" = 3 := rfl
  unfold playerNotificationText playerTextUnits
  simp only [messageLength_append, toString, messageLength_eventReference, hgreeting, hcolon]
  omega

theorem messageLength_confirmedNotificationText (bot : Deployment) (name message : String)
    (gameDate : Option GameDate) :
    messageLength (confirmedNotificationText bot name message gameDate) =
      if isPlainChatLink bot (stripped message) then linkTextUnits name gameDate message
      else playerTextUnits name gameDate message := by
  have hgreeting : messageLength "Вы в основном составе игры " = 27 := rfl
  have hstop : messageLength ". " = 2 := rfl
  have hjoin : messageLength "Вступите в чат: " = 16 := rfl
  unfold confirmedNotificationText
  by_cases hlink : isPlainChatLink bot (stripped message) = true
  · rw [if_pos hlink, if_pos hlink]
    unfold linkTextUnits
    simp only [messageLength_append, toString, messageLength_eventReference, hgreeting, hstop,
      hjoin]
    omega
  · rw [if_neg hlink, if_neg hlink, messageLength_playerNotificationText]
    unfold playerTextUnits
    rw [stripped_stripped]

/-! ## Masters -/

/-- What is listed of a master: the name and the link, as far as they are known. -/
def masterParts (master : BotIdentity × Option User) : List String :=
  (((master.2.bind fun user => user.base.fullName).filter (· ≠ "")).map surnameAndName).toList ++
    (masterProfileUrl master.1 master.2).toList

/-- The masters of whom something is known. -/
def listedMasters (masters : List (BotIdentity × Option User)) : List (List String) :=
  (masters.map masterParts).filter fun parts => !parts.isEmpty

/-- The units of the list of masters, behind the empty line before it. -/
def mastersUnits (masters : List (BotIdentity × Option User)) : Nat :=
  if (listedMasters masters).isEmpty then 0
  else 16 + ((listedMasters masters).map fun parts =>
    (parts.map messageLength).sum + (parts.length - 1) * 3).sum + ((listedMasters masters).length - 1)

/-- The lines of the list of masters. -/
def masterLines (masters : List (BotIdentity × Option User)) : List String :=
  (listedMasters masters).map (" — ".intercalate ·)

theorem masterLines_eq (masters : List (BotIdentity × Option User)) :
    masterLines masters = masters.filterMap fun master =>
      if (masterParts master).isEmpty then none else some (" — ".intercalate (masterParts master)) := by
  unfold masterLines listedMasters
  induction masters with
  | nil => rfl
  | cons master masters ih =>
    rw [List.map_cons, List.filterMap_cons, ← ih]
    cases hparts : (masterParts master).isEmpty <;> simp [hparts]

theorem eventMastersText_eq (masters : List (BotIdentity × Option User)) :
    eventMastersText masters = if (masterLines masters).isEmpty then ""
      else "Мастера игры:\n" ++ "\n".intercalate (masterLines masters) := by
  rw [masterLines_eq]
  rfl

/-- Without a master to list there is no text. -/
theorem eventMastersText_eq_empty (masters : List (BotIdentity × Option User)) :
    eventMastersText masters = "" ↔ (listedMasters masters).isEmpty = true := by
  rw [eventMastersText_eq, masterLines, List.isEmpty_map]
  cases hlisted : (listedMasters masters).isEmpty with
  | true => simp
  | false =>
    have hlong : messageLength "Мастера игры:\n" = 14 := rfl
    refine iff_of_false (fun hempty => ?_) Bool.false_ne_true
    have hzero := congrArg messageLength hempty
    rw [if_neg Bool.false_ne_true, messageLength_append, hlong, messageLength_empty] at hzero
    omega

theorem messageLength_eventMastersText (masters : List (BotIdentity × Option User)) :
    messageLength (eventMastersText masters) = mastersUnits masters - 2 := by
  have htitle : messageLength "Мастера игры:\n" = 14 := rfl
  have hdash : messageLength " — " = 3 := rfl
  have hline : messageLength "\n" = 1 := rfl
  rw [eventMastersText_eq, masterLines, List.isEmpty_map, mastersUnits]
  cases hlisted : (listedMasters masters).isEmpty with
  | true => rfl
  | false =>
    rw [if_neg Bool.false_ne_true, if_neg Bool.false_ne_true, messageLength_append, htitle,
      messageLength_intercalate, hline, List.map_map, List.length_map]
    have hparts : messageLength ∘ (" — ".intercalate ·) =
        fun parts : List String => (parts.map messageLength).sum + (parts.length - 1) * 3 := by
      funext parts
      rw [Function.comp_apply, messageLength_intercalate, hdash]
    rw [hparts]
    omega

/-! ## Enlistments -/

section Enlistment

variable (event : Event)

/-- The links of the public table. -/
def linksUnits : Nat :=
  let yandex := if event.publicTablePublicUrl = event.publicTableGoogleUrl then none
    else event.publicTablePublicUrl
  match event.publicTableGoogleUrl, yandex with
  | some google, some yandex => 28 + messageLength google + messageLength yandex
  | some google, none => 14 + messageLength google
  | none, some yandex => messageLength yandex
  | none, none => 0

/-- The place in the queue. -/
def placeUnits (queuePosition capacity : Nat) : Nat :=
  if queuePosition ≤ capacity then 31 else 115 + messageLength (toString (queuePosition - capacity))

/-- What is said about the confirmation. -/
def confirmationUnits : Nat :=
  if event.status = .confirmationOpen then
    70 + (event.confirmationDeadline.map fun deadline =>
      10 + messageLength (formatConfirmationDeadline deadline)).getD 0
  else 111

def answerUnits (answerId : Option String) : Nat :=
  ((event.registrationQuestion.bind fun question => question.option answerId).map fun option =>
    13 + messageLength option.name).getD 0

def warningUnits (sameDayWarning : Bool) : Nat :=
  match sameDayWarning, event.gameDate with
  | true, some gameDate => 162 + messageLength (formatGameDate gameDate)
  | _, _ => 0

/-- The units of the answer to an enlistment. -/
def enlistmentUnits (queuePosition : Nat) (masters : List (BotIdentity × Option User))
    (sameDayWarning : Bool) (answerId : Option String) : Nat :=
  175 + messageLength event.name + dateUnits event.gameDate +
    placeUnits queuePosition ((answerCapacity event answerId).getD 0) + linksUnits event +
    confirmationUnits event + answerUnits event answerId + warningUnits event sameDayWarning +
    mastersUnits masters

variable {event}

theorem messageLength_publicTableLinks {links : String}
    (h : publicTableLinksForPlayer event = some links) : messageLength links = linksUnits event := by
  have hgoogle : messageLength "Google Drive: " = 14 := rfl
  have hyandex : messageLength "\nЯндекс Диск: " = 14 := rfl
  unfold publicTableLinksForPlayer at h
  unfold linksUnits
  generalize (if event.publicTablePublicUrl = event.publicTableGoogleUrl then none
    else event.publicTablePublicUrl) = yandex at h ⊢
  cases hurl : event.publicTableGoogleUrl with
  | none =>
    cases yandex with
    | none => simp [hurl] at h
    | some yandex =>
      simp only [hurl, Option.some.injEq] at h
      rw [← h]
  | some google =>
    cases yandex with
    | none =>
      simp only [hurl, Option.some.injEq] at h
      rw [← h]
      simp only [messageLength_append, toString, hgoogle]
    | some yandex =>
      simp only [hurl, Option.some.injEq] at h
      rw [← h]
      simp only [messageLength_append, toString, hgoogle, hyandex]
      omega

/-- The place in the queue, and where the roster is. -/
def placeText (event : Event) (queuePosition capacity : Nat) (links : String) : String :=
  let tableText := s!"Актуальный список записавшихся и состав можно посмотреть здесь: {links}"
  let greeting := s!"Вы записались на игру {eventReference event.name event.gameDate}!\n\n"
  if queuePosition ≤ capacity then s!"{greeting}Сейчас вы в основном составе.\n\n{tableText}"
  else s!"{greeting}Сейчас вы в запасе. Перед вами: {queuePosition - capacity}.\n\n" ++
    "Если вы перейдёте в основной состав, бот сообщит об этом отдельным сообщением.\n\n" ++ tableText

def confirmationHint (event : Event) : String :=
  if event.status = .confirmationOpen then
    let deadlineText := (event.confirmationDeadline.map fun deadline =>
      s!" до {formatConfirmationDeadline deadline} (мск)").getD ""
    "Когда будете уверены, что сможете прийти на игру, " ++ s!"подтвердите участие{deadlineText}."
  else
    "Подтверждение участия пока не открыто. Мы обязательно пришлём вам уведомление, " ++
      "когда можно будет подтвердиться."

def answerHint (event : Event) (answerId : Option String) : String :=
  match event.registrationQuestion.bind fun question => question.option answerId with
  | some option => s!"\n\nВаш ответ: {option.name}"
  | none => ""

def warningHint (event : Event) (sameDayWarning : Bool) : String :=
  match sameDayWarning, event.gameDate with
  | true, some gameDate => s!"\n\n{sameDaySignupWarning gameDate}"
  | _, _ => ""

section Hints

variable (event : Event) (queuePosition capacity : Nat) (links : String) (answerId : Option String)
  (sameDayWarning : Bool)

set_option maxRecDepth 1000 in
theorem messageLength_placeText : messageLength (placeText event queuePosition capacity links) =
    91 + messageLength event.name + dateUnits event.gameDate + placeUnits queuePosition capacity +
      messageLength links := by
  have htable : messageLength "Актуальный список записавшихся и состав можно посмотреть здесь: " = 64 :=
    (messageLength_ofList _).trans rfl
  have hgreeting : messageLength "Вы записались на игру " = 22 := rfl
  have hmark : messageLength "!\n\n" = 3 := rfl
  have hmain : messageLength "Сейчас вы в основном составе.\n\n" = 31 := rfl
  have hreserve : messageLength "Сейчас вы в запасе. Перед вами: " = 32 := rfl
  have hstop : messageLength ".\n\n" = 3 := rfl
  have hlater : messageLength
    "Если вы перейдёте в основной состав, бот сообщит об этом отдельным сообщением.\n\n" = 80 :=
    (messageLength_ofList _).trans rfl
  unfold placeText placeUnits
  split
  · simp only [messageLength_append, toString, messageLength_eventReference, htable, hgreeting, hmark,
      hmain]
    omega
  · simp only [messageLength_append, toString, messageLength_eventReference, htable, hgreeting, hmark,
      hreserve, hstop, hlater]
    omega

set_option maxRecDepth 1000 in
theorem messageLength_confirmationHint :
    messageLength (confirmationHint event) = confirmationUnits event := by
  have hsure : messageLength "Когда будете уверены, что сможете прийти на игру, " = 50 :=
    (messageLength_ofList _).trans rfl
  have hconfirm : messageLength "подтвердите участие" = 19 := rfl
  have hstop : messageLength "." = 1 := rfl
  have hfrom : messageLength " до " = 4 := rfl
  have hzone : messageLength " (мск)" = 6 := rfl
  have hclosed : messageLength
    "Подтверждение участия пока не открыто. Мы обязательно пришлём вам уведомление, " = 79 :=
    (messageLength_ofList _).trans rfl
  have hlater : messageLength "когда можно будет подтвердиться." = 32 := rfl
  unfold confirmationHint confirmationUnits
  split
  · cases event.confirmationDeadline with
    | none =>
      simp only [messageLength_append, toString, Option.map_none, Option.getD_none, hsure, hconfirm,
        hstop, messageLength_empty]
    | some deadline =>
      simp only [messageLength_append, toString, Option.map_some, Option.getD_some, hsure, hconfirm,
        hstop, hfrom, hzone]
      omega
  · rw [messageLength_append, hclosed, hlater]

theorem messageLength_answerHint : messageLength (answerHint event answerId) = answerUnits event answerId := by
  have hanswer : messageLength "\n\nВаш ответ: " = 13 := rfl
  unfold answerHint answerUnits
  cases event.registrationQuestion.bind fun question => question.option answerId with
  | none => rfl
  | some option => simp only [messageLength_append, toString, Option.map_some, Option.getD_some, hanswer]

theorem messageLength_warningHint :
    messageLength (warningHint event sameDayWarning) = warningUnits event sameDayWarning := by
  have hlines : messageLength "\n\n" = 2 := rfl
  have hother : messageLength "Важно: вы уже записаны на другую игру, которая проводится " = 58 :=
    (messageLength_ofList _).trans rfl
  have hone : messageLength ". Вы сможете подтвердить своё участие только " = 45 :=
    (messageLength_ofList _).trans rfl
  have hwhich : messageLength "в одной игре, когда решите, в какую именно хотите играть." = 57 :=
    (messageLength_ofList _).trans rfl
  unfold warningHint warningUnits
  cases sameDayWarning with
  | false => rfl
  | true =>
    cases event.gameDate with
    | none => rfl
    | some gameDate =>
      unfold sameDaySignupWarning
      simp only [messageLength_append, toString, hlines, hother, hone, hwhich]
      omega

end Hints

/-- The answer to an enlistment before the masters. -/
def enlistmentBody (event : Event) (queuePosition capacity : Nat) (links : String)
    (sameDayWarning : Bool) (answerId : Option String) : String :=
  s!"{placeText event queuePosition capacity links}\n\n{confirmationHint event}\n\n" ++
    "Пожелания по соигрокам всегда можно изменить позже через «🎭 Пожелания по игре»." ++
    answerHint event answerId ++ warningHint event sameDayWarning

theorem enlistmentSuccessText_eq (queuePosition : Nat) (masters : List (BotIdentity × Option User))
    (sameDayWarning : Bool) (answerId : Option String) :
    enlistmentSuccessText event queuePosition masters sameDayWarning answerId =
      match answerCapacity event answerId with
      | none => .error .missingAnswer
      | some capacity =>
        if event.publicTablePublicUrl.isNone then
          .error (.runtimeError "public game table is not initialized")
        else match publicTableLinksForPlayer event with
          | none => .error (.runtimeError "table has no public link")
          | some links =>
            let text := enlistmentBody event queuePosition capacity links sameDayWarning answerId
            .ok (if eventMastersText masters = "" then text else s!"{text}\n\n{eventMastersText masters}") := by
  unfold enlistmentSuccessText
  cases answerCapacity event answerId with
  | none => rfl
  | some capacity =>
    cases event.publicTablePublicUrl.isNone with
    | true => rfl
    | false => cases publicTableLinksForPlayer event <;> rfl

set_option maxRecDepth 1000 in
/-- The lengths of the parts of an answer to an enlistment add up to that of the answer. -/
theorem messageLength_enlistmentSuccessText {queuePosition : Nat}
    {masters : List (BotIdentity × Option User)} {sameDayWarning : Bool} {answerId : Option String}
    {text : String}
    (h : enlistmentSuccessText event queuePosition masters sameDayWarning answerId = .ok text) :
    messageLength text = enlistmentUnits event queuePosition masters sameDayWarning answerId := by
  have hlines : messageLength "\n\n" = 2 := rfl
  have hwishes : messageLength
    "Пожелания по соигрокам всегда можно изменить позже через «🎭 Пожелания по игре»." = 80 :=
    (messageLength_ofList _).trans rfl
  rw [enlistmentSuccessText_eq] at h
  unfold enlistmentUnits
  cases hcapacity : answerCapacity event answerId with
  | none =>
    rw [hcapacity] at h
    cases h
  | some capacity =>
    cases hlinks : publicTableLinksForPlayer event with
    | none =>
      simp only [hcapacity, hlinks] at h
      split at h <;> cases h
    | some links =>
      simp only [hcapacity, hlinks] at h
      split at h
      · cases h
      · have hbody : messageLength
            (enlistmentBody event queuePosition capacity links sameDayWarning answerId) =
            175 + messageLength event.name + dateUnits event.gameDate +
              placeUnits queuePosition capacity + linksUnits event + confirmationUnits event +
              answerUnits event answerId + warningUnits event sameDayWarning := by
          unfold enlistmentBody
          simp only [messageLength_append, toString, messageLength_placeText,
            messageLength_confirmationHint, messageLength_answerHint, messageLength_warningHint,
            messageLength_publicTableLinks hlinks, hlines, hwishes]
          omega
        rw [← Except.ok.inj h, Option.getD_some]
        have hmasters := messageLength_eventMastersText masters
        by_cases hnone : eventMastersText masters = ""
        · rw [if_pos hnone, hbody, mastersUnits, if_pos ((eventMastersText_eq_empty masters).mp hnone)]
          rfl
        · have hunits : 2 ≤ mastersUnits masters := by
            rw [mastersUnits, if_neg (fun hlisted => hnone ((eventMastersText_eq_empty masters).mpr hlisted))]
            omega
          rw [if_neg hnone]
          simp only [messageLength_append, toString, hbody, hlines, hmasters]
          omega

end Enlistment

/-! ## What fits -/

/-- Of the texts that the worker sends to players the broadcasts and the answers to enlistments are not
cut: each fits if and only if its parts leave room for each other. -/
theorem texts_fit_iff (bot : Deployment) (event : Event) (message : String) (queuePosition : Nat)
    (masters : List (BotIdentity × Option User)) (sameDayWarning : Bool) (answerId : Option String) :
    (messageLength (playerNotificationText event.name message event.gameDate) ≤ maxMessageLength ↔
      messageLength event.name + dateUnits event.gameDate + messageLength (stripped message) ≤ 4064) ∧
    (messageLength (confirmedNotificationText bot event.name message event.gameDate) ≤ maxMessageLength ↔
      messageLength event.name + dateUnits event.gameDate + messageLength (stripped message) ≤
        if isPlainChatLink bot (stripped message) then 4049 else 4064) ∧
    ∀ text, enlistmentSuccessText event queuePosition masters sameDayWarning answerId = .ok text →
      (messageLength text ≤ maxMessageLength ↔
        messageLength event.name + dateUnits event.gameDate +
          placeUnits queuePosition ((answerCapacity event answerId).getD 0) + linksUnits event +
          confirmationUnits event + answerUnits event answerId + warningUnits event sameDayWarning +
          mastersUnits masters ≤ 3921) := by
  unfold maxMessageLength
  refine ⟨?_, ?_, ?_⟩
  · rw [messageLength_playerNotificationText, playerTextUnits]
    omega
  · rw [messageLength_confirmedNotificationText]
    split
    · rw [linkTextUnits]
      omega
    · rw [playerTextUnits]
      omega
  · intro text htext
    rw [messageLength_enlistmentSuccessText htext, enlistmentUnits]
    omega

/-- A game with a short name and no masters leaves room for all of the answer. -/
theorem chatterGame_fits : ∃ text, enlistmentSuccessText chatterGame 1 [] false none = .ok text ∧
    messageLength text ≤ maxMessageLength :=
  ⟨_, rfl, ((texts_fit_iff sampleBot chatterGame "" 1 [] false none).2.2 _ rfl).mpr (by decide +kernel)⟩

/-! ## A short text that is long -/

section Repeated

variable {c : Char} (hc : isPythonSpace c = false) (count : Nat)

/-- One character again and again. -/
def repeated (c : Char) (count : Nat) : String :=
  String.ofList (List.replicate count c)

theorem units_replicate (c : Char) (count : Nat) : units (List.replicate count c) = count * charUnits c := by
  simp [units]

theorem messageLength_repeated (c : Char) (count : Nat) :
    messageLength (repeated c count) = count * charUnits c := by
  rw [repeated, messageLength_ofList, units_replicate]

theorem length_repeated (c : Char) (count : Nat) : (repeated c count).length = count := by
  rw [repeated, String.length_ofList, List.length_replicate]

include hc in
theorem stripped_repeated : stripped (repeated c count) = repeated c count := by
  have hkept : (List.replicate count c).dropWhile isPythonSpace = List.replicate count c := by
    cases count with
    | zero => rfl
    | succ count => rw [List.replicate_succ, List.dropWhile_cons_of_neg (by simp [hc])]
  unfold stripped pythonStrip repeated
  rw [String.toList_ofList, hkept, List.reverse_replicate, hkept, List.reverse_replicate]

end Repeated

/-- A broadcast of 2040 masks has few characters, so the dialogue takes it, and more units than Telegram
takes. -/
theorem masks_admitted : notificationText sampleBot false true false chatterGame.name none
      (repeated '🎭' 2040) = .ok (repeated '🎭' 2040) ∧
    maxMessageLength <
      messageLength (playerNotificationText chatterGame.name (repeated '🎭' 2040) chatterGame.gameDate) := by
  have hstripped := stripped_repeated (c := '🎭') rfl 2040
  constructor
  · have hlength : (playerNotificationText chatterGame.name (repeated '🎭' 2040) none).length = 2076 := by
      unfold playerNotificationText
      simp only [String.length_append, toString, hstripped, length_repeated]
      rfl
    have hsome : repeated '🎭' 2040 ≠ "" := by
      intro hempty
      have hzero := congrArg String.length hempty
      rw [length_repeated] at hzero
      exact absurd hzero (by decide)
    simp [notificationText, hsome, length_repeated, hlength]
  · rw [messageLength_playerNotificationText, playerTextUnits, hstripped, messageLength_repeated]
    decide

end LarpBot
