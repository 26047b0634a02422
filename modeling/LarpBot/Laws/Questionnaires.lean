import LarpBot.Laws.ProfileEndings

/-!
# The questionnaire

One message to the questionnaire of a profile, from each of its stages: the question is put again, or the
answer is gathered and the next stage is entered, or the profile is finished.
-/

namespace LarpBot

open Atomic Act

/-! ## The questionnaire -/

theorem Asked.starts {bot : Deployment} {platform : Platform} {context : DialogContext} {state : String}
    (h : Asked bot platform context state) : startsWith "PROFILE_" state = true := by
  cases h <;> rfl

section Questionnaire

variable {bot : Deployment} {dialogs : Dialogs} {F : Failure → Prop} {user : User}
  {context : DialogContext} {state text : String} {message : InboundMessage}

theorem holds_set {key key' : String} {stored : ContextValue} (hne : key ≠ key') :
    (context.set key stored).holds key' text = context.holds key' text :=
  holds_congr (by rw [get_set, if_neg hne]) text

theorem proceeds_asked (huser : Resumable bot user) (hflow : context.holds "profile_flow" "field" = false)
    (hasked : Asked bot user.identity.platform context state) {buttons : User → List Button} :
    Proceeds bot (ask (user.withContext context) state text buttons) := by
  refine ⟨huser.asks ?_, .inl ?_⟩
  · unfold InFlow
    simp only [dialogContext_inState, dialogContext_withContext, dialogState_inState, hflow]
    rw [if_neg Bool.false_ne_true, User.inState, User.identity_mapBase, User.withContext,
      User.identity_mapBase]
    exact hasked
  · rw [ask, dialogState_inState]
    exact hasked.starts

theorem proceeds_contact (huser : Resumable bot user)
    (hflow : context.holds "profile_flow" "field" = false) (htitle : Titled context)
    (hpass : PassChosen context) : Proceeds bot (profileContactPrompt (user.withContext context)) := by
  cases user <;> exact proceeds_asked huser hflow (.contact htitle hpass)

theorem proceeds_again (huser : Resumable bot user) (hstart : startsWith "PROFILE_" user.dialogState = true)
    {buttons : User → List Button} {P : User → Prop} :
    Sound P F (Proceeds bot) (askAgain user text buttons) :=
  ⟨huser, .inl hstart⟩

theorem patronymsDiffer_of {name : FullName} {parts : String × String × Option String}
    (h : HoldsName context "cyrillic" name) :
    patronymsDiffer context parts = .done ((name.2.2 == "-") != (parts.2.2.getD "-" == "-")) := by
  have hpatronym : context.get "patronym_cyrillic" = some (.text name.2.2) := by simpa using h.2.2
  unfold patronymsDiffer
  rw [lookup_of_get hpatronym]
  rfl

variable (hkeep : dialogs.KeepProfiles bot F)
include hkeep

omit hkeep in
theorem sound_fullNameQuestion (huser : Resumable bot user)
    (hflow : user.dialogContext.holds "profile_flow" "field" = false)
    (hstate : user.dialogState = "PROFILE_FULL_NAME_CYRILLIC") :
    Sound (Finished bot) F (Proceeds bot) (questionnaireStep bot dialogs user message text) := by
  have hagain {text : String} {buttons : User → List Button} :
      Sound (Finished bot) F (Proceeds bot) (askAgain user text buttons) :=
    proceeds_again huser (by rw [hstate]; rfl)
  unfold questionnaireStep
  rw [hstate]
  simp only
  split
  · exact hagain
  · next parts hparts =>
    refine proceeds_asked huser ?_ (.needsPass ?_ ?_)
    · simpa [DialogContext.setName, DialogContext.setText, holds_set, toString] using hflow
    · refine ⟨_, ?_, isName_of_parse hparts⟩
      simp [HoldsName, DialogContext.setName, toString]
    · exact ⟨_, _, _, by simp, isFullName_of_parse hparts⟩

omit hkeep in
theorem sound_needsPassQuestion (huser : Resumable bot user)
    (hflow : user.dialogContext.holds "profile_flow" "field" = false)
    (hstate : user.dialogState = "PROFILE_NEEDS_PASS")
    (hname : Named user.dialogContext)
    (htitle : Titled user.dialogContext) :
    Sound (Finished bot) F (Proceeds bot) (questionnaireStep bot dialogs user message text) := by
  have hagain {text : String} {buttons : User → List Button} :
      Sound (Finished bot) F (Proceeds bot) (askAgain user text buttons) :=
    proceeds_again huser (by rw [hstate]; rfl)
  unfold questionnaireStep
  rw [hstate]
  simp only
  split
  · exact hagain
  · have hflow' : (user.dialogContext.set "needs_pass" (.flag (decide (text = "Да")))).holds
        "profile_flow" "field" = false := by rwa [holds_set (by decide)]
    show Proceeds bot _
    split
    · next hyes =>
      refine proceeds_asked huser hflow' (.citizenship ?_ ?_ ?_)
      · simpa [Named, HoldsName] using hname
      · simpa [Titled] using htitle
      · simp [hyes]
    · next hno =>
      refine proceeds_contact huser hflow' ?_ (.inl ?_)
      · simpa [Titled] using htitle
      · simp [hno]

omit hkeep in
theorem sound_citizenshipQuestion (huser : Resumable bot user)
    (hflow : user.dialogContext.holds "profile_flow" "field" = false)
    (hstate : user.dialogState = "PROFILE_PASS_FOREIGNER")
    (hname : Named user.dialogContext)
    (htitle : Titled user.dialogContext)
    (hpass : user.dialogContext.get "needs_pass" = some (.flag true)) :
    Sound (Finished bot) F (Proceeds bot) (questionnaireStep bot dialogs user message text) := by
  have hagain {text : String} {buttons : User → List Button} :
      Sound (Finished bot) F (Proceeds bot) (askAgain user text buttons) :=
    proceeds_again huser (by rw [hstate]; rfl)
  unfold questionnaireStep
  rw [hstate]
  simp only
  split
  · exact hagain
  · have hflow' : (user.dialogContext.set "foreigner" (.flag (decide (text = "Нет")))).holds
        "profile_flow" "field" = false := by rwa [holds_set (by decide)]
    show Proceeds bot _
    split
    · next hno =>
      refine proceeds_asked huser hflow' (.latinName ?_ ?_ ?_ ?_)
      · simpa [Named, HoldsName] using hname
      · simpa [Titled] using htitle
      · simpa using hpass
      · simp [hno]
    · next hyes =>
      refine proceeds_asked huser hflow' (.phone ?_ ?_ ?_)
      · simpa [Titled] using htitle
      · simpa using hpass
      · obtain ⟨name, hholds, hvalid⟩ := hname
        refine ⟨name, false, ⟨?_, hvalid⟩, ?_, fun h => absurd h Bool.false_ne_true⟩
        · simpa [HoldsName] using hholds
        · simp [hyes]

omit hkeep in
theorem sound_latinNameQuestion (huser : Resumable bot user)
    (hflow : user.dialogContext.holds "profile_flow" "field" = false)
    (hstate : user.dialogState = "PROFILE_PASS_FULL_NAME_LATIN")
    (hname : Named user.dialogContext)
    (htitle : Titled user.dialogContext)
    (hpass : user.dialogContext.get "needs_pass" = some (.flag true))
    (hforeigner : user.dialogContext.get "foreigner" = some (.flag true)) :
    Sound (Finished bot) F (Proceeds bot) (questionnaireStep bot dialogs user message text) := by
  have hagain {text : String} {buttons : User → List Button} :
      Sound (Finished bot) F (Proceeds bot) (askAgain user text buttons) :=
    proceeds_again huser (by rw [hstate]; rfl)
  unfold questionnaireStep
  rw [hstate]
  simp only
  split
  · exact hagain
  · next parts hparts =>
    obtain ⟨name, hholds, hvalid⟩ := hname
    refine sound_after (patronymsDiffer_of hholds) ?_
    split
    · exact hagain
    · next hsame =>
      refine proceeds_asked huser ?_ (.phone ?_ ?_ ⟨name, true, ⟨?_, hvalid⟩, ?_, fun _ =>
        ⟨_, ⟨?_, isName_of_parse hparts⟩, ?_⟩⟩)
      · simpa [DialogContext.setName, DialogContext.setText, holds_set, toString] using hflow
      · simpa [Titled, DialogContext.setName, toString] using htitle
      · simpa [DialogContext.setName, toString] using hpass
      · simpa [HoldsName, DialogContext.setName, toString] using hholds
      · simpa [DialogContext.setName, toString] using hforeigner
      · simp [HoldsName, DialogContext.setName, toString]
      · simpa using hsame

omit hkeep in
theorem sound_phoneQuestion (huser : Resumable bot user)
    (hflow : user.dialogContext.holds "profile_flow" "field" = false)
    (hstate : user.dialogState = "PROFILE_PASS_PHONE")
    (htitle : Titled user.dialogContext)
    (hpass : user.dialogContext.get "needs_pass" = some (.flag true))
    (hpapers : Papers user.dialogContext) :
    Sound (Finished bot) F (Proceeds bot) (questionnaireStep bot dialogs user message text) := by
  have hagain {text : String} {buttons : User → List Button} :
      Sound (Finished bot) F (Proceeds bot) (askAgain user text buttons) :=
    proceeds_again huser (by rw [hstate]; rfl)
  unfold questionnaireStep
  rw [hstate]
  simp only
  split
  · exact hagain
  · next phone hphone =>
    refine proceeds_asked huser ?_ (.email ?_ ?_ ?_ ⟨phone, ?_, ?_⟩)
    · rwa [DialogContext.setText, holds_set (by decide)]
    · simpa [Titled] using htitle
    · simpa using hpass
    · simpa [Papers, HoldsName] using hpapers
    · simp
    · rw [normalizeMobilePhone_normal hphone]
      rfl

omit hkeep in
theorem sound_emailQuestion (huser : Resumable bot user)
    (hflow : user.dialogContext.holds "profile_flow" "field" = false)
    (hstate : user.dialogState = "PROFILE_PASS_EMAIL_ADDRESS")
    (htitle : Titled user.dialogContext)
    (hpass : user.dialogContext.get "needs_pass" = some (.flag true))
    (hpapers : Papers user.dialogContext)
    (hphone : Phoned user.dialogContext) :
    Sound (Finished bot) F (Proceeds bot) (questionnaireStep bot dialogs user message text) := by
  have hagain {text : String} {buttons : User → List Button} :
      Sound (Finished bot) F (Proceeds bot) (askAgain user text buttons) :=
    proceeds_again huser (by rw [hstate]; rfl)
  unfold questionnaireStep
  rw [hstate]
  simp only
  split
  · exact hagain
  · next email hemail =>
    refine proceeds_contact huser ?_ ?_ (.inr ⟨?_, ?_, ?_, email, ?_, isPassEmail_of_validate hemail⟩)
    · rwa [DialogContext.setText, holds_set (by decide)]
    · simpa [Titled] using htitle
    · simpa using hpass
    · simpa [Papers, HoldsName] using hpapers
    · simpa [Phoned] using hphone
    · simp

omit hkeep in
theorem sound_contactQuestion (hfold : FoldsCase bot.casefold) (huser : Resumable bot user)
    (hflow : user.dialogContext.holds "profile_flow" "field" = false)
    (hstate : user.dialogState = "PROFILE_CONTACT")
    (htitle : Titled user.dialogContext)
    (hpass : PassChosen user.dialogContext) :
    Sound (Finished bot) F (Proceeds bot) (questionnaireStep bot dialogs user message text) := by
  have hagain {text : String} {buttons : User → List Button} :
      Sound (Finished bot) F (Proceeds bot) (askAgain user text buttons) :=
    proceeds_again huser (by rw [hstate]; rfl)
  unfold questionnaireStep
  rw [hstate]
  simp only
  have hcontact {stored : ContextValue}
      (hstored : Contacted bot (user.dialogContext.set "contact" stored) user.identity.platform) :
      Proceeds bot (askCrossplay (user.withContext (user.dialogContext.set "contact" stored))) := by
    refine proceeds_asked huser ?_ (.crossplay ?_ ?_ hstored)
    · rwa [holds_set (by decide)]
    · simpa [Titled] using htitle
    · simpa [PassChosen, Papers, HoldsName, Phoned, Mailed] using hpass
  cases user with
  | telegram profile =>
    simp only
    split
    · exact hagain
    · next url hurl => exact hcontact ⟨url, by simp, normalizeVkUrl_normal hfold hurl⟩
  | vk profile =>
    simp only
    split
    · exact hcontact ⟨none, by simp [ContextValue.ofOption], rfl⟩
    · split
      · exact hagain
      · next handle hhandle =>
        exact hcontact ⟨some handle, by simp [ContextValue.ofOption], normalizeHandle_normal hfold hhandle⟩

theorem sound_crossplayQuestion (huser : Resumable bot user)
    (hflow : user.dialogContext.holds "profile_flow" "field" = false)
    (hstate : user.dialogState = "PROFILE_CROSSPLAY")
    (htitle : Titled user.dialogContext)
    (hpass : PassChosen user.dialogContext)
    (hcontact : Contacted bot user.dialogContext user.identity.platform) :
    Sound (Finished bot) F (Proceeds bot) (questionnaireStep bot dialogs user message text) := by
  have hagain {text : String} {buttons : User → List Button} :
      Sound (Finished bot) F (Proceeds bot) (askAgain user text buttons) :=
    proceeds_again huser (by rw [hstate]; rfl)
  unfold questionnaireStep
  rw [hstate]
  simp only
  split
  · exact hagain
  · have htitle' : Titled (user.dialogContext.set "crossplay" (.flag (decide (text = "Да")))) := by
      simpa [Titled] using htitle
    have hpass' : PassChosen (user.dialogContext.set "crossplay" (.flag (decide (text = "Да")))) := by
      simpa [PassChosen, Papers, HoldsName, Phoned, Mailed] using hpass
    have hflow' : (user.dialogContext.set "crossplay" (.flag (decide (text = "Да")))).holds
        "profile_flow" "field" = false := by rwa [holds_set (by decide)]
    have hcontact' : Contacted bot (user.dialogContext.set "crossplay" (.flag (decide (text = "Да"))))
        user.identity.platform := by
      generalize user.identity.platform = platform at hcontact ⊢
      cases platform <;> simpa [Contacted] using hcontact
    generalize hcontext : user.dialogContext.set "crossplay" (.flag (decide (text = "Да"))) = context
      at htitle' hpass' hflow' hcontact'
    have hidentity : (user.withContext context).identity = user.identity := User.identity_mapBase _ _
    refine sound_finishProfile hkeep (huser.gathers ?_) (decide (text = "Да")) ?_ ?_ ?_ ?_ ?_ ?_
    · unfold InFlow
      rw [dialogContext_withContext, hflow', if_neg Bool.false_ne_true, dialogState_withContext, hstate,
        hidentity]
      exact .crossplay htitle' hpass' hcontact'
    · rwa [dialogContext_withContext]
    · rwa [dialogState_withContext]
    · rwa [dialogContext_withContext]
    · rwa [dialogContext_withContext]
    · rwa [dialogContext_withContext, hidentity]
    · rw [dialogContext_withContext, ← hcontext]
      simp

theorem sound_questionnaireStep (hfold : FoldsCase bot.casefold) (huser : Resumable bot user)
    (hflow : user.dialogContext.holds "profile_flow" "field" = false)
    (hasked : Asked bot user.identity.platform user.dialogContext user.dialogState) :
    Sound (Finished bot) F (Proceeds bot) (questionnaireStep bot dialogs user message text) := by
  generalize hstate : user.dialogState = state at hasked
  cases hasked with
  | fullName => exact sound_fullNameQuestion huser hflow hstate
  | needsPass hname htitle => exact sound_needsPassQuestion huser hflow hstate hname htitle
  | citizenship hname htitle hpass => exact sound_citizenshipQuestion huser hflow hstate hname htitle hpass
  | latinName hname htitle hpass hforeigner =>
    exact sound_latinNameQuestion huser hflow hstate hname htitle hpass hforeigner
  | phone htitle hpass hpapers => exact sound_phoneQuestion huser hflow hstate htitle hpass hpapers
  | email htitle hpass hpapers hphone => exact sound_emailQuestion huser hflow hstate htitle hpass hpapers hphone
  | contact htitle hpass => exact sound_contactQuestion hfold huser hflow hstate htitle hpass
  | crossplay htitle hpass hcontact => exact sound_crossplayQuestion hkeep huser hflow hstate htitle hpass hcontact

end Questionnaire

end LarpBot
