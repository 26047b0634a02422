import LarpBot.Laws.Questionnaires

/-!
# Edits of one field of a profile

One message to the edit of a field, from each of its stages. A complete profile stays complete, and a pass
that is amended is still one that its model takes.
-/

namespace LarpBot

open Atomic Act

/-! ## Edits of one field -/

/-- A complete profile of which a field is being edited. -/
structure Editing (bot : Deployment) (user : User) (field : String) : Prop where
  valid : user.isValid bot = true
  title : ∀ fullName, user.base.fullName = some fullName → ∃ surname name, IsFullName fullName surname name
  complete : user.profileComplete = true
  flow : user.dialogContext.holds "profile_flow" "field" = true
  key : user.dialogContext.get "profile_field" = some (.text field)

namespace Editing

variable {bot : Deployment} {user : User} {field state text : String} {context : DialogContext}
  (h : Editing bot user field)
include h

theorem resumable (hedited : Edited user.base.passDetails.isSome field user.dialogContext user.dialogState) :
    Resumable bot user := by
  refine ⟨h.valid, h.title, fun _ _ => ?_⟩
  unfold InFlow
  rw [if_pos h.flow]
  exact ⟨h.complete, field, h.key, hedited⟩

theorem finished (hedited : Edited user.base.passDetails.isSome field user.dialogContext user.dialogState) :
    Finished bot user :=
  ⟨h.resumable hedited, h.complete⟩

theorem gathers (hflow : context.holds "profile_flow" "field" = true)
    (hkey : context.get "profile_field" = some (.text field)) :
    Editing bot (user.withContext context) field := by
  refine ⟨isValid_mapBase _ h.valid (base_isValid h.valid), ?_, ?_, ?_, ?_⟩
  · rw [User.withContext, User.base_mapBase]
    exact h.title
  · rw [← h.complete]
    cases user <;> rfl
  · rwa [dialogContext_withContext]
  · rwa [dialogContext_withContext]

/-- Another part of the profile. -/
theorem amended (f : UserBase → UserBase)
    (hcontext : ∀ base, (f base).dialogContext = base.dialogContext)
    (hvalid : (f user.base).isValid = true) (hcomplete : (f user.base).commonProfileComplete = true)
    (htitle : ∀ fullName, (f user.base).fullName = some fullName →
      ∃ surname name, IsFullName fullName surname name) : Editing bot (user.mapBase f) field := by
  have hsame : (user.mapBase f).dialogContext = user.dialogContext := by
    rw [User.dialogContext, User.base_mapBase, hcontext]
    rfl
  refine ⟨isValid_mapBase f h.valid hvalid, ?_, ?_, hsame ▸ h.flow, hsame ▸ h.key⟩
  · rwa [User.base_mapBase]
  · have hpage := h.complete
    rw [profileComplete_eq, Bool.and_eq_true] at hpage ⊢
    rw [User.base_mapBase]
    refine ⟨hcomplete, ?_⟩
    cases user <;> exact hpage.2

/-- The next question of the edit. -/
theorem asks (hedited : Edited user.base.passDetails.isSome field user.dialogContext state)
    (hstart : startsWith "PROFILE_" state = true) {buttons : User → List Button} :
    Proceeds bot (ask user state text buttons) := by
  have hstate : Editing bot (user.inState state) field := by
    refine ⟨isValid_mapBase _ h.valid (base_isValid h.valid), ?_, ?_, ?_, ?_⟩
    · rw [User.inState, User.base_mapBase]
      exact h.title
    · rw [← h.complete]
      cases user <;> rfl
    · rw [dialogContext_inState]
      exact h.flow
    · rw [dialogContext_inState]
      exact h.key
  refine ⟨hstate.resumable ?_, .inl ?_⟩
  · rw [dialogContext_inState, dialogState_inState, User.inState, User.base_mapBase]
    exact hedited
  · rw [ask, dialogState_inState]
    exact hstart

/-- The validators of the shared part. -/
theorem base : user.base.fullName.all (fun name => 2 ≤ name.length && name.length ≤ 300) = true ∧
    user.base.nickname.all (fun nickname => normalizeNickname nickname = some nickname) = true ∧
    user.base.passDetails.all PassDetails.isValid = true ∧
    (user.base.needsPass != some false || user.base.passDetails.isNone) = true := by
  have hbase := base_isValid h.valid
  unfold UserBase.isValid at hbase
  simp only [Bool.and_eq_true] at hbase
  exact ⟨hbase.1.1.1, hbase.1.1.2, hbase.1.2, hbase.2⟩

theorem common : user.base.fullName.isSome = true ∧ user.base.crossplay.isSome = true ∧
    user.base.needsPass.isSome = true ∧
    (user.base.needsPass != some true || user.base.passDetails.isSome) = true := by
  have hcomplete := h.complete
  rw [profileComplete_eq, Bool.and_eq_true, UserBase.commonProfileComplete] at hcomplete
  simp only [Bool.and_eq_true] at hcomplete
  exact ⟨hcomplete.1.1.1.1, hcomplete.1.1.1.2, hcomplete.1.1.2, hcomplete.1.2⟩

theorem named {fullName surname name : String} (htitle : IsFullName fullName surname name) :
    Editing bot (user.named fullName) field := by
  obtain ⟨-, hnickname, hdetails, hneeds⟩ := h.base
  obtain ⟨-, hcrossplay, hneeded, hpass⟩ := h.common
  refine h.amended _ (fun _ => rfl) ?_ ?_ ?_
  · simp [UserBase.isValid, hnickname, hdetails, hneeds, htitle.length]
  · simp [UserBase.commonProfileComplete, hcrossplay, hneeded, hpass]
  · rintro _ ⟨⟩
    exact ⟨surname, name, htitle⟩

theorem withDetails {details : PassDetails} (hvalid : details.isValid = true)
    (hsome : user.base.passDetails.isSome = true) : Editing bot (user.withDetails details) field := by
  obtain ⟨hname, hnickname, -, hneeds⟩ := h.base
  obtain ⟨hfull, hcrossplay, hneeded, -⟩ := h.common
  have hneeds' : (user.base.needsPass != some false) = true := by
    obtain ⟨stored, hstored⟩ := Option.isSome_iff_exists.mp hsome
    simpa [hstored] using hneeds
  refine h.amended _ (fun _ => rfl) ?_ ?_ h.title
  · simp [UserBase.isValid, hname, hnickname, hvalid, hneeds']
  · simp [UserBase.commonProfileComplete, hfull, hcrossplay, hneeded]

theorem withPass {needsPass : Bool} {details : Option PassDetails}
    (hdetails : ∀ pass, details = some pass → pass.isValid = true) (hneeds : needsPass = details.isSome) :
    Editing bot (user.withPass needsPass details) field := by
  obtain ⟨hname, hnickname, -, -⟩ := h.base
  obtain ⟨hfull, hcrossplay, -, -⟩ := h.common
  refine h.amended _ (fun _ => rfl) ?_ ?_ h.title
  · rw [hneeds]
    cases details with
    | none => simp [UserBase.isValid, hname, hnickname]
    | some details => simp [UserBase.isValid, hname, hnickname, hdetails details rfl]
  · rw [hneeds]
    cases details <;> simp [UserBase.commonProfileComplete, hfull, hcrossplay]

theorem amendDetails_eq {details : PassDetails} (hvalid : details.isValid = true)
    (hsome : user.base.passDetails.isSome = true) :
    amendDetails bot user details = .done (user.withDetails details) := by
  unfold amendDetails
  rw [value_modelValidate hvalid]
  exact assigned_eq (h.withDetails hvalid hsome).valid

end Editing

section FieldSteps

variable {bot : Deployment} {dialogs : Dialogs} {F : Failure → Prop} {user : User} {field text : String}
  {message : InboundMessage} (hkeep : dialogs.KeepProfiles bot F)
include hkeep

/-- An edit that completes. -/
theorem sound_completed (h : Editing bot user field)
    (hedited : Edited user.base.passDetails.isSome field user.dialogContext user.dialogState)
    {previousName : Option String} (hprevious : ∀ name, previousName = some name → pythonSplit name ≠ []) :
    Sound (Finished bot) F (Proceeds bot) (assigned bot user >>= fun stored =>
      completeProfileEdit bot dialogs stored message previousName) :=
  sound_after (assigned_eq h.valid) (sound_completeProfileEdit hkeep (h.finished hedited) hprevious)

/-- An edit of the pass that completes. -/
theorem sound_amended (h : Editing bot user field)
    (hedited : Edited true field user.dialogContext user.dialogState) {details : PassDetails}
    (hvalid : details.isValid = true) (hsome : user.base.passDetails.isSome = true) :
    Sound (Finished bot) F (Proceeds bot) (amendDetails bot user details >>= fun user =>
      completeProfileEdit bot dialogs user message none) := by
  refine sound_after (h.amendDetails_eq hvalid hsome) ?_
  refine sound_completeProfileEdit hkeep ((h.withDetails hvalid hsome).finished ?_) fun _ h => (nomatch h)
  unfold User.dialogContext User.dialogState User.withDetails
  rw [User.base_mapBase]
  exact hedited

omit hkeep in
theorem Editing.words (h : Editing bot user field) :
    ∀ fullName, user.base.fullName = some fullName → pythonSplit fullName ≠ [] := by
  intro fullName hname
  obtain ⟨surname, name, htitle⟩ := h.title fullName hname
  rw [htitle.split]
  exact List.cons_ne_nil _ _

omit hkeep in
theorem Editing.details (h : Editing bot user field) {details : PassDetails}
    (hdetails : user.base.passDetails = some details) : PassAgrees details := by
  have hvalid := h.base.2.2.1
  rw [hdetails] at hvalid
  exact isValid_iff.mp hvalid

theorem sound_nameFieldStep (h : Editing bot user field) (hstate : user.dialogState = "PROFILE_FULL_NAME_CYRILLIC")
    {parts : String × String × Option String} (hparts : parseFullName text .cyrillic = some parts) :
    Sound (Finished bot) F (Proceeds bot) (nameFieldStep bot dialogs user message text parts) := by
  have hvalid := isName_of_parse hparts
  have htitle := isFullName_of_parse hparts
  unfold nameFieldStep
  dsimp only
  generalize hcontext : (user.dialogContext.setName "cyrillic" parts).setText "full_name" (surnameAndName text) =
    context
  have hholds : HoldsName context "cyrillic" (parts.1, parts.2.1, parts.2.2.getD "-") := by
    rw [← hcontext]
    simp [HoldsName, DialogContext.setName, toString]
  have hfull : context.get "full_name" = some (.text (surnameAndName text)) := by
    rw [← hcontext]
    simp
  have hediting : Editing bot (user.withContext context) field := by
    refine h.gathers ?_ ?_
    · rw [← hcontext]
      simpa [DialogContext.setName, DialogContext.setText, holds_set, toString] using h.flow
    · rw [← hcontext]
      simpa [DialogContext.setName, toString] using h.key
  have hstate' : (user.withContext context).dialogState = "PROFILE_FULL_NAME_CYRILLIC" := by
    rw [dialogState_withContext, hstate]
  have hcontext' : (user.withContext context).dialogContext = context := dialogContext_withContext
  generalize user.withContext context = updated at hediting hstate' hcontext' ⊢
  have hnamed : Editing bot (updated.named (surnameAndName text)) field := hediting.named htitle
  split
  · refine sound_completed hkeep hnamed ?_ hediting.words
    rw [dialogState_named, hstate']
    exact .fullName
  · next details hdetails =>
    have hagrees := hediting.details hdetails
    split
    · refine hediting.asks (.latinName (.inr ?_) ⟨_, ?_, hvalid⟩ fun _ => ⟨_, _, _, ?_, htitle⟩) rfl
      · rw [hdetails]
        rfl
      · rwa [hcontext']
      · rwa [hcontext']
    · next hsame =>
      have hamended : PassAgrees { details with
          surnameCyrillic := parts.1
          nameCyrillic := parts.2.1
          patronymCyrillic := parts.2.2.getD "-" } := by
        refine ⟨hvalid, hagrees.phone, hagrees.email, hagrees.citizen,
          fun (hforeigner : details.foreigner = true) => ?_⟩
        obtain ⟨latin, hlatin, hsurname, hname, hpatronym, hdash⟩ := hagrees.foreign hforeigner
        refine ⟨latin, hlatin, hsurname, hname, hpatronym, ?_⟩
        have hkept : details.patronymCyrillic = "-" ↔ parts.2.2.getD "-" = "-" := by
          simpa [hforeigner] using hsame
        exact hkept.symm.trans hdash
      have hsome : updated.base.passDetails.isSome = true := by rw [hdetails]; rfl
      have hvalid' := isValid_iff.mpr hamended
      refine sound_after (hediting.amendDetails_eq hvalid' hsome) ?_
      refine sound_completed hkeep ((hediting.withDetails hvalid' hsome).named htitle) ?_ hediting.words
      rw [dialogState_named, dialogState_withDetails, hstate']
      exact .fullName

theorem sound_contactFieldStep (hfold : FoldsCase bot.casefold) (h : Editing bot user field)
    (hstate : user.dialogState = "PROFILE_CONTACT") :
    Sound (Finished bot) F (Proceeds bot) (contactFieldStep bot dialogs user message text) := by
  have hagain {text : String} {buttons : User → List Button} :
      Sound (Finished bot) F (Proceeds bot) (askAgain user text buttons) := by
    refine ⟨h.resumable ?_, .inl ?_⟩
    · rw [hstate]
      exact .contact
    · rw [hstate]
      rfl
  obtain ⟨hvalid, htitle, hcomplete, hflow, hkey⟩ := h
  unfold contactFieldStep
  cases user with
  | telegram profile =>
    simp only
    split
    · exact hagain
    · next url hurl =>
      have hediting : Editing bot (.telegram { profile with vkUrl := some url }) field := by
        refine ⟨?_, htitle, ?_, hflow, hkey⟩
        · simp only [User.isValid, Bool.and_eq_true] at hvalid ⊢
          exact ⟨hvalid.1, decide_eq_true (normalizeVkUrl_normal hfold hurl), hvalid.2.2⟩
        · simp only [User.profileComplete, Bool.and_eq_true] at hcomplete ⊢
          exact ⟨hcomplete.1, rfl⟩
      have hfinished : Finished bot (.telegram { profile with vkUrl := some url }) :=
        hediting.finished (hstate ▸ .contact)
      refine sound_after (assigned_eq hediting.valid) ?_
      refine sound_bind (sound_refreshLink hediting.valid true) fun user' hlink => ?_
      exact sound_completeProfileEdit hkeep (hlink.finished hfinished) fun _ h => (by cases h)
  | vk profile =>
    have hcompleted {handle : Option String} (hhandle : normalizeTelegramHandle bot handle = .ok handle) :
        Sound (Finished bot) F (Proceeds bot)
          (assigned bot (.vk { profile with telegramHandle := handle }) >>= fun stored =>
            completeProfileEdit bot dialogs stored message none) := by
      have hediting : Editing bot (.vk { profile with telegramHandle := handle }) field := by
        refine ⟨?_, htitle, hcomplete, hflow, hkey⟩
        simp only [User.isValid, Bool.and_eq_true] at hvalid ⊢
        exact ⟨⟨hvalid.1.1, decide_eq_true hhandle⟩, trivial⟩
      exact sound_completed hkeep hediting (hstate ▸ .contact) fun _ h => (by cases h)
    simp only
    split
    · exact hcompleted rfl
    · split
      · exact hagain
      · next handle hhandle => exact hcompleted (normalizeHandle_normal hfold hhandle)

theorem sound_citizenshipFieldStep (h : Editing bot user field) (hstate : user.dialogState = "PROFILE_PASS_FOREIGNER")
    (hsome : user.base.passDetails.isSome = true) (hname : Named user.dialogContext)
    (hfield : field ≠ "pass" ∧ field ≠ "name") {foreigner : Bool} :
    Sound (Finished bot) F (Proceeds bot) (citizenshipFieldStep bot dialogs user message foreigner) := by
  obtain ⟨details, hdetails⟩ := Option.isSome_iff_exists.mp hsome
  have hagrees := h.details hdetails
  have hstored : storedDetails user = .done details := by
    unfold storedDetails
    rw [hdetails]
  refine sound_after hstored ?_
  split
  · exact h.asks (.latinName (.inr hsome) hname fun heq => absurd heq hfield.2) rfl
  · next hkept =>
    refine sound_amended hkeep h ?_ (isValid_iff.mpr ?_) hsome
    · rw [hstate]
      exact .citizenship (.inr ⟨hfield.2, rfl⟩) hname
    · refine ⟨hagrees.name, hagrees.phone, hagrees.email, fun (hcitizen : foreigner = false) => ?_,
        fun (hforeigner : foreigner = true) => ?_⟩
      · simp [hcitizen]
      · have hbefore : details.foreigner = true := by simpa [hforeigner] using hkept
        simpa [hforeigner] using hagrees.foreign hbefore

theorem sound_latinFieldStep (h : Editing bot user field)
    (hstate : user.dialogState = "PROFILE_PASS_FULL_NAME_LATIN")
    (hsome : user.base.passDetails.isSome = true) {name : FullName}
    (hholds : HoldsName user.dialogContext "cyrillic" name) (hname : IsName .cyrillic name)
    (htitle : field = "name" → Titled user.dialogContext) {parts : String × String × Option String}
    (hparts : parseFullName text .latin = some parts) (hdash : name.2.2 = "-" ↔ parts.2.2.getD "-" = "-") :
    Sound (Finished bot) F (Proceeds bot) (latinFieldStep bot dialogs user message field parts) := by
  obtain ⟨details, hdetails⟩ := Option.isSome_iff_exists.mp hsome
  have hagrees := h.details hdetails
  have hstored : storedDetails user = .done details := by
    unfold storedDetails
    rw [hdetails]
  obtain ⟨hsurname, hgiven, hpatronym⟩ := hholds
  simp only [String.reduceAppend] at hsurname hgiven hpatronym
  have hamended : PassAgrees { details with
      surnameCyrillic := name.1
      nameCyrillic := name.2.1
      patronymCyrillic := name.2.2
      foreigner := true
      surnameLatin := some parts.1
      nameLatin := some parts.2.1
      patronymLatin := some (parts.2.2.getD "-") } :=
    ⟨hname, hagrees.phone, hagrees.email, fun hcitizen => (by cases hcitizen),
      fun _ => ⟨_, isName_of_parse hparts, rfl, rfl, rfl, hdash⟩⟩
  have hvalid := isValid_iff.mpr hamended
  have hediting := h.withDetails hvalid hsome
  have hnamed : Named user.dialogContext := ⟨name, by simpa [HoldsName] using ⟨hsurname, hgiven, hpatronym⟩, hname⟩
  refine sound_after hstored (sound_after (lookup_of_get hsurname) (sound_after (lookup_of_get hgiven)
    (sound_after (lookup_of_get hpatronym) ?_)))
  refine sound_after (h.amendDetails_eq hvalid hsome) ?_
  split
  · next hfield =>
    obtain ⟨fullName, surname, given, hfull, hisFull⟩ := htitle hfield
    have hfull' : (user.dialogContext).lookup "full_name" = .done (.text fullName) := lookup_of_get hfull
    refine sound_after hfull' ?_
    refine sound_completed hkeep (hediting.named hisFull) ?_ h.words
    rw [dialogState_named, dialogState_withDetails, hstate, dialogContext_named, dialogContext_withDetails]
    exact .latinName (.inr (by cases user <;> rfl)) hnamed htitle
  · next hfield =>
    refine sound_completeProfileEdit hkeep (hediting.finished ?_) fun _ h => (by cases h)
    rw [dialogState_withDetails, hstate, dialogContext_withDetails]
    exact .latinName (.inr (by cases user <;> rfl)) hnamed htitle

omit hkeep in
/-- The questionnaire of a pass that is on file. -/
theorem sound_storedDetails {context : DialogContext} (hediting : Editing bot (user.withContext context) field)
    (hsome : user.base.passDetails.isSome = true) {P : User → Prop} {α : Type} {Q : α → Prop}
    {next : PassDetails → Act α}
    (hnext : ∀ details, PassAgrees details → (user.withContext context).base.passDetails.isSome = true →
      Sound P F Q (next details)) :
    Sound P F Q (storedDetails (user.withContext context) >>= next) := by
  have hsome' : (user.withContext context).base.passDetails.isSome = true := by
    rw [User.withContext, User.base_mapBase]
    exact hsome
  obtain ⟨details, hdetails⟩ := Option.isSome_iff_exists.mp hsome'
  have hstored : storedDetails (user.withContext context) = .done details := by
    unfold storedDetails
    rw [hdetails]
  exact sound_after hstored (hnext details (hediting.details hdetails) hsome')

omit hkeep in
theorem Edited.starts {detailed : Bool} {context : DialogContext} {state : String}
    (h : Edited detailed field context state) : startsWith "PROFILE_" state = true := by
  cases h <;> rfl

theorem sound_nicknameEdit (h : Editing bot user field)
    (hstate : user.dialogState = "PROFILE_NICKNAME") :
    Sound (Finished bot) F (Proceeds bot) (profileFieldStep bot dialogs user message text) := by
  have hedited : Edited user.base.passDetails.isSome field user.dialogContext user.dialogState := by
    rw [hstate]
    exact .nickname
  have hagain {text : String} {buttons : User → List Button} :
      Sound (Finished bot) F (Proceeds bot) (askAgain user text buttons) :=
    proceeds_again (h.resumable hedited) hedited.starts
  refine sound_after (lookup_of_get h.key) ?_
  rw [hstate]
  simp only
  have hrenamed {nickname : Option String}
      (hnickname : nickname.all (fun nickname => normalizeNickname nickname = some nickname) = true) :
      Sound (Finished bot) F (Proceeds bot) (assigned bot (user.mapBase fun base =>
          { base with nickname := nickname }) >>= fun stored =>
        completeProfileEdit bot dialogs stored message none) := by
    obtain ⟨hname, -, hdetails, hneeds⟩ := h.base
    obtain ⟨hfull, hcrossplay, hneeded, hpass⟩ := h.common
    have hediting : Editing bot (user.mapBase fun base => { base with nickname := nickname }) field := by
      refine h.amended _ (fun _ => rfl) ?_ ?_ h.title
      · simp [UserBase.isValid, hname, hnickname, hdetails, hneeds]
      · simp [UserBase.commonProfileComplete, hfull, hcrossplay, hneeded, hpass]
    refine sound_completed hkeep hediting ?_ fun _ h => (by cases h)
    unfold User.dialogContext User.dialogState
    rw [User.base_mapBase]
    show Edited _ _ _ user.dialogState
    rw [hstate]
    exact .nickname
  split
  · exact hrenamed rfl
  · split
    · next nickname hnickname => exact hrenamed (decide_eq_true (normalizeNickname_normal hnickname))
    · exact hagain

theorem sound_fullNameEdit (h : Editing bot user field)
    (hstate : user.dialogState = "PROFILE_FULL_NAME_CYRILLIC") :
    Sound (Finished bot) F (Proceeds bot) (profileFieldStep bot dialogs user message text) := by
  have hedited : Edited user.base.passDetails.isSome field user.dialogContext user.dialogState := by
    rw [hstate]
    exact .fullName
  have hagain {text : String} {buttons : User → List Button} :
      Sound (Finished bot) F (Proceeds bot) (askAgain user text buttons) :=
    proceeds_again (h.resumable hedited) hedited.starts
  refine sound_after (lookup_of_get h.key) ?_
  rw [hstate]
  simp only
  split
  · exact hagain
  · next parts hparts => exact sound_nameFieldStep hkeep h hstate hparts

theorem sound_contactEdit (hfold : FoldsCase bot.casefold) (h : Editing bot user field)
    (hstate : user.dialogState = "PROFILE_CONTACT") :
    Sound (Finished bot) F (Proceeds bot) (profileFieldStep bot dialogs user message text) := by
  refine sound_after (lookup_of_get h.key) ?_
  rw [hstate]
  simp only
  exact sound_contactFieldStep hkeep hfold h hstate

theorem sound_crossplayEdit (h : Editing bot user field)
    (hstate : user.dialogState = "PROFILE_CROSSPLAY") :
    Sound (Finished bot) F (Proceeds bot) (profileFieldStep bot dialogs user message text) := by
  have hedited : Edited user.base.passDetails.isSome field user.dialogContext user.dialogState := by
    rw [hstate]
    exact .crossplay
  have hagain {text : String} {buttons : User → List Button} :
      Sound (Finished bot) F (Proceeds bot) (askAgain user text buttons) :=
    proceeds_again (h.resumable hedited) hedited.starts
  refine sound_after (lookup_of_get h.key) ?_
  rw [hstate]
  simp only
  split
  · exact hagain
  · obtain ⟨hname, hnickname, hdetails, hneeds⟩ := h.base
    obtain ⟨hfull, -, hneeded, hpass⟩ := h.common
    have hediting : Editing bot (user.mapBase fun base =>
        { base with crossplay := some (decide (text = "Да")) }) field := by
      refine h.amended _ (fun _ => rfl) ?_ ?_ h.title
      · simp [UserBase.isValid, hname, hnickname, hdetails, hneeds]
      · simp [UserBase.commonProfileComplete, hfull, hneeded, hpass]
    refine sound_completed hkeep hediting ?_ fun _ h => (by cases h)
    unfold User.dialogContext User.dialogState
    rw [User.base_mapBase]
    show Edited _ _ _ user.dialogState
    rw [hstate]
    exact .crossplay

theorem sound_needsPassEdit (h : Editing bot user field)
    (hstate : user.dialogState = "PROFILE_NEEDS_PASS")
    (hfield : field = "pass")
    (hname : Named user.dialogContext) :
    Sound (Finished bot) F (Proceeds bot) (profileFieldStep bot dialogs user message text) := by
  have hedited : Edited user.base.passDetails.isSome field user.dialogContext user.dialogState := by
    rw [hstate]
    exact .needsPass hfield hname
  have hagain {text : String} {buttons : User → List Button} :
      Sound (Finished bot) F (Proceeds bot) (askAgain user text buttons) :=
    proceeds_again (h.resumable hedited) hedited.starts
  refine sound_after (lookup_of_get h.key) ?_
  rw [hstate]
  simp only
  split
  · exact hagain
  · split
    · have hwithout : Editing bot (user.withPass false none) field :=
        h.withPass (fun _ h => (nomatch h)) rfl
      refine sound_completed hkeep hwithout ?_ fun _ h => (nomatch h)
      rw [dialogState_withPass, dialogContext_withPass, hstate]
      exact .needsPass hfield hname
    · split
      · refine sound_completeProfileEdit hkeep (h.finished ?_) fun _ h => (nomatch h)
        rw [hstate]
        exact .needsPass hfield hname
      · exact h.asks (.citizenship (.inl hfield) hname) rfl

theorem sound_citizenshipEdit (h : Editing bot user field)
    (hstate : user.dialogState = "PROFILE_PASS_FOREIGNER")
    (hfield : field = "pass" ∨ field ≠ "name" ∧ user.base.passDetails.isSome = true)
    (hname : Named user.dialogContext) :
    Sound (Finished bot) F (Proceeds bot) (profileFieldStep bot dialogs user message text) := by
  have hedited : Edited user.base.passDetails.isSome field user.dialogContext user.dialogState := by
    rw [hstate]
    exact .citizenship hfield hname
  have hagain {text : String} {buttons : User → List Button} :
      Sound (Finished bot) F (Proceeds bot) (askAgain user text buttons) :=
    proceeds_again (h.resumable hedited) hedited.starts
  refine sound_after (lookup_of_get h.key) ?_
  rw [hstate]
  simp only
  split
  · exact hagain
  · have hediting : Editing bot (user.withContext (user.dialogContext.set "foreigner"
        (.flag (decide (text = "Нет"))))) field := by
      refine h.gathers ?_ ?_
      · rw [holds_set (by decide)]
        exact h.flow
      · simpa using h.key
    have hnamed : Named (user.dialogContext.set "foreigner" (.flag (decide (text = "Нет")))) := by
      simpa [Named, HoldsName] using hname
    split
    · next hpass =>
      show Proceeds bot _
      split
      · refine hediting.asks (.latinName (.inl hpass) (by simpa using hnamed) fun hfield => ?_) rfl
        exact absurd (hpass.symm.trans hfield) (by decide)
      · next hyes =>
        refine hediting.asks (.phone (fun _ => ?_) fun hother => absurd hpass hother) rfl
        obtain ⟨name, hholds, hvalid⟩ := hnamed
        refine ⟨name, false, ⟨by simpa using hholds, hvalid⟩, ?_, fun h => absurd h Bool.false_ne_true⟩
        rw [dialogContext_withContext]
        simpa using hyes
    · next hother =>
      obtain ⟨hnotName, hsome⟩ := hfield.resolve_left hother
      refine sound_citizenshipFieldStep hkeep hediting ?_ ?_ (by simpa using hnamed) ⟨hother, hnotName⟩
      · rw [dialogState_withContext, hstate]
      · rw [User.withContext, User.base_mapBase]
        exact hsome

theorem sound_latinNameEdit (h : Editing bot user field)
    (hstate : user.dialogState = "PROFILE_PASS_FULL_NAME_LATIN")
    (hfield : field = "pass" ∨ user.base.passDetails.isSome = true)
    (hname : Named user.dialogContext)
    (htitle : field = "name" → Titled user.dialogContext) :
    Sound (Finished bot) F (Proceeds bot) (profileFieldStep bot dialogs user message text) := by
  have hedited : Edited user.base.passDetails.isSome field user.dialogContext user.dialogState := by
    rw [hstate]
    exact .latinName hfield hname htitle
  have hagain {text : String} {buttons : User → List Button} :
      Sound (Finished bot) F (Proceeds bot) (askAgain user text buttons) :=
    proceeds_again (h.resumable hedited) hedited.starts
  refine sound_after (lookup_of_get h.key) ?_
  rw [hstate]
  simp only
  split
  · exact hagain
  · next parts hparts =>
    obtain ⟨name, hholds, hvalid⟩ := hname
    refine sound_after (patronymsDiffer_of hholds) ?_
    split
    · exact hagain
    · next hsame =>
      have hdash : name.2.2 = "-" ↔ parts.2.2.getD "-" = "-" := by simpa using hsame
      generalize hcontext : (user.dialogContext.setName "latin" parts).set "foreigner" (.flag true) = context
      have hediting : Editing bot (user.withContext context) field := by
        refine h.gathers ?_ ?_
        · rw [← hcontext]
          simpa [DialogContext.setName, DialogContext.setText, holds_set, toString] using h.flow
        · rw [← hcontext]
          simpa [DialogContext.setName, toString] using h.key
      have hkept : HoldsName context "cyrillic" name := by
        rw [← hcontext]
        simpa [HoldsName, DialogContext.setName, toString] using hholds
      have htitled : field = "name" → Titled context := by
        intro hfield
        rw [← hcontext]
        simpa [Titled, DialogContext.setName, toString] using htitle hfield
      split
      · next hpass =>
        refine hediting.asks (.phone (fun _ => ?_) fun hother => absurd hpass hother) rfl
        rw [dialogContext_withContext]
        refine ⟨name, true, ⟨hkept, hvalid⟩, ?_, fun _ => ⟨_, ⟨?_, isName_of_parse hparts⟩, hdash⟩⟩
        · rw [← hcontext]
          simp
        · rw [← hcontext]
          simp [HoldsName, DialogContext.setName, toString]
      · next hother =>
        refine sound_latinFieldStep hkeep hediting ?_ ?_ (by simpa using hkept) hvalid (by simpa using htitled)
          hparts hdash
        · rw [dialogState_withContext, hstate]
        · rw [User.withContext, User.base_mapBase]
          exact hfield.resolve_left hother

theorem sound_phoneEdit (h : Editing bot user field)
    (hstate : user.dialogState = "PROFILE_PASS_PHONE")
    (hpapers : field = "pass" → Papers user.dialogContext)
    (hfield : field ≠ "pass" → user.base.passDetails.isSome = true) :
    Sound (Finished bot) F (Proceeds bot) (profileFieldStep bot dialogs user message text) := by
  have hedited : Edited user.base.passDetails.isSome field user.dialogContext user.dialogState := by
    rw [hstate]
    exact .phone hpapers hfield
  have hagain {text : String} {buttons : User → List Button} :
      Sound (Finished bot) F (Proceeds bot) (askAgain user text buttons) :=
    proceeds_again (h.resumable hedited) hedited.starts
  refine sound_after (lookup_of_get h.key) ?_
  rw [hstate]
  simp only
  split
  · exact hagain
  · next phone hphone =>
    have hnumber : (normalizeMobilePhone phone).isSome = true := by
      rw [normalizeMobilePhone_normal hphone]
      rfl
    generalize hcontext : user.dialogContext.setText "mobile_phone" phone = context
    have hediting : Editing bot (user.withContext context) field := by
      refine h.gathers ?_ ?_
      · rw [← hcontext, DialogContext.setText, holds_set (by decide)]
        exact h.flow
      · rw [← hcontext]
        simpa using h.key
    have hpapers' : field = "pass" → Papers context := by
      intro hpass
      rw [← hcontext]
      simpa [Papers, HoldsName] using hpapers hpass
    split
    · next hpass =>
      refine hediting.asks (.email (fun _ => ?_) fun hother => absurd hpass hother) rfl
      rw [dialogContext_withContext]
      refine ⟨hpapers' hpass, phone, ?_, hnumber⟩
      rw [← hcontext]
      simp
    · next hother =>
      refine sound_storedDetails hediting (hfield hother) fun details hagrees hsome => ?_
      refine sound_amended hkeep hediting ?_ (isValid_iff.mpr ?_) hsome
      · rw [dialogState_withContext, dialogContext_withContext, hstate]
        exact .phone hpapers' fun _ => rfl
      · exact ⟨hagrees.name, hnumber, hagrees.email, hagrees.citizen, hagrees.foreign⟩

theorem sound_emailEdit (h : Editing bot user field)
    (hstate : user.dialogState = "PROFILE_PASS_EMAIL_ADDRESS")
    (hpapers : field = "pass" → Papers user.dialogContext ∧ Phoned user.dialogContext)
    (hfield : field ≠ "pass" → user.base.passDetails.isSome = true) :
    Sound (Finished bot) F (Proceeds bot) (profileFieldStep bot dialogs user message text) := by
  have hedited : Edited user.base.passDetails.isSome field user.dialogContext user.dialogState := by
    rw [hstate]
    exact .email hpapers hfield
  have hagain {text : String} {buttons : User → List Button} :
      Sound (Finished bot) F (Proceeds bot) (askAgain user text buttons) :=
    proceeds_again (h.resumable hedited) hedited.starts
  refine sound_after (lookup_of_get h.key) ?_
  rw [hstate]
  simp only
  split
  · exact hagain
  · next email hemail =>
    have haddress := isPassEmail_of_validate hemail
    generalize hcontext : user.dialogContext.setText "email" email = context
    have hediting : Editing bot (user.withContext context) field := by
      refine h.gathers ?_ ?_
      · rw [← hcontext, DialogContext.setText, holds_set (by decide)]
        exact h.flow
      · rw [← hcontext]
        simpa using h.key
    have hpapers' : field = "pass" → Papers context ∧ Phoned context := by
      intro hpass
      rw [← hcontext]
      simpa [Papers, HoldsName, Phoned] using hpapers hpass
    split
    · next hpass =>
      obtain ⟨hpapers, hphone⟩ := hpapers' hpass
      have hmailed : Mailed context := by
        refine ⟨email, ?_, haddress⟩
        rw [← hcontext]
        simp
      obtain ⟨details, hdetails, hvalid⟩ := passDetails_of hpapers hphone hmailed
      rw [dialogContext_withContext]
      refine sound_after hdetails ?_
      have hpassed : Editing bot ((user.withContext context).withPass true (some details)) field :=
        hediting.withPass (by rintro _ ⟨⟩; exact hvalid) rfl
      refine sound_completed hkeep hpassed ?_ fun _ h => (by cases h)
      rw [dialogState_withPass, dialogContext_withPass, dialogState_withContext, dialogContext_withContext,
        hstate]
      exact .email (fun _ => ⟨hpapers, hphone⟩) fun hother => absurd hpass hother
    · next hother =>
      refine sound_storedDetails hediting (hfield hother) fun details hagrees hsome => ?_
      refine sound_amended hkeep hediting ?_ (isValid_iff.mpr ?_) hsome
      · rw [dialogState_withContext, dialogContext_withContext, hstate]
        exact .email hpapers' fun _ => rfl
      · exact ⟨hagrees.name, hagrees.phone, haddress, hagrees.citizen, hagrees.foreign⟩

theorem sound_profileFieldStep (hfold : FoldsCase bot.casefold) (h : Editing bot user field)
    (hedited : Edited user.base.passDetails.isSome field user.dialogContext user.dialogState) :
    Sound (Finished bot) F (Proceeds bot) (profileFieldStep bot dialogs user message text) := by
  generalize hstate : user.dialogState = state at hedited
  cases hedited with
  | nickname => exact sound_nicknameEdit hkeep h hstate
  | fullName => exact sound_fullNameEdit hkeep h hstate
  | contact => exact sound_contactEdit hkeep hfold h hstate
  | crossplay => exact sound_crossplayEdit hkeep h hstate
  | needsPass hfield hname => exact sound_needsPassEdit hkeep h hstate hfield hname
  | citizenship hfield hname => exact sound_citizenshipEdit hkeep h hstate hfield hname
  | latinName hfield hname htitle => exact sound_latinNameEdit hkeep h hstate hfield hname htitle
  | phone hpapers hfield => exact sound_phoneEdit hkeep h hstate hpapers hfield
  | email hpapers hfield => exact sound_emailEdit hkeep h hstate hpapers hfield

end FieldSteps

end LarpBot
