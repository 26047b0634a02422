import LarpBot.Foundation.Endings
import LarpBot.Laws.ProfileStages

/-!
# The end of a profile dialog

A profile that is complete is stored, its names go to the worker, and the row leaves the dialog. `Sound`
says of a program what it may store, return and raise; its rules follow the text of the dialogs. The other
dialogs are taken as they come: they leave profiles alone (`Dialogs.KeepProfiles`).
-/

namespace LarpBot

open Atomic Act

/-! ## Rules -/

/-- The accounts that the messenger finds have positive numbers, and no two games have one signup
token. -/
def Resolves : (c : Call) → c.Ans → Prop
  | .outside (.resolveUserId _), found => ∀ number, found.join = some number → 0 < number
  | .events (.getBySignupToken _), found => ∃ event, found = .ok event
  | _, _ => True

/-- A call that stores only rows that pass a test. -/
def Call.Stores (P : User → Prop) : Call → Prop
  | .users (.save stored) => P stored
  | _ => True

/-- The queue does not take the command. -/
def queueRefused : Failure :=
  .fault (.integration "queue")

/-- The programs that store and return what passes a test, and raise only what the queue and the others
raise. -/
@[reducible] def Sound (P : User → Prop) (F : Failure → Prop) {α : Type} (Q : α → Prop) (p : Act α) : Prop :=
  p.Ends Resolves (Call.Stores P) Q fun failure => failure = queueRefused ∨ F failure

section Rules

variable {P : User → Prop} {F : Failure → Prop} {α β : Type} {Q : α → Prop}

theorem sound_bind {R : β → Prop} {p : Act α} {f : α → Act β} (hp : Sound P F Q p)
    (hf : ∀ a, Q a → Sound P F R (f a)) : Sound P F R (p >>= f) :=
  hp.bind hf

/-- A program that ends at once. -/
theorem sound_after {R : β → Prop} {p : Act α} {f : α → Act β} {a : α} (hp : p = .done a)
    (hf : Sound P F R (f a)) : Sound P F R (p >>= f) := by
  rw [hp]
  exact hf

theorem sound_call {c : Call} (hc : c.Stores P) : Sound P F (Resolves c) (one c) :=
  ⟨hc, fun _ hanswer => hanswer⟩

theorem sound_present {x : Option α} (h : ∀ a, Q a) : Sound P F Q (present "queue" x) := by
  cases x with
  | none => exact .inl rfl
  | some a => exact h a

end Rules

/-! ## The names for the worker -/

section SyncNames

variable {text : String} {names : List String}

theorem splitWords_spaces {cs : List Char} (h : ∀ c ∈ cs, isPythonSpace c = true) : splitWords cs [] = [] := by
  induction cs with
  | nil => rfl
  | cons c cs ih =>
    have hc : isPythonSpace c = true := h c List.mem_cons_self
    rw [splitWords, if_pos hc]
    exact ih fun d hd => h d (List.mem_cons_of_mem c hd)

/-- A text with a word in it is not stripped to nothing. -/
theorem pythonStrip_ne_nil (h : pythonSplit text ≠ []) : pythonStrip text ≠ [] := by
  intro hnil
  have hall : ∀ c ∈ text.toList.dropWhile isPythonSpace, isPythonSpace c = true :=
    List.rdropWhile_eq_nil_iff.mp hnil
  have hdropped : text.toList.dropWhile isPythonSpace = [] := by
    by_contra hsome
    have hhead := List.head_dropWhile_not isPythonSpace hsome
    rw [hall _ (List.head_mem hsome)] at hhead
    exact nomatch hhead
  apply h
  rw [pythonSplit, splitWords_spaces (List.dropWhile_eq_nil_iff.mp hdropped)]
  rfl

/-- One or two names of profiles make a payload. -/
theorem profileSyncNames_ok (hsome : names ≠ []) (hlength : names.length ≤ 2)
    (hnames : ∀ name ∈ names, pythonSplit name ≠ []) :
    ∃ clean, profileSyncNames (sortedNames names) = .ok clean := by
  obtain ⟨name, hname⟩ := List.exists_mem_of_ne_nil names hsome
  have hmem : name ∈ sortedNames names := mem_sortBy.mpr (List.mem_eraseDups.mpr hname)
  obtain ⟨hlong, hshort⟩ := eraseDups_short hlength
    (List.ne_nil_of_mem (List.mem_eraseDups.mpr hname))
  rw [← length_sortBy (f := id) (l := names.eraseDups)] at hlong hshort
  have hkept : ((sortedNames names).map fun name => String.ofList (pythonStrip name)).filter (· ≠ "") ≠ [] := by
    apply List.ne_nil_of_mem (a := String.ofList (pythonStrip name))
    refine List.mem_filter.mpr ⟨List.mem_map_of_mem hmem, decide_eq_true fun hempty => ?_⟩
    apply pythonStrip_ne_nil (hnames name hname)
    simpa using congrArg String.toList hempty
  unfold profileSyncNames
  dsimp only
  rw [if_neg]
  · exact ⟨_, rfl⟩
  · rintro (hless | hmore | hnil)
    · exact absurd hlong (Nat.not_le.mpr hless)
    · exact absurd hshort (Nat.not_le.mpr hmore)
    · exact hkept hnil

end SyncNames

/-! ## The other dialogs -/

/-- The page of VK in a profile. -/
def User.page : User → Option String
  | .telegram profile => profile.vkUrl
  | .vk _ => none

theorem profileComplete_eq (user : User) : user.profileComplete =
    (user.base.commonProfileComplete && (user.identity.platform ≠ .telegram || user.page.isSome)) := by
  cases user with
  | telegram profile => rfl
  | vk profile => exact (Bool.and_true _).symm

/-- The row of the same user with the same profile, in the same state or in none of a profile dialog. -/
structure Elsewhere (bot : Deployment) (user user' : User) : Prop where
  identity : user'.identity = user.identity
  fullName : user'.base.fullName = user.base.fullName
  nickname : user'.base.nickname = user.base.nickname
  crossplay : user'.base.crossplay = user.base.crossplay
  needsPass : user'.base.needsPass = user.base.needsPass
  passDetails : user'.base.passDetails = user.base.passDetails
  page : user'.page = user.page
  contacts : user'.hasContacts bot = true
  dialog : user'.dialogState = user.dialogState ∧ user'.dialogContext = user.dialogContext ∨
    startsWith "PROFILE_" user'.dialogState = false

/-- The other dialogs leave profiles as they are, and raise only what is allowed them. -/
structure Dialogs.KeepProfiles (dialogs : Dialogs) (bot : Deployment) (F : Failure → Prop) : Prop where
  main : ∀ user text, user.isValid bot = true →
    Sound (Elsewhere bot user) F (fun _ => True) (dialogs.main user text)
  access : ∀ user, user.isValid bot = true →
    Sound (Elsewhere bot user) F (fun _ => True) (dialogs.hasAdminAccess user)
  role : ∀ user, user.isValid bot = true →
    Sound (Elsewhere bot user) F (fun _ => True) (dialogs.userRoleLabel user)
  select : ∀ user message text, user.isValid bot = true →
    Sound (Elsewhere bot user) F (fun reply => Elsewhere bot user reply.1) (dialogs.selectEvent user message text)
  admin : ∀ user, user.isValid bot = true →
    Sound (Elsewhere bot user) F (fun reply => Elsewhere bot user reply.1) (dialogs.adminMenu user)
  moderators : ∀ user, user.isValid bot = true →
    Sound (Elsewhere bot user) F (fun reply => Elsewhere bot user reply.1) (dialogs.moderatorManagementMenu user)
  game : ∀ user message text, user.isValid bot = true →
    Sound (Elsewhere bot user) F (fun reply => Elsewhere bot user reply.1)
      (dialogs.adminGameAction user message text)
  steps : ∀ user message text, user.isValid bot = true →
    Sound (Elsewhere bot user) F (fun reply => Elsewhere bot user reply.1)
      (dialogs.continueDialog user message text)
  commands : ∀ user message text, user.isValid bot = true →
    Sound (Elsewhere bot user) F (fun reply => Elsewhere bot user reply.1)
      (dialogs.startCommand user message text)

namespace Elsewhere

variable {bot : Deployment} {user user' : User} (h : Elsewhere bot user user')
include h

theorem profileComplete : user'.profileComplete = user.profileComplete := by
  rw [profileComplete_eq, profileComplete_eq, h.identity, h.page, UserBase.commonProfileComplete,
    UserBase.commonProfileComplete, h.fullName, h.crossplay, h.needsPass, h.passDetails]

theorem isValid (hvalid : user.isValid bot = true) : user'.isValid bot = true := by
  have hbase := base_isValid hvalid
  rw [isValid_eq, h.contacts, Bool.and_true]
  unfold UserBase.isValid at hbase ⊢
  rwa [h.fullName, h.nickname, h.passDetails, h.needsPass]

theorem resumable (huser : Resumable bot user) : Resumable bot user' := by
  refine ⟨h.isValid huser.valid, fun fullName hname => huser.title fullName (h.fullName ▸ hname), ?_⟩
  intro hstart hformat
  rcases h.dialog with ⟨hstate, hcontext⟩ | hidle
  · have hflow := huser.flow (hstate ▸ hstart) (hcontext ▸ hformat)
    unfold InFlow at hflow ⊢
    rwa [hstate, hcontext, h.profileComplete, h.passDetails, h.identity]
  · exact absurd (hidle.symm.trans hstart) Bool.false_ne_true

end Elsewhere

/-! ## The end of a dialog -/

/-- A finished profile. -/
structure Finished (bot : Deployment) (user : User) : Prop where
  resumable : Resumable bot user
  complete : user.profileComplete = true

/-- What a message to a profile dialog leaves: the dialog goes on, or the profile is finished. -/
def Proceeds (bot : Deployment) (reply : Turn) : Prop :=
  Resumable bot reply.1 ∧
    (startsWith "PROFILE_" reply.1.dialogState = true ∨ reply.1.profileComplete = true)

theorem Finished.cleared {bot : Deployment} {user : User} (h : Finished bot user) : Finished bot user.clear :=
  ⟨h.resumable.idle, by
    rw [← h.complete]
    cases user <;> rfl⟩

theorem Elsewhere.finished {bot : Deployment} {user user' : User} (h : Elsewhere bot user user')
    (huser : Finished bot user) : Finished bot user' :=
  ⟨h.resumable huser.resumable, h.profileComplete.trans huser.complete⟩

/-- The link of a row is refreshed. -/
inductive Relinked : User → User → Prop
  | telegram (profile : TelegramUser) {linkedVkId : Option Nat} (h : linkedVkId.all (0 < ·) = true) :
    Relinked (.telegram profile) (.telegram { profile with linkedVkId := linkedVkId })
  | vk (profile : VkUser) : Relinked (.vk profile) (.vk profile)

theorem Relinked.finished {bot : Deployment} {user user' : User} (hlink : Relinked user user')
    (h : Finished bot user) : Finished bot user' := by
  cases hlink with
  | vk profile => exact h
  | telegram profile hlinked =>
    obtain ⟨⟨hvalid, htitle, hflow⟩, hcomplete⟩ := h
    refine ⟨⟨?_, htitle, hflow⟩, hcomplete⟩
    simp only [User.isValid, Bool.and_eq_true] at hvalid ⊢
    exact ⟨hvalid.1, hvalid.2.1, hlinked⟩

/-- The digits of a number only make it larger. -/
theorem le_foldl_digits (digits : List Char) (number : Nat) :
    number ≤ digits.foldl (fun number c => number * 10 + (c.toNat - '0'.toNat)) number := by
  induction digits generalizing number with
  | nil => exact Nat.le_refl number
  | cons c digits ih =>
    have hrest := ih (number * 10 + (c.toNat - '0'.toNat))
    rw [List.foldl_cons]
    omega

theorem vkNumber_pos {url : String} {number : Nat} (h : vkNumber url = some number) : 0 < number := by
  unfold vkNumber at h
  split at h
  · next c cs _ =>
    obtain ⟨hdigits, hnumber⟩ := Option.ite_none_right_eq_some.mp h
    obtain rfl := Option.some.inj hnumber
    simp only [Bool.and_eq_true, decide_eq_true_eq, List.all_cons] at hdigits
    obtain ⟨hzero, hdigit, -⟩ := hdigits
    have hfirst : 0 < c.toNat - '0'.toNat := by
      have hne : c.toNat ≠ '0'.toNat := fun heq => hzero (Char.toNat_inj.mp heq)
      have hle : '0'.toNat ≤ c.toNat := by
        simp only [Char.isDigit, Bool.and_eq_true, decide_eq_true_eq] at hdigit
        exact hdigit.1
      omega
    have hrest := le_foldl_digits cs (0 * 10 + (c.toNat - '0'.toNat))
    rw [List.foldl_cons]
    omega
  · exact nomatch h

section Finishing

variable {bot : Deployment} {dialogs : Dialogs} {F : Failure → Prop} {P : User → Prop} {user : User}
  {message : InboundMessage}

theorem sound_resolvedVkId (profile : TelegramUser) (force : Bool)
    (hlinked : profile.linkedVkId.all (0 < ·) = true) :
    Sound P F (fun linkedVkId => linkedVkId.all (0 < ·) = true) (resolvedVkId dialogs profile force) := by
  unfold resolvedVkId
  split
  · split
    · rfl
    · next url _ =>
      split
      · next number hnumber => exact decide_eq_true (vkNumber_pos hnumber)
      · split
        · refine sound_bind (sound_call (c := .outside (.resolveUserId url)) trivial) fun found hfound => ?_
          show found.join.all _ = true
          cases hjoin : found.join with
          | none => rfl
          | some number => exact decide_eq_true (hfound number hjoin)
        · rfl
  · exact hlinked

theorem linked_of_isValid {profile : TelegramUser} (h : (User.telegram profile).isValid bot = true) :
    profile.linkedVkId.all (0 < ·) = true := by
  simp only [User.isValid, Bool.and_eq_true] at h
  exact h.2.2

theorem sound_refreshLink (hvalid : user.isValid bot = true) (force : Bool) :
    Sound P F (Relinked user) (refreshLink dialogs user force) := by
  cases user with
  | vk profile => exact .vk profile
  | telegram profile =>
    refine sound_bind (Q := fun refreshed => Relinked (.telegram profile) (.telegram refreshed)) ?_
      fun _ hrefreshed => hrefreshed
    refine sound_bind (sound_resolvedVkId profile force (linked_of_isValid hvalid)) fun linkedVkId hlinked => ?_
    exact sound_bind (sound_call trivial) fun _ _ => .telegram profile hlinked

theorem sound_publishProfile (huser : P user) {names : List String} (hsome : names ≠ [])
    (hlength : names.length ≤ 2) (hnames : ∀ name ∈ names, pythonSplit name ≠ []) :
    Sound P F (fun _ => True) (publishProfile bot user message names) := by
  obtain ⟨clean, hclean⟩ := profileSyncNames_ok hsome hlength hnames
  refine sound_bind (sound_call (c := .users (.save user)) huser) fun _ _ => ?_
  refine sound_after (a := clean) (by rw [hclean]; rfl) ?_
  exact sound_bind (sound_call trivial) fun _ _ => sound_present fun _ => trivial

/-- What another dialog does with a row, it does with a profile that passes a test. -/
theorem sound_elsewhere {α : Type} {Q Q' : α → Prop} {p : Act α} (hp : Sound (Elsewhere bot user) F Q p)
    (hP : ∀ user', Elsewhere bot user user' → P user') (hQ : ∀ a, Q a → Q' a) : Sound P F Q' p := by
  refine hp.mono (fun c hc => ?_) hQ fun _ h => h
  cases c with
  | users c =>
    cases c with
    | save stored => exact hP stored hc
    | _ => trivial
  | _ => trivial

variable (hkeep : dialogs.KeepProfiles bot F)
include hkeep

theorem sound_profileResponse (hvalid : user.isValid bot = true)
    (hP : ∀ user', Elsewhere bot user user' → P user') {heading : Option String} :
    Sound P F (fun reply => reply.1 = user) (profileResponse dialogs user heading) := by
  refine sound_bind (sound_elsewhere (hkeep.role user hvalid) hP fun _ h => h) fun role _ => ?_
  exact rfl

theorem sound_cleared (huser : Finished bot user) {heading : Option String} :
    Sound (Finished bot) F (Proceeds bot) (profileResponse dialogs user.clear heading) := by
  have hcleared := huser.cleared
  refine (sound_profileResponse hkeep hcleared.resumable.valid fun _ helse => helse.finished hcleared).mono
    (fun _ h => h) (fun reply hreply => ?_) fun _ h => h
  rw [Proceeds, hreply]
  exact ⟨hcleared.resumable, .inr hcleared.complete⟩

omit hkeep in
theorem Finished.title (h : Finished bot user) :
    ∃ fullName, user.base.fullName = some fullName ∧ pythonSplit fullName ≠ [] := by
  have hsome : user.base.fullName.isSome = true := by
    have hcomplete := h.complete
    cases user <;> simp_all [User.profileComplete, UserBase.commonProfileComplete, User.base]
  obtain ⟨fullName, hname⟩ := Option.isSome_iff_exists.mp hsome
  obtain ⟨surname, name, htitle⟩ := h.resumable.title fullName hname
  refine ⟨fullName, hname, ?_⟩
  rw [htitle.split]
  exact List.cons_ne_nil _ _

/-- A finished profile is stored and shown. -/
theorem sound_completeProfileEdit (huser : Finished bot user) {previousName : Option String}
    (hprevious : ∀ name, previousName = some name → pythonSplit name ≠ []) :
    Sound (Finished bot) F (Proceeds bot) (completeProfileEdit bot dialogs user message previousName) := by
  refine sound_bind (sound_refreshLink huser.resumable.valid false) fun user' hlink => ?_
  have huser' := hlink.finished huser
  obtain ⟨fullName, hname, hwords⟩ := huser'.title
  have hpublished : Sound (Finished bot) F (fun _ => True)
      (publishProfile bot user' message ([previousName, user'.base.fullName].filterMap id)) := by
    rw [hname]
    cases previousName with
    | none => exact sound_publishProfile huser' (List.cons_ne_nil _ _) (Nat.le_succ 1) (by simpa using hwords)
    | some previousName =>
      refine sound_publishProfile huser' (List.cons_ne_nil _ _) (Nat.le_refl 2) ?_
      simpa using ⟨hprevious previousName rfl, hwords⟩
  exact sound_bind hpublished fun _ _ => sound_cleared hkeep huser'

omit hkeep in
theorem assigned_eq (h : user.isValid bot = true) : assigned bot user = .done user := by
  unfold assigned
  rw [if_pos h]
  rfl

omit hkeep in
/-- The contact of a questionnaire is stored with its link. -/
theorem sound_storeContact {context : DialogContext} (hvalid : user.isValid bot = true)
    (hcontact : Contacted bot context user.identity.platform) :
    Sound P F (fun stored => stored.isValid bot = true ∧ stored.base = user.base ∧
      stored.identity = user.identity ∧
      (user.identity.platform ≠ .telegram || stored.page.isSome) = true)
      (storeContact bot dialogs user context) := by
  cases user with
  | telegram profile =>
    obtain ⟨url, hcontext, hurl⟩ := hcontact
    have hstored : (User.telegram { profile with vkUrl := some url }).isValid bot = true := by
      simp only [User.isValid, Bool.and_eq_true] at hvalid ⊢
      exact ⟨hvalid.1, decide_eq_true hurl, hvalid.2.2⟩
    refine sound_after (lookup_of_get hcontext) (sound_after (assigned_eq hstored) ?_)
    refine (sound_refreshLink hstored true).mono (fun _ h => h) (fun stored hlink => ?_) fun _ h => h
    cases hlink with
    | telegram _ hlinked =>
      refine ⟨?_, rfl, rfl, rfl⟩
      simp only [User.isValid, Bool.and_eq_true] at hstored ⊢
      exact ⟨hstored.1, hstored.2.1, hlinked⟩
  | vk profile =>
    obtain ⟨handle, hcontext, hhandle⟩ := hcontact
    have hstored : (User.vk { profile with telegramHandle := handle }).isValid bot = true := by
      simp only [User.isValid, Bool.and_eq_true] at hvalid ⊢
      exact ⟨⟨hvalid.1.1, decide_eq_true hhandle⟩, trivial⟩
    have hassigned : storeContact bot dialogs (.vk profile) context =
        .done (.vk { profile with telegramHandle := handle }) := by
      unfold storeContact
      rw [hcontext, ← assigned_eq hstored]
      cases handle <;> rfl
    rw [hassigned]
    exact ⟨hstored, rfl, rfl, rfl⟩

omit hkeep in
/-- The pass of a questionnaire, if one is needed. -/
theorem requiredPass_of {context : DialogContext} (h : PassChosen context) :
    ∃ needsPass details, context.get "needs_pass" = some (.flag needsPass) ∧
      requiredPass needsPass context = .done details ∧
      (∀ pass, details = some pass → pass.isValid = true) ∧ (needsPass = details.isSome) := by
  rcases h with hnone | ⟨hneeded, hpapers, hphone, hemail⟩
  · exact ⟨false, none, hnone, rfl, fun _ h => (nomatch h), rfl⟩
  · obtain ⟨details, hdetails, hvalid⟩ := passDetails_of hpapers hphone hemail
    refine ⟨true, some details, hneeded, ?_, ?_, rfl⟩
    · unfold requiredPass
      rw [if_pos rfl, hdetails]
      rfl
    · rintro _ ⟨⟩
      exact hvalid

theorem sound_finishProfile (huser : Resumable bot user) (crossplay : Bool)
    (hflow : user.dialogContext.holds "profile_flow" "field" = false)
    (hstate : user.dialogState = "PROFILE_CROSSPLAY")
    (htitle : Titled user.dialogContext) (hpass : PassChosen user.dialogContext)
    (hcontact : Contacted bot user.dialogContext user.identity.platform)
    (hcrossplay : user.dialogContext.get "crossplay" = some (.flag crossplay)) :
    Sound (Finished bot) F (Proceeds bot) (finishProfile bot dialogs user message) := by
  obtain ⟨fullName, surname, name, hname, hfull⟩ := htitle
  obtain ⟨needsPass, details, hneeds, hrequired, hdetails, hsome⟩ := requiredPass_of hpass
  have hbase := base_isValid huser.valid
  unfold UserBase.isValid at hbase
  simp only [Bool.and_eq_true] at hbase
  -- the rows that are assigned on the way
  generalize hnamed : (user.named fullName).mapBase (fun base => { base with crossplay := some crossplay }) =
    named
  have hnamedBase : named.base = { user.base with fullName := some fullName, crossplay := some crossplay } := by
    rw [← hnamed, User.base_mapBase, User.named, User.base_mapBase]
  have hnamedValid : named.isValid bot = true := by
    rw [← hnamed]
    refine isValid_mapBase _ (isValid_mapBase _ huser.valid ?_) ?_
    · simp [UserBase.isValid, hbase, hfull.length]
    · simp [User.named, UserBase.isValid, hbase, hfull.length]
  have hpassed : (named.withPass needsPass details).isValid bot = true := by
    refine isValid_mapBase _ hnamedValid ?_
    rw [hnamedBase, hsome]
    unfold UserBase.isValid
    cases details with
    | none => simp [hbase, hfull.length]
    | some details => simp [hbase, hfull.length, hdetails details rfl]
  have hidentity : (named.withPass needsPass details).identity = user.identity := by
    rw [User.withPass, User.identity_mapBase, ← hnamed, User.identity_mapBase, User.named,
      User.identity_mapBase]
  refine sound_after (lookup_of_get hname) (sound_after (lookup_of_get hcrossplay)
    (sound_after (lookup_of_get hneeds) ?_))
  dsimp only [ContextValue.str, ContextValue.truth]
  rw [hnamed]
  refine sound_after (assigned_eq hnamedValid) (sound_after hrequired (sound_after (assigned_eq hpassed) ?_))
  refine sound_bind (sound_storeContact hpassed (hidentity ▸ hcontact)) ?_
  rintro stored ⟨hvalid, hstored, hsame, hpage⟩
  rw [User.withPass, User.base_mapBase, hnamedBase] at hstored
  have hfinished : Finished bot stored := by
    refine ⟨⟨hvalid, fun text htext => ?_, fun _ _ => ?_⟩, ?_⟩
    · rw [hstored] at htext
      obtain rfl := Option.some.inj htext
      exact ⟨surname, name, hfull⟩
    · unfold InFlow User.dialogContext User.dialogState
      rw [hstored, hsame, hidentity]
      show if user.dialogContext.holds "profile_flow" "field" = true then _
        else Asked bot user.identity.platform user.dialogContext user.dialogState
      rw [if_neg (by rw [hflow]; exact Bool.false_ne_true), hstate]
      exact .crossplay ⟨fullName, surname, name, hname, hfull⟩ hpass hcontact
    · rw [profileComplete_eq, hsame, hpage, hstored, Bool.and_true, UserBase.commonProfileComplete, hsome]
      cases details <;> rfl
  have hpublished : Sound (Finished bot) F (fun _ => True)
      (publishProfile bot stored message ([some fullName, user.base.fullName].filterMap id)) := by
    have hwords : pythonSplit fullName ≠ [] := by
      rw [hfull.split]
      exact List.cons_ne_nil _ _
    cases hprevious : user.base.fullName with
    | none => exact sound_publishProfile hfinished (List.cons_ne_nil _ _) (Nat.le_succ 1) (by simpa using hwords)
    | some previous =>
      obtain ⟨surname', name', htitle'⟩ := huser.title previous hprevious
      refine sound_publishProfile hfinished (List.cons_ne_nil _ _) (Nat.le_refl 2) ?_
      simpa [htitle'.split] using hwords
  refine sound_bind hpublished fun _ _ => ?_
  have hcleared := hfinished.cleared
  split
  · exact sound_cleared hkeep hfinished
  · split
    · next eventId _ =>
      refine sound_bind (sound_elsewhere (hkeep.select _ _ _ hcleared.resumable.valid)
        (fun _ helse => helse.finished hcleared) fun _ h => h) fun reply helse => ?_
      have hreply := helse.finished hcleared
      exact ⟨hreply.resumable, .inr hreply.complete⟩
    · exact ⟨hcleared.resumable, .inr hcleared.complete⟩

end Finishing

end LarpBot
