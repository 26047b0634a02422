import LarpBot.Application.ConversationCore
import LarpBot.Laws.ProfileNames

/-!
# The stages of a profile dialog

A dialog resumes from the row: from its state and from what its context has gathered. For each state of
the questionnaire (`Asked`) and of the edit of a field (`Edited`) this says what the context has to hold
there, so that the steps after it find what they look up and build a pass that its model takes
(`passDetails_of`).
-/

namespace LarpBot

open Atomic Act

/-! ## Contexts -/

section Contexts

variable {context : DialogContext} {key key' : String} {stored : ContextValue}

@[simp] theorem get_set : (context.set key stored).get key' =
    if key = key' then some stored else context.get key' := by
  unfold DialogContext.get DialogContext.set
  rw [Table.find?_insert]
  by_cases h : key = key'
  · simp [h]
  · simp [h, Ne.symm h]

@[simp] theorem get_setText {text : String} : (context.setText key text).get key' =
    if key = key' then some (.text text) else context.get key' :=
  get_set

theorem holds_congr {context' : DialogContext} (h : context'.get key = context.get key) (text : String) :
    context'.holds key text = context.holds key text := by
  unfold DialogContext.holds
  rw [h]

theorem lookup_of_get (h : context.get key = some stored) : context.lookup key = .done stored := by
  unfold DialogContext.lookup
  rw [h]

/-- The three parts of a name, with a dash for no patronym. -/
abbrev FullName := String × String × String

/-- The parts are names of a pass. -/
def IsName (alphabet : Alphabet) (name : FullName) : Prop :=
  isPassName alphabet name.1.toList = true ∧ isPassName alphabet name.2.1.toList = true ∧
    (name.2.2 = "-" ∨ isPassName alphabet name.2.2.toList = true)

theorem isName_of_parse {alphabet : Alphabet} {value : String} {parts : String × String × Option String}
    (h : parseFullName value alphabet = some parts) :
    IsName alphabet (parts.1, parts.2.1, parts.2.2.getD "-") := by
  obtain ⟨hsurname, hname, hpatronym, -, -⟩ := parseFullName_parts h
  refine ⟨hsurname.name, hname.name, ?_⟩
  cases hparts : parts.2.2 with
  | none => exact .inl rfl
  | some patronym => exact .inr (hpatronym patronym hparts).name

/-- The context holds the parts of a name under the suffix of their alphabet. -/
def HoldsName (context : DialogContext) (suffix : String) (name : FullName) : Prop :=
  context.get ("surname_" ++ suffix) = some (.text name.1) ∧
    context.get ("name_" ++ suffix) = some (.text name.2.1) ∧
    context.get ("patronym_" ++ suffix) = some (.text name.2.2)

/-- The Cyrillic name is known. -/
def Named (context : DialogContext) : Prop :=
  ∃ name, HoldsName context "cyrillic" name ∧ IsName .cyrillic name

/-- The name that the profile keeps is known. -/
def Titled (context : DialogContext) : Prop :=
  ∃ fullName surname name, context.get "full_name" = some (.text fullName) ∧ IsFullName fullName surname name

/-- The citizenship is known, and for a foreigner the Latin name, which has a patronym if the Cyrillic
one has. -/
def Papers (context : DialogContext) : Prop :=
  ∃ name foreigner, (HoldsName context "cyrillic" name ∧ IsName .cyrillic name) ∧
    context.get "foreigner" = some (.flag foreigner) ∧
    (foreigner = true → ∃ latin, (HoldsName context "latin" latin ∧ IsName .latin latin) ∧
      (name.2.2 = "-" ↔ latin.2.2 = "-"))

def Phoned (context : DialogContext) : Prop :=
  ∃ phone, context.get "mobile_phone" = some (.text phone) ∧ (normalizeMobilePhone phone).isSome = true

def Mailed (context : DialogContext) : Prop :=
  ∃ email, context.get "email" = some (.text email) ∧ isPassEmail email.toList = true

/-- Whether a pass is needed is known, and everything that a pass needs. -/
def PassChosen (context : DialogContext) : Prop :=
  context.get "needs_pass" = some (.flag false) ∨
    context.get "needs_pass" = some (.flag true) ∧ Papers context ∧ Phoned context ∧ Mailed context

/-! ## The pass -/

theorem lookup_text {text : String} (h : context.get key = some (.text text)) :
    (context.lookup key >>= fun value => pure value.str : Act String) = .done text := by
  rw [lookup_of_get h]
  rfl

theorem value_modelValidate {details : PassDetails} (h : details.isValid = true) :
    value details.modelValidate = .done details := by
  unfold PassDetails.modelValidate
  rw [if_pos h]
  rfl

/-- The parts of a pass that its model takes. -/
structure PassAgrees (details : PassDetails) : Prop where
  name : IsName .cyrillic (details.surnameCyrillic, details.nameCyrillic, details.patronymCyrillic)
  phone : (normalizeMobilePhone details.mobilePhone).isSome = true
  email : isPassEmail details.email.toList = true
  citizen : details.foreigner = false →
    details.surnameLatin = none ∧ details.nameLatin = none ∧ details.patronymLatin = none
  foreign : details.foreigner = true → ∃ latin : FullName, IsName .latin latin ∧
    details.surnameLatin = some latin.1 ∧ details.nameLatin = some latin.2.1 ∧
    details.patronymLatin = some latin.2.2 ∧ (details.patronymCyrillic = "-" ↔ latin.2.2 = "-")

theorem isValid_iff {details : PassDetails} : details.isValid = true ↔ PassAgrees details := by
  obtain ⟨surname, name, patronym, foreigner, surnameLatin, nameLatin, patronymLatin, phone, email⟩ := details
  constructor
  · intro h
    unfold PassDetails.isValid at h
    simp only [Bool.and_eq_true] at h
    obtain ⟨⟨⟨⟨⟨⟨⟨⟨hsurname, hname⟩, hpatronym⟩, hsurnameLatin⟩, hnameLatin⟩, hpatronymLatin⟩, hphone⟩,
      hemail⟩, hrest⟩ := h
    refine ⟨⟨hsurname, hname, by simpa using hpatronym⟩, hphone, hemail, ?_, ?_⟩
    · rintro rfl
      simpa using hrest
    · rintro rfl
      simp at hrest
      obtain ⟨⟨hsurnameSome, hnameSome, hpatronymSome⟩, hsame⟩ := hrest
      obtain ⟨surnameLatin, rfl⟩ := Option.isSome_iff_exists.mp hsurnameSome
      obtain ⟨nameLatin, rfl⟩ := Option.isSome_iff_exists.mp hnameSome
      obtain ⟨patronymLatin, rfl⟩ := Option.isSome_iff_exists.mp hpatronymSome
      refine ⟨(surnameLatin, nameLatin, patronymLatin), ⟨hsurnameLatin, hnameLatin, ?_⟩, rfl, rfl, rfl, ?_⟩
      · simpa using hpatronymLatin
      · simpa using hsame
  · rintro ⟨⟨hsurname, hname, hpatronym⟩, hphone, hemail, hcitizen, hforeign⟩
    dsimp only at hsurname hname hpatronym hphone hemail hcitizen hforeign
    unfold PassDetails.isValid
    simp only [Bool.and_eq_true]
    cases foreigner with
    | false =>
      obtain ⟨rfl, rfl, rfl⟩ := hcitizen rfl
      simp [hsurname, hname, hpatronym, hphone, hemail]
    | true =>
      obtain ⟨latin, ⟨hsurnameLatin, hnameLatin, hpatronymLatin⟩, rfl, rfl, rfl, hsame⟩ := hforeign rfl
      simp [hsurname, hname, hpatronym, hphone, hemail, hsurnameLatin, hnameLatin, hpatronymLatin]
      exact hsame

/-- The questionnaire of a pass that the context holds, if there is any, is valid. -/
theorem passDetails_of (hpapers : Papers context) (hphone : Phoned context) (hemail : Mailed context) :
    ∃ details, passDetailsFromContext context = .done details ∧ details.isValid = true := by
  obtain ⟨name, foreigner, ⟨⟨hsurname, hname, hpatronym⟩, hvalid⟩, hforeigner, hlatin⟩ := hpapers
  obtain ⟨phone, hphone, hnumber⟩ := hphone
  obtain ⟨email, hemail, haddress⟩ := hemail
  simp only [String.reduceAppend] at hsurname hname hpatronym
  simp only [passDetailsFromContext, lookup_of_get hforeigner, lookup_text hsurname, lookup_text hname,
    lookup_text hpatronym, lookup_text hphone, lookup_text hemail]
  cases foreigner with
  | false =>
    have hdetails : PassAgrees ⟨name.1, name.2.1, name.2.2, false, none, none, none, phone, email⟩ :=
      ⟨hvalid, hnumber, haddress, fun _ => ⟨rfl, rfl, rfl⟩, fun h => absurd h Bool.false_ne_true⟩
    exact ⟨_, value_modelValidate (isValid_iff.mpr hdetails), isValid_iff.mpr hdetails⟩
  | true =>
    obtain ⟨latin, ⟨⟨hsurnameLatin, hnameLatin, hpatronymLatin⟩, hlatin⟩, hsame⟩ := hlatin rfl
    simp only [String.reduceAppend] at hsurnameLatin hnameLatin hpatronymLatin
    simp only [lookup_text hsurnameLatin, lookup_text hnameLatin, lookup_text hpatronymLatin]
    have hdetails : PassAgrees ⟨name.1, name.2.1, name.2.2, true, some latin.1, some latin.2.1,
        some latin.2.2, phone, email⟩ :=
      ⟨hvalid, hnumber, haddress, fun h => absurd h.symm Bool.false_ne_true,
        fun _ => ⟨latin, hlatin, rfl, rfl, rfl, hsame⟩⟩
    exact ⟨_, value_modelValidate (isValid_iff.mpr hdetails), isValid_iff.mpr hdetails⟩

end Contexts

/-! ## Stages -/

/-- The contact of a questionnaire, as the platform of the user has it. -/
def Contacted (bot : Deployment) (context : DialogContext) : Platform → Prop
  | .telegram => ∃ url, context.get "contact" = some (.text url) ∧ normalizeVkUrl bot url = .ok url
  | _ => ∃ handle, context.get "contact" = some (.ofOption handle) ∧
      normalizeTelegramHandle bot handle = .ok handle

/-- What the questionnaire has gathered in each of its states. -/
inductive Asked (bot : Deployment) (platform : Platform) (context : DialogContext) : String → Prop
  | fullName : Asked bot platform context "PROFILE_FULL_NAME_CYRILLIC"
  | needsPass (hname : Named context) (htitle : Titled context) :
    Asked bot platform context "PROFILE_NEEDS_PASS"
  | citizenship (hname : Named context) (htitle : Titled context)
    (hpass : context.get "needs_pass" = some (.flag true)) :
    Asked bot platform context "PROFILE_PASS_FOREIGNER"
  | latinName (hname : Named context) (htitle : Titled context)
    (hpass : context.get "needs_pass" = some (.flag true))
    (hforeigner : context.get "foreigner" = some (.flag true)) :
    Asked bot platform context "PROFILE_PASS_FULL_NAME_LATIN"
  | phone (htitle : Titled context) (hpass : context.get "needs_pass" = some (.flag true))
    (hpapers : Papers context) : Asked bot platform context "PROFILE_PASS_PHONE"
  | email (htitle : Titled context) (hpass : context.get "needs_pass" = some (.flag true))
    (hpapers : Papers context) (hphone : Phoned context) :
    Asked bot platform context "PROFILE_PASS_EMAIL_ADDRESS"
  | contact (htitle : Titled context) (hpass : PassChosen context) :
    Asked bot platform context "PROFILE_CONTACT"
  | crossplay (htitle : Titled context) (hpass : PassChosen context)
    (hcontact : Contacted bot context platform) : Asked bot platform context "PROFILE_CROSSPLAY"

/-- What the edit of a field has gathered in each of its states; `detailed` says whether a pass is on
file. -/
inductive Edited (detailed : Bool) (field : String) (context : DialogContext) : String → Prop
  | nickname : Edited detailed field context "PROFILE_NICKNAME"
  | fullName : Edited detailed field context "PROFILE_FULL_NAME_CYRILLIC"
  | contact : Edited detailed field context "PROFILE_CONTACT"
  | crossplay : Edited detailed field context "PROFILE_CROSSPLAY"
  | needsPass (hfield : field = "pass") (hname : Named context) :
    Edited detailed field context "PROFILE_NEEDS_PASS"
  | citizenship (hfield : field = "pass" ∨ field ≠ "name" ∧ detailed = true) (hname : Named context) :
    Edited detailed field context "PROFILE_PASS_FOREIGNER"
  | latinName (hfield : field = "pass" ∨ detailed = true) (hname : Named context)
    (htitle : field = "name" → Titled context) :
    Edited detailed field context "PROFILE_PASS_FULL_NAME_LATIN"
  | phone (hpapers : field = "pass" → Papers context) (hfield : field ≠ "pass" → detailed = true) :
    Edited detailed field context "PROFILE_PASS_PHONE"
  | email (hpapers : field = "pass" → Papers context ∧ Phoned context)
    (hfield : field ≠ "pass" → detailed = true) :
    Edited detailed field context "PROFILE_PASS_EMAIL_ADDRESS"

/-- The flow of a profile dialog: an edit of one field of a complete profile, or the questionnaire. -/
def InFlow (bot : Deployment) (user : User) : Prop :=
  if user.dialogContext.holds "profile_flow" "field" then
    user.profileComplete = true ∧ ∃ field, user.dialogContext.get "profile_field" = some (.text field) ∧
      Edited user.base.passDetails.isSome field user.dialogContext user.dialogState
  else Asked bot user.identity.platform user.dialogContext user.dialogState

/-- A row that every message can go on from. -/
structure Resumable (bot : Deployment) (user : User) : Prop where
  valid : user.isValid bot = true
  title : ∀ fullName, user.base.fullName = some fullName → ∃ surname name, IsFullName fullName surname name
  flow : startsWith "PROFILE_" user.dialogState = true →
    user.dialogContext.holds "profile_format" profileFormat = true → InFlow bot user

section Rows

variable {bot : Deployment} {user : User} {context : DialogContext} {state : String}

@[simp] theorem dialogState_inState : (user.inState state).dialogState = state := by
  cases user <;> rfl

@[simp] theorem dialogContext_inState : (user.inState state).dialogContext = user.dialogContext := by
  cases user <;> rfl

@[simp] theorem dialogState_withContext : (user.withContext context).dialogState = user.dialogState := by
  cases user <;> rfl

@[simp] theorem dialogContext_withContext : (user.withContext context).dialogContext = context := by
  cases user <;> rfl

@[simp] theorem dialogState_clear : user.clear.dialogState = "IDLE" := by
  cases user <;> rfl

@[simp] theorem dialogState_named (fullName : String) :
    (user.named fullName).dialogState = user.dialogState := by
  cases user <;> rfl

@[simp] theorem dialogContext_named (fullName : String) :
    (user.named fullName).dialogContext = user.dialogContext := by
  cases user <;> rfl

@[simp] theorem dialogState_withDetails (details : PassDetails) :
    (user.withDetails details).dialogState = user.dialogState := by
  cases user <;> rfl

@[simp] theorem dialogContext_withDetails (details : PassDetails) :
    (user.withDetails details).dialogContext = user.dialogContext := by
  cases user <;> rfl

@[simp] theorem dialogState_withPass (needsPass : Bool) (details : Option PassDetails) :
    (user.withPass needsPass details).dialogState = user.dialogState := by
  cases user <;> rfl

@[simp] theorem dialogContext_withPass (needsPass : Bool) (details : Option PassDetails) :
    (user.withPass needsPass details).dialogContext = user.dialogContext := by
  cases user <;> rfl

/-- The contacts of a row are as its model stores them. -/
def User.hasContacts (bot : Deployment) (user : User) : Bool :=
  0 < user.identity.platformUserId &&
    decide (normalizeTelegramHandle bot user.telegramHandle = .ok user.telegramHandle) &&
    match user with
    | .telegram profile =>
      profile.vkUrl.all (fun url => normalizeVkUrl bot url = .ok url) && profile.linkedVkId.all (0 < ·)
    | .vk _ => true

theorem isValid_eq : user.isValid bot = (user.base.isValid && user.hasContacts bot) := by
  cases user <;> simp only [User.isValid, User.hasContacts, Bool.and_assoc]

@[simp] theorem hasContacts_mapBase (f : UserBase → UserBase) :
    (user.mapBase f).hasContacts bot = user.hasContacts bot := by
  cases user <;> rfl

/-- The part of a row that is valid by itself. -/
theorem isValid_mapBase (f : UserBase → UserBase) (h : user.isValid bot = true)
    (hf : (f user.base).isValid = true) : (user.mapBase f).isValid bot = true := by
  rw [isValid_eq, Bool.and_eq_true] at h
  rw [isValid_eq, User.base_mapBase, hasContacts_mapBase, hf, h.2]
  rfl

theorem base_isValid (h : user.isValid bot = true) : user.base.isValid = true := by
  rw [isValid_eq, Bool.and_eq_true] at h
  exact h.1

/-- A row that is not in a profile dialog. -/
theorem Resumable.idle (h : Resumable bot user) : Resumable bot user.clear := by
  refine ⟨?_, ?_, fun hstart => ?_⟩
  · exact isValid_mapBase _ h.valid (base_isValid h.valid)
  · rw [User.clear, User.base_mapBase]
    exact h.title
  · rw [dialogState_clear] at hstart
    exact absurd hstart (by decide)

/-- A row that keeps what it has gathered. -/
theorem Resumable.gathers (h : Resumable bot user) (hflow : InFlow bot (user.withContext context)) :
    Resumable bot (user.withContext context) := by
  refine ⟨?_, ?_, fun _ _ => hflow⟩
  · exact isValid_mapBase _ h.valid (base_isValid h.valid)
  · rw [User.withContext, User.base_mapBase]
    exact h.title

/-- A row that goes on in a profile dialog. -/
theorem Resumable.asks (h : Resumable bot user)
    (hflow : InFlow bot ((user.withContext context).inState state)) :
    Resumable bot ((user.withContext context).inState state) := by
  refine ⟨?_, ?_, fun _ _ => hflow⟩
  · exact isValid_mapBase _ (isValid_mapBase _ h.valid (base_isValid h.valid)) (by
      rw [User.withContext, User.base_mapBase]
      exact base_isValid h.valid)
  · rw [User.inState, User.base_mapBase, User.withContext, User.base_mapBase]
    exact h.title

end Rows

end LarpBot
