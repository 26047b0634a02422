import LarpBot.Application.GatewayRequests
import LarpBot.Laws.Executions

/-!
# Roles and deliveries beside the saves of dialogs

The role of a user and the marker of its last delivery are set by calls of their own, while a request
of the user goes on and saves the model that it has read. On DynamoDB a save writes all of the model,
so it takes both back to what was read; on YDB it leaves the role alone and takes back the marker.
Where the save of a request finds both as the request has read them, nothing is lost.
-/

namespace LarpBot

open Atomic
open Prog (Traced)

/-! ## What is set beside the dialogs -/

/-- The effective role of a user and the operation of its last delivery. -/
structure Standing where
  role : Option PrivilegedRole := none
  delivery : Option OperationId := none
deriving DecidableEq, Repr

def User.standing (user : User) : Standing :=
  ⟨user.base.effectivePrivilegedRole, user.base.lastDeliveryOperationId⟩

/-- A user that is not stored has no role, and nothing was delivered to it. -/
def standingOf (stored : Option User) : Standing :=
  stored.elim {} User.standing

theorem User.DialogOf.standing {user saved : User} (h : user.DialogOf saved) :
    saved.standing = user.standing := by
  simp only [User.standing, UserBase.effectivePrivilegedRole, h.privilegedRole, h.isGamemaster,
    h.lastDeliveryOperationId]

namespace UserMethod

/-- The row that a method writes. -/
def target : UserMethod → Option BotIdentity
  | of (.save user) => some user.identity
  | of (.updateTelegramHandle userId _) | of (.updateTelegramLink userId _ _) =>
    some ⟨.telegram, userId⟩
  | of (.claimDelivery platform userId _ _) | of (.setLarpExperience platform userId _)
  | of (.grantLarpExperience platform userId) | setPrivilegedRole platform userId _ _
  | clearPrivilegedRole platform userId _ => some ⟨platform, userId⟩
  | _ => none

/-- What a method other than a save makes of the standing of its row. -/
def decided : UserMethod → Standing → Standing
  | of (.claimDelivery _ _ operationId _), standing => { standing with delivery := some operationId }
  | setPrivilegedRole _ _ role _, standing => { standing with role := some role }
  | clearPrivilegedRole _ _ _, standing => { standing with role := none }
  | _, standing => standing

end UserMethod

/-- One row has changed, and its standing as a decision says. -/
structure Users.Decides (users users' : Users) (k : BotIdentity) (decision : Standing → Standing) :
    Prop where
  others : ∀ k', k' ≠ k → users'.find? k' = users.find? k'
  standing : (users'.find? k).map User.standing = (users.find? k).map fun user =>
    decision user.standing

section Decides

variable {users users' : Users} {k : BotIdentity} {decision : Standing → Standing}

theorem decides_refl (h : ∀ user, users.find? k = some user → decision user.standing = user.standing) :
    users.Decides users k decision := by
  refine ⟨fun _ _ => rfl, ?_⟩
  cases hfound : users.find? k with
  | none => rfl
  | some user => simp [h user hfound]

theorem decides_modify {f : User → User} (hf : ∀ user, (f user).identity = user.identity)
    (h : ∀ user, users.find? k = some user → (f user).standing = decision user.standing) :
    users.Decides (users.modify k f hf) k decision := by
  refine ⟨fun k' hk => Table.find?_modify_of_ne users hk f hf, ?_⟩
  rw [Table.find?_modify_self]
  cases hfound : users.find? k with
  | none => rfl
  | some user => simp [h user hfound]

theorem Users.Decides.isSome (h : users.Decides users' k decision) (k' : BotIdentity) :
    (users'.find? k').isSome = (users.find? k').isSome := by
  by_cases hk : k' = k
  · subst hk
    have hstanding := congrArg Option.isSome h.standing
    simpa using hstanding
  · rw [h.others k' hk]

/-- The standing of a row that is stored. -/
theorem Users.Decides.standingOf (h : users.Decides users' k decision)
    (hstored : (users.find? k).isSome) :
    LarpBot.standingOf (users'.find? k) = decision (LarpBot.standingOf (users.find? k)) := by
  obtain ⟨user, hfound⟩ := Option.isSome_iff_exists.mp hstored
  have hstanding := h.standing
  rw [hfound] at hstanding
  obtain ⟨user', hfound', hsame⟩ := Option.map_eq_some_iff.mp hstanding
  rw [hfound, hfound']
  exact hsame

end Decides

theorem User.standing_mapBase {user : User} {f : UserBase → UserBase} :
    (user.mapBase f).standing =
      ⟨(f user.base).effectivePrivilegedRole, (f user.base).lastDeliveryOperationId⟩ := by
  rw [User.standing, User.base_mapBase]

namespace UserMethod

variable {m : UserMethod} {users users' : Users} {now : Time} {k : BotIdentity}

/-- A call that is no save keeps to its row, and only a claim touches its standing. -/
theorem decides_perform {c : UserCall} (hsave : ¬ (of c).IsSave) (hk : (of c).target = some k) :
    users.Decides (c.perform now users).2 k (of c).decided := by
  cases c with
  | save user => exact absurd trivial hsave
  | claimDelivery platform userId operationId buttons =>
    obtain rfl := Option.some.inj hk
    show users.Decides (users.claimDelivery platform userId operationId buttons).2 _ _
    unfold Users.claimDelivery
    split
    · next hnone =>
      apply decides_refl
      intro user hfound
      rw [Users.get, hfound] at hnone
      cases hnone
    · next user hfound =>
      split
      · next hsame =>
        apply decides_refl
        intro user' hfound'
        rw [Users.get, hfound'] at hfound
        obtain rfl := Option.some.inj hfound
        show (⟨_, some operationId⟩ : Standing) = user'.standing
        rw [User.standing, hsame]
      · exact decides_modify (User.identity_mapBase _) fun user _ => User.standing_mapBase
  | updateTelegramHandle userId handle =>
    obtain rfl := Option.some.inj hk
    refine decides_modify (fun user => ?_) fun user _ => ?_
    · cases user <;> rfl
    · cases user <;> rfl
  | updateTelegramLink userId handle vkId =>
    obtain rfl := Option.some.inj hk
    refine decides_modify (fun user => ?_) fun user _ => ?_
    · cases user <;> rfl
    · cases user <;> rfl
  | setLarpExperience platform userId experienced =>
    obtain rfl := Option.some.inj hk
    exact decides_modify (User.identity_mapBase _) fun user _ => User.standing_mapBase
  | grantLarpExperience platform userId =>
    obtain rfl := Option.some.inj hk
    exact decides_modify (User.identity_mapBase _) fun user _ => User.standing_mapBase
  | _ => cases hk

theorem users_perform {c : UserCall} (hk : (of c).target = none) : (c.perform now users).2 = users := by
  cases c <;> first | rfl | exact nomatch hk

theorem ok_of_map {x : Except Fault Users} {answer : Unit}
    (h : x.map ((), ·) = .ok (answer, users')) : x = .ok users' := by
  cases x with
  | error fault => exact nomatch h
  | ok found => rw [(Prod.mk.inj (Except.ok.inj h)).2]

/-- A method of the memory repository. -/
theorem decides_run {answer : m.Ans} (hrun : m.run now users = .ok (answer, users'))
    (hsave : ¬ m.IsSave) (hk : m.target = some k) : users.Decides users' k m.decided := by
  cases m with
  | of c =>
    have hresult : (c.perform now users).2 = users' := congrArg Prod.snd (Except.ok.inj hrun)
    rw [← hresult]
    exact decides_perform hsave hk
  | setPrivilegedRole platform userId role operationId =>
    obtain rfl := Option.some.inj hk
    have hset := ok_of_map hrun
    unfold Users.setPrivilegedRole at hset
    split at hset
    · exact nomatch hset
    · next user hfound =>
      split at hset
      · obtain rfl := Except.ok.inj hset
        exact decides_modify (User.identity_mapBase _) fun user _ => User.standing_mapBase
      · next hsame =>
        obtain rfl := Except.ok.inj hset
        rw [not_or, not_not] at hsame
        apply decides_refl
        intro user' hfound'
        rw [Users.get, hfound'] at hfound
        obtain rfl := Option.some.inj hfound
        show (⟨some role, _⟩ : Standing) = user'.standing
        rw [← hsame.1, User.standing]
  | clearPrivilegedRole platform userId operationId =>
    obtain rfl := Option.some.inj hk
    have hset := ok_of_map hrun
    unfold Users.clearPrivilegedRole at hset
    split at hset
    · exact nomatch hset
    · next user hfound =>
      split at hset
      · obtain rfl := Except.ok.inj hset
        exact decides_modify (User.identity_mapBase _) fun user _ => User.standing_mapBase
      · next hsame =>
        obtain rfl := Except.ok.inj hset
        rw [not_not] at hsame
        apply decides_refl
        intro user' hfound'
        rw [Users.get, hfound'] at hfound
        obtain rfl := Option.some.inj hfound
        show (⟨none, _⟩ : Standing) = user'.standing
        rw [← hsame, User.standing]

theorem users_run {answer : m.Ans} (hrun : m.run now users = .ok (answer, users'))
    (hk : m.target = none) : users' = users := by
  cases m with
  | of c =>
    have hresult : (c.perform now users).2 = users' := congrArg Prod.snd (Except.ok.inj hrun)
    rw [← hresult, users_perform hk]
  | _ => exact nomatch hk

/-- A query of the YDB repository. -/
theorem decides_query (hsave : ¬ m.IsSave) (hk : m.target = some k) :
    users.Decides (ydbUsers m now users).2 k m.decided := by
  cases m with
  | of c =>
    have hquery : ydbUsers (.of c) now users = c.perform now users := by
      cases c <;> first | rfl | exact absurd trivial hsave
    rw [hquery]
    exact decides_perform hsave hk
  | setPrivilegedRole platform userId role operationId =>
    obtain rfl := Option.some.inj hk
    refine decides_modify (User.identity_mapBase _) fun user _ => ?_
    rw [User.standing_mapBase]
    split
    · rfl
    · next hsame =>
      rw [not_or, not_not] at hsame
      simp [User.standing, decided, UserBase.effectivePrivilegedRole, hsame.1]
  | clearPrivilegedRole platform userId operationId =>
    obtain rfl := Option.some.inj hk
    refine decides_modify (User.identity_mapBase _) fun user _ => ?_
    rw [User.standing_mapBase]
    split
    · rfl
    · next hnone =>
      simp at hnone
      simp [User.standing, decided, UserBase.effectivePrivilegedRole, hnone]

theorem users_query (hk : m.target = none) : (ydbUsers m now users).2 = users := by
  cases m with
  | of c =>
    have hquery : ydbUsers (.of c) now users = c.perform now users := by
      cases c <;> first | rfl | exact nomatch hk
    rw [hquery]
    exact users_perform hk
  | _ => exact nomatch hk

/-- A save on YDB leaves the role of the row as it was, and stores the marker that it was given. -/
theorem standingOf_upsert (user : User) : standingOf ((users.upsert user).find? k) =
    if k = user.identity then
      { standingOf (users.find? k) with delivery := user.base.lastDeliveryOperationId }
    else standingOf (users.find? k) := by
  rw [Users.upsert, Table.find?_insert, User.identity_mapBase]
  split
  · next hk =>
    subst hk
    show User.standing _ = _
    rw [User.standing_mapBase]
    cases users.find? user.identity <;> rfl
  · rfl

end UserMethod

/-! ## Transactions on DynamoDB -/

/-- The standing of a stored user. -/
abbrev UserItems.standingAt (tables : UserItems) (k : BotIdentity) : Standing :=
  standingOf ((tables.find? k).map Item.document)

section Committed

variable {m : UserMethod} {now : Time} {original tables tables' : UserItems} {answer : m.Ans}
  {memory : Users} {user : User} {read : Item User} {k : BotIdentity}

theorem find?_load : (dynamoUsers.load original).find? k = (original.find? k).map Item.document := by
  have hnodup : ((original.rows.map Item.document).map User.identity).Nodup := by
    rw [List.map_map]
    exact original.nodup
  show (Table.ofList (original.rows.map Item.document) : Users).find? k = _
  rw [Table.find?, Table.rows_ofList hnodup, List.find?_map]
  rfl

/-- Nothing that is written leaves every user as it was read. -/
theorem actions_eq_nil (h : ∀ k, memory.find? k = (dynamoUsers.load original).find? k) :
    dynamoUsers.actions now original memory = [] := by
  have hdelta : delta original memory = [] := delta_eq_nil fun k => (h k).trans find?_load
  show delta original memory ++ [] = []
  rw [hdelta, List.append_nil]

/-- No method deletes a user. -/
theorem isSome_run (hrun : m.run now (dynamoUsers.load original) = .ok (answer, memory))
    (hread : read ∈ original.rows) : (memory.find? read.document.identity).isSome := by
  have hloaded : (dynamoUsers.load original).find? read.document.identity = some read.document := by
    have hfound : original.find? read.document.identity = some read := Table.find?_key hread
    rw [find?_load, hfound]
    rfl
  by_cases hsave : m.IsSave
  · cases m with
    | of c =>
      cases c with
      | save user =>
        have hresult : ((dynamoUsers.load original).save user) = memory :=
          congrArg Prod.snd (Except.ok.inj hrun)
        rw [← hresult, Users.save, Table.find?_insert]
        split
        · rfl
        · rw [hloaded]
          rfl
      | _ => exact hsave.elim
    | _ => exact hsave.elim
  · cases htarget : m.target with
    | none => rw [UserMethod.users_run hrun htarget, hloaded]; rfl
    | some k => rw [(UserMethod.decides_run hrun hsave htarget).isSome, hloaded]; rfl

/-- What was read is written over. -/
theorem follows_committed (hrun : m.run now (dynamoUsers.load original) = .ok (answer, memory))
    (h : Committed (dynamoUsers.actions now original memory) tables tables')
    (hread : Follows tables read) : Follows tables' read :=
  hread.committed h (fun _ hitem => isSome_run hrun hitem) fun _ ha => absurd ha List.not_mem_nil

/-- A row that a committed transaction does not want otherwise than it was read stays. -/
theorem find?_committed_of_kept
    (h : Committed (dynamoUsers.actions now original memory) tables tables')
    (hk : memory.find? k = (dynamoUsers.load original).find? k) : tables'.find? k = tables.find? k := by
  rw [find?_load] at hk
  have hfate : Fate original memory tables tables' k :=
    h.fate fun a ha => absurd ha List.not_mem_nil
  cases hfate with
  | written document revision hdesired hchanged => exact absurd (hk ▸ hdesired) hchanged
  | deleted horiginal hdesired =>
    rw [hdesired] at hk
    rw [← Option.isSome_map (f := Item.document), ← hk] at horiginal
    exact nomatch horiginal
  | kept _ hafter => exact hafter

/-- A method that has something to commit writes a row. -/
theorem target_of_actions (hrun : m.run now (dynamoUsers.load original) = .ok (answer, memory))
    (hsome : dynamoUsers.actions now original memory ≠ []) : ∃ k, m.target = some k := by
  cases htarget : m.target with
  | some k => exact ⟨k, rfl⟩
  | none =>
    rw [UserMethod.users_run hrun htarget] at hsome
    exact absurd (actions_eq_nil fun _ => rfl) hsome

/-- A committed transaction of a method that is no save decides on the stored row. -/
theorem committed_decides (hrun : m.run now (dynamoUsers.load original) = .ok (answer, memory))
    (hsave : ¬ m.IsSave) (h : Committed (dynamoUsers.actions now original memory) tables tables')
    (hsome : dynamoUsers.actions now original memory ≠ [])
    (hfollows : ∀ item ∈ original.rows, Follows tables item) (htarget : m.target = some k) :
    tables'.standingAt k = m.decided (tables.standingAt k) ∧
      ∀ k', k' ≠ k → tables'.find? k' = tables.find? k' := by
  have hdecides := UserMethod.decides_run hrun hsave htarget
  refine ⟨?_, fun k' hk => find?_committed_of_kept h (hdecides.others k' hk)⟩
  have hchanged : memory.find? k ≠ (dynamoUsers.load original).find? k := by
    intro hsame
    refine hsome (actions_eq_nil fun k' => ?_)
    by_cases hk : k' = k
    · rw [hk, hsame]
    · exact hdecides.others k' hk
  have hfate : Fate original memory tables tables' k :=
    h.fate fun a ha => absurd ha List.not_mem_nil
  cases hfate with
  | deleted horiginal hdesired =>
    obtain ⟨item, hfound⟩ := Option.isSome_iff_exists.mp horiginal
    have hthere := isSome_run hrun (Table.mem_of_find? hfound)
    rw [Store.key_of_find? hfound, hdesired] at hthere
    exact nomatch hthere
  | kept hsame => exact absurd (hsame.trans find?_load.symm) hchanged
  | written document revision hdesired hdiffers _ hafter =>
    have hloaded : ((dynamoUsers.load original).find? k).isSome := by
      rw [← hdecides.isSome, hdesired]
      rfl
    have hstanding := hdecides.standingOf hloaded
    rw [hdesired, find?_load] at hstanding
    rw [find?_load, Option.isSome_map] at hloaded
    obtain ⟨item, hfound⟩ := Option.isSome_iff_exists.mp hloaded
    rw [hfound] at hdiffers hstanding
    have hstored : tables.find? k = some item := by
      refine h.stored_of_written hfound hdesired (fun hsame => hdiffers ?_)
        (hfollows item (Table.mem_of_find? hfound))
      rw [Option.map_some, hsame]
    rw [UserItems.standingAt, UserItems.standingAt, hafter, hstored]
    exact hstanding

/-- A committed save stores the model that it was given. -/
theorem committed_save {answer : (UserMethod.of (.save user)).Ans}
    (hrun : (UserMethod.of (.save user)).run now (dynamoUsers.load original) = .ok (answer, memory))
    (h : Committed (dynamoUsers.actions now original memory) tables tables')
    (hsome : dynamoUsers.actions now original memory ≠ []) :
    tables'.standingAt user.identity = user.standing ∧
      ∀ k', k' ≠ user.identity → tables'.find? k' = tables.find? k' := by
  have hresult : (dynamoUsers.load original).save user = memory :=
    congrArg Prod.snd (Except.ok.inj hrun)
  have hfound (k : BotIdentity) : memory.find? k =
      if k = user.identity then some user else (dynamoUsers.load original).find? k := by
    rw [← hresult, Users.save, Table.find?_insert]
  have hothers (k' : BotIdentity) (hk : k' ≠ user.identity) :
      memory.find? k' = (dynamoUsers.load original).find? k' := by
    rw [hfound, if_neg hk]
  refine ⟨?_, fun k' hk => find?_committed_of_kept h (hothers k' hk)⟩
  have hfate : Fate original memory tables tables' user.identity :=
    h.fate fun a ha => absurd ha List.not_mem_nil
  have hdesired := hfound user.identity
  rw [if_pos rfl] at hdesired
  cases hfate with
  | written document revision hwanted _ _ hafter =>
    rw [hdesired] at hwanted
    rw [UserItems.standingAt, hafter, Option.some.inj hwanted]
    rfl
  | deleted _ hgone =>
    rw [hdesired] at hgone
    exact nomatch hgone
  | kept hsame =>
    refine absurd (actions_eq_nil fun k' => ?_) hsome
    by_cases hk : k' = user.identity
    · rw [hk, hsame, find?_load]
    · exact hothers k' hk

end Committed

/-! ## What the jobs have behind them -/

namespace UserMethod

/-- A read shows an item of its key. -/
def Fits : (c : UserRequests.Op) → UserRequests.Ans c → Prop
  | .getItem k, answer => ∀ item ∈ answer, item.document.identity = k
  | _, _ => True

/-- The row that the latest request of an execution has loaded. -/
def Fetches (m : UserMethod) (made : List UserRequests.Entry) (rows : List (Item User)) : Prop :=
  match m.rows with
  | .item k => ∃ found rest, made = ⟨.getItem k, found⟩ :: rest ∧ rows = found.toList
  | _ => True

theorem traced_rowsForCall (m : UserMethod) (made : List UserRequests.Entry) :
    m.rowsForCall.Traced Fits (fun _ (c : Request _ _ _ _) => c.IsRead) (fun _ _ => True) m.Fetches
      made := by
  unfold rowsForCall Fetches
  generalize m.rows = loaded
  cases loaded with
  | nothing => trivial
  | scans => exact ⟨trivial, fun telegram _ => ⟨trivial, fun vk _ => trivial⟩⟩
  | search condition => exact ⟨trivial, fun found _ => trivial⟩
  | owners handle vkId => exact ⟨trivial, fun owners _ => ⟨trivial, fun linked _ => trivial⟩⟩
  | item k => exact ⟨trivial, fun found _ => ⟨found, made, rfl, rfl⟩⟩

/-- A method that writes loads the row by its key. -/
theorem rows_of_target {m : UserMethod} {k : BotIdentity} (h : m.target = some k) :
    ∃ k', m.rows = .item k' := by
  cases m with
  | of c => cases c <;> first | exact ⟨_, rfl⟩ | exact nomatch h
  | _ => exact ⟨_, rfl⟩

end UserMethod

abbrev UserEntry := UserMethod.UserRequests.Entry

/-- A transaction of a job is worked out by its method; that of a request by the save of a model that
comes from the row it has read first. -/
def UserJob.Justified (job : UserJob) (made : List UserEntry) (c : UserMethod.UserRequests.Op) :
    Prop :=
  match c with
  | .transactWriteItems actions => match job with
    | execution _ m _ => dynamoUsers.WorkedOut UserMethod.Fetches m made (.transactWriteItems actions)
    | gateway _ request => ∃ found user, ∃ saved ∈ request.saves user,
      made.getLast? = some ⟨.getItem ⟨request.platform, request.userId⟩, found⟩ ∧
        (∀ item ∈ found, item.document.identity = ⟨request.platform, request.userId⟩) ∧
        request.opened (found.map Item.document) = .ok user ∧
        dynamoUsers.WorkedOut UserMethod.Fetches (.of (.save saved)) made
          (.transactWriteItems actions)
  | _ => True

/-- A user is opened under the identity of the request, with the standing that it has. -/
theorem GatewayRequest.of_opened {request : GatewayRequest} {stored : Option User} {user : User}
    (h : request.opened stored = .ok user)
    (hstored : ∀ user ∈ stored, user.identity = ⟨request.platform, request.userId⟩) :
    user.identity = ⟨request.platform, request.userId⟩ ∧ user.standing = standingOf stored := by
  cases stored with
  | some found =>
    obtain rfl := Except.ok.inj h
    exact ⟨hstored found rfl, rfl⟩
  | none =>
    unfold GatewayRequest.opened at h
    cases hplatform : request.platform with
    | telegram =>
      rw [hplatform] at h
      obtain rfl := Except.ok.inj h
      exact ⟨rfl, rfl⟩
    | vk =>
      rw [hplatform] at h
      obtain rfl := Except.ok.inj h
      exact ⟨rfl, rfl⟩
    | system =>
      rw [hplatform] at h
      exact nomatch h

section Traced

variable {platform : Platform} {userId : Nat} {made : List UserEntry} {found : Option (Item User)}

/-- What a request gets of the item that it has read: `add_user` reads a VK user where the platform has
no users. -/
theorem get_loaded (hfits : ∀ item ∈ found, item.document.identity = storedIdentity platform userId) :
    (dynamoUsers.load (dynamoUsers.original found.toList)).find? ⟨platform, userId⟩ =
      if platform = .system then none else found.map Item.document := by
  rw [find?_load]
  cases found with
  | none => split <;> rfl
  | some item =>
    have hkey := hfits item rfl
    have hfound : (dynamoUsers.original (some item).toList).find? ⟨platform, userId⟩ =
        if item.document.identity = ⟨platform, userId⟩ then some item else none := by
      show (Table.ofList [item] : UserItems).find? _ = _
      rw [Table.find?_ofList]
      by_cases hsame : item.document.identity = ⟨platform, userId⟩
      · simp [hsame]
      · simp [hsame]
    rw [hfound, hkey]
    cases platform <;> simp [storedIdentity]

theorem traced_dynamoCall (m : UserMethod) : (dynamoCall m).Traced UserMethod.Fits
    (dynamoUsers.WorkedOut UserMethod.Fetches m) (fun _ _ => True) (fun _ _ => True) made :=
  DynamoRepository.traced_execute (UserMethod.traced_rowsForCall m) 4

/-- A get reads its row and commits nothing. -/
theorem traced_get : (dynamoCall (.of (.get platform userId))).Traced UserMethod.Fits
    (fun _ (c : Request _ _ _ _) => c.IsRead) (fun _ _ => True)
    (fun made' stored => ∃ now found, made' =
        ⟨.now, now⟩ :: ⟨.getItem (storedIdentity platform userId), found⟩ :: made ∧
      (∀ item ∈ found, item.document.identity = storedIdentity platform userId) ∧
      stored = if platform = .system then none else found.map Item.document) made := by
  refine ⟨trivial, fun found hfits => ⟨trivial, fun now _ => ?_⟩⟩
  have hworked : dynamoUsers.worksOut (.of (.get platform userId)) now found.toList =
      .ok ((dynamoUsers.load (dynamoUsers.original found.toList)).find? ⟨platform, userId⟩, []) := by
    rw [DynamoRepository.worksOut_eq_ok]
    exact ⟨_, rfl, (actions_eq_nil fun _ => rfl).symm⟩
  simp only [Prog.done_bind, hworked]
  exact ⟨now, found, rfl, hfits, get_loaded hfits⟩

theorem justified_of_isRead {job : UserJob} {c : UserMethod.UserRequests.Op}
    (hc : Request.IsRead c) : job.Justified made c := by
  cases c with
  | transactWriteItems actions => exact hc.elim
  | _ => trivial

theorem traced_program (job : UserJob) : (job.program dynamoCall).Traced UserMethod.Fits
    job.Justified (fun _ _ => True) (fun _ _ => True) [] := by
  cases job with
  | execution number m hsave =>
    have hjustified (made : List UserEntry) (c : UserMethod.UserRequests.Op)
        (hc : dynamoUsers.WorkedOut UserMethod.Fetches m made c) :
        (UserJob.execution number m hsave).Justified made c := by
      cases c with
      | transactWriteItems actions => exact hc
      | _ => trivial
    exact ((traced_dynamoCall m).mono hjustified (fun _ _ h => h) fun _ _ h => h).bind
      fun _ _ _ => trivial
  | gateway number request =>
    have hget := (traced_get.mono (fun _ _ => justified_of_isRead) (fun _ _ h => h) fun _ _ h => h :
      (dynamoCall (.of (.get request.platform request.userId))).Traced UserMethod.Fits
        (UserJob.gateway number request).Justified (fun _ _ => True) _ [])
    refine hget.bind fun made stored hstored => ?_
    obtain ⟨now, found, hmade, hfits, hread⟩ := hstored
    cases hopened : request.opened stored with
    | error fault => trivial
    | ok user =>
      have hplatform : request.platform ≠ .system := by
        intro hsystem
        rw [hread, if_pos hsystem, GatewayRequest.opened, hsystem] at hopened
        exact nomatch hopened
      have hkey : storedIdentity request.platform request.userId =
          ⟨request.platform, request.userId⟩ := by
        cases hat : request.platform with
        | system => exact absurd hat hplatform
        | _ => rfl
      rw [if_neg hplatform] at hread
      rw [hkey] at hmade hfits
      rw [hread] at hopened
      have hsaves : (Prog.forEach (fun saved => dynamoCall (.of (.save saved)))
          (request.saves user)).Traced UserMethod.Fits (UserJob.gateway number request).Justified
            (fun _ _ => True) (fun made' _ => made <:+ made') made := by
        refine Traced.forEach (fun saved hsaved made' hmade' => ?_) (List.suffix_refl made)
        have hcall : (dynamoCall (.of (.save saved))).Traced UserMethod.Fits _ _ _ made' :=
          (traced_dynamoCall (UserMethod.of (.save saved))).and (Prog.traced_since _ hmade')
        refine hcall.mono ?_ (fun _ _ _ => trivial) fun _ _ h => h.2
        rintro made'' (c : Request _ _ _ _) ⟨hworked, hsuffix⟩
        cases c with
        | transactWriteItems actions =>
          refine ⟨found, user, saved, hsaved, ?_, hfits, hopened, hworked⟩
          obtain ⟨later, rfl⟩ := hsuffix
          rw [hmade]
          simp
        | _ => trivial
      exact hsaves.mono (fun _ _ h => h) (fun _ _ h => h) fun _ _ _ => trivial

end Traced

/-! ## Runs on DynamoDB -/

abbrev DynamoRun := Fleet UserMethod.UserRequests Fault Unit UserJob Nat UserItems
abbrev DynamoMove := Label UserJob Nat (Occasion User UserSearch) UserItems
abbrev DynamoRecord := Record UserMethod.UserRequests Unit UserJob UserItems

/-- What a record has decided on the row of a user. A call that finds the row as it wants it commits
nothing, and decides nothing. -/
def decidedIn (k : BotIdentity) : DynamoRecord → Standing → Standing
  | .called (.execution _ m _) (.transactWriteItems _) _ .committed _, standing =>
    if m.target = some k then m.decided standing else standing
  | _, standing => standing

/-- The row that the job of a lane has read first. -/
def firstRead (number : Nat) (history : List DynamoRecord) : Option (Option User) :=
  match (callsSince (userJobs dynamoCall) number history).getLast? with
  | some ⟨.getItem _, found⟩ => some (found.map Item.document)
  | _ => none

/-- Whenever a request stores a model, the standing of its user is still the one that it has read. -/
def SavesFresh (s : DynamoRun) : DynamoMove → Prop
  | .call number i => match s.pending number with
    | some (.gateway _ request, .transactWriteItems _) => i.verdict = .committed →
      ∀ stored ∈ firstRead number s.history,
        s.world.standingAt ⟨request.platform, request.userId⟩ = standingOf stored
    | _ => True
  | .outside _ | .abandon _ => False
  | _ => True

/-- What was read is still there or was written over, and every standing is what was decided. -/
structure StandingsDecided (start : BotIdentity → Standing) (history : List DynamoRecord)
    (tables : UserItems) : Prop where
  reads : ∀ job k before item after,
    (.called job (.getItem k) before (some item) after : DynamoRecord) ∈ history →
      Follows tables item
  standings : ∀ k, tables.standingAt k = history.foldr (decidedIn k) (start k)

section Runs

variable {start : BotIdentity → Standing} {history : List DynamoRecord} {tables : UserItems}
  {s₀ s : DynamoRun} {number : Nat} {i : Occasion User UserSearch} {job : UserJob}
  {record : DynamoRecord}

/-- A record that leaves the tables alone. -/
theorem StandingsDecided.still (h : StandingsDecided start history tables)
    (hread : ∀ job k before item after, record = .called job (.getItem k) before (some item) after →
      tables.find? k = some item)
    (hdecided : ∀ k standing, decidedIn k record standing = standing) :
    StandingsDecided start (record :: history) tables := by
  refine ⟨fun job k before item after hmem => ?_, fun k => ?_⟩
  · rcases List.mem_cons.mp hmem with hsame | hold
    · exact follows_of_find? (hread job k before item after hsame.symm)
    · exact h.reads job k before item after hold
  · rw [List.foldr_cons, hdecided, h.standings]

/-- A committed transaction. -/
theorem StandingsDecided.committed {m : UserMethod} {now : Time} {original tables' : UserItems}
    {answer : m.Ans} {memory : Users} (h : StandingsDecided start history tables)
    (hrun : m.run now (dynamoUsers.load original) = .ok (answer, memory))
    (hcommitted : Committed (dynamoUsers.actions now original memory) tables tables')
    (hstandings : ∀ k, tables'.standingAt k = decidedIn k record (tables.standingAt k))
    (hread : ∀ job k before item after, record ≠ .called job (.getItem k) before (some item) after) :
    StandingsDecided start (record :: history) tables' := by
  refine ⟨fun job k before item after hmem => ?_, fun k => ?_⟩
  · rcases List.mem_cons.mp hmem with hsame | hold
    · exact absurd hsame.symm (hread job k before item after)
    · exact follows_committed hrun hcommitted (h.reads job k before item after hold)
  · rw [List.foldr_cons, hstandings, h.standings]

theorem opened_identity {request : GatewayRequest} {found : Option (Item User)} {user saved : User}
    (hopened : request.opened (found.map Item.document) = .ok user)
    (hfits : ∀ item ∈ found, item.document.identity = ⟨request.platform, request.userId⟩)
    (hsaved : saved ∈ request.saves user) :
    saved.identity = ⟨request.platform, request.userId⟩ ∧
      saved.standing = standingOf (found.map Item.document) := by
  have hstored : ∀ user ∈ found.map Item.document,
      user.identity = ⟨request.platform, request.userId⟩ := by
    intro user huser
    obtain ⟨item, hitem, rfl⟩ := Option.map_eq_some_iff.mp huser
    exact hfits item hitem
  obtain ⟨hidentity, hstanding⟩ := GatewayRequest.of_opened hopened hstored
  have hdialog := request.dialog user saved hsaved
  exact ⟨hdialog.identity.trans hidentity, hdialog.standing.trans hstanding⟩

/-- The rows that a writing method has loaded are followed by the stored ones. -/
theorem StandingsDecided.loaded {m : UserMethod} {rows : List (Item User)} {made : List UserEntry}
    {k : BotIdentity} {item : Item User} (h : StandingsDecided start history tables)
    (hmade : ∀ entry ∈ made, entry ∈ callsSince (userJobs dynamoCall) number history)
    (hfetched : m.Fetches made rows) (htarget : m.target = some k)
    (hitem : item ∈ (dynamoUsers.original rows).rows) : Follows tables item := by
  obtain ⟨k', hrows⟩ := UserMethod.rows_of_target htarget
  rw [UserMethod.Fetches, hrows] at hfetched
  obtain ⟨found, rest, rfl, rfl⟩ := hfetched
  have hmem : item ∈ found.toList :=
    (List.mem_filter.mp (Table.mem_of_mem_ofList hitem)).1
  obtain rfl : found = some item := Option.mem_toList.mp hmem
  obtain ⟨job, before, after, hrecord⟩ := mem_callsSince (hmade _ List.mem_cons_self)
  exact h.reads job k' before item after hrecord

/-- A transaction of a method that is no save. -/
theorem StandingsDecided.execution {m : UserMethod} {hsave : ¬ m.IsSave} {actions : List (Action User BotIdentity)}
    (h : StandingsDecided start s.history s.world)
    (hworked : dynamoUsers.WorkedOut UserMethod.Fetches m
      (callsSince (userJobs dynamoCall) number s.history) (.transactWriteItems actions))
    (hcommitted : Committed actions s.world tables) :
    StandingsDecided start (.called (.execution number m hsave) (.transactWriteItems actions) s.world .committed
      tables :: s.history) tables := by
  obtain ⟨now, rows, rest, answer, hmade, hfetched, hworked, hsome⟩ := hworked
  obtain ⟨memory, hrun, rfl⟩ := DynamoRepository.worksOut_eq_ok.mp hworked
  obtain ⟨k, htarget⟩ := target_of_actions hrun hsome
  have hrest : ∀ entry ∈ rest, entry ∈ callsSince (userJobs dynamoCall) number s.history := by
    rw [hmade]
    exact fun entry hentry => List.mem_cons_of_mem _ hentry
  obtain ⟨hdecided, hothers⟩ := committed_decides hrun hsave hcommitted hsome
    (fun item hitem => h.loaded hrest hfetched htarget hitem) htarget
  refine h.committed hrun hcommitted (fun k' => ?_) fun _ _ _ _ _ => nofun
  simp only [decidedIn, htarget, Option.some.injEq]
  split
  · next hk => rw [← hk, hdecided]
  · next hk => rw [UserItems.standingAt, hothers k' (Ne.symm hk)]

/-- A save of a model whose standing is the stored one. -/
theorem StandingsDecided.save {request : GatewayRequest} {saved : User}
    {actions : List (Action User BotIdentity)} (h : StandingsDecided start s.history s.world)
    (hworked : dynamoUsers.WorkedOut UserMethod.Fetches (.of (.save saved))
      (callsSince (userJobs dynamoCall) number s.history) (.transactWriteItems actions))
    (hcommitted : Committed actions s.world tables)
    (hfresh : s.world.standingAt saved.identity = saved.standing) :
    StandingsDecided start (.called (.gateway number request) (.transactWriteItems actions) s.world
      .committed tables :: s.history) tables := by
  obtain ⟨now, rows, rest, answer, -, -, hworked, hsome⟩ := hworked
  obtain ⟨memory, hrun, rfl⟩ := DynamoRepository.worksOut_eq_ok.mp hworked
  obtain ⟨hstored, hothers⟩ := committed_save hrun hcommitted hsome
  refine h.committed (m := .of (.save saved)) hrun hcommitted (fun k => ?_) fun _ _ _ _ _ => nofun
  show tables.standingAt k = s.world.standingAt k
  by_cases hk : k = saved.identity
  · rw [hk, hstored, hfresh]
  · rw [UserItems.standingAt, hothers k hk]

theorem decidedIn_of_isRead {c : UserMethod.UserRequests.Op} {before after : UserItems}
    {answer : UserMethod.UserRequests.Ans c} {k : BotIdentity} {standing : Standing}
    (hc : Request.IsRead c) : decidedIn k (.called job c before answer after) standing = standing := by
  cases c with
  | transactWriteItems actions => exact hc.elim
  | _ => cases job <;> rfl

theorem standings_call {c : UserMethod.UserRequests.Op} (hstep : SavesFresh s (.call number i))
    (hcalls : s.Calls number job c) (hnumber : job.number = number)
    (hjustified : job.Justified (callsSince (userJobs dynamoCall) number s.history) c)
    (h : StandingsDecided start s.history s.world) :
    StandingsDecided start (.called job c s.world (dynamoUsers.perform c i s.world).1
      (dynamoUsers.perform c i s.world).2 :: s.history) (dynamoUsers.perform c i s.world).2 := by
  cases c with
  | transactWriteItems actions =>
    have hundecided (answer : Outcome) (hanswer : answer ≠ .committed) :
        StandingsDecided start (.called job (.transactWriteItems actions) s.world answer s.world ::
          s.history) s.world := by
      refine h.still (fun _ _ _ _ _ h => by cases h) fun k standing => ?_
      unfold decidedIn
      split
      · next hrecord =>
        cases hrecord
        exact absurd rfl hanswer
      · rfl
    cases hverdict : i.verdict with
    | cancelled | failed =>
      simp only [DynamoRepository.perform, hverdict]
      exact hundecided _ (by simp)
    | committed =>
      have hperform : dynamoUsers.perform (.transactWriteItems actions) i s.world =
          transact actions s.world := by
        simp only [DynamoRepository.perform, hverdict]
      rw [hperform]
      by_cases houtcome : (transact actions s.world).1 = .committed
      · have hcommitted := committed_of_transact houtcome
        rw [houtcome]
        cases job with
        | execution number' m hsave =>
          obtain rfl : number' = number := hnumber
          exact h.execution hjustified hcommitted
        | gateway number' request =>
          obtain rfl : number' = number := hnumber
          obtain ⟨found, user, saved, hsaved, hfirst, hfits, hopened, hworked⟩ := hjustified
          obtain ⟨hidentity, hstanding⟩ := opened_identity hopened hfits hsaved
          refine h.save hworked hcommitted ?_
          rw [hidentity, hstanding]
          rw [SavesFresh, hcalls.pending] at hstep
          refine hstep hverdict _ ?_
          rw [firstRead, hfirst]
          rfl
      · rw [transact_of_refused houtcome]
        exact hundecided _ houtcome
  | getItem k =>
    show StandingsDecided start (.called job (.getItem k) s.world (s.world.find? k) s.world ::
      s.history) s.world
    generalize hfound : s.world.find? k = found
    refine h.still (fun _ k' _ item _ hrecord => ?_) fun _ _ => decidedIn_of_isRead trivial
    cases hrecord
    exact hfound
  | _ => exact h.still (fun _ _ _ _ _ h => by cases h) fun _ _ => decidedIn_of_isRead trivial

theorem fits_dynamoUsers (c : UserMethod.UserRequests.Op) (tables : UserItems) :
    UserMethod.Fits c (dynamoUsers.perform c i tables).1 := by
  cases c with
  | getItem k => exact fun item hitem => Store.key_of_find? hitem
  | _ => trivial

theorem dynamo_standings (hidle : s₀.Idle) (hnew : s₀.history = [])
    (hs : Fleet.Reaches (userJobs dynamoCall) dynamoUsers.perform SavesFresh s₀ s) (k : BotIdentity) :
    s.world.standingAt k = s.history.foldr (decidedIn k) (s₀.world.standingAt k) := by
  have hreached := hs.whole_rule (A := UserMethod.Fits) (T := UserJob.Justified)
    (X := fun _ _ _ => True) (Q := fun _ _ _ => True)
    (StandingsDecided fun k => s₀.world.standingAt k) hidle hnew ?_ ?_ traced_program ?_ ?_ ?_ ?_
  · exact hreached.1.standings k
  · exact ⟨fun _ _ _ _ _ hmem => absurd hmem List.not_mem_nil, fun _ => rfl⟩
  · exact fun s number hstep => hstep
  · exact fun c i tables => fits_dynamoUsers c tables
  · exact fun s tables hstep => absurd hstep id
  · exact fun s number i job c hstep hcalls hnumber hjustified h =>
      standings_call hstep hcalls hnumber hjustified h
  · intro s job value h
    exact h.still (fun _ _ _ _ _ => nofun) fun _ _ => rfl

end Runs

/-! ## Runs on YDB -/

abbrev YdbRun := Fleet ydbQueries Fault Unit UserJob Nat Users
abbrev YdbMove := Label UserJob Nat Time Users
abbrev YdbRecord := Record ydbQueries Unit UserJob Users

/-- What a record has decided on the row of a user. No row is made for a user that is not stored. -/
def queriedIn (k : BotIdentity) : YdbRecord → Standing → Standing
  | .called (.execution _ _ _) m before _ _, standing =>
    if m.target = some k ∧ (before.find? k).isSome then UserMethod.decided m standing else standing
  | _, standing => standing

/-- The row that the job of a lane has read first. -/
def firstShown (number : Nat) (history : List YdbRecord) : Option (Option User) :=
  match (callsSince (userJobs ydbCall) number history).getLast? with
  | some ⟨.of (.get _ _), stored⟩ => some stored
  | _ => none

/-- Nobody else writes the users. -/
def OnlyJobs (_ : YdbRun) : YdbMove → Prop
  | .outside _ | .abandon _ => False
  | _ => True

/-- Whenever a request stores a model, the marker of its user is still the one that it has read. -/
def MarkersFresh (s : YdbRun) : YdbMove → Prop
  | .call number _ => match s.pending number with
    | some (.gateway _ request, .of (.save _)) => ∀ stored ∈ firstShown number s.history,
      (standingOf (s.world.find? ⟨request.platform, request.userId⟩)).delivery =
        (standingOf stored).delivery
    | _ => True
  | .outside _ | .abandon _ => False
  | _ => True

/-- A get shows a row of its key. -/
def Shows : (m : UserMethod) → m.Ans → Prop
  | .of (.get platform userId), stored => ∀ user ∈ stored, user.identity = ⟨platform, userId⟩
  | _, _ => True

/-- A query of a job is the one of its method; a request reads its row, and then saves models that come
from what it has read first. -/
def UserJob.Queries (job : UserJob) (made : List ydbQueries.Entry) (m : UserMethod) : Prop :=
  match job with
  | execution _ method _ => m = method
  | gateway _ request => m = .of (.get request.platform request.userId) ∨
    ∃ stored user, ∃ saved ∈ request.saves user, m = .of (.save saved) ∧
      made.getLast? = some ⟨.of (.get request.platform request.userId), stored⟩ ∧
      (∀ user ∈ stored, user.identity = ⟨request.platform, request.userId⟩) ∧
      request.opened stored = .ok user

section YdbRuns

variable {made : List ydbQueries.Entry} {users : Users} {now : Time} {s₀ s : YdbRun} {number : Nat}
  {job : UserJob} {m : UserMethod} {k : BotIdentity}

theorem traced_ydbCall {T : List ydbQueries.Entry → UserMethod → Prop}
    {Q : List ydbQueries.Entry → m.Ans → Prop} (hT : T made m)
    (hQ : ∀ answer, Shows m answer → Q (⟨m, answer⟩ :: made) answer) :
    (ydbCall m).Traced Shows T (fun _ _ => True) Q made := by
  unfold ydbCall
  split
  · trivial
  · exact ⟨hT, hQ⟩

theorem traced_ydb (job : UserJob) : (job.program ydbCall).Traced Shows job.Queries
    (fun _ _ => True) (fun _ _ => True) [] := by
  cases job with
  | execution number m hsave =>
    have hcall : (ydbCall m).Traced Shows (UserJob.execution number m hsave).Queries
        (fun _ _ => True) (fun _ _ => True) [] := traced_ydbCall rfl fun _ _ => trivial
    exact hcall.bind fun _ _ _ => trivial
  | gateway number request =>
    have hget : (ydbCall (.of (.get request.platform request.userId))).Traced Shows
        (UserJob.gateway number request).Queries (fun _ _ => True)
        (fun made stored => made = [⟨.of (.get request.platform request.userId), stored⟩] ∧
          ∀ user ∈ stored, user.identity = ⟨request.platform, request.userId⟩) [] := by
      apply traced_ydbCall (m := .of (.get request.platform request.userId))
        (T := (UserJob.gateway number request).Queries)
      · exact .inl rfl
      · exact fun stored hshows => ⟨rfl, hshows⟩
    refine hget.bind fun made stored hstored => ?_
    obtain ⟨rfl, hidentity⟩ := hstored
    cases hopened : request.opened stored with
    | error fault => trivial
    | ok user =>
      let first : List ydbQueries.Entry := [⟨.of (.get request.platform request.userId), stored⟩]
      have hsaves : (Prog.forEach (fun saved => ydbCall (.of (.save saved)))
          (request.saves user)).Traced Shows (UserJob.gateway number request).Queries
            (fun _ _ => True) (fun made' _ => first <:+ made') first := by
        refine Traced.forEach (fun saved hsaved made' hmade' => ?_) (List.suffix_refl first)
        apply traced_ydbCall (m := .of (.save saved)) (T := (UserJob.gateway number request).Queries)
          (Q := fun made' _ => first <:+ made')
        · refine .inr ⟨stored, user, saved, hsaved, rfl, ?_, hidentity, hopened⟩
          obtain ⟨later, rfl⟩ := hmade'
          simp [first]
        · exact fun _ _ => hmade'.trans (List.suffix_cons _ _)
      exact hsaves.mono (fun _ _ h => h) (fun _ _ h => h) fun _ _ _ => trivial

theorem shows_ydbUsers (m : UserMethod) (now : Time) (users : Users) :
    Shows m (ydbUsers m now users).1 := by
  cases m with
  | of c =>
    cases c with
    | get platform userId => exact fun user huser => Table.key_of_find? huser
    | _ => trivial
  | _ => trivial

/-- A query of a method that is no save decides on the stored row. -/
theorem standing_query (hsave : ¬ m.IsSave) :
    standingOf ((ydbUsers m now users).2.find? k) =
      if m.target = some k ∧ (users.find? k).isSome then m.decided (standingOf (users.find? k))
      else standingOf (users.find? k) := by
  cases htarget : m.target with
  | none =>
    rw [UserMethod.users_query htarget]
    simp
  | some k' =>
    have hdecides : users.Decides (ydbUsers m now users).2 k' m.decided :=
      UserMethod.decides_query hsave htarget
    by_cases hk : k' = k
    · subst hk
      split
      · next hstored => exact hdecides.standingOf hstored.2
      · next hmissing =>
        have hnone : users.find? k' = none := by simpa using hmissing
        have hafter := hdecides.isSome k'
        rw [hnone, Option.isSome_none, Option.isSome_eq_false_iff, Option.isNone_iff_eq_none] at hafter
        rw [hafter, hnone]
    · rw [if_neg fun h => hk (Option.some.inj h.1), hdecides.others k (Ne.symm hk)]

/-- What a query decides on the role of a row, and what one that stores a fresh marker decides on its
standing. -/
theorem standings_ydbCall (hqueries : job.Queries made m) :
    (standingOf ((ydbUsers m now users).2.find? k)).role =
        (queriedIn k (.called job m users (ydbUsers m now users).1 (ydbUsers m now users).2)
          (standingOf (users.find? k))).role ∧
      ((∀ number request, job = .gateway number request → ∀ saved, m = .of (.save saved) →
          ∀ stored, made.getLast? = some ⟨.of (.get request.platform request.userId), stored⟩ →
            (standingOf (users.find? ⟨request.platform, request.userId⟩)).delivery =
              (standingOf stored).delivery) →
        standingOf ((ydbUsers m now users).2.find? k) =
          queriedIn k (.called job m users (ydbUsers m now users).1 (ydbUsers m now users).2)
            (standingOf (users.find? k))) := by
  cases job with
  | execution number' method hsave =>
    obtain rfl : m = method := hqueries
    have hquery : standingOf ((ydbUsers m now users).2.find? k) =
        queriedIn k (.called (.execution number' m hsave) m users (ydbUsers m now users).1
          (ydbUsers m now users).2) (standingOf (users.find? k)) := standing_query hsave
    exact ⟨congrArg Standing.role hquery, fun _ => hquery⟩
  | gateway number' request =>
    rcases hqueries with rfl | ⟨stored, user, saved, hsaved, rfl, hfirst, hidentity, hopened⟩
    · exact ⟨rfl, fun _ => rfl⟩
    · have hupsert : standingOf ((users.upsert saved).find? k) =
          if k = saved.identity then
            { standingOf (users.find? k) with delivery := saved.base.lastDeliveryOperationId }
          else standingOf (users.find? k) := UserMethod.standingOf_upsert saved
      have hsame : saved.identity = ⟨request.platform, request.userId⟩ ∧
          saved.standing = standingOf stored := by
        obtain ⟨huser, hstanding⟩ := GatewayRequest.of_opened hopened hidentity
        have hdialog := request.dialog user saved hsaved
        exact ⟨hdialog.identity.trans huser, hdialog.standing.trans hstanding⟩
      show (standingOf ((users.upsert saved).find? k)).role = (standingOf (users.find? k)).role ∧
        (_ → standingOf ((users.upsert saved).find? k) = standingOf (users.find? k))
      rw [hupsert]
      constructor
      · split <;> rfl
      · intro hfresh
        split
        · next hk =>
          have hdelivery := hfresh number' request rfl saved rfl stored hfirst
          have hmarker : saved.base.lastDeliveryOperationId = (standingOf stored).delivery :=
            congrArg Standing.delivery hsame.2
          rw [hk, hsame.1, hmarker, ← hdelivery]
        · rfl

/-- What is decided on a role does not look at the marker. -/
theorem role_queriedIn {record : YdbRecord} {standing standing' : Standing}
    (h : standing.role = standing'.role) :
    (queriedIn k record standing).role = (queriedIn k record standing').role := by
  have hdecided (m : UserMethod) : (m.decided standing).role = (m.decided standing').role := by
    cases m with
    | of c => cases c <;> exact h
    | setPrivilegedRole | clearPrivilegedRole => rfl
  unfold queriedIn
  split
  · split
    · exact hdecided _
    · exact h
  · exact h

theorem ydb_roles (hidle : s₀.Idle) (hnew : s₀.history = [])
    (hs : Fleet.Reaches (userJobs ydbCall) ydbUsers OnlyJobs s₀ s) (k : BotIdentity) :
    (standingOf (s.world.find? k)).role =
      (s.history.foldr (queriedIn k) (standingOf (s₀.world.find? k))).role := by
  have hreached := hs.whole_rule (A := Shows) (T := UserJob.Queries) (X := fun _ _ _ => True)
    (Q := fun _ _ _ => True) (fun history users => (standingOf (users.find? k)).role =
      (history.foldr (queriedIn k) (standingOf (s₀.world.find? k))).role)
    hidle hnew rfl (fun s number hstep => hstep) traced_ydb shows_ydbUsers
    (fun s users hstep => absurd hstep id) ?_ fun s job value h => h
  · exact hreached.1
  · intro s number now job m _ _ _ hqueries h
    rw [List.foldr_cons, (standings_ydbCall hqueries).1]
    exact role_queriedIn h

theorem ydb_standings (hidle : s₀.Idle) (hnew : s₀.history = [])
    (hs : Fleet.Reaches (userJobs ydbCall) ydbUsers MarkersFresh s₀ s) (k : BotIdentity) :
    standingOf (s.world.find? k) =
      s.history.foldr (queriedIn k) (standingOf (s₀.world.find? k)) := by
  have hreached := hs.whole_rule (A := Shows) (T := UserJob.Queries) (X := fun _ _ _ => True)
    (Q := fun _ _ _ => True) (fun history users => standingOf (users.find? k) =
      history.foldr (queriedIn k) (standingOf (s₀.world.find? k)))
    hidle hnew rfl (fun s number hstep => hstep) traced_ydb shows_ydbUsers
    (fun s users hstep => absurd hstep id) ?_ fun s job value h => h
  · exact hreached.1
  · intro s number now job m hstep hcalls hnumber hqueries h
    rw [List.foldr_cons, ← h]
    refine (standings_ydbCall hqueries).2 ?_
    rintro number' request rfl saved rfl stored hfirst
    rw [MarkersFresh, hcalls.pending] at hstep
    refine hstep stored ?_
    rw [firstShown, hfirst]
    rfl

end YdbRuns

/-- On DynamoDB every standing is what was decided on it last, in every run in which a request stores a
model only where it still finds the standing that it has read. On YDB the roles are so in every run,
and the markers in every run in which a request stores a model only where it still finds the marker
that it has read. -/
theorem standings_decided (k : BotIdentity) :
    (∀ s₀ s : DynamoRun, s₀.Idle → s₀.history = [] →
      Fleet.Reaches (userJobs dynamoCall) dynamoUsers.perform SavesFresh s₀ s →
        s.world.standingAt k = s.history.foldr (decidedIn k) (s₀.world.standingAt k)) ∧
    (∀ s₀ s : YdbRun, s₀.Idle → s₀.history = [] →
      Fleet.Reaches (userJobs ydbCall) ydbUsers OnlyJobs s₀ s →
        (standingOf (s.world.find? k)).role =
          (s.history.foldr (queriedIn k) (standingOf (s₀.world.find? k))).role) ∧
    (∀ s₀ s : YdbRun, s₀.Idle → s₀.history = [] →
      Fleet.Reaches (userJobs ydbCall) ydbUsers MarkersFresh s₀ s →
        standingOf (s.world.find? k) =
          s.history.foldr (queriedIn k) (standingOf (s₀.world.find? k))) :=
  ⟨fun _ _ hidle hnew hs => dynamo_standings hidle hnew hs k,
    fun _ _ hidle hnew hs => ydb_roles hidle hnew hs k,
    fun _ _ hidle hnew hs => ydb_standings hidle hnew hs k⟩

/-! ### A role is granted while its user sends a message -/

section Samples

def sampleUser : User :=
  .telegram { tgId := 1 }

/-- The message moves the dialog on. -/
def sampleRequest : GatewayRequest where
  platform := .telegram
  userId := 1
  saves user := [user.mapBase fun base => { base with dialogState := "PROFILE_NICKNAME" }]
  dialog := by
    intro user saved hsaved
    rw [List.mem_singleton] at hsaved
    subst hsaved
    cases user <;> exact ⟨rfl, rfl, rfl, rfl, rfl⟩

def message : UserJob := .gateway 0 sampleRequest
def grant : UserJob := .execution 1 (.setPrivilegedRole .telegram 1 .gamemaster "grant") id
def delivery : UserJob := .execution 2 (.of (.claimDelivery .telegram 1 "delivery" [])) id

def decidedStanding : Standing := ⟨some .gamemaster, some "delivery"⟩

def dynamoStart : DynamoRun where
  world := .ofList [⟨1, sampleUser⟩]

def ydbStart : YdbRun where
  world := .ofList [sampleUser]

/-- Some calls of a job, after it was started. -/
def callsOf {I W : Type} (job : UserJob) (n : Nat) (i : I) : List (Label UserJob Nat I W) :=
  [.publish job, .start job.number] ++ List.replicate n (.call job.number i)

def shown : Occasion User UserSearch where
  found := fun _ => []

/-- The role and the marker are set, and then the message is answered. -/
def dynamoInTurn : List DynamoMove :=
  callsOf grant 3 shown ++ callsOf delivery 3 shown ++ callsOf message 5 shown

/-- The message has been read when the role and the marker are set. -/
def dynamoBetween : List DynamoMove :=
  callsOf message 2 shown ++ callsOf grant 3 shown ++ callsOf delivery 3 shown ++
    List.replicate 3 (.call 0 shown) ++ [.finish 0, .finish 1, .finish 2]

def ydbInTurn : List YdbMove :=
  callsOf grant 1 0 ++ callsOf delivery 1 0 ++ callsOf message 2 0

def ydbBetween : List YdbMove :=
  callsOf message 1 0 ++ callsOf grant 1 0 ++ callsOf delivery 1 0 ++
    [.call 0 0, .finish 0, .finish 1, .finish 2]

def dynamoAfter (schedule : List DynamoMove) : DynamoRun :=
  dynamoStart.play (userJobs dynamoCall) dynamoUsers.perform schedule

def ydbAfter (schedule : List YdbMove) : YdbRun :=
  ydbStart.play (userJobs ydbCall) ydbUsers schedule

instance : (s : DynamoRun) → (l : DynamoMove) → Decidable (SavesFresh s l)
  | s, .call number i => by
    unfold SavesFresh
    dsimp only
    split <;> infer_instance
  | _, .outside _ | _, .abandon _ => .isFalse id
  | _, .publish _ | _, .start _ | _, .finish _ => .isTrue trivial

instance : (s : YdbRun) → (l : YdbMove) → Decidable (MarkersFresh s l)
  | s, .call number i => by
    unfold MarkersFresh
    dsimp only
    split <;> infer_instance
  | _, .outside _ | _, .abandon _ => .isFalse id
  | _, .publish _ | _, .start _ | _, .finish _ => .isTrue trivial

instance (s : DynamoRun) (schedule : List DynamoMove) :
    Decidable (Fleet.Meets (userJobs dynamoCall) dynamoUsers.perform SavesFresh s schedule) :=
  Fleet.instDecidableMeets s schedule

/-- Both stand after the message was answered. -/
theorem standings_inTurn :
    (dynamoAfter dynamoInTurn).world.standingAt ⟨.telegram, 1⟩ = decidedStanding ∧
      (standingOf ((ydbAfter ydbInTurn).world.find? ⟨.telegram, 1⟩)).role = decidedStanding.role ∧
      standingOf ((ydbAfter ydbInTurn).world.find? ⟨.telegram, 1⟩) = decidedStanding := by
  have hdecided : (dynamoAfter dynamoInTurn).history.foldr (decidedIn ⟨.telegram, 1⟩)
      (dynamoStart.world.standingAt ⟨.telegram, 1⟩) = decidedStanding ∧
      (ydbAfter ydbInTurn).history.foldr (queriedIn ⟨.telegram, 1⟩)
        (standingOf (ydbStart.world.find? ⟨.telegram, 1⟩)) = decidedStanding := by
    decide +kernel
  have hdynamo : Fleet.Meets (userJobs dynamoCall) dynamoUsers.perform SavesFresh dynamoStart
      dynamoInTurn := by
    decide +kernel
  have hydb : Fleet.Meets (userJobs ydbCall) ydbUsers MarkersFresh ydbStart ydbInTurn := by
    decide +kernel
  have honly : Fleet.Reaches (userJobs ydbCall) ydbUsers OnlyJobs ydbStart (ydbAfter ydbInTurn) := by
    refine (Fleet.Reaches.refl.play_meets hydb).mono fun s l hl => ?_
    cases l with
    | outside users => exact hl
    | abandon number => exact hl
    | _ => trivial
  obtain ⟨hdynamoStandings, hroles, hstandings⟩ := standings_decided ⟨.telegram, 1⟩
  refine ⟨?_, ?_, ?_⟩
  · rw [← hdecided.1]
    exact hdynamoStandings _ _ (fun _ => rfl) rfl (Fleet.Reaches.refl.play_meets hdynamo)
  · rw [← hdecided.2]
    exact hroles _ _ (fun _ => rfl) rfl honly
  · rw [← hdecided.2]
    exact hstandings _ _ (fun _ => rfl) rfl (Fleet.Reaches.refl.play_meets hydb)

/-- Once all three have returned, the message has taken both back on DynamoDB, and the marker on YDB. -/
theorem message_reverts :
    (Fleet.Reaches (userJobs dynamoCall) dynamoUsers.perform (fun _ _ => True) dynamoStart
        (dynamoAfter dynamoBetween) ∧
      (∀ number ∈ [0, 1, 2], ((dynamoAfter dynamoBetween).lanes number).jobs.isEmpty) ∧
      (dynamoAfter dynamoBetween).history.foldr (decidedIn ⟨.telegram, 1⟩)
        (dynamoStart.world.standingAt ⟨.telegram, 1⟩) = decidedStanding ∧
      (dynamoAfter dynamoBetween).world.standingAt ⟨.telegram, 1⟩ = ⟨none, none⟩) ∧
    (Fleet.Reaches (userJobs ydbCall) ydbUsers (fun _ _ => True) ydbStart (ydbAfter ydbBetween) ∧
      (∀ number ∈ [0, 1, 2], ((ydbAfter ydbBetween).lanes number).jobs.isEmpty) ∧
      (ydbAfter ydbBetween).history.foldr (queriedIn ⟨.telegram, 1⟩)
        (standingOf (ydbStart.world.find? ⟨.telegram, 1⟩)) = decidedStanding ∧
      standingOf ((ydbAfter ydbBetween).world.find? ⟨.telegram, 1⟩) = ⟨some .gamemaster, none⟩) := by
  refine ⟨⟨Fleet.Reaches.refl.play fun _ _ _ => trivial, ?_⟩,
    Fleet.Reaches.refl.play fun _ _ _ => trivial, ?_⟩
  · decide +kernel
  · decide +kernel

end Samples

end LarpBot
