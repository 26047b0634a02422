import LarpBot.Adapters.DiskUploads
import LarpBot.Foundation.Trails

/-!
# Retried uploads

The attempts at upload jobs, one after the other: each of them may stop at any request, and any
request may be refused or stay without an answer. Between the requests others stage further files;
they leave the records of the uploader and the public links alone.

An attempt reads the record of a destination before it sends anything there, and writes it after the
disk has the content. So the record of a destination never goes back, and nothing is sent to a
destination whose record is as new. What this does not give: content that was sent by an attempt which
stopped before its record is not protected, and the staged objects of a job are deleted without a
record once its failure has been reported. `SafeAttempt` says what every attempt keeps to, and
`uploads_safe` proves it of all of them.
-/

namespace LarpBot

open Atomic

variable {storage : ObjectStorage} {disk : YandexDisk} (env : UploaderEnvironment)

/-- The generation that is recorded for a destination. -/
def UploaderEnvironment.recorded (w : UploadWorld storage disk) (diskPath : String) : String :=
  (StoredGeneration.of (storage.get (stateKey env diskPath) w.bucket)).value

/-- The public link of a resource. -/
def LinksTo (w : UploadWorld storage disk) (diskPath url : String) : Prop :=
  isHttps url = true ∧ disk.resource diskPath w.remote = some url

/-- Records do not go back, links stay, and nothing that was done is forgotten. -/
structure UploadAdvances (w w' : UploadWorld storage disk) : Prop where
  recorded : ∀ diskPath, env.recorded w diskPath ≤ env.recorded w' diskPath
  linked : ∀ diskPath url, LinksTo w diskPath url → LinksTo w' diskPath url
  deeds : ∀ deed ∈ w.deeds, deed ∈ w'.deeds
  stored : ∀ key body, .stored key body ∈ w'.deeds → .stored key body ∈ w.deeds ∨
    ∀ diskPath, key = stateKey env diskPath → body ≤ env.recorded w' diskPath

/-- What others do between the requests of the uploader. -/
structure UploadBeside (w w' : UploadWorld storage disk) : Prop where
  records : ∀ diskPath,
    storage.get (stateKey env diskPath) w'.bucket = storage.get (stateKey env diskPath) w.bucket
  linked : ∀ diskPath url, LinksTo w diskPath url → LinksTo w' diskPath url
  deeds : w'.deeds = w.deeds

def amongStagers : Surround (UploadWorld storage disk) UploaderInput :=
  ⟨UploadBeside env, fun _ => True⟩

variable {env} {w w' w'' : UploadWorld storage disk} {job : StagedJob} {file : UploadFile}
  {i : UploaderInput} {c : UploaderCall}

theorem UploadAdvances.refl : UploadAdvances env w w where
  recorded _ := le_refl _
  linked _ _ h := h
  deeds _ h := h
  stored _ _ h := .inl h

theorem UploadAdvances.trans (h : UploadAdvances env w w') (h' : UploadAdvances env w' w'') :
    UploadAdvances env w w'' where
  recorded diskPath := le_trans (h.recorded diskPath) (h'.recorded diskPath)
  linked diskPath url hurl := h'.linked diskPath url (h.linked diskPath url hurl)
  deeds deed hdeed := h'.deeds deed (h.deeds deed hdeed)
  stored key body hbody := by
    rcases h'.stored key body hbody with hold | hnew
    · rcases h.stored key body hold with holder | hearlier
      · exact .inl holder
      · exact .inr fun diskPath hkey => le_trans (hearlier diskPath hkey) (h'.recorded diskPath)
    · exact .inr hnew

/-- Records stand still. -/
def SameRecords (env : UploaderEnvironment) (w w' : UploadWorld storage disk) : Prop :=
  ∀ diskPath, storage.get (stateKey env diskPath) w'.bucket =
    storage.get (stateKey env diskPath) w.bucket

theorem SameRecords.recorded_eq (h : SameRecords env w w') (diskPath : String) :
    env.recorded w' diskPath = env.recorded w diskPath := by
  rw [UploaderEnvironment.recorded, h diskPath, UploaderEnvironment.recorded]

theorem UploadBeside.advances (h : UploadBeside env w w') : UploadAdvances env w w' where
  recorded diskPath := by rw [SameRecords.recorded_eq h.records]
  linked := h.linked
  deeds deed hdeed := by rwa [h.deeds]
  stored key body hbody := by
    rw [h.deeds] at hbody
    exact .inl hbody

/-! ## Keys -/

/-- The keys of staged objects. -/
def InStaging (key : String) : Prop :=
  "larp-bot/uploads/".toList <+: key.toList ∨ "uploads/".toList <+: key.toList

/-- Two directories of which none is below the other have no key in common. -/
theorem key_notBelow (directory other : String) {rest : List Char}
    (hlength : directory.toList.length ≤ other.toList.length)
    (hother : ¬ directory.toList <+: other.toList) :
    ¬ directory.toList <+: other.toList ++ rest :=
  fun h => hother (List.prefix_of_prefix_length_le h (List.prefix_append _ _) hlength)

theorem stateKey_toList (diskPath : String) : (stateKey env diskPath).toList =
    "larp-bot/upload-state/".toList ++ (env.sha256 diskPath ++ ".txt").toList :=
  String.toList_append

theorem lockKey_toList (diskPath : String) : (lockKey env diskPath).toList =
    "larp-bot/upload-locks/".toList ++ (env.sha256 diskPath ++ ".lock").toList :=
  String.toList_append

theorem not_inStaging_stateKey (diskPath : String) : ¬ InStaging (stateKey env diskPath) := by
  rw [InStaging, stateKey_toList, not_or]
  constructor
  · exact key_notBelow "larp-bot/uploads/" "larp-bot/upload-state/" (by decide +kernel)
      (by decide +kernel)
  · exact key_notBelow "uploads/" "larp-bot/upload-state/" (by decide +kernel) (by decide +kernel)

theorem not_inStaging_lockKey (diskPath : String) : ¬ InStaging (lockKey env diskPath) := by
  rw [InStaging, lockKey_toList, not_or]
  constructor
  · exact key_notBelow "larp-bot/uploads/" "larp-bot/upload-locks/" (by decide +kernel)
      (by decide +kernel)
  · exact key_notBelow "uploads/" "larp-bot/upload-locks/" (by decide +kernel) (by decide +kernel)

theorem stateKey_ne_lockKey (diskPath diskPath' : String) :
    stateKey env diskPath ≠ lockKey env diskPath' := by
  intro hkey
  have hlists : "larp-bot/upload-state/".toList <+: (lockKey env diskPath').toList := by
    rw [← hkey, stateKey_toList]
    exact List.prefix_append _ _
  rw [lockKey_toList] at hlists
  exact key_notBelow "larp-bot/upload-state/" "larp-bot/upload-locks/" (by decide +kernel)
    (by decide +kernel) hlists

theorem inStaging_of_validateFile {seen : List String} {jobId : String}
    (h : validateFile jobId seen file = .ok ()) : InStaging file.objectKey := by
  by_contra hkey
  rw [InStaging, not_or] at hkey
  have hbelow (directory : String) (hdirectory : ¬ directory.toList <+: file.objectKey.toList) :
      (directory ++ jobId ++ "/").toList.isPrefixOf file.objectKey.toList = false := by
    rw [← Bool.not_eq_true, List.isPrefixOf_iff_prefix]
    intro hprefix
    apply hdirectory
    rw [String.toList_append, String.toList_append, List.append_assoc] at hprefix
    exact (List.prefix_append _ _).trans hprefix
  unfold validateFile at h
  simp only [hbelow _ hkey.1, hbelow _ hkey.2, Bool.not_false, Bool.and_self, Bool.true_or,
    if_true] at h
  split_ifs at h

theorem inStaging_of_validateFiles {seen : List String} {jobId : String} {files : List UploadFile}
    (h : validateFiles jobId seen files = .ok ()) : ∀ file ∈ files, InStaging file.objectKey := by
  induction files generalizing seen with
  | nil => exact fun _ hmem => absurd hmem List.not_mem_nil
  | cons first files ih =>
    rw [validateFiles] at h
    split at h
    · cases h
    · next hfile => exact List.forall_mem_cons.mpr ⟨inStaging_of_validateFile hfile, ih h⟩

theorem inStaging_of_validateJob (h : validateJob job.toUploadJob = .ok ()) (hfile : file ∈ job.files) :
    InStaging file.objectKey := by
  unfold validateJob at h
  split_ifs at h
  exact inStaging_of_validateFiles h file hfile

/-! ## What a request keeps to -/

/-- The job is given up: its failure was reported, or nobody waits for it and Google Drive has its
tables. -/
def GivenUp (job : StagedJob) (w : UploadWorld storage disk) : Prop :=
  (job.callback = none ∧ googleMirrorCompleted job = true) ∨
    ∃ completion, .reported completion ∈ w.deeds ∧ completion.jobId = job.jobId ∧
      completion.success = false

/-- The disk has been sent the content of the file, or it has refused to overwrite the destination. -/
def Brought (file : UploadFile) (w : UploadWorld storage disk) : Prop :=
  .occupied file.diskPath ∈ w.deeds ∨
    ∃ object, .transferred file.diskPath object ∈ w.deeds ∧ object.generation = file.generation ∧
      object.sha256 = file.sha256

/-- A link that is reported for a role. -/
def LinkedRole (job : StagedJob) (w : UploadWorld storage disk) (entry : String × String) : Prop :=
  ∃ file ∈ job.files, file.role = entry.1 ∧ LinksTo w file.diskPath entry.2

/-- The staged object may go: the job is given up, or the generation of a file that it is the content
of is recorded, or a newer one. -/
def Covered (env : UploaderEnvironment) (job : StagedJob) (key versionId : String)
    (w : UploadWorld storage disk) : Prop :=
  GivenUp job w ∨ ∃ file ∈ job.files, key = file.objectKey ∧ versionId = file.objectVersion ∧
    file.generation ≤ env.recorded w file.diskPath

/-- What every request of an attempt at a job keeps to. -/
structure SafeCall (env : UploaderEnvironment) (job : StagedJob) (c : UploaderCall)
    (w w' : UploadWorld storage disk) : Prop where
  advances : UploadAdvances env w w'
  newer : ∀ diskPath href object, c = .transfer diskPath href object →
    env.recorded w diskPath < object.generation
  covered : ∀ key versionId, c = .deleteObject key versionId → InStaging key →
    Covered env job key versionId w
  founded : ∀ key body condition, c = .putObject key body condition →
    (∃ diskPath, key = stateKey env diskPath) → ∃ file ∈ job.files,
      key = stateKey env file.diskPath ∧ body = file.generation ∧ Brought file w
  linked : ∀ completion, c = .report completion →
    ∀ entry ∈ completion.publicUrls, LinkedRole job w entry

theorem GivenUp.of_deeds (h : GivenUp job w) (hdeeds : ∀ deed ∈ w.deeds, deed ∈ w'.deeds) :
    GivenUp job w' := by
  rcases h with hnobody | ⟨completion, hmem, hjob⟩
  · exact .inl hnobody
  · exact .inr ⟨completion, hdeeds _ hmem, hjob⟩

theorem Covered.of_advances {key versionId : String} (h : Covered env job key versionId w)
    (hadvances : UploadAdvances env w w') : Covered env job key versionId w' := by
  rcases h with hgivenUp | ⟨file, hfile, hkey, hversion, hrecorded⟩
  · exact .inl (hgivenUp.of_deeds hadvances.deeds)
  · exact .inr ⟨file, hfile, hkey, hversion, hrecorded.trans (hadvances.recorded file.diskPath)⟩

theorem Brought.of_deeds (h : Brought file w) (hdeeds : ∀ deed ∈ w.deeds, deed ∈ w'.deeds) :
    Brought file w' := by
  rcases h with htaken | ⟨object, hmem, hobject⟩
  · exact .inl (hdeeds _ htaken)
  · exact .inr ⟨object, hdeeds _ hmem, hobject⟩

theorem LinkedRole.of_advances {entry : String × String} (h : LinkedRole job w entry)
    (hadvances : UploadAdvances env w w') : LinkedRole job w' entry := by
  obtain ⟨file, hfile, hrole, hlinked⟩ := h
  exact ⟨file, hfile, hrole, hadvances.linked _ _ hlinked⟩

/-! ## Requests that need no care -/

/-- The requests that touch neither a record nor a staged object, send nothing and report nothing. -/
def Careless (env : UploaderEnvironment) : UploaderCall → Prop
  | .transfer _ _ _ => False
  | .report _ => False
  | .putObject key _ _ => ∃ diskPath, key = lockKey env diskPath
  | .deleteObject key _ => ∃ diskPath, key = lockKey env diskPath
  | _ => True

theorem UploadAdvances.of_same (hrecords : SameRecords env w w')
    (hlinked : ∀ diskPath url, LinksTo w diskPath url → LinksTo w' diskPath url)
    (hdeeds : ∀ deed ∈ w.deeds, deed ∈ w'.deeds)
    (hstored : ∀ key body, .stored key body ∈ w'.deeds → .stored key body ∈ w.deeds ∨
      ∀ diskPath, key ≠ stateKey env diskPath) : UploadAdvances env w w' where
  recorded diskPath := by rw [hrecords.recorded_eq]
  linked := hlinked
  deeds := hdeeds
  stored key body hbody := by
    rcases hstored key body hbody with hold | hother
    · exact .inl hold
    · exact .inr fun diskPath hkey => absurd hkey (hother diskPath)

/-- A refused request changes nothing. -/
theorem Reception.result_cases {W : Type} (reception : Reception) (before after : W) :
    reception.result before after = before ∨ reception.result before after = after := by
  cases reception
  · exact .inr rfl
  · exact .inl rfl
  · exact .inr rfl

theorem Reception.answer_ok {α : Type} {reception : Reception} {value a : α}
    (h : reception.answer value = .ok a) : reception = .served ∧ a = value := by
  cases reception with
  | served => exact ⟨rfl, (Except.ok.inj h).symm⟩
  | refused text => exact nomatch h
  | unanswered text => exact nomatch h

theorem sameRecords_refl : SameRecords env w w :=
  fun _ => rfl

theorem advances_putLock (diskPath body : String) :
    SameRecords env w (w.putObject (lockKey env diskPath) body).2 ∧
      UploadAdvances env w (w.putObject (lockKey env diskPath) body).2 := by
  have hsame : SameRecords env w (w.putObject (lockKey env diskPath) body).2 := fun diskPath' =>
    storage.get_put_of_ne _ _ _ _ (stateKey_ne_lockKey diskPath' diskPath)
  refine ⟨hsame, .of_same hsame (fun _ _ h => h) (fun _ h => List.mem_cons_of_mem _ h) ?_⟩
  intro key body' hbody
  rcases List.mem_cons.mp hbody with hnew | hold
  · obtain ⟨rfl, -⟩ := Deed.stored.inj hnew
    exact .inr fun diskPath' hkey => stateKey_ne_lockKey diskPath' diskPath hkey.symm
  · exact .inl hold

theorem careless_perform (h : Careless env c) :
    SameRecords env w (c.perform i w).2 ∧ UploadAdvances env w (c.perform i w).2 := by
  have stays : SameRecords env w w ∧ UploadAdvances env w w := ⟨sameRecords_refl, .refl⟩
  cases c with
  | transfer diskPath href object => exact h.elim
  | report completion => exact h.elim
  | putObject key body condition =>
    obtain ⟨diskPath, rfl⟩ := h
    rw [UploaderCall.perform]
    split
    · rcases Reception.result_cases i.reception w (w.putObject (lockKey env diskPath) body).2 with
        hnone | hdone
      · simp only [hnone]
        exact stays
      · simp only [hdone]
        exact advances_putLock diskPath body
    · exact stays
  | deleteObject key versionId =>
    obtain ⟨diskPath, rfl⟩ := h
    rw [UploaderCall.perform]
    rcases Reception.result_cases i.reception w { w with
      bucket := storage.delete (lockKey env diskPath) versionId w.bucket } with hnone | hdone
    · simp only [hnone]
      exact stays
    · have hsame : SameRecords env w { w with
          bucket := storage.delete (lockKey env diskPath) versionId w.bucket } := fun diskPath' =>
        storage.get_delete_of_ne _ _ _ _ (stateKey_ne_lockKey diskPath' diskPath)
      simp only [hdone]
      exact ⟨hsame, .of_same hsame (fun _ _ h => h) (fun _ h => h) fun _ _ h => .inl h⟩
  | makeDirectory directory =>
    rw [UploaderCall.perform]
    rcases Reception.result_cases i.reception w { w with
      remote := (disk.makeDirectory directory w.remote).2 } with hnone | hdone
    · simp only [hnone]
      exact stays
    · simp only [hdone]
      exact ⟨sameRecords_refl, .of_same sameRecords_refl
        (fun _ _ h => ⟨h.1, disk.resource_makeDirectory _ _ _ _ h.1 h.2⟩) (fun _ h => h)
        fun _ _ h => .inl h⟩
  | publish diskPath =>
    rw [UploaderCall.perform]
    rcases Reception.result_cases i.reception w { w with
      remote := disk.publish diskPath w.remote } with hnone | hdone
    · simp only [hnone]
      exact stays
    · simp only [hdone]
      exact ⟨sameRecords_refl, .of_same sameRecords_refl
        (fun _ _ h => ⟨h.1, disk.resource_publish _ _ _ _ h.1 h.2⟩) (fun _ h => h)
        fun _ _ h => .inl h⟩
  | uploadLink diskPath overwrite =>
    rw [UploaderCall.perform]
    split
    · exact stays
    · rcases Reception.result_cases i.reception w { w with
        deeds := .occupied diskPath :: w.deeds } with hnone | hdone
      · simp only [hnone]
        exact stays
      · simp only [hdone]
        refine ⟨sameRecords_refl, .of_same sameRecords_refl (fun _ _ h => h)
          (fun _ h => List.mem_cons_of_mem _ h) fun key body hbody => ?_⟩
        rcases List.mem_cons.mp hbody with hnew | hold
        · exact nomatch hnew
        · exact .inl hold
  | _ => exact stays

theorem safe_of_careless (h : Careless env c) : SafeCall env job c w (c.perform i w).2 where
  advances := (careless_perform h).2
  newer diskPath href object hc := by
    rw [hc] at h
    exact h.elim
  covered key versionId hc hkey := by
    rw [hc] at h
    obtain ⟨diskPath, rfl⟩ := h
    exact absurd hkey (not_inStaging_lockKey diskPath)
  founded key body condition hc hkey := by
    rw [hc] at h
    obtain ⟨diskPath, rfl⟩ := h
    obtain ⟨diskPath', hkey⟩ := hkey
    exact absurd hkey.symm (stateKey_ne_lockKey diskPath' diskPath)
  linked completion hc := by
    rw [hc] at h
    exact h.elim

/-! ## The programs -/

section Programs

variable (env job) in
/-- Every request of the program is safe, and its answer passes `Q`. -/
def SafeAct {α : Type} (Q : α → UploadWorld storage disk → Prop) (p : UploadAct α)
    (w : UploadWorld storage disk) : Prop :=
  wp uploadHandler (amongStagers env) (SafeCall env job) Q (fun _ _ => True) p w

variable {α β : Type} {Q Q' : α → UploadWorld storage disk → Prop} {p : UploadAct α}

theorem SafeAct.bind {f : α → UploadAct β} {R : β → UploadWorld storage disk → Prop}
    (hp : SafeAct env job Q p w) (hf : ∀ a w', Q a w' → SafeAct env job R (f a) w') :
    SafeAct env job R (p.bind f) w :=
  wp_bind.mpr (wp_mono hp hf fun _ _ _ => trivial)

theorem SafeAct.mono (hp : SafeAct env job Q p w) (hQ : ∀ a w', Q a w' → Q' a w') :
    SafeAct env job Q' p w :=
  wp_mono hp hQ fun _ _ h => h

theorem SafeAct.value {answer : Except String α} (h : ∀ a, answer = .ok a → Q a w) :
    SafeAct env job Q (UploadAct.value answer) w := by
  cases answer with
  | ok a => exact h a rfl
  | error text => trivial

/-- What a program leaves is an advance on what it found. -/
theorem SafeAct.advances (h : SafeAct env job Q p w) :
    SafeAct env job (fun a w' => UploadAdvances env w w' ∧ Q a w') p w :=
  wp_mono (wp_keeps (R := UploadAdvances env) h (fun _ => .refl) (fun _ _ _ => UploadAdvances.trans)
    (fun _ _ h => h.advances) fun _ _ _ h => h.advances) (fun _ _ h => h) fun _ _ _ => trivial

/-- A program whose requests need no care leaves the records alone. -/
theorem safeAct_of_careless {R : α → Prop} (h : p.Makes (fun _ _ => True) (Careless env) R) :
    SafeAct env job (fun a w' => SameRecords env w w' ∧ R a) p w := by
  have hsafe : wp uploadHandler (amongStagers env) (SafeCall env job) (fun a _ => R a)
      (fun _ _ => True) p w :=
    wp_of_makes (h := uploadHandler) (E := amongStagers env) (G := SafeCall env job) h
      (fun _ _ _ _ => trivial) fun _ _ _ hc _ => safe_of_careless hc
  have hrecords := wp_keeps_of_makes (h := uploadHandler) (E := amongStagers env)
    (R := SameRecords env) (w := w) (fun _ => sameRecords_refl)
    (fun _ _ _ h h' diskPath => (h' diskPath).trans (h diskPath)) (fun _ _ h => h.records) h
    (fun _ _ _ _ => trivial) fun _ _ _ hc _ => (careless_perform hc).1
  exact wp_mono (wp_weaken (wp_and hsafe hrecords) (fun _ _ h => h) (fun _ h => h)
    fun _ _ _ h => h.1) (fun _ _ h => h.2) fun _ _ _ => trivial

/-- A request that needs no care, with what comes after it. -/
theorem safeAct_ofCall {f : c.Ans → UploadAct α} (hc : Careless env c)
    (hf : ∀ w' i, SameRecords env w (c.perform i w').2 →
      SafeAct env job Q (f (c.perform i w').1) (c.perform i w').2) :
    SafeAct env job Q ((Prog.ofCall (S := uploaderPorts) c).bind f) w := by
  intro w' hw' i _
  refine ⟨safe_of_careless hc, hf w' i fun diskPath => ?_⟩
  exact ((careless_perform hc).1 diskPath).trans (hw'.records diskPath)

theorem makes_uploadValue {answer : Except String α} :
    (UploadAct.value answer).Makes (fun _ _ => True) (Careless env) fun _ => True := by
  cases answer <;> trivial

theorem makes_ofCall {f : c.Ans → UploadAct α} (hc : Careless env c)
    (hf : ∀ a, (f a).Makes (fun _ _ => True) (Careless env) fun _ => True) :
    ((Prog.ofCall (S := uploaderPorts) c).bind f).Makes (fun _ _ => True) (Careless env)
      fun _ => True :=
  ⟨hc, fun a _ => hf a⟩

theorem makes_takeOver : (takeOverStaleDestinationLock env file).Makes (fun _ _ => True)
    (Careless env) fun _ => True := by
  have hlock : ∃ diskPath, lockKey env file.diskPath = lockKey env diskPath := ⟨_, rfl⟩
  refine Prog.Makes.bind (Q := fun _ => True) (makes_ofCall trivial fun _ => makes_uploadValue) ?_
  intro lock _
  cases lock with
  | none => trivial
  | some lock =>
    dsimp only
    cases lockTime lock.body with
    | none => trivial
    | some nanoseconds =>
      dsimp only
      split
      · trivial
      · refine makes_ofCall trivial fun now => ?_
        split
        · trivial
        · refine Prog.Makes.bind (Q := fun _ => True) (makes_ofCall hlock fun _ => makes_uploadValue) ?_
          intro versionId _
          cases versionId with
          | none => trivial
          | some versionId =>
            dsimp only
            split
            · trivial
            · split
              · trivial
              · refine makes_ofCall hlock fun deleted => ?_
                cases deleted <;> trivial

theorem makes_acquireFrom (left : List Nat) :
    (acquireFrom env file left).Makes (fun _ _ => True) (Careless env) fun _ => True := by
  induction left with
  | nil => trivial
  | cons attempt left ih =>
    refine Prog.Makes.bind (Q := fun _ => True)
      (makes_ofCall ⟨_, rfl⟩ fun _ => makes_uploadValue) fun stored _ => ?_
    cases stored with
    | some versionId =>
      dsimp only
      split <;> trivial
    | none =>
      refine makes_takeOver.bind fun taken _ => ?_
      cases taken with
      | some versionId => trivial
      | none =>
        exact makes_ofCall trivial fun _ => makes_uploadValue.bind fun _ _ => ih

theorem makes_discardLock (diskPath versionId : String) :
    (UploadAct.discardObjectVersion (lockKey env diskPath) versionId).Makes (fun _ _ => True)
      (Careless env) fun _ => True :=
  makes_ofCall ⟨_, rfl⟩ fun _ => trivial

theorem makes_ensureDirectories (diskPath : String) :
    (ensureDirectories diskPath).Makes (fun _ _ => True) (Careless env) fun _ => True :=
  .forEach (R := fun _ => True) fun _ _ =>
    (makes_ofCall (c := .makeDirectory _) trivial fun _ => makes_uploadValue).bind fun _ _ => trivial

/-! ### The disk -/

variable {diskPath : String}

theorem SameRecords.trans (h : SameRecords env w w') (h' : SameRecords env w' w'') :
    SameRecords env w w'' :=
  fun diskPath => (h' diskPath).trans (h diskPath)

theorem safe_diskResource : SafeAct env job (fun publicUrl w' => SameRecords env w w' ∧
    disk.resource diskPath w'.remote = some publicUrl) (diskResource diskPath) w := by
  refine safeAct_ofCall (c := .resource diskPath) trivial fun w' i hsame => ?_
  refine SafeAct.bind (Q := fun found w'' => SameRecords env w w'' ∧
    found = disk.resource diskPath w''.remote)
    (.value fun _ hfound => ⟨hsame, (Reception.answer_ok hfound).2⟩) ?_
  intro found w₁ ⟨hsame₁, hfound⟩
  cases found with
  | none => trivial
  | some publicUrl => exact ⟨hsame₁, hfound.symm⟩

theorem safe_publish : SafeAct env job (fun publicUrl w' => SameRecords env w w' ∧
    LinksTo w' diskPath publicUrl) (publish diskPath) w := by
  refine safeAct_ofCall (c := .publish diskPath) trivial fun w' i hsame => ?_
  refine SafeAct.bind (Q := fun _ w' => SameRecords env w w') (.value fun _ _ => hsame) ?_
  intro _ w₁ hsame₁
  refine safe_diskResource.bind fun publicUrl w₂ ⟨hsame₂, hfound⟩ => ?_
  split
  · next hurl => exact ⟨hsame₁.trans hsame₂, hurl, hfound⟩
  · trivial

/-- The link that `uploadOne` returns for a published file. -/
def Returned (file : UploadFile) (publicUrl : String) (w : UploadWorld storage disk) : Prop :=
  file.publish = true → LinksTo w file.diskPath publicUrl

theorem safe_existingResult : SafeAct env job (fun publicUrl w' => SameRecords env w w' ∧
    Returned file publicUrl w') (existingResult file) w := by
  refine safe_diskResource.bind fun publicUrl w₁ ⟨hsame₁, hfound⟩ => ?_
  split
  · next hkept =>
    refine ⟨hsame₁, fun hpublish => ?_⟩
    rw [hpublish] at hkept
    exact nomatch hkept
  · split
    · next hurl => exact ⟨hsame₁, fun _ => ⟨hurl, hfound⟩⟩
    · exact safe_publish.mono fun _ _ h => ⟨hsame₁.trans h.1, fun _ => h.2⟩

/-! ### The bucket -/

theorem safe_getObject {key : String} : SafeAct env job (fun stored w' => SameRecords env w w' ∧
    stored = storage.get key w'.bucket) (UploadAct.getObject key) w :=
  safeAct_ofCall (c := .getObject key) trivial fun _ _ hsame =>
    .value fun _ hstored => ⟨hsame, (Reception.answer_ok hstored).2⟩

theorem safe_readGeneration : SafeAct env job (fun previous w' => SameRecords env w w' ∧
    previous = .of (storage.get (stateKey env diskPath) w'.bucket))
    (readGeneration env diskPath) w :=
  safe_getObject.bind fun _ _ ⟨hsame, hstored⟩ => ⟨hsame, by rw [hstored]⟩

theorem safe_stagedObject : SafeAct env job (fun staged w' => SameRecords env w w' ∧
    ∀ object ∈ staged, object.generation = file.generation ∧ object.sha256 = file.sha256)
    (stagedObject file) w := by
  refine safe_getObject.bind fun staged w₁ ⟨hsame, _⟩ => ?_
  cases staged with
  | none => exact ⟨hsame, nofun⟩
  | some object =>
    dsimp only
    split
    · next hsound =>
      refine ⟨hsame, fun other hother => ?_⟩
      rw [← Option.some.inj hother]
      exact ⟨hsound.2, hsound.1⟩
    · trivial

/-! ### One file -/

/-- What the record of a destination was when it was read, and still is. -/
def LastRead (env : UploaderEnvironment) (file : UploadFile) (previous : StoredGeneration)
    (w : UploadWorld storage disk) : Prop :=
  previous = .of (storage.get (stateKey env file.diskPath) w.bucket)

theorem LastRead.of_same {previous : StoredGeneration} (h : LastRead env file previous w)
    (hsame : SameRecords env w w') : LastRead env file previous w' := by
  rw [LastRead, hsame file.diskPath]
  exact h

theorem LastRead.recorded {previous : StoredGeneration} (h : LastRead env file previous w) :
    env.recorded w file.diskPath = previous.value := by
  rw [UploaderEnvironment.recorded, ← h]

variable {previous : StoredGeneration}

/-- The deletion of a staged object that may go. -/
theorem safeAct_delete {key versionId : String} {f : Except String Unit → UploadAct α}
    (hkey : InStaging key) (hcovered : Covered env job key versionId w)
    (hf : ∀ answer w', SameRecords env w w' → UploadAdvances env w w' → w'.deeds = w.deeds →
      SafeAct env job Q (f answer) w') :
    SafeAct env job Q
      ((Prog.ofCall (S := uploaderPorts) (.deleteObject key versionId)).bind f) w := by
  intro w₁ hmoves i _
  have hne : ∀ diskPath, stateKey env diskPath ≠ key := by
    rintro diskPath rfl
    exact not_inStaging_stateKey diskPath hkey
  have hsame : SameRecords env w₁
      { w₁ with bucket := storage.delete key versionId w₁.bucket } := fun diskPath =>
    storage.get_delete_of_ne _ _ _ _ (hne diskPath)
  have hadvances : UploadAdvances env w₁
      { w₁ with bucket := storage.delete key versionId w₁.bucket } :=
    .of_same hsame (fun _ _ h => h) (fun _ h => h) fun _ _ h => .inl h
  have hdone : SameRecords env w₁ ((UploaderCall.deleteObject key versionId).perform i w₁).2 ∧
      UploadAdvances env w₁ ((UploaderCall.deleteObject key versionId).perform i w₁).2 ∧
      ((UploaderCall.deleteObject key versionId).perform i w₁).2.deeds = w₁.deeds := by
    rw [UploaderCall.perform]
    rcases Reception.result_cases i.reception w₁
      { w₁ with bucket := storage.delete key versionId w₁.bucket } with hnone | hdone
    · simp only [hnone]
      exact ⟨sameRecords_refl, .refl, trivial⟩
    · simp only [hdone]
      exact ⟨hsame, hadvances, trivial⟩
  obtain ⟨hrecords, hkept, hdeeds⟩ := hdone
  refine ⟨⟨hkept, nofun, ?_, nofun, nofun⟩, hf _ _ ?_ (hmoves.advances.trans hkept) ?_⟩
  · intro _ _ hc _
    obtain ⟨rfl, rfl⟩ := UploaderCall.deleteObject.inj hc
    exact hcovered.of_advances hmoves.advances
  · exact SameRecords.trans hmoves.records hrecords
  · exact hdeeds.trans hmoves.deeds

theorem safe_deleteStaged (hjob : ∀ file ∈ job.files, InStaging file.objectKey)
    (hfile : file ∈ job.files) (hrecorded : file.generation ≤ env.recorded w file.diskPath) :
    SafeAct env job (fun _ _ => True) (deleteStaged file) w :=
  safeAct_delete (hjob file hfile) (.inr ⟨file, hfile, rfl, rfl, hrecorded⟩) fun _ _ _ _ _ =>
    .value fun _ _ => trivial

theorem recorded_of_get {object : StoredObject} {diskPath : String}
    (h : storage.get (stateKey env diskPath) w.bucket = some object) :
    env.recorded w diskPath = object.body := by
  rw [UploaderEnvironment.recorded, h]
  rfl

/-- What is stored as the record of a destination is its record, unless the record was newer. -/
theorem advances_putRecord {body : String} (hold : env.recorded w diskPath ≤ body) :
    UploadAdvances env w (w.putObject (stateKey env diskPath) body).2 := by
  obtain ⟨object, hget, hbody, -⟩ := storage.get_put_self (stateKey env diskPath) body w.bucket
  have hrecorded {diskPath' : String} (hkey : stateKey env diskPath' = stateKey env diskPath) :
      env.recorded (w.putObject (stateKey env diskPath) body).2 diskPath' = body :=
    (recorded_of_get (by rw [hkey]; exact hget)).trans hbody
  refine ⟨fun diskPath' => ?_, fun _ _ h => h, fun _ h => List.mem_cons_of_mem _ h, ?_⟩
  · by_cases hkey : stateKey env diskPath' = stateKey env diskPath
    · rw [hrecorded hkey]
      rw [UploaderEnvironment.recorded, hkey]
      exact hold
    · apply le_of_eq
      rw [UploaderEnvironment.recorded, UploaderEnvironment.recorded, UploadWorld.putObject]
      dsimp only
      rw [storage.get_put_of_ne _ _ _ _ hkey]
  · intro key body' hstored
    rcases List.mem_cons.mp hstored with hnew | hearlier
    · obtain ⟨rfl, rfl⟩ := Deed.stored.inj hnew
      exact .inr fun diskPath' hkey => le_of_eq (hrecorded hkey.symm).symm
    · exact .inl hearlier

/-- The deletion of the version of a record that is no longer the latest one. -/
theorem safe_discardRecord {object : StoredObject} {versionId : String}
    (hget : storage.get (stateKey env diskPath) w.bucket = some object) (hversion : versionId ≠ "")
    (hother : object.versionId ≠ versionId) :
    SafeAct env job (fun _ w' => SameRecords env w w')
      (UploadAct.discardObjectVersion (stateKey env diskPath) versionId) w := by
  intro w₁ hmoves i _
  have hsame : SameRecords env w₁ { w₁ with
      bucket := storage.delete (stateKey env diskPath) versionId w₁.bucket } := by
    intro diskPath'
    by_cases hkey : stateKey env diskPath' = stateKey env diskPath
    · have hnow : storage.get (stateKey env diskPath) w₁.bucket = some object :=
        (hmoves.records diskPath).trans hget
      rw [hkey, hnow]
      exact storage.get_delete_version _ _ _ _ hnow hversion hother
    · exact storage.get_delete_of_ne _ _ _ _ hkey
  have hadvances : UploadAdvances env w₁ { w₁ with
      bucket := storage.delete (stateKey env diskPath) versionId w₁.bucket } :=
    .of_same hsame (fun _ _ h => h) (fun _ h => h) fun _ _ h => .inl h
  have hdone : SameRecords env w₁
        ((UploaderCall.deleteObject (stateKey env diskPath) versionId).perform i w₁).2 ∧
      UploadAdvances env w₁
        ((UploaderCall.deleteObject (stateKey env diskPath) versionId).perform i w₁).2 := by
    rw [UploaderCall.perform]
    rcases Reception.result_cases i.reception w₁ { w₁ with
      bucket := storage.delete (stateKey env diskPath) versionId w₁.bucket } with hnone | hdone
    · simp only [hnone]
      exact ⟨sameRecords_refl, .refl⟩
    · simp only [hdone]
      exact ⟨hsame, hadvances⟩
  refine ⟨⟨hdone.2, nofun, ?_, nofun, nofun⟩, SameRecords.trans hmoves.records hdone.1⟩
  intro key _ hc hkey
  obtain ⟨rfl, -⟩ := UploaderCall.deleteObject.inj hc
  exact absurd hkey (not_inStaging_stateKey diskPath)

theorem perform_putObject_always (key body : String) :
    (UploaderCall.putObject key body .always).perform i w =
      (i.reception.answer (some (w.putObject key body).1),
        i.reception.result w (w.putObject key body).2) :=
  rfl

theorem safe_writeGeneration (hfile : file ∈ job.files) (hread : LastRead env file previous w)
    (hold : previous.value < file.generation) (hbrought : Brought file w) :
    SafeAct env job (fun versionId w' => ∃ object,
      storage.get (stateKey env file.diskPath) w'.bucket = some object ∧
        object.body = file.generation ∧ object.versionId = versionId ∧
        (previous.versionId ≠ "" → versionId ≠ previous.versionId))
      (writeGeneration env file) w := by
  intro w₁ hmoves i _
  have hread₁ : LastRead env file previous w₁ := hread.of_same hmoves.records
  have hput : UploadAdvances env w₁ (w₁.putObject (stateKey env file.diskPath) file.generation).2 :=
    advances_putRecord (by rw [hread₁.recorded]; exact le_of_lt hold)
  have hstep : UploadAdvances env w₁ ((UploaderCall.putObject (stateKey env file.diskPath)
      file.generation .always).perform i w₁).2 := by
    rw [perform_putObject_always]
    rcases Reception.result_cases i.reception w₁
      (w₁.putObject (stateKey env file.diskPath) file.generation).2 with hnone | hdone
    · simp only [hnone]
      exact .refl
    · simp only [hdone]
      exact hput
  refine ⟨⟨hstep, nofun, nofun, ?_, nofun⟩, ?_⟩
  · intro _ _ _ hc _
    obtain ⟨rfl, rfl, -⟩ := UploaderCall.putObject.inj hc
    exact ⟨file, hfile, rfl, rfl, hbrought.of_deeds hmoves.advances.deeds⟩
  · obtain ⟨object, hget, hbody, hversion⟩ :=
      storage.get_put_self (stateKey env file.diskPath) file.generation w₁.bucket
    show SafeAct env job _ ((UploadAct.value ((UploaderCall.putObject _ _ .always).perform i w₁).1).bind
      _) ((UploaderCall.putObject _ _ .always).perform i w₁).2
    rw [perform_putObject_always]
    refine SafeAct.bind (Q := fun stored w₂ => stored = some object.versionId ∧
        storage.get (stateKey env file.diskPath) w₂.bucket = some object) (.value ?_) ?_
    · intro stored hstored
      obtain ⟨hserved, hvalue⟩ := Reception.answer_ok hstored
      rw [hserved, hvalue, hversion]
      exact ⟨rfl, hget⟩
    · rintro stored w₂ ⟨rfl, hnow⟩
      dsimp only [Option.getD_some, bind, pure]
      split
      · trivial
      · refine ⟨object, hnow, hbody, rfl, fun hprevious => ?_⟩
        rw [hversion]
        rw [hread₁] at hprevious ⊢
        cases hbefore : storage.get (stateKey env file.diskPath) w₁.bucket with
        | none =>
          rw [hbefore] at hprevious
          exact absurd rfl hprevious
        | some earlier =>
          rw [hbefore] at hprevious
          exact storage.version_fresh _ _ _ _ hbefore hprevious

theorem safe_finishGeneration (hjob : ∀ file ∈ job.files, InStaging file.objectKey)
    (hfile : file ∈ job.files) (hread : LastRead env file previous w)
    (hold : previous.value < file.generation) (hbrought : Brought file w) :
    SafeAct env job (fun _ _ => True) (finishGeneration env file previous) w := by
  refine (safe_writeGeneration hfile hread hold hbrought).bind ?_
  rintro versionId w₁ ⟨object, hget, hbody, hversion, hfresh⟩
  have hlast {w₂ : UploadWorld storage disk} (hsame : SameRecords env w₁ w₂) :
      SafeAct env job (fun _ _ => True) (deleteStaged file) w₂ := by
    refine safe_deleteStaged hjob hfile (le_of_eq ?_)
    rw [hsame.recorded_eq, recorded_of_get hget, hbody]
  dsimp only [pure, Prog.done_bind]
  split
  · next hprevious =>
    refine (safe_discardRecord hget hprevious ?_).bind fun _ w₂ hsame => hlast hsame
    rw [hversion]
    exact hfresh hprevious
  · exact hlast sameRecords_refl

theorem occupied_of_uploadLink {overwrite : Bool}
    (h : ((UploaderCall.uploadLink diskPath overwrite).perform i w).1 = .ok none) :
    .occupied diskPath ∈ ((UploaderCall.uploadLink diskPath overwrite).perform i w).2.deeds := by
  rw [UploaderCall.perform] at h ⊢
  split at h
  · exact nomatch (Reception.answer_ok h).2
  · rw [(Reception.answer_ok h).1]
    exact List.mem_cons_self

/-- Content is sent to a destination whose record is older. -/
theorem safe_transfer {href : String} {object : StoredObject}
    (hnewer : env.recorded w diskPath < object.generation) :
    SafeAct env job (fun _ w' => SameRecords env w w' ∧ .transferred diskPath object ∈ w'.deeds)
      ((Prog.ofCall (S := uploaderPorts) (.transfer diskPath href object)).bind UploadAct.value)
      w := by
  intro w₁ hmoves i _
  have hstep : UploadAdvances env w₁
      ((UploaderCall.transfer diskPath href object).perform i w₁).2 := by
    rw [UploaderCall.perform]
    rcases Reception.result_cases i.reception w₁ { w₁ with
      remote := disk.transfer diskPath href object w₁.remote
      deeds := .transferred diskPath object :: w₁.deeds } with hnone | hdone
    · simp only [hnone]
      exact .refl
    · simp only [hdone]
      refine .of_same sameRecords_refl
        (fun _ _ h => ⟨h.1, disk.resource_transfer _ _ _ _ _ _ h.1 h.2⟩)
        (fun _ h => List.mem_cons_of_mem _ h) fun key body hstored => ?_
      rcases List.mem_cons.mp hstored with hnew | hold
      · exact nomatch hnew
      · exact .inl hold
  refine ⟨⟨hstep, ?_, nofun, nofun, nofun⟩, SafeAct.value fun _ hanswer => ?_⟩
  · intro _ _ _ hc
    obtain ⟨rfl, -, rfl⟩ := UploaderCall.transfer.inj hc
    rw [SameRecords.recorded_eq hmoves.records]
    exact hnewer
  · change SameRecords env w (i.reception.result w₁ _) ∧ _ ∈ (i.reception.result w₁ _).deeds
    rw [(Reception.answer_ok hanswer).1]
    exact ⟨hmoves.records, List.mem_cons_self⟩

theorem safe_sendContent {object : StoredObject}
    (hjob : ∀ file ∈ job.files, InStaging file.objectKey)
    (hfile : file ∈ job.files) (hread : LastRead env file previous w)
    (hold : previous.value < file.generation) (hgeneration : object.generation = file.generation)
    (hdigest : object.sha256 = file.sha256) :
    SafeAct env job (Returned file) (sendContent env file previous object) w := by
  -- the record is written once the content is there, and the link stays
  have hfinish {w₁ : UploadWorld storage disk} {publicUrl : String}
      (hsame : SameRecords env w w₁) (hbrought : Brought file w₁)
      (hreturned : Returned file publicUrl w₁) : SafeAct env job (Returned file)
        ((finishGeneration env file previous).bind fun _ => .done publicUrl) w₁ := by
    refine (safe_finishGeneration hjob hfile (hread.of_same hsame) hold hbrought).advances.bind ?_
    rintro _ w₂ ⟨hadvances, -⟩ hpublish
    exact hadvances.linked _ _ (hreturned hpublish)
  refine (safeAct_of_careless (makes_ensureDirectories file.diskPath)).bind ?_
  rintro _ w₁ ⟨hsame₁, -⟩
  refine safeAct_ofCall (c := .uploadLink file.diskPath file.overwrite) trivial ?_
  intro w₂ i hsame₂
  refine SafeAct.bind (Q := fun link w' => SameRecords env w w' ∧
    (link = none → .occupied file.diskPath ∈ w'.deeds)) (.value fun link hlink => ?_) ?_
  · refine ⟨hsame₁.trans hsame₂, ?_⟩
    rintro rfl
    exact occupied_of_uploadLink hlink
  · rintro link w₃ ⟨hsame₃, htaken⟩
    cases link with
    | none =>
      refine safe_existingResult.advances.bind ?_
      rintro publicUrl w₄ ⟨hadvances, hsame₄, hreturned⟩
      exact hfinish (hsame₃.trans hsame₄) (.inl (hadvances.deeds _ (htaken rfl))) hreturned
    | some href =>
      dsimp only
      split
      · trivial
      · have hnewer : env.recorded w₃ file.diskPath < object.generation := by
          rw [(hread.of_same hsame₃).recorded, hgeneration]
          exact hold
        refine (safe_transfer hnewer).bind ?_
        rintro _ w₄ ⟨hsame₄, hsent⟩
        have hbrought : Brought file w₄ := .inr ⟨object, hsent, hgeneration, hdigest⟩
        have hpublished : SafeAct env job (fun publicUrl w' => SameRecords env w₄ w' ∧
            Returned file publicUrl w')
            (if file.publish then publish file.diskPath else .done "") w₄ := by
          split
          · exact safe_publish.mono fun _ _ h => ⟨h.1, fun _ => h.2⟩
          · next hkept => exact ⟨sameRecords_refl, fun hpublish => absurd hpublish hkept⟩
        refine hpublished.advances.bind ?_
        rintro publicUrl w₅ ⟨hadvances, hsame₅, hreturned⟩
        exact hfinish ((hsame₃.trans hsame₄).trans hsame₅) (hbrought.of_deeds hadvances.deeds)
          hreturned

theorem safe_uploadLocked (hjob : ∀ file ∈ job.files, InStaging file.objectKey)
    (hfile : file ∈ job.files) : SafeAct env job (Returned file) (uploadLocked env file) w := by
  refine safe_readGeneration.bind ?_
  rintro previous w₁ ⟨-, hread⟩
  have hread : LastRead env file previous w₁ := hread
  split
  · next hrecorded =>
    refine (safe_deleteStaged hjob hfile (by rwa [hread.recorded])).bind fun _ w₂ _ => ?_
    exact safe_existingResult.mono fun _ _ h => h.2
  · next hrecorded =>
    refine safe_stagedObject.bind ?_
    rintro staged w₂ ⟨hsame, hstaged⟩
    cases staged with
    | none => exact safe_existingResult.mono fun _ _ h => h.2
    | some object =>
      obtain ⟨hgeneration, hdigest⟩ := hstaged object rfl
      exact safe_sendContent hjob hfile (hread.of_same hsame) (not_le.mp hrecorded) hgeneration
        hdigest

theorem safe_uploadOne (hjob : ∀ file ∈ job.files, InStaging file.objectKey)
    (hfile : file ∈ job.files) : SafeAct env job (Returned file) (uploadOne env file) w := by
  refine (safeAct_of_careless (makes_acquireFrom _)).bind fun lockVersion w₁ _ => ?_
  refine SafeAct.bind (Q := fun result w' => ∀ publicUrl, result = .ok publicUrl →
    Returned file publicUrl w') ?_ ?_
  · apply wp_result.mpr
    refine wp_mono (safe_uploadLocked hjob hfile) ?_ fun _ _ _ => nofun
    rintro publicUrl w₂ hreturned _ ⟨⟩
    exact hreturned
  · intro result w₂ hresult
    refine (safeAct_of_careless (makes_discardLock file.diskPath lockVersion)).advances.bind ?_
    rintro _ w₃ ⟨hadvances, -⟩
    cases result with
    | error error => trivial
    | ok publicUrl => exact fun hpublish => hadvances.linked _ _ (hresult publicUrl rfl hpublish)

theorem safe_attempts {program : UploadAct String}
    {R : String → UploadWorld storage disk → Prop} (hprogram : ∀ w, SafeAct env job R program w)
    (more : Nat) : SafeAct env job R (attempts more program) w := by
  induction more generalizing w with
  | zero => exact hprogram w
  | succ more ih => exact wp_catching.mpr (wp_mono (hprogram w) (fun _ _ h => h) fun _ _ _ => ih)

/-! ### The end of a job -/

/-- The deletions after a job was given up. -/
theorem safe_cleanup (hjob : ∀ file ∈ job.files, InStaging file.objectKey) (hgivenUp : GivenUp job w)
    {files : List UploadFile} (hfiles : ∀ file ∈ files, file ∈ job.files) :
    SafeAct env job (fun _ w' => w'.deeds = w.deeds)
      (Prog.forEach (fun file => UploadAct.discardObjectVersion file.objectKey file.objectVersion)
        files) w := by
  induction files generalizing w with
  | nil => exact rfl
  | cons file files ih =>
    obtain ⟨hfile, hrest⟩ := List.forall_mem_cons.mp hfiles
    refine SafeAct.bind (Q := fun _ w' => w'.deeds = w.deeds) ?_ ?_
    · exact safeAct_delete (hjob file hfile) (.inl hgivenUp) fun _ _ _ _ hdeeds => hdeeds
    · intro _ w₁ hdeeds
      have hstill : GivenUp job w₁ := hgivenUp.of_deeds fun deed hdeed => by rwa [hdeeds]
      exact (ih hstill hrest).mono fun _ _ h => h.trans hdeeds

theorem safe_invokeCompletion {completion : Completion}
    (hlinked : ∀ entry ∈ completion.publicUrls, LinkedRole job w entry) :
    SafeAct env job (fun _ w' => ∃ rest, w'.deeds = .reported completion :: rest)
      (invokeCompletion completion) w := by
  intro w₁ hmoves i _
  have hstep : UploadAdvances env w₁ ((UploaderCall.report completion).perform i w₁).2 := by
    rw [UploaderCall.perform]
    rcases Reception.result_cases i.reception w₁ { w₁ with
      deeds := .reported completion :: w₁.deeds } with hnone | hdone
    · simp only [hnone]
      exact .refl
    · simp only [hdone]
      refine .of_same sameRecords_refl (fun _ _ h => h) (fun _ h => List.mem_cons_of_mem _ h)
        fun key body hstored => ?_
      rcases List.mem_cons.mp hstored with hnew | hold
      · exact nomatch hnew
      · exact .inl hold
  refine ⟨⟨hstep, nofun, nofun, nofun, ?_⟩, SafeAct.value fun _ hanswer => ?_⟩
  · intro _ hc entry hentry
    obtain rfl := UploaderCall.report.inj hc
    exact (hlinked entry hentry).of_advances hmoves.advances
  · change ∃ rest, (i.reception.result w₁ _).deeds = _ :: rest
    rw [(Reception.answer_ok hanswer).1]
    exact ⟨w₁.deeds, rfl⟩

/-- The last that a finished job did is its report, if somebody waits for it: either of a failure, or
of success with a link for each role to publish. -/
def Concluded (job : StagedJob) (w : UploadWorld storage disk) : Prop :=
  ∀ callback, job.callback = some callback → ∃ completion rest,
    w.deeds = .reported completion :: rest ∧ completion.jobId = job.jobId ∧
      completion.callback = callback ∧ (completion.success = true →
        ∀ file ∈ job.files, file.publish = true → ∃ url, (file.role, url) ∈ completion.publicUrls)

/-- The failure of a job is reported, then its staged objects go. -/
theorem safe_reportFailure (hjob : ∀ file ∈ job.files, InStaging file.objectKey)
    {publicUrls : List (String × String)} {callback : String} {cause : UploadError}
    (hcallback : job.callback = some callback)
    (hlinked : ∀ entry ∈ publicUrls, LinkedRole job w entry) :
    SafeAct env job (fun _ w' => Concluded job w')
      ((invokeCompletion (failedCompletion job publicUrls callback cause)).bind fun _ =>
        cleanupStaged job) w := by
  refine SafeAct.bind (safe_invokeCompletion hlinked) ?_
  rintro _ w₁ ⟨rest, hdeeds⟩
  have hgivenUp : GivenUp job w₁ :=
    .inr ⟨_, by rw [hdeeds]; exact List.mem_cons_self, rfl, rfl⟩
  refine (safe_cleanup hjob hgivenUp fun _ h => h).mono fun _ w₂ hkept => ?_
  intro other hother
  rw [hcallback] at hother
  exact ⟨_, rest, hkept.trans hdeeds, rfl, Option.some.inj hother, nofun⟩

theorem safe_completeOptionalYandexFailure
    (hjob : ∀ file ∈ job.files, InStaging file.objectKey)
    (hmirrored : googleMirrorCompleted job = true) {publicUrls : List (String × String)}
    {cause : UploadError} (hlinked : ∀ entry ∈ publicUrls, LinkedRole job w entry) :
    SafeAct env job (fun _ w' => Concluded job w')
      (completeOptionalYandexFailure job publicUrls cause) w := by
  rw [completeOptionalYandexFailure]
  cases hcallback : job.callback with
  | none =>
    refine (safe_cleanup hjob (.inl ⟨hcallback, hmirrored⟩) fun _ h => h).mono ?_
    intro _ _ _ callback hother
    rw [hcallback] at hother
    exact nomatch hother
  | some callback => exact safe_reportFailure hjob hcallback hlinked

theorem safe_failJob (hjob : ∀ file ∈ job.files, InStaging file.objectKey)
    {publicUrls : List (String × String)} {cause : UploadError}
    (hlinked : ∀ entry ∈ publicUrls, LinkedRole job w entry) :
    SafeAct env job (fun _ w' => Concluded job w') (failJob job publicUrls cause) w := by
  rw [failJob]
  split
  · next hmirrored => exact safe_completeOptionalYandexFailure hjob hmirrored hlinked
  · split
    · trivial
    · cases hcallback : job.callback with
      | none => trivial
      | some callback => exact safe_reportFailure hjob hcallback hlinked

theorem safe_processFiles (hjob : ∀ file ∈ job.files, InStaging file.objectKey)
    {files : List UploadFile} {publicUrls : List (String × String)}
    (hfiles : ∀ file ∈ files, file ∈ job.files)
    (hlinked : ∀ entry ∈ publicUrls, LinkedRole job w entry)
    (hdone : ∀ file ∈ job.files, file.publish = true →
      file ∈ files ∨ ∃ url, (file.role, url) ∈ publicUrls) :
    SafeAct env job (fun _ w' => Concluded job w') (processFiles env job files publicUrls) w := by
  induction files generalizing publicUrls w with
  | nil =>
    rw [processFiles]
    cases hcallback : job.callback with
    | none =>
      intro callback hother
      rw [hcallback] at hother
      exact nomatch hother
    | some callback =>
      refine (safe_invokeCompletion hlinked).mono ?_
      rintro _ w₁ ⟨rest, hdeeds⟩ other hother
      rw [hcallback] at hother
      refine ⟨_, rest, hdeeds, rfl, Option.some.inj hother, fun _ file hfile hpublish => ?_⟩
      rcases hdone file hfile hpublish with hleft | hlisted
      · exact absurd hleft List.not_mem_nil
      · exact hlisted
  | cons file files ih =>
    obtain ⟨hfile, hrest⟩ := List.forall_mem_cons.mp hfiles
    rw [processFiles]
    refine SafeAct.bind (Q := fun result w' => UploadAdvances env w w' ∧
      ∀ publicUrl, result = .ok publicUrl → Returned file publicUrl w') ?_ ?_
    · apply wp_result.mpr
      have hupload : SafeAct env job (Returned file)
          (attempts (if file.googleMirrored then 0 else 2) (uploadOne env file)) w :=
        safe_attempts (fun _ => safe_uploadOne hjob hfile) _
      refine wp_mono (wp_keeps (R := UploadAdvances env) hupload (fun _ => .refl)
        (fun _ _ _ => UploadAdvances.trans) (fun _ _ h => h.advances) fun _ _ _ h => h.advances) ?_ ?_
      · rintro publicUrl w₁ ⟨hadvances, hreturned⟩
        exact ⟨hadvances, by rintro _ ⟨⟩; exact hreturned⟩
      · rintro cause w₁ ⟨hadvances, -⟩
        exact ⟨hadvances, nofun⟩
    · rintro result w₁ ⟨hadvances, hresult⟩
      have hlinked₁ : ∀ entry ∈ publicUrls, LinkedRole job w₁ entry :=
        fun entry hentry => (hlinked entry hentry).of_advances hadvances
      cases result with
      | error cause => exact safe_failJob hjob hlinked₁
      | ok publicUrl =>
        refine ih hrest ?_ ?_
        · intro entry hentry
          split at hentry
          · next hpublish =>
            rcases List.mem_append.mp hentry with hold | hnew
            · exact hlinked₁ entry hold
            · rw [List.mem_singleton.mp hnew]
              exact ⟨file, hfile, rfl, hresult publicUrl rfl hpublish⟩
          · exact hlinked₁ entry hentry
        · intro other hother hpublish
          rcases hdone other hother hpublish with hleft | ⟨url, hurl⟩
          · rcases List.mem_cons.mp hleft with rfl | hleft
            · rw [if_pos hpublish]
              exact .inr ⟨publicUrl, List.mem_append_right _ List.mem_cons_self⟩
            · exact .inl hleft
          · refine .inr ⟨url, ?_⟩
            split
            · exact List.mem_append_left _ hurl
            · exact hurl

theorem safe_handleUpload :
    SafeAct env job (fun _ w' => env.enabled = true → Concluded job w') (handleUpload env job) w := by
  rw [handleUpload]
  split
  · next hdisabled =>
    intro henabled
    rw [henabled] at hdisabled
    exact nomatch hdisabled
  · cases hvalid : validateJob job.toUploadJob with
    | error text => trivial
    | ok valid =>
      have hjob : ∀ file ∈ job.files, InStaging file.objectKey :=
        fun file hfile => inStaging_of_validateJob hvalid hfile
      suffices SafeAct env job (fun _ w' => Concluded job w') (processJob env job) w from
        this.mono fun _ _ h _ => h
      rw [processJob]
      split
      · trivial
      · refine safeAct_ofCall (c := .iamToken) trivial fun w₁ i _ => ?_
        refine SafeAct.bind (Q := fun _ _ => True) (.value fun _ _ => trivial) fun _ w₂ _ => ?_
        refine safeAct_ofCall (c := .diskToken) trivial fun w₃ i' _ => ?_
        have hnone : ∀ entry ∈ ([] : List (String × String)), LinkedRole job
            ((UploaderCall.diskToken).perform i' w₃).2 entry :=
          fun _ hmem => absurd hmem List.not_mem_nil
        split
        · split
          · next hmirrored => exact safe_completeOptionalYandexFailure hjob hmirrored hnone
          · trivial
        · exact safe_processFiles hjob (fun _ h => h) hnone fun file hfile _ => .inl hfile

end Programs

/-! ## Every sequence of attempts -/

/-- The attempts at upload jobs. -/
abbrev UploadAttempt (storage : ObjectStorage) (disk : YandexDisk) :=
  Session uploaderPorts UploadError Unit StagedJob (UploadWorld storage disk)

/-- Attempts one after the other, each of them under any answers and up to any request. -/
abbrev UploadAttempts (env : UploaderEnvironment) (w₀ : UploadWorld storage disk) :
    List (UploadAttempt storage disk) → UploadWorld storage disk → Prop :=
  Sessions uploadHandler (amongStagers env) (handleUpload env) w₀

/-- What an attempt kept to, seen from the end `w` of all attempts. -/
structure SafeAttempt (env : UploaderEnvironment) (w : UploadWorld storage disk)
    (attempt : UploadAttempt storage disk) : Prop where
  /-- Nothing is sent to a destination for which a generation as new has ever been recorded. -/
  newer : ∀ passage ∈ attempt.passages, ∀ diskPath href object,
    passage.op = .transfer diskPath href object →
      env.recorded passage.before diskPath < object.generation ∧
      ∀ body, .stored (stateKey env diskPath) body ∈ passage.before.deeds → body < object.generation
  /-- The record of a destination does not go back. -/
  recorded : ∀ passage ∈ attempt.passages, ∀ diskPath,
    env.recorded passage.before diskPath ≤ env.recorded passage.after diskPath ∧
      env.recorded passage.after diskPath ≤ env.recorded w diskPath
  /-- What is recorded was sent, or the destination was taken. -/
  founded : ∀ passage ∈ attempt.passages, ∀ diskPath body condition,
    passage.op = .putObject (stateKey env diskPath) body condition → ∃ file ∈ attempt.job.files,
      stateKey env diskPath = stateKey env file.diskPath ∧ body = file.generation ∧
        Brought file passage.before
  /-- A staged object goes once its generation is recorded, or the job is given up. -/
  covered : ∀ passage ∈ attempt.passages, ∀ file ∈ attempt.job.files, ∀ versionId,
    passage.op = .deleteObject file.objectKey versionId →
      Covered env attempt.job file.objectKey versionId passage.before
  /-- The links that are reported are those of the destinations, and stay so. -/
  linked : ∀ passage ∈ attempt.passages, ∀ completion, passage.op = .report completion →
    ∀ entry ∈ completion.publicUrls, LinkedRole attempt.job w entry
  concluded : attempt.ending = some (.ok ()) → env.enabled = true → Concluded attempt.job attempt.left

/-- An attempt at an invalid job makes no request. -/
theorem valid_handleUpload : wp uploadHandler (amongStagers env)
    (fun c (w w' : UploadWorld storage disk) =>
      SafeCall env job c w w' ∧ validateJob job.toUploadJob = .ok ())
    (fun _ w' => env.enabled = true → Concluded job w') (fun _ _ => True) (handleUpload env job) w := by
  cases hvalid : validateJob job.toUploadJob with
  | ok valid =>
    exact wp_weaken safe_handleUpload (fun _ _ h => h) (fun _ h => h) fun _ _ _ h => ⟨h, rfl⟩
  | error text =>
    rw [handleUpload, hvalid]
    split
    · next hdisabled =>
      intro henabled
      rw [henabled] at hdisabled
      exact nomatch hdisabled
    · trivial

/-- Of a valid job, each role has one link. -/
theorem LinkedRole.unique {role url url' : String} (hvalid : validateJob job.toUploadJob = .ok ())
    (h : LinkedRole job w (role, url)) (h' : LinkedRole job w (role, url')) : url = url' := by
  obtain ⟨file, hfile, hrole, -, hurl⟩ := h
  obtain ⟨file', hfile', hrole', -, hurl'⟩ := h'
  have hnodup : (job.files.map UploadFile.role).Nodup := by
    unfold validateJob at hvalid
    split_ifs at hvalid
    exact (validateFiles_ok hvalid).2
  obtain rfl : file = file' := List.inj_on_of_nodup_map hnodup hfile hfile' (hrole.trans hrole'.symm)
  exact Option.some.inj (hurl.symm.trans hurl')

/-- Whatever fails in the attempts, and whatever jobs they are at: every attempt is safe, and the
reports of a job never give a role different links. -/
theorem uploads_safe {w₀ w : UploadWorld storage disk} {past : List (UploadAttempt storage disk)}
    (hstart : w₀.deeds = []) (hpast : UploadAttempts env w₀ past w) :
    (∀ attempt ∈ past, SafeAttempt env w attempt) ∧
    ∀ attempt ∈ past, ∀ attempt' ∈ past, attempt.job = attempt'.job →
      ∀ passage ∈ attempt.passages, ∀ passage' ∈ attempt'.passages, ∀ completion completion',
        passage.op = .report completion → passage'.op = .report completion' →
          ∀ role url url', (role, url) ∈ completion.publicUrls →
            (role, url') ∈ completion'.publicUrls → url = url' := by
  obtain ⟨-, hall⟩ := hpast.rule (R := UploadAdvances env) (fun _ => .refl)
    (fun _ _ _ => UploadAdvances.trans) (fun _ _ h => h.advances) (fun _ _ _ _ h => h.1.advances)
    fun _ _ _ => valid_handleUpload
  have hlinked : ∀ attempt ∈ past, ∀ passage ∈ attempt.passages, ∀ completion,
      passage.op = .report completion →
        ∀ entry ∈ completion.publicUrls, LinkedRole attempt.job w entry := by
    intro attempt hattempt passage hpassage completion hop entry hentry
    obtain ⟨⟨hsafe, -⟩, -, hafter⟩ := (hall attempt hattempt).1 passage hpassage
    exact (hsafe.linked completion hop entry hentry).of_advances (hsafe.advances.trans hafter)
  constructor
  · intro attempt hattempt
    obtain ⟨hpassages, hends⟩ := hall attempt hattempt
    refine ⟨?_, ?_, ?_, ?_, hlinked attempt hattempt, hends ()⟩
    · intro passage hpassage diskPath href object hop
      obtain ⟨⟨hsafe, -⟩, hbefore, -⟩ := hpassages passage hpassage
      have hnewer := hsafe.newer diskPath href object hop
      refine ⟨hnewer, fun body hbody => ?_⟩
      rcases hbefore.stored _ _ hbody with hold | hrecorded
      · rw [hstart] at hold
        exact absurd hold List.not_mem_nil
      · exact (hrecorded diskPath rfl).trans_lt hnewer
    · intro passage hpassage diskPath
      obtain ⟨⟨hsafe, -⟩, -, hafter⟩ := hpassages passage hpassage
      exact ⟨hsafe.advances.recorded diskPath, hafter.recorded diskPath⟩
    · intro passage hpassage diskPath body condition hop
      obtain ⟨⟨hsafe, -⟩, -⟩ := hpassages passage hpassage
      exact hsafe.founded _ _ _ hop ⟨diskPath, rfl⟩
    · intro passage hpassage file hfile versionId hop
      obtain ⟨⟨hsafe, hvalid⟩, -⟩ := hpassages passage hpassage
      exact hsafe.covered _ _ hop (inStaging_of_validateJob hvalid hfile)
  · intro attempt hattempt attempt' hattempt' hjob passage hpassage passage' hpassage' completion
      completion' hop hop' role url url' hurl hurl'
    obtain ⟨⟨-, hvalid⟩, -⟩ := (hall attempt hattempt).1 passage hpassage
    refine LinkedRole.unique hvalid (hlinked attempt hattempt passage hpassage _ hop _ hurl) ?_
    rw [hjob]
    exact hlinked attempt' hattempt' passage' hpassage' _ hop' _ hurl'

/-! ## Two games at one destination -/

/-- A bucket as the list of its versions, latest first. -/
abbrev SampleBucket := List (String × StoredObject)

/-- A version id that is longer than all before it. -/
def freshVersion (bucket : SampleBucket) : String :=
  .ofList (List.replicate
    (bucket.foldr (fun entry longest => max entry.2.versionId.length longest) 0 + 1) 'v')

theorem length_lt_freshVersion {bucket : SampleBucket} {entry : String × StoredObject}
    (h : entry ∈ bucket) : entry.2.versionId.length < (freshVersion bucket).length := by
  have hlongest : entry.2.versionId.length ≤
      bucket.foldr (fun entry longest => max entry.2.versionId.length longest) 0 := by
    induction bucket with
    | nil => exact absurd h List.not_mem_nil
    | cons first bucket ih =>
      rw [List.foldr_cons]
      rcases List.mem_cons.mp h with rfl | hrest
      · exact le_max_left _ _
      · exact (ih hrest).trans (le_max_right _ _)
  rw [freshVersion, String.length_ofList, List.length_replicate]
  omega

def SampleBucket.latest (key : String) (bucket : SampleBucket) : Option StoredObject :=
  (bucket.find? fun entry => entry.1 = key).map Prod.snd

def SampleBucket.remove (key versionId : String) (bucket : SampleBucket) : SampleBucket :=
  bucket.filter fun entry => ¬ (entry.1 = key ∧ (versionId = "" ∨ entry.2.versionId = versionId))

theorem latest_remove {key key' versionId : String} {bucket : SampleBucket}
    (h : ∀ object, SampleBucket.latest key' bucket = some object → key' = key →
      versionId ≠ "" ∧ object.versionId ≠ versionId) :
    SampleBucket.latest key' (SampleBucket.remove key versionId bucket) =
      SampleBucket.latest key' bucket := by
  induction bucket with
  | nil => rfl
  | cons entry bucket ih =>
    by_cases hkey : entry.1 = key'
    · have hfirst : SampleBucket.latest key' (entry :: bucket) = some entry.2 := by
        simp [SampleBucket.latest, hkey]
      have hstays : ¬ (entry.1 = key ∧ (versionId = "" ∨ entry.2.versionId = versionId)) := by
        rintro ⟨hsame, hversion⟩
        obtain ⟨hsome, hother⟩ := h entry.2 hfirst (hkey.symm.trans hsame)
        exact hversion.elim hsome hother
      rw [hfirst, SampleBucket.remove, List.filter_cons, if_pos (decide_eq_true hstays)]
      simp [SampleBucket.latest, hkey]
    · have hrest : SampleBucket.latest key' (entry :: bucket) = SampleBucket.latest key' bucket := by
        simp [SampleBucket.latest, hkey]
      rw [hrest] at h ⊢
      rw [← ih h, SampleBucket.remove, List.filter_cons]
      split
      · simp [SampleBucket.latest, SampleBucket.remove, hkey]
      · rfl

/-- A version that the uploader writes. -/
def writtenObject (body versionId : String) : StoredObject where
  body := body
  etag := versionId
  versionId := versionId

def sampleStorage : ObjectStorage where
  Bucket := SampleBucket
  get := SampleBucket.latest
  put key body bucket :=
    (freshVersion bucket, (key, writtenObject body (freshVersion bucket)) :: bucket)
  delete := SampleBucket.remove
  get_put_self key body bucket := by simp [SampleBucket.latest, writtenObject]
  get_put_of_ne key key' body bucket hkey := by simp [SampleBucket.latest, Ne.symm hkey]
  version_fresh key body bucket object hget _ := by
    rw [SampleBucket.latest, Option.map_eq_some_iff] at hget
    obtain ⟨entry, hentry, rfl⟩ := hget
    intro hsame
    have hlength := length_lt_freshVersion (List.mem_of_find?_eq_some hentry)
    rw [← hsame] at hlength
    exact lt_irrefl _ hlength
  get_delete_of_ne key key' versionId bucket hkey :=
    latest_remove fun _ _ hsame => absurd hsame hkey
  get_delete_version key versionId bucket object hget hversion hother := by
    refine (latest_remove fun object' hget' _ => ⟨hversion, ?_⟩).trans hget
    rw [hget] at hget'
    rw [← Option.some.inj hget']
    exact hother

/-- A disk as the content of its files and the paths that are public. -/
structure SampleDisk where
  files : List (String × StoredObject) := []
  published : List String := []
deriving DecidableEq

def SampleDisk.resource (diskPath : String) (disk : SampleDisk) : Option String :=
  if disk.files.any (·.1 = diskPath) then
    some (if diskPath ∈ disk.published then "https://disk.example/" ++ diskPath else "")
  else none

def sampleDisk : YandexDisk where
  State := SampleDisk
  makeDirectory _ disk := (true, disk)
  uploadLink diskPath overwrite disk :=
    if disk.files.any (·.1 = diskPath) && !overwrite then none else some "https://uploader.example"
  transfer diskPath _ object disk := { disk with files := (diskPath, object) :: disk.files }
  publish diskPath disk := { disk with published := diskPath :: disk.published }
  resource := SampleDisk.resource
  resource_makeDirectory _ _ _ _ _ h := h
  resource_transfer path url target href object disk hurl h := by
    rw [SampleDisk.resource] at h ⊢
    split at h
    · next hfile => rw [if_pos (by simp [hfile]), h]
    · exact nomatch h
  resource_publish path url target disk hurl h := by
    rw [SampleDisk.resource] at h ⊢
    split at h
    · next hfile =>
      rw [if_pos hfile]
      by_cases hpublic : path ∈ disk.published
      · rw [if_pos hpublic] at h
        rw [if_pos (List.mem_cons_of_mem _ hpublic), h]
      · rw [if_neg hpublic] at h
        rw [← Option.some.inj h] at hurl
        exact absurd hurl (by decide)
    · exact nomatch h

def sampleUploader : UploaderEnvironment where
  bucket := "bucket"
  sha256 := id

/-- A job with the public table of a game. -/
def tableJob (jobId generation : String) : StagedJob where
  schemaVersion := 1
  jobId := jobId
  bucket := "bucket"
  files := [{
    role := "public"
    objectKey := "uploads/" ++ jobId ++ "/public.xlsx"
    objectVersion := generation
    diskPath := "disk:/larp-bot/game.xlsx"
    contentType := xlsxContentType
    sha256 := .ofList (List.replicate 64 'a')
    generation := generation
    overwrite := true
    publish := true }]
  callback := some "{}"

def olderJob : StagedJob :=
  tableJob "00000000-0000-0000-0000-00000000000a"
    "00000000000000000001-00000000-0000-0000-0000-00000000000a"

def newerJob : StagedJob :=
  tableJob "00000000-0000-0000-0000-00000000000b"
    "00000000000000000002-00000000-0000-0000-0000-00000000000b"

/-- The staged objects of a job. -/
def stagedObjects (job : StagedJob) : SampleBucket :=
  job.files.map fun file => (file.objectKey,
    ⟨file.generation, file.sha256, file.generation, file.objectVersion, file.objectVersion⟩)

/-- Both tables are staged. -/
def stagedWorld : UploadWorld sampleStorage sampleDisk where
  bucket := stagedObjects olderJob ++ stagedObjects newerJob
  remote := {}

/-- A request that is served, long after all locks of the samples were written. -/
def servedInput : UploaderInput where
  now := 1000000000000

/-- A table that is not to be overwritten. -/
def cautiousJob : StagedJob :=
  { olderJob with files := olderJob.files.map fun file => { file with overwrite := false } }

def takenWorld : UploadWorld sampleStorage sampleDisk :=
  { stagedWorld with remote := { files := [("disk:/larp-bot/game.xlsx", ⟨"", "", "", "", ""⟩)] } }

/-- The requests of an attempt whose disk does not answer the publication. -/
def unpublished : List UploaderInput :=
  let upload := List.replicate 6 servedInput ++ [{ reception := .unanswered "timeout" }, servedInput]
  List.replicate 2 servedInput ++ upload ++ upload ++ upload ++ List.replicate 2 servedInput

/-- An attempt under a list of answers, which is cut off when they are used up. -/
def playedAttempt (job : StagedJob) (inputs : List UploaderInput)
    (w : UploadWorld sampleStorage sampleDisk) : UploadAttempt sampleStorage sampleDisk :=
  let run := (handleUpload sampleUploader job).follow uploadHandler inputs w
  ⟨job, run.1, run.2.1, run.2.2⟩

theorem uploadAttempts_played {w₀ w : UploadWorld sampleStorage sampleDisk}
    {past : List (UploadAttempt sampleStorage sampleDisk)}
    (h : UploadAttempts sampleUploader w₀ past w) (job : StagedJob) (inputs : List UploaderInput) :
    UploadAttempts sampleUploader w₀ (playedAttempt job inputs w :: past)
      (playedAttempt job inputs w).left :=
  .run job h (Prog.follow_trail _ inputs w (fun _ => ⟨fun _ => rfl, fun _ _ h => h, rfl⟩)
    fun _ _ => trivial)

/-- A first attempt that stops before the publication. -/
def stoppedAttempt : UploadAttempt sampleStorage sampleDisk :=
  playedAttempt olderJob (List.replicate 8 servedInput) stagedWorld

/-- A second attempt, which takes the lock of the first one over. -/
def secondAttempt : UploadAttempt sampleStorage sampleDisk :=
  playedAttempt olderJob (List.replicate 20 servedInput) stoppedAttempt.left

theorem secondAttempt_safe :
    secondAttempt.ending = some (.ok ()) ∧
      SafeAttempt sampleUploader secondAttempt.left secondAttempt := by
  constructor
  · decide +kernel
  · have hpast : UploadAttempts sampleUploader stagedWorld [secondAttempt, stoppedAttempt]
        secondAttempt.left :=
      uploadAttempts_played (uploadAttempts_played .start olderJob _) olderJob _
    exact (uploads_safe rfl hpast).1 secondAttempt List.mem_cons_self

/-- Nothing older is sent to a destination that newer content was sent to. -/
def NeverOlder (past : List (UploadAttempt storage disk)) : Prop :=
  ∀ attempt ∈ past, ∀ passage ∈ attempt.passages, ∀ diskPath href object,
    passage.op = .transfer diskPath href object →
      ∀ sent, .transferred diskPath sent ∈ passage.before.deeds →
        sent.generation ≤ object.generation

/-- A staged object goes only once its generation is recorded, or a newer one. -/
def RemovesRecorded (env : UploaderEnvironment) (past : List (UploadAttempt storage disk)) : Prop :=
  ∀ attempt ∈ past, ∀ passage ∈ attempt.passages, ∀ file ∈ attempt.job.files,
    passage.op = .deleteObject file.objectKey file.objectVersion →
      file.generation ≤ env.recorded passage.before file.diskPath

/-- A staged object goes only once its content was sent, or newer content. -/
def RemovesSent (past : List (UploadAttempt storage disk)) : Prop :=
  ∀ attempt ∈ past, ∀ passage ∈ attempt.passages, ∀ file ∈ attempt.job.files,
    passage.op = .deleteObject file.objectKey file.objectVersion →
      ∃ object, .transferred file.diskPath object ∈ passage.before.deeds ∧
        file.generation ≤ object.generation

/-- A passage that sends older content. -/
def sendsOlder (passage : Passage uploaderPorts (UploadWorld storage disk)) : Bool :=
  match passage.op with
  | .transfer diskPath _ object => passage.before.deeds.any fun
    | .transferred sentPath sent => sentPath = diskPath && !decide (sent.generation ≤ object.generation)
    | _ => false
  | _ => false

theorem not_neverOlder {past : List (UploadAttempt storage disk)} {attempt : UploadAttempt storage disk}
    (hattempt : attempt ∈ past) (h : attempt.passages.any sendsOlder = true) : ¬ NeverOlder past := by
  intro hnever
  obtain ⟨passage, hpassage, hsends⟩ := List.any_eq_true.mp h
  rw [sendsOlder] at hsends
  split at hsends
  · next diskPath href object hop =>
    obtain ⟨deed, hdeed, hmatch⟩ := List.any_eq_true.mp hsends
    split at hmatch
    · next sentPath sent =>
      rw [Bool.and_eq_true, decide_eq_true_eq] at hmatch
      obtain ⟨rfl, holder⟩ := hmatch
      have hle := hnever attempt hattempt passage hpassage sentPath href object hop sent hdeed
      rw [decide_eq_true hle] at holder
      exact nomatch holder
    · exact nomatch hmatch
  · exact nomatch hsends

/-- A passage at which a staged object goes, though a test of the store before it fails. -/
def removesBefore (job : StagedJob) (test : UploadFile → UploadWorld storage disk → Bool)
    (passage : Passage uploaderPorts (UploadWorld storage disk)) : Bool :=
  job.files.any fun file =>
    decide (passage.op = .deleteObject file.objectKey file.objectVersion) && !test file passage.before

theorem exists_of_removesBefore (attempt : UploadAttempt storage disk)
    (test : UploadFile → UploadWorld storage disk → Bool)
    (h : attempt.passages.any (removesBefore attempt.job test) = true) :
    ∃ passage ∈ attempt.passages, ∃ file ∈ attempt.job.files,
      passage.op = .deleteObject file.objectKey file.objectVersion ∧
        test file passage.before = false := by
  obtain ⟨passage, hpassage, hremoves⟩ := List.any_eq_true.mp h
  obtain ⟨file, hfile, hboth⟩ := List.any_eq_true.mp hremoves
  rw [Bool.and_eq_true, decide_eq_true_eq, Bool.not_eq_true'] at hboth
  exact ⟨passage, hpassage, file, hfile, hboth⟩

/-- Whether the disk has been sent content as new as the file. -/
def sentAsNew (file : UploadFile) (w : UploadWorld storage disk) : Bool :=
  w.deeds.any fun
    | .transferred diskPath object =>
      diskPath = file.diskPath && decide (file.generation ≤ object.generation)
    | _ => false

/-- The newer job, whose publication fails for good. -/
def failedAttempt : UploadAttempt sampleStorage sampleDisk :=
  playedAttempt newerJob unpublished stagedWorld

def olderAttempt : UploadAttempt sampleStorage sampleDisk :=
  playedAttempt olderJob (List.replicate 20 servedInput) failedAttempt.left

def cautiousAttempt : UploadAttempt sampleStorage sampleDisk :=
  playedAttempt cautiousJob (List.replicate 20 servedInput) takenWorld

/-- The publication of the newer table fails for good: its staged object goes without a record, and
the older table is sent over it. A table that may not be overwritten takes its destination, and the
staged object goes though its content was never sent. -/
theorem older_over_newer :
    (∃ past w, UploadAttempts sampleUploader stagedWorld past w ∧ ¬ NeverOlder past ∧
      ¬ RemovesRecorded sampleUploader past) ∧
    ∃ past w, UploadAttempts sampleUploader takenWorld past w ∧ ¬ RemovesSent past := by
  constructor
  · refine ⟨[olderAttempt, failedAttempt], olderAttempt.left,
      uploadAttempts_played (uploadAttempts_played .start newerJob _) olderJob _, ?_, ?_⟩
    · have hmem : olderAttempt ∈ [olderAttempt, failedAttempt] := List.mem_cons_self
      exact not_neverOlder hmem (by decide +kernel)
    · intro hremoves
      obtain ⟨passage, hpassage, file, hfile, hop, htest⟩ := exists_of_removesBefore failedAttempt
        (fun file w => decide (file.generation ≤ sampleUploader.recorded w file.diskPath))
        (by decide +kernel)
      have hrecorded := hremoves failedAttempt (List.mem_cons_of_mem _ List.mem_cons_self) passage
        hpassage file hfile hop
      rw [decide_eq_true hrecorded] at htest
      exact nomatch htest
  · refine ⟨[cautiousAttempt], cautiousAttempt.left, uploadAttempts_played .start cautiousJob _, ?_⟩
    intro hremoves
    obtain ⟨passage, hpassage, file, hfile, hop, htest⟩ := exists_of_removesBefore cautiousAttempt
      sentAsNew (by decide +kernel)
    obtain ⟨object, hsent, hnewer⟩ := hremoves cautiousAttempt List.mem_cons_self passage hpassage
      file hfile hop
    have hany : sentAsNew file passage.before = true := by
      apply List.any_eq_true.mpr
      exact ⟨_, hsent, by simp [hnewer]⟩
    rw [hany] at htest
    exact nomatch htest

end LarpBot
