import LarpBot.Adapters.DiskUploader
import LarpBot.Foundation.Program
import Mathlib

/-!
# The upload of staged files

`process` of the uploader: each file of a job is copied from the staging bucket to its destination on
Yandex Disk under a lock, the generation of the copy is recorded in the bucket, the staged object is
deleted, and in the end the completion function is told. Object Storage and Yandex Disk are
parameters; their fields say what the uploader relies on. Every request may be refused, or carried
out without an answer, and the function may stop at any request.

The tokens that requests carry, the headers of the upload and what is printed are left out. A
collision of two digests is not excluded.
-/

namespace LarpBot

open Atomic

/-! ## The services -/

/-- A version of an object, with the metadata that the uploader reads. -/
structure StoredObject where
  body : String
  sha256 : String := ""
  generation : String := ""
  etag : String := ""
  versionId : String := ""
deriving DecidableEq

/-- A bucket of Object Storage with versioning. -/
structure ObjectStorage where
  Bucket : Type
  /-- The latest version under a key. -/
  get : String → Bucket → Option StoredObject
  /-- A new version under a key; its id is empty where the bucket keeps no versions. -/
  put : String → String → Bucket → String × Bucket
  /-- Without a version id, the key itself is deleted. -/
  delete : String → String → Bucket → Bucket
  get_put_self : ∀ key body bucket, ∃ object, get key (put key body bucket).2 = some object ∧
    object.body = body ∧ object.versionId = (put key body bucket).1
  get_put_of_ne : ∀ key key' body bucket, key' ≠ key →
    get key' (put key body bucket).2 = get key' bucket
  version_fresh : ∀ key body bucket object, get key bucket = some object →
    object.versionId ≠ "" → (put key body bucket).1 ≠ object.versionId
  get_delete_of_ne : ∀ key key' version bucket, key' ≠ key →
    get key' (delete key version bucket) = get key' bucket
  /-- Another version than the latest one. -/
  get_delete_version : ∀ key version bucket object, get key bucket = some object → version ≠ "" →
    object.versionId ≠ version → get key (delete key version bucket) = some object

/-- `strings.HasPrefix(url, "https://")`. -/
def isHttps (url : String) : Bool :=
  "https://".toList.isPrefixOf url.toList

/-- Yandex Disk. A resource that has a public link keeps it: when it is overwritten, and when it is
published again. -/
structure YandexDisk where
  State : Type
  /-- Whether the directory is new. -/
  makeDirectory : String → State → Bool × State
  /-- Where to send the content, unless the destination is taken. -/
  uploadLink : String → Bool → State → Option String
  /-- The content is sent to the link that was given for a path. -/
  transfer : String → String → StoredObject → State → State
  publish : String → State → State
  /-- The public link of a resource, empty where it has none. -/
  resource : String → State → Option String
  resource_makeDirectory : ∀ path url directory state, isHttps url = true →
    resource path state = some url → resource path (makeDirectory directory state).2 = some url
  resource_transfer : ∀ path url target href object state, isHttps url = true →
    resource path state = some url → resource path (transfer target href object state) = some url
  resource_publish : ∀ path url target state, isHttps url = true →
    resource path state = some url → resource path (publish target state) = some url

/-! ## Jobs and completions -/

/-- An upload job with its callback, a JSON object that the completion hands back. -/
structure StagedJob extends UploadJob where
  callback : Option String := none
deriving DecidableEq

structure Completion where
  schemaVersion : Int := 1
  jobId : String
  success : Bool
  publicUrls : List (String × String)
  callback : String
  error : String := ""
deriving DecidableEq

structure UploaderEnvironment where
  bucket : String
  /-- `yandexUploaderEnabled`. -/
  enabled : Bool := true
  /-- The digest in hexadecimal. -/
  sha256 : String → String

inductive UploadError
  | objectNotFound
  | destinationBusy
  | other (text : String)
deriving DecidableEq

def UploadError.text : UploadError → String
  | objectNotFound => "object not found"
  | destinationBusy => "yandex disk destination is busy"
  | other text => text

/-! ## Requests -/

inductive PutCondition
  | always
  | ifNoneMatch
  | ifMatch (etag : String)
deriving DecidableEq

def PutCondition.allows : PutCondition → Option StoredObject → Bool
  | always, _ => true
  | ifNoneMatch, object => object.isNone
  | ifMatch etag, object => object.any fun object => object.etag = etag

/-- What the services have done for the uploader. -/
inductive Deed
  | stored (key body : String)
  | transferred (diskPath : String) (object : StoredObject)
  /-- The destination was taken. -/
  | occupied (diskPath : String)
  | reported (completion : Completion)
deriving DecidableEq

/-- The services, with what they have done so far, latest first. -/
structure UploadWorld (storage : ObjectStorage) (disk : YandexDisk) where
  bucket : storage.Bucket
  remote : disk.State
  deeds : List Deed := []

inductive UploaderCall
  | iamToken
  | diskToken
  | now
  | wait (milliseconds : Nat)
  | getObject (key : String)
  | putObject (key body : String) (condition : PutCondition)
  | deleteObject (key versionId : String)
  | makeDirectory (directory : String)
  | uploadLink (diskPath : String) (overwrite : Bool)
  | transfer (diskPath href : String) (object : StoredObject)
  | publish (diskPath : String)
  | resource (diskPath : String)
  | report (completion : Completion)
deriving DecidableEq

/-- A missing object, a condition that fails and a destination that is taken are answers; every other
failure is a text. -/
@[reducible] def UploaderCall.Ans : UploaderCall → Type
  | now => Int
  | getObject _ => Except String (Option StoredObject)
  | putObject _ _ _ => Except String (Option String)
  | makeDirectory _ => Except String Bool
  | uploadLink _ _ => Except String (Option String)
  | resource _ => Except String (Option String)
  | _ => Except String Unit

/-- What becomes of a request. -/
inductive Reception
  | served
  | refused (text : String)
  /-- Carried out, but the answer is lost. -/
  | unanswered (text : String)
deriving DecidableEq

structure UploaderInput where
  reception : Reception := .served
  /-- Nanoseconds since the epoch. -/
  now : Int := 0

namespace Reception

variable {α W : Type}

def answer (reception : Reception) (value : α) : Except String α :=
  match reception with
  | served => .ok value
  | refused text => .error text
  | unanswered text => .error text

/-- A refused request changes nothing. -/
def result (reception : Reception) (before after : W) : W :=
  match reception with
  | refused _ => before
  | _ => after

end Reception

@[reducible] def uploaderPorts : Signature := ⟨UploaderCall, UploaderCall.Ans⟩

section Perform

variable {storage : ObjectStorage} {disk : YandexDisk}

def UploadWorld.putObject (w : UploadWorld storage disk) (key body : String) :
    String × UploadWorld storage disk :=
  let stored := storage.put key body w.bucket
  (stored.1, { w with bucket := stored.2, deeds := .stored key body :: w.deeds })

def UploaderCall.perform : (call : UploaderCall) → UploaderInput → UploadWorld storage disk →
    call.Ans × UploadWorld storage disk
  | iamToken, i, w => (i.reception.answer (), w)
  | diskToken, i, w => (i.reception.answer (), w)
  | now, i, w => (i.now, w)
  | wait _, i, w => (i.reception.answer (), w)
  | getObject key, i, w => (i.reception.answer (storage.get key w.bucket), w)
  | putObject key body condition, i, w =>
    if condition.allows (storage.get key w.bucket) then
      (i.reception.answer (some (w.putObject key body).1),
        i.reception.result w (w.putObject key body).2)
    else (i.reception.answer none, w)
  | deleteObject key versionId, i, w =>
    (i.reception.answer (),
      i.reception.result w { w with bucket := storage.delete key versionId w.bucket })
  | makeDirectory directory, i, w =>
    let made := disk.makeDirectory directory w.remote
    (i.reception.answer made.1, i.reception.result w { w with remote := made.2 })
  | uploadLink diskPath overwrite, i, w =>
    match disk.uploadLink diskPath overwrite w.remote with
    | some href => (i.reception.answer (some href), w)
    | none =>
      (i.reception.answer none, i.reception.result w { w with deeds := .occupied diskPath :: w.deeds })
  | transfer diskPath href object, i, w =>
    (i.reception.answer (), i.reception.result w
      { w with
        remote := disk.transfer diskPath href object w.remote
        deeds := .transferred diskPath object :: w.deeds })
  | publish diskPath, i, w =>
    (i.reception.answer (),
      i.reception.result w { w with remote := disk.publish diskPath w.remote })
  | resource diskPath, i, w => (i.reception.answer (disk.resource diskPath w.remote), w)
  | report completion, i, w =>
    (i.reception.answer (),
      i.reception.result w { w with deeds := .reported completion :: w.deeds })

def uploadHandler : Handler uploaderPorts (UploadWorld storage disk) UploaderInput :=
  UploaderCall.perform

end Perform

abbrev UploadAct (α : Type) := Prog uploaderPorts UploadError α

namespace UploadAct

variable {α : Type}

/-- A request whose failure is an error. -/
def value : Except String α → UploadAct α
  | .ok a => .done a
  | .error text => .fail (.other text)

def raise (text : String) : UploadAct α :=
  .fail (.other text)

def getObject (key : String) : UploadAct (Option StoredObject) :=
  (Prog.ofCall (S := uploaderPorts) (.getObject key)).bind value

def putObject (key body : String) (condition : PutCondition) : UploadAct (Option String) :=
  (Prog.ofCall (S := uploaderPorts) (.putObject key body condition)).bind value

/-- `deleteObjectVersion`. -/
def deleteObjectVersion (key versionId : String) : UploadAct Unit :=
  (Prog.ofCall (S := uploaderPorts) (.deleteObject key versionId)).bind value

/-- A deletion whose failure is only printed. -/
def discardObjectVersion (key versionId : String) : UploadAct Unit :=
  (Prog.ofCall (S := uploaderPorts) (.deleteObject key versionId)).bind fun _ => .done ()

end UploadAct

open UploadAct (value raise getObject putObject deleteObjectVersion discardObjectVersion)

/-! ## The lock of a destination -/

section Uploads

variable (env : UploaderEnvironment)

def stateKey (diskPath : String) : String :=
  "larp-bot/upload-state/" ++ (env.sha256 diskPath ++ ".txt")

def lockKey (diskPath : String) : String :=
  "larp-bot/upload-locks/" ++ (env.sha256 diskPath ++ ".lock")

/-- `strconv.ParseInt(text, 10, 64)`. -/
def parseInt64 (text : List Char) : Option Int :=
  let digits : List Char → Option Nat
    | [] => none
    | cs => if cs.all Char.isDigit then
        some (cs.foldl (fun value c => value * 10 + (c.toNat - '0'.toNat)) 0) else none
  let number : Option Int := match text with
    | '-' :: cs => (digits cs).map fun value => -(value : Int)
    | '+' :: cs => (digits cs).map fun value => (value : Int)
    | cs => (digits cs).map fun value => (value : Int)
  number.filter fun value => -2 ^ 63 ≤ value && value < 2 ^ 63

/-- The time of a lock: what stands before the first hyphen of its body. -/
def lockTime (body : String) : Option Int :=
  if '-' ∈ body.toList then parseInt64 (body.toList.takeWhile (· ≠ '-')) else none

/-- `lockStaleAfter`, in nanoseconds. -/
def lockStaleAfter : Int := 6 * 60 * 1000000000

/-- `takeOverStaleDestinationLock`: the version of the lock that was taken over. -/
def takeOverStaleDestinationLock (file : UploadFile) : UploadAct (Option String) := do
  match ← getObject (lockKey env file.diskPath) with
  | none => return none
  | some lock =>
    match lockTime lock.body with
    | none => return none
    | some nanoseconds =>
      if lock.etag = "" then return none
      else
        let now ← Prog.ofCall (S := uploaderPorts) .now
        if now - nanoseconds ≤ lockStaleAfter then return none
        else
          match ← putObject (lockKey env file.diskPath) file.generation (.ifMatch lock.etag) with
          | none => return none
          | some versionId =>
            if versionId = "" then raise "Object Storage returned no lock version"
            else if lock.versionId = "" then return some versionId
            else
              match ← Prog.ofCall (S := uploaderPorts)
                  (.deleteObject (lockKey env file.diskPath) lock.versionId) with
              | .error text => raise s!"delete stale lock version: {text}"
              | .ok () => return some versionId

/-- The attempts of `acquireDestination` that are left. -/
def acquireFrom (file : UploadFile) : List Nat → UploadAct String
  | [] => .fail .destinationBusy
  | attempt :: attempts => do
    match ← putObject (lockKey env file.diskPath) file.generation .ifNoneMatch with
    | some versionId =>
      if versionId = "" then raise "Object Storage returned no lock version" else return versionId
    | none =>
      match ← takeOverStaleDestinationLock env file with
      | some versionId => return versionId
      | none =>
        value (← Prog.ofCall (S := uploaderPorts) (.wait ((attempt + 1) * 100)))
        acquireFrom file attempts

def acquireDestination (file : UploadFile) : UploadAct String :=
  acquireFrom env file (List.range 10)

/-! ## The record of a destination -/

structure StoredGeneration where
  value : String := ""
  versionId : String := ""
deriving DecidableEq

def StoredGeneration.of (stored : Option StoredObject) : StoredGeneration :=
  match stored with
  | none => {}
  | some object => ⟨object.body, object.versionId⟩

def readGeneration (diskPath : String) : UploadAct StoredGeneration := do
  return StoredGeneration.of (← getObject (stateKey env diskPath))

def writeGeneration (file : UploadFile) : UploadAct String := do
  let versionId := (← putObject (stateKey env file.diskPath) file.generation .always).getD ""
  if versionId = "" then raise "Object Storage returned no generation version" else return versionId

def deleteStaged (file : UploadFile) : UploadAct Unit :=
  deleteObjectVersion file.objectKey file.objectVersion

/-- The end of `uploadOne`, on both of its paths: the generation is recorded, then the staged object
is deleted. -/
def finishGeneration (file : UploadFile) (previous : StoredGeneration) : UploadAct Unit := do
  let _ ← writeGeneration env file
  if previous.versionId ≠ "" then
    discardObjectVersion (stateKey env file.diskPath) previous.versionId
  deleteStaged file

/-! ## Yandex Disk -/

/-- `path.Dir` of a path without `..`, in parts. -/
def parentParts (path : List Char) : List (List Char) :=
  let parts := ((path.splitOn '/').dropLast).filter fun part => part ≠ [] ∧ part ≠ ['.']
  if parts = [] then [['.']] else parts

/-- The directories above a destination, the outermost first. -/
def parentDirectories (diskPath : String) : List String :=
  let path := if "disk:/".toList.isPrefixOf diskPath.toList then diskPath.toList.drop 6
    else diskPath.toList
  let parts := parentParts path
  (List.range parts.length).map fun index =>
    "disk:/" ++ .ofList (List.intercalate ['/'] (parts.take (index + 1)))

/-- A directory that exists is no failure. -/
def ensureDirectories (diskPath : String) : UploadAct Unit :=
  Prog.forEach (fun directory =>
      ((Prog.ofCall (S := uploaderPorts) (.makeDirectory directory)).bind value).bind fun _ => .done ())
    (parentDirectories diskPath)

def diskResource (diskPath : String) : UploadAct String := do
  match ← value (← Prog.ofCall (S := uploaderPorts) (.resource diskPath)) with
  | none => .fail .objectNotFound
  | some publicUrl => return publicUrl

def publish (diskPath : String) : UploadAct String := do
  value (← Prog.ofCall (S := uploaderPorts) (.publish diskPath))
  let publicUrl ← diskResource diskPath
  if isHttps publicUrl then return publicUrl
  else raise "published Yandex Disk resource has no public URL"

def existingResult (file : UploadFile) : UploadAct String := do
  let publicUrl ← diskResource file.diskPath
  if !file.publish then return ""
  else if isHttps publicUrl then return publicUrl
  else publish file.diskPath

/-! ## One file -/

/-- `getObject` of the staged object. -/
def stagedObject (file : UploadFile) : UploadAct (Option StoredObject) := do
  match ← getObject file.objectKey with
  | none => return none
  | some object =>
    if object.sha256 = file.sha256 ∧ object.generation = file.generation then return some object
    else raise "staged object integrity metadata does not match the job"

/-- The content goes to the link that the disk gives for the destination. -/
def sendContent (file : UploadFile) (previous : StoredGeneration) (object : StoredObject) :
    UploadAct String := do
  ensureDirectories file.diskPath
  match ← value (← Prog.ofCall (S := uploaderPorts) (.uploadLink file.diskPath file.overwrite)) with
  | none =>
    let publicUrl ← existingResult file
    finishGeneration env file previous
    return publicUrl
  | some href =>
    if !isHttps href then raise "Yandex Disk returned an invalid upload URL"
    else
      value (← Prog.ofCall (S := uploaderPorts) (.transfer file.diskPath href object))
      let publicUrl ← (if file.publish then publish file.diskPath else .done "")
      finishGeneration env file previous
      return publicUrl

/-- `uploadOne` under the lock. -/
def uploadLocked (file : UploadFile) : UploadAct String := do
  let previous ← readGeneration env file.diskPath
  if file.generation ≤ previous.value then
    deleteStaged file
    existingResult file
  else
    match ← stagedObject file with
    | none => existingResult file
    | some object => sendContent env file previous object

/-- The lock is released however the upload ends, unless the function stops. -/
def uploadOne (file : UploadFile) : UploadAct String := do
  let lockVersion ← acquireDestination env file
  let result ← (uploadLocked env file).result
  discardObjectVersion (lockKey env file.diskPath) lockVersion
  match result with
  | .ok publicUrl => return publicUrl
  | .error error => .fail error

/-! ## A job -/

/-- The first attempt and `more` ones after it; the error is that of the last one. -/
def attempts (more : Nat) (program : UploadAct String) : UploadAct String :=
  match more with
  | 0 => program
  | more + 1 => program.catching fun _ => attempts more program

def googleMirrorCompleted (job : StagedJob) : Bool :=
  !job.files.isEmpty && job.files.all (·.googleMirrored)

def invokeCompletion (completion : Completion) : UploadAct Unit := do
  value (← Prog.ofCall (S := uploaderPorts) (.report completion))

def cleanupStaged (job : StagedJob) : UploadAct Unit :=
  Prog.forEach (fun file => discardObjectVersion file.objectKey file.objectVersion) job.files

def failedCompletion (job : StagedJob) (publicUrls : List (String × String)) (callback : String)
    (cause : UploadError) : Completion where
  jobId := job.jobId
  success := false
  publicUrls := publicUrls
  callback := callback
  error := cause.text

def completeOptionalYandexFailure (job : StagedJob) (publicUrls : List (String × String))
    (cause : UploadError) : UploadAct Unit := do
  match job.callback with
  | none => .done ()
  | some callback => invokeCompletion (failedCompletion job publicUrls callback cause)
  cleanupStaged job

/-- A file has failed for good. -/
def failJob (job : StagedJob) (publicUrls : List (String × String)) (cause : UploadError) :
    UploadAct Unit :=
  if googleMirrorCompleted job then completeOptionalYandexFailure job publicUrls cause
  else if cause = .destinationBusy then .fail cause
  else
    match job.callback with
    | none => .fail cause
    | some callback => do
      invokeCompletion (failedCompletion job publicUrls callback cause)
      cleanupStaged job

/-- The loop over the files, with the public links so far. -/
def processFiles (job : StagedJob) : List UploadFile → List (String × String) → UploadAct Unit
  | [], publicUrls =>
    match job.callback with
    | none => .done ()
    | some callback =>
      invokeCompletion { jobId := job.jobId, success := true, publicUrls, callback }
  | file :: files, publicUrls => do
    match ← (attempts (if file.googleMirrored then 0 else 2) (uploadOne env file)).result with
    | .error cause => failJob job publicUrls cause
    | .ok publicUrl =>
      processFiles job files
        (if file.publish then publicUrls ++ [(file.role, publicUrl)] else publicUrls)

def processJob (job : StagedJob) : UploadAct Unit := do
  if job.bucket ≠ env.bucket then raise "upload job uses an unexpected bucket"
  else
    value (← Prog.ofCall (S := uploaderPorts) .iamToken)
    match ← Prog.ofCall (S := uploaderPorts) .diskToken with
    | .error text =>
      if googleMirrorCompleted job then completeOptionalYandexFailure job [] (.other text)
      else raise text
    | .ok () => processFiles env job job.files []

/-- `Handler`: an invalid job is an error, before any request. -/
def handleUpload (job : StagedJob) : UploadAct Unit :=
  if !env.enabled then .done ()
  else
    match validateJob job.toUploadJob with
    | .error text => raise text
    | .ok () => processJob env job

end Uploads

end LarpBot
