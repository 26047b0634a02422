import LarpBot.Application.RegistrationServices

/-!
# The uploader of tables

The function that copies staged files to their destination on Yandex Disk, as far as it decides what
to copy: the job that the bot stages, and `validateJob`, which every job passes before anything is
read or written.
-/

namespace LarpBot

/-- `strings.Contains(text, part)`. -/
def containsText (part : List Char) : List Char → Bool
  | [] => part.isEmpty
  | c :: cs => part.isPrefixOf (c :: cs) || containsText part cs

/-! ## Jobs -/

structure UploadFile where
  role : String
  objectKey : String
  objectVersion : String := ""
  diskPath : String
  contentType : String
  sha256 : String
  generation : String
  overwrite : Bool
  publish : Bool
  googleMirrored : Bool := false
  googleUrl : String := ""
deriving DecidableEq

structure UploadJob where
  schemaVersion : Int
  jobId : String
  bucket : String
  files : List UploadFile
deriving DecidableEq

def xlsxContentType : String :=
  "application/vnd.openxmlformats-officedocument.spreadsheetml.sheet"

def pptxContentType : String :=
  "application/vnd.openxmlformats-officedocument.presentationml.presentation"

/-! ## Patterns -/

def isHexDigit (c : Char) : Bool :=
  ('0' ≤ c && c ≤ '9') || ('a' ≤ c && c ≤ 'f')

/-- `jobIDPattern`: `^[0-9a-f-]{36}$`. -/
def jobIdPattern (text : List Char) : Bool :=
  text.length = 36 && text.all fun c => isHexDigit c || c = '-'

/-- `rolePattern`: `^[a-z][a-z0-9_-]{0,31}$`. -/
def rolePattern : List Char → Bool
  | [] => false
  | c :: cs =>
    let lower (c : Char) : Bool := 'a' ≤ c && c ≤ 'z'
    lower c && cs.length ≤ 31 &&
      cs.all fun c => lower c || ('0' ≤ c && c ≤ '9') || c = '_' || c = '-'

/-- `digestPattern`: `^[0-9a-f]{64}$`. -/
def digestPattern (text : List Char) : Bool :=
  text.length = 64 && text.all isHexDigit

/-- `generationPattern`: `^[0-9]{20}-[0-9a-f-]{36}$`. -/
def generationPattern (text : List Char) : Bool :=
  (text.take 20).length = 20 && (text.take 20).all (fun c => '0' ≤ c && c ≤ '9') &&
    match text.drop 20 with
    | '-' :: rest => jobIdPattern rest
    | _ => false

/-! ## `validateJob` -/

/-- The path check of `validateJob`. -/
def validDestination (diskPath : String) : Bool :=
  "disk:/larp-bot/".toList.isPrefixOf diskPath.toList && !containsText ['.', '.'] diskPath.toList &&
    !diskPath.toList.any fun c => c = '\r' || c = '\n'

/-- The checks of one file; `seen` are the roles of the files before it. -/
def validateFile (jobId : String) (seen : List String) (file : UploadFile) : Except String Unit :=
  let below (directory : String) : Bool :=
    (directory ++ jobId ++ "/").toList.isPrefixOf file.objectKey.toList
  if !rolePattern file.role.toList || file.role ∈ seen then
    .error "upload file roles must be valid and unique"
  else if (!below "larp-bot/uploads/" && !below "uploads/") ||
      containsText ['.', '.'] file.objectKey.toList then
    .error "upload object key is outside the job staging directory"
  else if 1024 < file.objectVersion.utf8ByteSize ||
      file.objectVersion.toList.any (fun c => c = '\r' || c = '\n') then
    .error "upload object version is invalid"
  else if !validDestination file.diskPath then
    .error "invalid Yandex Disk destination"
  else if !digestPattern file.sha256.toList || !generationPattern file.generation.toList then
    .error "upload file has invalid integrity metadata"
  else if file.googleMirrored && file.contentType ≠ xlsxContentType then
    .error "only XLSX files can be marked as mirrored to Google Drive"
  else if file.googleUrl ≠ "" && !"https://".toList.isPrefixOf file.googleUrl.toList then
    .error "Google Drive URL must use HTTPS"
  else if file.googleMirrored && file.publish && file.googleUrl = "" then
    .error "published Google Drive mirror has no URL"
  else if file.contentType ≠ xlsxContentType && file.contentType ≠ pptxContentType then
    .error "upload file has an unsupported content type"
  else .ok ()

/-- The loop over the files of a job. -/
def validateFiles (jobId : String) : List String → List UploadFile → Except String Unit
  | _, [] => .ok ()
  | seen, file :: files =>
    match validateFile jobId seen file with
    | .error text => .error text
    | .ok () => validateFiles jobId (file.role :: seen) files

def validateJob (job : UploadJob) : Except String Unit :=
  if job.schemaVersion ≠ 1 || !jobIdPattern job.jobId.toList then
    .error "invalid upload job schema or ID"
  else if job.bucket = "" || job.files.isEmpty || 8 < job.files.length then
    .error "upload job has an invalid bucket or file count"
  else validateFiles job.jobId [] job.files

/-! ## What a valid job is -/

variable {jobId : String} {seen : List String} {file : UploadFile} {files : List UploadFile}
  {job : UploadJob}

theorem validDestination_of_validateFile (h : validateFile jobId seen file = .ok ()) :
    validDestination file.diskPath = true := by
  by_contra hpath
  simp only [Bool.not_eq_true] at hpath
  unfold validateFile at h
  simp only [hpath, Bool.not_false, if_true] at h
  split_ifs at h

theorem role_notMem_of_validateFile (h : validateFile jobId seen file = .ok ()) :
    file.role ∉ seen := by
  intro hseen
  unfold validateFile at h
  simp [hseen] at h

/-- Every file of a valid job goes to a valid destination, under a role of its own. -/
theorem validateFiles_ok (h : validateFiles jobId seen files = .ok ()) :
    (∀ file ∈ files, validDestination file.diskPath = true ∧ file.role ∉ seen) ∧
      (files.map UploadFile.role).Nodup := by
  induction files generalizing seen with
  | nil => simp
  | cons file files ih =>
    rw [validateFiles] at h
    split at h
    · simp at h
    · next hfile =>
      obtain ⟨hfiles, hnodup⟩ := ih h
      constructor
      · intro other hother
        rcases List.mem_cons.1 hother with rfl | hother
        · exact ⟨validDestination_of_validateFile hfile, role_notMem_of_validateFile hfile⟩
        · obtain ⟨hpath, hrole⟩ := hfiles other hother
          exact ⟨hpath, fun hseen => hrole (List.mem_cons_of_mem _ hseen)⟩
      · rw [List.map_cons, List.nodup_cons]
        refine ⟨?_, hnodup⟩
        intro hrole
        obtain ⟨other, hother, heq⟩ := List.mem_map.1 hrole
        exact (hfiles other hother).2 (by simp [heq])

end LarpBot
