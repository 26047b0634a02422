import LarpBot.Adapters.DiskUploader

/-!
# The mirror on Google Drive

Each table is also written to a Drive folder, through a script that runs as the owner of the folder.
The bot names a file of the mirror after its path on the disk; the script checks the name again.
-/

namespace LarpBot

/-- A name ends in `.xlsx`, in any case. -/
def endsInXlsx (name : List Char) : Bool :=
  (name.drop (name.length - 5)).map Char.toLower = ".xlsx".toList

def mirroredTableName (diskPath : String) : Except Fault (List Char) :=
  let start := "disk:/larp-bot/".toList
  if !start.isPrefixOf diskPath.toList || !endsInXlsx diskPath.toList then
    .error (.valueError "mirrored table path must be an XLSX below disk:/larp-bot/")
  else
    .ok ((diskPath.toList.drop start.length).flatMap fun c =>
      if c = '/' then " — ".toList else [c])

/-- The bytes of a text in UTF-8. -/
def utf8Bytes (text : List Char) : Nat :=
  (text.map Char.utf8Size).sum

/-- `ROLEBOT_CONFIG.allowedNamePrefixes`. -/
def allowedNamePrefixes : List (List Char) :=
  ["events — ".toList, "passes — ".toList]

/-- The characters of `/[\\/\u0000-\u001f\u007f]/`. -/
def isForbiddenInName (c : Char) : Bool :=
  c = '\\' || c = '/' || c.toNat ≤ 0x1f || c = '\x7f'

/-- `validateXlsxName_` of the script. -/
def validateXlsxName (name : List Char) : Except String Unit :=
  if !(allowedNamePrefixes.any fun start => start.isPrefixOf name) || !endsInXlsx name then
    .error "Only rolebot event and pass XLSX names are allowed."
  else if name.any isForbiddenInName then
    .error "The file name contains a forbidden character."
  else if 240 < utf8Bytes name then
    .error "The UTF-8 file name is too long."
  else .ok ()

/-- The script accepts the name that a path has in the mirror. -/
def validMirror (diskPath : String) : Bool :=
  match mirroredTableName diskPath with
  | .ok name => (validateXlsxName name).isOk
  | .error _ => false

end LarpBot
