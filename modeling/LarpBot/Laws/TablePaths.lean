import Mathlib
import LarpBot.Adapters.GoogleDrive
import LarpBot.Application.EventAdministration

/-!
# Which names give tables that can be written

A path of a table holds the name of its game, cleaned by one rule: characters that no file name holds
become dashes, blanks become spaces, the ends lose blanks and dots, and what is left is cut at 120
characters. Two gateways check the path again, by rules of their own: one refuses two dots in a row
anywhere, the other a deletion character and names above 240 bytes. `fits_gateways_iff` says which
names pass both.

The cleaning never leaves a slash, a line break or another control character below U+0020, whatever
the name. What it does not do is what the theorem lists: join dots, remove U+007F, count bytes.
-/

namespace LarpBot

open List

variable {bot : Deployment} {eventId : EventId} {name : String} {cs l r : List Char} {c : Char}

/-! ## What is left of a name -/

/-- The characters that no file name holds. -/
def isForbiddenInFile (c : Char) : Bool :=
  c ∈ ['\\', '/', ':', '*', '?', '"', '<', '>', '|'] || c.toNat < 0x20

/-- What a character stands for in a file name, when it is not itself. -/
def fileMark (c : Char) : Option Char :=
  if isForbiddenInFile c then some '-'
  else if isPythonSpace c then some ' '
  else none

/-- Each run of characters with one mark is written as that mark. -/
def squeeze : Option Char → List Char → List Char
  | _, [] => []
  | last, c :: cs =>
    match fileMark c with
    | none => c :: squeeze none cs
    | some mark => if last = some mark then squeeze last cs else mark :: squeeze (some mark) cs

/-- What is left of the name of a game in the names of its files. -/
def fileStem (name : String) : List Char :=
  rstripChars [' ', '.'] ((stripChars [' ', '.'] (squeeze none (pythonStrip name))).take 120)

/-- The text of a UUID. -/
def isUuid (text : List Char) : Bool :=
  text.length = 36 && text.zipIdx.all fun (c, i) =>
    if i ∈ [8, 13, 18, 23] then c = '-' else isHexDigit c

/-- No two dots stand next to each other. -/
def NoDoubleDot (text : List Char) : Prop :=
  text.IsChain fun a b => ¬(a = '.' ∧ b = '.')

instance (text : List Char) : Decidable (NoDoubleDot text) :=
  inferInstanceAs (Decidable (text.IsChain _))

/-- What the gateways ask of the name of a game. -/
structure FitsGateways (name : String) : Prop where
  dots : NoDoubleDot (fileStem name)
  deletion : '\x7f' ∉ fileStem name
  bytes : utf8Bytes (fileStem name) ≤ 170

/-! ## Texts -/

theorem containsText_dots : containsText ['.', '.'] l = false ↔ NoDoubleDot l := by
  induction l with
  | nil => simp [containsText, NoDoubleDot]
  | cons a l ih =>
    cases l with
    | nil => simp [containsText, NoDoubleDot, isPrefixOf]
    | cons b l =>
      have hhead : isPrefixOf ['.', '.'] (a :: b :: l) = false ↔ ¬(a = '.' ∧ b = '.') := by
        by_cases ha : a = '.' <;> by_cases hb : b = '.' <;> simp [isPrefixOf, ha, hb, Ne.symm]
      rw [containsText, Bool.or_eq_false_iff, ih, hhead]
      show _ ↔ List.IsChain _ _
      rw [List.isChain_cons_cons]
      rfl

theorem noDoubleDot_of_notMem (h : '.' ∉ l) : NoDoubleDot l := by
  induction l with
  | nil => exact List.isChain_nil
  | cons a l ih =>
    cases l with
    | nil => exact List.isChain_singleton a
    | cons b l =>
      have htail : NoDoubleDot (b :: l) := ih fun hdot => h (mem_cons_of_mem _ hdot)
      refine List.isChain_cons_cons.2 ⟨?_, htail⟩
      rintro ⟨rfl, -⟩
      exact h mem_cons_self

theorem utf8Bytes_append : utf8Bytes (l ++ r) = utf8Bytes l + utf8Bytes r := by
  simp [utf8Bytes]

theorem utf8Bytes_ascii (h : ∀ c ∈ l, c.toNat < 0x80) : utf8Bytes l = l.length := by
  induction l with
  | nil => rfl
  | cons c l ih =>
    have hc : c.utf8Size = 1 := by
      have := h c mem_cons_self
      rw [Char.utf8Size_eq_one_iff]
      exact UInt32.le_iff_toNat_le.2 (by change c.toNat ≤ 127; omega)
    rw [← singleton_append, utf8Bytes_append, ih fun d hd => h d (mem_cons_of_mem _ hd)]
    simp [utf8Bytes, hc]
    omega

theorem mem_of_mem_dropWhile {p : Char → Bool} (h : c ∈ l.dropWhile p) : c ∈ l :=
  (dropWhile_suffix p).subset h

/-! ## The cleaning -/

/-- The two substitutions of `event_table_paths`, in one pass. -/
theorem replaceRuns_squeeze :
    replaceRuns isPythonSpace [' '] false (replaceRuns isForbiddenInFile ['-'] false cs) =
        squeeze none cs ∧
      replaceRuns isPythonSpace [' '] false (replaceRuns isForbiddenInFile ['-'] true cs) =
        squeeze (some '-') cs ∧
      replaceRuns isPythonSpace [' '] true (replaceRuns isForbiddenInFile ['-'] false cs) =
        squeeze (some ' ') cs := by
  induction cs with
  | nil => exact ⟨rfl, rfl, rfl⟩
  | cons c cs ih =>
    obtain ⟨hnone, hdash, hblank⟩ := ih
    have hspace : isPythonSpace '-' = false := by decide
    by_cases hf : isForbiddenInFile c = true
    · have hmark : fileMark c = some '-' := if_pos hf
      simp only [replaceRuns, squeeze, hf, hmark, if_true, hspace, Bool.false_eq_true, if_false,
        singleton_append, nil_append, hdash]
      exact ⟨rfl, trivial, rfl⟩
    · by_cases hs : isPythonSpace c = true
      · have hmark : fileMark c = some ' ' := (if_neg hf).trans (if_pos hs)
        simp only [replaceRuns, squeeze, hf, hs, hmark, if_true, Bool.false_eq_true, if_false,
          singleton_append, nil_append, hblank]
        exact ⟨rfl, rfl, trivial⟩
      · have hmark : fileMark c = none := (if_neg hf).trans (if_neg hs)
        simp only [replaceRuns, squeeze, hf, hs, hmark, Bool.false_eq_true, if_false, hnone,
          and_self]

theorem safeTableName_toList : (safeTableName bot name).toList =
    if (fileStem name).isEmpty then eventSlug bot name else fileStem name := by
  have hstem : fileStem name = rstripChars [' ', '.'] ((stripChars [' ', '.']
      (replaceRuns isPythonSpace [' '] false
        (replaceRuns isForbiddenInFile ['-'] false (pythonStrip name)))).take 120) := by
    rw [replaceRuns_squeeze.1, fileStem]
  rw [hstem, safeTableName, String.toList_ofList]
  rfl

theorem mem_squeeze {last : Option Char} (h : c ∈ squeeze last cs) :
    c = ' ' ∨ fileMark c = none := by
  induction cs generalizing last with
  | nil => simp [squeeze] at h
  | cons d cs ih =>
    rw [squeeze] at h
    cases hd : fileMark d with
    | none =>
      rw [hd] at h
      rcases mem_cons.1 h with rfl | h
      · exact .inr hd
      · exact ih h
    | some mark =>
      rw [hd] at h
      have hmark : mark = ' ' ∨ fileMark mark = none := by
        unfold fileMark at hd
        split_ifs at hd
        all_goals
          obtain rfl := Option.some.inj hd
          decide
      dsimp only at h
      split_ifs at h
      · exact ih h
      · rcases mem_cons.1 h with rfl | h
        · exact hmark
        · exact ih h

/-- Every step after the substitutions takes a part of the text. -/
theorem prefix_fileStem : fileStem name <+:
    (squeeze none (pythonStrip name)).dropWhile (· ∈ [' ', '.']) := by
  have hstrip (l : List Char) : rstripChars [' ', '.'] l <+: l := by
    rw [rstripChars, ← reverse_suffix, reverse_reverse]
    exact dropWhile_suffix _
  have hboth (l : List Char) : stripChars [' ', '.'] l <+: l.dropWhile (· ∈ [' ', '.']) :=
    hstrip (l.dropWhile (· ∈ [' ', '.']))
  rw [fileStem]
  exact (hstrip _).trans (( List.take_prefix _ _).trans (hboth _))

theorem mem_fileStem (h : c ∈ fileStem name) : c = ' ' ∨ fileMark c = none :=
  mem_squeeze (mem_of_mem_dropWhile (prefix_fileStem.subset h))

theorem fileMark_eq_none (h : fileMark c = none) : c ≠ '\\' ∧ c ≠ '/' ∧ 0x20 ≤ c.toNat := by
  unfold fileMark at h
  split_ifs at h with hf hs
  simp only [isForbiddenInFile, mem_cons, Bool.or_eq_true, decide_eq_true_eq, not_or] at hf
  exact ⟨hf.1.1, hf.1.2.1, by omega⟩

/-- A text that has lost some characters at its start does not begin with one of them. -/
theorem head_dropWhile {chars : List Char} : ∀ c ∈ (l.dropWhile (· ∈ chars)).head?, c ∉ chars := by
  intro c hc
  have hhead := head?_dropWhile_not (fun c => decide (c ∈ chars)) l
  rw [Option.mem_def.1 hc] at hhead
  simpa using hhead

theorem fileStem_head : ∀ c ∈ (fileStem name).head?, c ≠ '.' := by
  intro c hc
  obtain ⟨rest, hrest⟩ := @prefix_fileStem name
  have hfirst : c ∈ ((squeeze none (pythonStrip name)).dropWhile (· ∈ [' ', '.'])).head? := by
    rw [← hrest, head?_append, Option.mem_def.1 hc]
    rfl
  rintro rfl
  exact head_dropWhile _ hfirst (by simp)

theorem fileStem_getLast : ∀ c ∈ (fileStem name).getLast?, c ≠ '.' := by
  intro c hc
  rw [fileStem, rstripChars, getLast?_reverse] at hc
  rintro rfl
  exact head_dropWhile _ hc (by simp)

/-! ## Slugs -/

/-- The characters of slugs and of UUIDs. -/
def isPlain (c : Char) : Bool :=
  ('a' ≤ c && c ≤ 'z') || ('0' ≤ c && c ≤ '9') || c = '-'

/-- A plain character takes one byte, and no check of a gateway is about it. -/
theorem isPlain_range (h : isPlain c = true) :
    (c.toNat = 0x2d ∨ 0x30 ≤ c.toNat ∧ c.toNat ≤ 0x39 ∨ 0x61 ≤ c.toNat ∧ c.toNat ≤ 0x7a) := by
  have hle {a b : Char} (h : a ≤ b) : a.toNat ≤ b.toNat := UInt32.le_iff_toNat_le.1 h
  simp only [isPlain, Bool.or_eq_true, Bool.and_eq_true, decide_eq_true_eq] at h
  rcases h with (⟨ha, hz⟩ | ⟨h0, h9⟩) | rfl
  · exact .inr (.inr ⟨hle ha, hle hz⟩)
  · exact .inr (.inl ⟨hle h0, hle h9⟩)
  · exact .inl rfl

theorem isPlain_of_isHexDigit (h : isHexDigit c = true) : isPlain c = true := by
  simp only [isHexDigit, isPlain, Bool.or_eq_true, Bool.and_eq_true, decide_eq_true_eq] at h ⊢
  rcases h with h | ⟨ha, hf⟩
  · exact .inl (.inr h)
  · exact .inl (.inl ⟨ha, hf.trans (by decide)⟩)

theorem mem_replaceRuns {p : Char → Bool} {replacement : List Char} {inRun : Bool}
    (h : c ∈ replaceRuns p replacement inRun cs) : c ∈ replacement ∨ p c = false := by
  induction cs generalizing inRun with
  | nil => simp [replaceRuns] at h
  | cons d cs ih =>
    rw [replaceRuns] at h
    split at h
    · rcases mem_append.1 h with h | h
      · split at h
        · simp at h
        · exact .inl h
      · exact ih h
    · next hd =>
      rcases mem_cons.1 h with rfl | h
      · exact .inr (by simpa using hd)
      · exact ih h

theorem mem_stripChars {chars : List Char} (h : c ∈ stripChars chars l) : c ∈ l := by
  rw [stripChars, mem_reverse] at h
  exact mem_of_mem_dropWhile (mem_reverse.1 (mem_of_mem_dropWhile h))

theorem isPlain_of_mem_eventSlug (h : c ∈ eventSlug bot name) : isPlain c = true := by
  rw [eventSlug] at h
  have hslug := mem_of_mem_take h
  split at hslug
  · have hgame : "game".toList.all isPlain = true := by decide
    exact all_eq_true.mp hgame c hslug
  · rcases mem_replaceRuns (mem_stripChars hslug) with hdash | hkept
    · rw [mem_singleton.1 hdash]
      decide
    · rw [isPlain]
      simp only [Bool.not_eq_false'] at hkept
      simp [hkept]

theorem length_eventSlug : (eventSlug bot name).length ≤ 40 := by
  rw [eventSlug]
  exact length_take_le _ _

/-! ## Paths -/

/-! The fixed parts of a path. -/

@[irreducible] def diskRoot : List Char := "disk:/larp-bot/".toList

@[irreducible] def eventsFolder : List Char := "events".toList

@[irreducible] def masterTable : List Char := "master_table_".toList

@[irreducible] def publicTable : List Char := "public_table_".toList

@[irreducible] def xlsxEnding : List Char := ".xlsx".toList

theorem diskRoot_eq : diskRoot =
    ['d', 'i', 's', 'k', ':', '/', 'l', 'a', 'r', 'p', '-', 'b', 'o', 't', '/'] := by
  simp [diskRoot]

theorem eventsFolder_eq : eventsFolder = ['e', 'v', 'e', 'n', 't', 's'] := by
  simp [eventsFolder]

theorem masterTable_eq : masterTable =
    ['m', 'a', 's', 't', 'e', 'r', '_', 't', 'a', 'b', 'l', 'e', '_'] := by
  simp [masterTable]

theorem publicTable_eq : publicTable =
    ['p', 'u', 'b', 'l', 'i', 'c', '_', 't', 'a', 'b', 'l', 'e', '_'] := by
  simp [publicTable]

theorem xlsxEnding_eq : xlsxEnding = ['.', 'x', 'l', 's', 'x'] := by
  simp [xlsxEnding]

/-- The path of a table whose file name carries `stem`. -/
def tablePathText (table : List Char) (eventId : EventId) (stem : List Char) : List Char :=
  diskRoot ++ (eventsFolder ++ '/' :: (eventId.toList ++ '/' :: (table ++ (stem ++ xlsxEnding))))

theorem tablePathText_of_parts {start above safe : String} {table : List Char}
    (hstart : start.toList = diskRoot ++ (eventsFolder ++ ['/']))
    (habove : above.toList = '/' :: table) :
    (start ++ eventId ++ above ++ safe ++ ".xlsx").toList =
      tablePathText table eventId safe.toList := by
  have hend : ".xlsx".toList = xlsxEnding := by rw [xlsxEnding]
  simp only [tablePathText, String.toList_append, hstart, habove, hend, append_assoc, cons_append,
    nil_append]

theorem masterTablePath_toList : (masterTablePath bot eventId name).toList =
    tablePathText masterTable eventId (safeTableName bot name).toList := by
  unfold masterTablePath
  generalize safeTableName bot name = safe
  exact tablePathText_of_parts (by simp [toString, diskRoot_eq, eventsFolder_eq])
    (by simp [toString, masterTable_eq])

theorem publicTablePath_toList : (publicTablePath bot eventId name).toList =
    tablePathText publicTable eventId (safeTableName bot name).toList := by
  unfold publicTablePath
  generalize safeTableName bot name = safe
  exact tablePathText_of_parts (by simp [toString, diskRoot_eq, eventsFolder_eq])
    (by simp [toString, publicTable_eq])

theorem isPlain_of_isUuid (h : isUuid eventId.toList = true) : ∀ c ∈ eventId.toList, isPlain c := by
  intro c hc
  simp only [isUuid, Bool.and_eq_true, all_eq_true] at h
  obtain ⟨i, hi⟩ := mem_iff_getElem?.1 hc
  have hplace := h.2 (c, i) (mk_mem_zipIdx_iff_getElem?.2 hi)
  dsimp only at hplace
  split at hplace
  · rw [of_decide_eq_true hplace]
    decide
  · exact isPlain_of_isHexDigit hplace

/-- A text that can stand for a game in a path: without slashes and control characters below U+0020,
and without dots at its ends. -/
structure IsStem (stem : List Char) : Prop where
  chars : ∀ c ∈ stem, c ≠ '\\' ∧ c ≠ '/' ∧ 0x20 ≤ c.toNat
  head : ∀ c ∈ stem.head?, c ≠ '.'
  getLast : ∀ c ∈ stem.getLast?, c ≠ '.'

variable {stem table : List Char} {path : String}

/-- The two kinds of tables of a game. -/
def IsTable (table : List Char) : Prop :=
  table = masterTable ∨ table = publicTable

/-- Characters that are neither dots nor controls. -/
def isQuiet (c : Char) : Bool :=
  0x20 ≤ c.toNat && c.toNat < 0x7f && c ≠ '.'

theorem isQuiet_of_isPlain (h : isPlain c = true) : isQuiet c = true := by
  have hrange := isPlain_range h
  have hdot : c ≠ '.' := by
    rintro rfl
    revert h
    decide
  simp only [isQuiet, Bool.and_eq_true, decide_eq_true_eq]
  exact ⟨⟨by omega, by omega⟩, hdot⟩

/-- What stands before the name of the game in a path. -/
def beforeStem (table : List Char) (eventId : EventId) : List Char :=
  diskRoot ++ (eventsFolder ++ '/' :: (eventId.toList ++ '/' :: table))

theorem tablePathText_eq : tablePathText table eventId stem =
    beforeStem table eventId ++ (stem ++ xlsxEnding) := by
  simp only [tablePathText, beforeStem, append_assoc, cons_append]

theorem isQuiet_beforeStem (htable : IsTable table) (hid : ∀ c ∈ eventId.toList, isPlain c) :
    ∀ c ∈ beforeStem table eventId, isQuiet c = true := by
  have hdisk : diskRoot.all isQuiet = true := by rw [diskRoot_eq]; decide
  have hevents : eventsFolder.all isQuiet = true := by rw [eventsFolder_eq]; decide
  have hname : table.all isQuiet = true := by
    rcases htable with rfl | rfl
    · rw [masterTable_eq]; decide
    · rw [publicTable_eq]; decide
  intro c hc
  simp only [beforeStem, mem_append, mem_cons] at hc
  rcases hc with hc | hc | rfl | hc | rfl | hc
  · exact all_eq_true.mp hdisk c hc
  · exact all_eq_true.mp hevents c hc
  · decide
  · exact isQuiet_of_isPlain (hid c hc)
  · decide
  · exact all_eq_true.mp hname c hc

theorem noDoubleDot_around (hl : '.' ∉ l) (hstem : IsStem stem) :
    NoDoubleDot (l ++ (stem ++ xlsxEnding)) ↔ NoDoubleDot stem := by
  have hend : NoDoubleDot xlsxEnding := by rw [xlsxEnding_eq]; decide
  rw [NoDoubleDot, ← append_assoc, isChain_append, isChain_append]
  constructor
  · rintro ⟨⟨-, h, -⟩, -⟩
    exact h
  · intro h
    refine ⟨⟨noDoubleDot_of_notMem hl, h, ?_⟩, hend, ?_⟩
    · rintro a - b hb ⟨-, rfl⟩
      exact hstem.head _ hb rfl
    · rintro a ha b - ⟨rfl, -⟩
      rw [getLast?_append] at ha
      cases hlast : stem.getLast? with
      | some c =>
        rw [hlast] at ha
        obtain rfl : c = '.' := Option.some.inj ha
        exact hstem.getLast _ hlast rfl
      | none =>
        rw [hlast] at ha
        exact hl (mem_of_getLast? ha)

/-- No character of a path is below U+0020. -/
theorem tablePathText_printable (htable : IsTable table) (hid : ∀ c ∈ eventId.toList, isPlain c)
    (hstem : IsStem stem) : ∀ c ∈ tablePathText table eventId stem, 0x20 ≤ c.toNat := by
  have hend : xlsxEnding.all (0x20 ≤ ·.toNat) = true := by rw [xlsxEnding_eq]; decide
  intro c hc
  rw [tablePathText_eq, mem_append, mem_append] at hc
  rcases hc with hc | hc | hc
  · have hquiet := isQuiet_beforeStem htable hid c hc
    simp only [isQuiet, Bool.and_eq_true, decide_eq_true_eq] at hquiet
    exact hquiet.1.1
  · exact (hstem.chars c hc).2.2
  · exact of_decide_eq_true (all_eq_true.mp hend c hc)

/-- The uploader accepts a path if and only if the name of the game brings no two dots in a row. -/
theorem validDestination_iff (hpath : path.toList = tablePathText table eventId stem)
    (htable : IsTable table) (hid : ∀ c ∈ eventId.toList, isPlain c) (hstem : IsStem stem) :
    validDestination path = true ↔ NoDoubleDot stem := by
  have hdot : '.' ∉ beforeStem table eventId := by
    intro h
    exact absurd (isQuiet_beforeStem htable hid _ h) (by decide)
  have hroot : "disk:/larp-bot/".toList = diskRoot := by rw [diskRoot]
  have hstart : diskRoot.isPrefixOf path.toList = true := by
    rw [hpath, List.isPrefixOf_iff_prefix]
    exact prefix_append _ _
  have hlines : path.toList.any (fun c => c = '\r' || c = '\n') = false := by
    rw [any_eq_false, hpath]
    intro c hc hline
    have hlow := tablePathText_printable htable hid hstem c hc
    simp only [Bool.or_eq_true, decide_eq_true_eq] at hline
    rcases hline with rfl | rfl <;> revert hlow <;> decide
  rw [validDestination, hroot, hstart, hlines, Bool.not_false, Bool.and_true, Bool.true_and,
    Bool.not_eq_true', containsText_dots, hpath, tablePathText_eq]
  exact noDoubleDot_around hdot hstem

/-! ## The name in the mirror -/

@[irreducible] def mirrorGap : List Char := " — ".toList

theorem mirrorGap_eq : mirrorGap = [' ', '—', ' '] := by
  simp [mirrorGap]

theorem endsInXlsx_append : endsInXlsx (l ++ xlsxEnding) = true := by
  have hlength : xlsxEnding.length = 5 := by rw [xlsxEnding_eq]; rfl
  have hend : xlsxEnding.map Char.toLower = ".xlsx".toList := by
    have hchars : ".xlsx".toList = xlsxEnding := by rw [xlsxEnding]
    rw [hchars, xlsxEnding_eq]
    decide
  have hdrop : (l ++ xlsxEnding).drop ((l ++ xlsxEnding).length - 5) = xlsxEnding := by
    rw [length_append, hlength]
    exact drop_left' (by omega)
  rw [endsInXlsx, hdrop, hend]
  exact decide_eq_true rfl

/-- The name of a table in the mirror. -/
def mirrorText (table : List Char) (eventId : EventId) (stem : List Char) : List Char :=
  eventsFolder ++ (mirrorGap ++ (eventId.toList ++ (mirrorGap ++ (table ++ (stem ++ xlsxEnding)))))

/-- Slashes apart, the mirror keeps a text. -/
theorem flatMap_mirror (h : '/' ∉ l) :
    (l.flatMap fun c => if c = '/' then mirrorGap else [c]) = l := by
  induction l with
  | nil => rfl
  | cons c l ih =>
    have hc : c ≠ '/' := fun heq => h (by rw [heq]; exact mem_cons_self)
    rw [flatMap_cons, if_neg hc, ih fun hl => h (mem_cons_of_mem _ hl)]
    rfl

theorem mirroredTableName_eq (hpath : path.toList = tablePathText table eventId stem)
    (htable : IsTable table) (hid : ∀ c ∈ eventId.toList, isPlain c) (hstem : IsStem stem) :
    mirroredTableName path = .ok (mirrorText table eventId stem) := by
  have hroot : "disk:/larp-bot/".toList = diskRoot := by rw [diskRoot]
  have hgap : " — ".toList = mirrorGap := by rw [mirrorGap]
  have hstart : diskRoot.isPrefixOf (tablePathText table eventId stem) = true := by
    rw [ List.isPrefixOf_iff_prefix]
    exact prefix_append _ _
  have hends : endsInXlsx (tablePathText table eventId stem) = true := by
    rw [tablePathText_eq, ← append_assoc]
    exact endsInXlsx_append
  have hevents : '/' ∉ eventsFolder := by rw [eventsFolder_eq]; decide
  have hidSlash : '/' ∉ eventId.toList := fun h => absurd (hid _ h) (by decide)
  have hname : '/' ∉ table := by
    rcases htable with rfl | rfl
    · rw [masterTable_eq]; decide
    · rw [publicTable_eq]; decide
  have hslash : '/' ∉ stem := fun h => (hstem.chars _ h).2.1 rfl
  have hend : '/' ∉ xlsxEnding := by rw [xlsxEnding_eq]; decide
  rw [mirroredTableName, hpath, hroot, hgap, hstart, hends]
  simp only [Bool.not_true, Bool.or_self, Bool.false_eq_true, if_false, tablePathText,
    drop_left, flatMap_append, flatMap_cons, flatMap_mirror, hevents, hidSlash, hname, hslash, hend,
    not_false_eq_true, if_true, mirrorText]

theorem any_isForbiddenInName (htable : IsTable table) (hid : ∀ c ∈ eventId.toList, isPlain c)
    (hstem : IsStem stem) :
    (mirrorText table eventId stem).any isForbiddenInName = false ↔ '\x7f' ∉ stem := by
  have hquiet {c : Char} (h : isQuiet c = true) (hslash : c ≠ '/') (hback : c ≠ '\\') :
      isForbiddenInName c = false := by
    simp only [isQuiet, Bool.and_eq_true, decide_eq_true_eq] at h
    have hdel : c ≠ '\x7f' := by
      rintro rfl
      exact absurd h.1.2 (by decide)
    simp [isForbiddenInName, hslash, hback, hdel]
    omega
  have hevents : eventsFolder.any isForbiddenInName = false := by rw [eventsFolder_eq]; decide
  have hgap : mirrorGap.any isForbiddenInName = false := by rw [mirrorGap_eq]; decide
  have hend : xlsxEnding.any isForbiddenInName = false := by rw [xlsxEnding_eq]; decide
  have hname : table.any isForbiddenInName = false := by
    rcases htable with rfl | rfl
    · rw [masterTable_eq]; decide
    · rw [publicTable_eq]; decide
  have huuid : eventId.toList.any isForbiddenInName = false := by
    rw [any_eq_false]
    intro c hc
    have hplain := hid c hc
    have hne (d : Char) (hd : isPlain d = false) : c ≠ d := by
      rintro rfl
      rw [hd] at hplain
      exact absurd hplain (by decide)
    rw [hquiet (isQuiet_of_isPlain hplain) (hne _ (by decide)) (hne _ (by decide))]
    decide
  rw [mirrorText]
  simp only [any_append, hevents, hgap, huuid, hname, hend, Bool.false_or, Bool.or_false]
  rw [any_eq_false]
  constructor
  · intro h hdel
    exact h _ hdel (by decide)
  · intro h c hc hforbidden
    obtain ⟨hback, hslash, hlow⟩ := hstem.chars c hc
    have hdel : c ≠ '\x7f' := by
      rintro rfl
      exact h hc
    simp only [isForbiddenInName, hback, hslash, hdel, decide_false, Bool.false_or, Bool.or_false,
      decide_eq_true_eq] at hforbidden
    omega

theorem utf8Bytes_mirrorText (htable : IsTable table) (hid : isUuid eventId.toList = true) :
    utf8Bytes (mirrorText table eventId stem) = 70 + utf8Bytes stem := by
  have hevents : utf8Bytes eventsFolder = 6 := by rw [eventsFolder_eq]; decide
  have hgap : utf8Bytes mirrorGap = 5 := by rw [mirrorGap_eq]; decide
  have hend : utf8Bytes xlsxEnding = 5 := by rw [xlsxEnding_eq]; decide
  have hname : utf8Bytes table = 13 := by
    rcases htable with rfl | rfl
    · rw [masterTable_eq]; decide
    · rw [publicTable_eq]; decide
  have huuid : utf8Bytes eventId.toList = 36 := by
    have hlength : eventId.toList.length = 36 := by
      simp only [isUuid, Bool.and_eq_true, decide_eq_true_eq] at hid
      exact hid.1
    rw [utf8Bytes_ascii, hlength]
    intro c hc
    have hrange := isPlain_range (isPlain_of_isUuid hid c hc)
    omega
  simp only [mirrorText, utf8Bytes_append, hevents, hgap, hend, hname, huuid]
  omega

/-- The mirror accepts a path if and only if the name of the game brings no U+007F and at most 170
bytes. -/
theorem validMirror_iff (hpath : path.toList = tablePathText table eventId stem)
    (htable : IsTable table) (hid : isUuid eventId.toList = true) (hstem : IsStem stem) :
    validMirror path = true ↔ '\x7f' ∉ stem ∧ utf8Bytes stem ≤ 170 := by
  have hplain := isPlain_of_isUuid hid
  have hallowed : allowedNamePrefixes.any
      (fun start => start.isPrefixOf (mirrorText table eventId stem)) = true := by
    have hfirst : "events — ".toList = eventsFolder ++ mirrorGap := by
      simp [eventsFolder_eq, mirrorGap_eq]
    have hprefix : (eventsFolder ++ mirrorGap).isPrefixOf (mirrorText table eventId stem) = true := by
      rw [ List.isPrefixOf_iff_prefix, mirrorText, ← append_assoc]
      exact prefix_append _ _
    rw [allowedNamePrefixes, any_cons, hfirst, hprefix, Bool.true_or]
  have hends : endsInXlsx (mirrorText table eventId stem) = true := by
    simp only [mirrorText, ← append_assoc]
    exact endsInXlsx_append
  have hbytes := @utf8Bytes_mirrorText eventId stem table htable hid
  have hchars := any_isForbiddenInName htable hplain hstem
  rw [validMirror, mirroredTableName_eq hpath htable hplain hstem]
  simp only [validateXlsxName, hallowed, hends, hbytes, Bool.not_true, Bool.or_self,
    Bool.false_eq_true, if_false]
  rw [← hchars]
  cases (mirrorText table eventId stem).any isForbiddenInName with
  | true => simp [Except.isOk, Except.toBool]
  | false =>
    simp only [Bool.false_eq_true, if_false, true_and]
    split
    · simp [Except.isOk, Except.toBool]; omega
    · simp [Except.isOk, Except.toBool]; omega

/-! ## Which names both gateways accept -/

theorem isStem_fileStem : IsStem (fileStem name) where
  chars := by
    intro c hc
    rcases mem_fileStem hc with rfl | hmark
    · decide
    · exact fileMark_eq_none hmark
  head := fileStem_head
  getLast := fileStem_getLast

theorem isStem_eventSlug : IsStem (eventSlug bot name) where
  chars := by
    intro c hc
    have hplain := isPlain_of_mem_eventSlug hc
    have hrange := isPlain_range hplain
    refine ⟨?_, ?_, by omega⟩
    · rintro rfl
      exact absurd hplain (by decide)
    · rintro rfl
      exact absurd hplain (by decide)
  head := by
    rintro c hc rfl
    exact absurd (isPlain_of_mem_eventSlug (mem_of_mem_head? hc)) (by decide)
  getLast := by
    rintro c hc rfl
    exact absurd (isPlain_of_mem_eventSlug (mem_of_getLast? hc)) (by decide)

/-- A slug passes every check. -/
theorem eventSlug_fits : NoDoubleDot (eventSlug bot name) ∧ '\x7f' ∉ eventSlug bot name ∧
    utf8Bytes (eventSlug bot name) ≤ 170 := by
  refine ⟨noDoubleDot_of_notMem ?_, ?_, ?_⟩
  · intro h
    exact absurd (isPlain_of_mem_eventSlug h) (by decide)
  · intro h
    exact absurd (isPlain_of_mem_eventSlug h) (by decide)
  · have hlength := @length_eventSlug bot name
    rw [utf8Bytes_ascii]
    · omega
    · intro c hc
      have hrange := isPlain_range (isPlain_of_mem_eventSlug hc)
      omega

/-- The text that stands for a game in its paths, and what the gateways' checks say of it. -/
theorem safeTableName_stem : IsStem (safeTableName bot name).toList ∧
    (NoDoubleDot (safeTableName bot name).toList ∧ '\x7f' ∉ (safeTableName bot name).toList ∧
      utf8Bytes (safeTableName bot name).toList ≤ 170 ↔ FitsGateways name) := by
  rw [safeTableName_toList]
  split
  · next hempty =>
    have hnil : fileStem name = [] := isEmpty_iff.1 hempty
    have hfits : FitsGateways name := by
      refine ⟨?_, ?_, ?_⟩ <;> rw [hnil]
      · exact isChain_nil
      · simp
      · simp [utf8Bytes]
    exact ⟨isStem_eventSlug, fun _ => hfits, fun _ => eventSlug_fits⟩
  · refine ⟨isStem_fileStem, fun h => ⟨h.1, h.2.1, h.2.2⟩, fun h => ⟨h.dots, h.deletion, h.bytes⟩⟩

theorem tablePath_accepted_iff (htable : IsTable table) (hid : isUuid eventId.toList = true)
    (hpath : path.toList = tablePathText table eventId (safeTableName bot name).toList) :
    (validDestination path = true ∧ validMirror path = true) ↔ FitsGateways name := by
  obtain ⟨hstem, hfits⟩ := @safeTableName_stem bot name
  have hplain := isPlain_of_isUuid hid
  rw [validDestination_iff hpath htable hplain hstem, validMirror_iff hpath htable hid hstem]
  exact hfits

/-- The uploader and the mirror accept both paths of a game if and only if what is left of its name
has no two dots in a row, no U+007F and at most 170 bytes. -/
theorem fits_gateways_iff (bot : Deployment) (name : String) {eventId : EventId}
    (hid : isUuid eventId.toList = true) :
    (∀ path ∈ [masterTablePath bot eventId name, publicTablePath bot eventId name],
      validDestination path = true ∧ validMirror path = true) ↔ FitsGateways name := by
  rw [forall_mem_cons, forall_mem_singleton,
    tablePath_accepted_iff (.inl rfl) hid masterTablePath_toList,
    tablePath_accepted_iff (.inr rfl) hid publicTablePath_toList, and_self]

section Samples

def pathsBot : Deployment where
  participantKey platform userId eventId := s!"{platform.value}:{userId}:{eventId}"
  uuid5 := id
  casefold := fun value => value.map Char.toLower

def pathsEventId : EventId :=
  "0b0e7c5e-6f0a-4f0e-9c1d-2a3b4c5d6e7f"

/-- The drafts of the samples differ in their names only. -/
def namedDraft (name : String) : GameDraft where
  name := name
  gameDate := ⟨2026, 8, 1⟩
  playerAmount := 10

/-- Ninety letters of two bytes. -/
@[irreducible] def longName : String :=
  String.ofList (replicate 90 'ы')

theorem fits_gateways_plain :
    (validDestination (masterTablePath pathsBot pathsEventId "Ночь. Улица: фонарь?") = true ∧
      validMirror (masterTablePath pathsBot pathsEventId "Ночь. Улица: фонарь?") = true) ∧
    validDestination (publicTablePath pathsBot pathsEventId "Ночь. Улица: фонарь?") = true ∧
      validMirror (publicTablePath pathsBot pathsEventId "Ночь. Улица: фонарь?") = true := by
  have hid : isUuid pathsEventId.toList = true := by decide +kernel
  have hpaths := (fits_gateways_iff pathsBot "Ночь. Улица: фонарь?" hid).2
    ⟨by decide +kernel, by decide +kernel, by decide +kernel⟩
  exact ⟨hpaths _ mem_cons_self, hpaths _ (mem_cons_of_mem _ mem_cons_self)⟩

theorem longName_toList : longName.toList = replicate 90 'ы' := by
  unfold longName
  exact String.toList_ofList

theorem pythonStrip_longName : pythonStrip longName = longName.toList := by
  rw [pythonStrip, longName_toList]
  decide +kernel

/-- The dialogue and `create_event` admit the long name. -/
theorem longName_admitted :
    creationName longName = .ok longName ∧ (namedDraft longName).objection = none := by
  have hstripped : stripped longName = longName := by
    rw [stripped, pythonStrip_longName, String.ofList_toList]
  have hlength : longName.length = 90 := by
    rw [← String.length_toList, longName_toList, length_replicate]
  have hne : longName ≠ "" := by
    intro h
    rw [h] at hlength
    exact absurd hlength (by decide)
  constructor
  · rw [creationName, hstripped, if_neg hne, hlength]
    exact if_neg (by decide)
  · have hname : stripped (namedDraft longName).name ≠ "" := by
      rwa [namedDraft, hstripped]
    rw [GameDraft.objection, if_neg hname]
    decide

/-- Each of the three conditions fails for a name that the dialogue and `create_event` admit. -/
theorem admitted_names_refused :
    isUuid pathsEventId.toList = true ∧
    ∀ name ∈ ["Игра..финал", "Игра\x7fфинал", longName],
      (creationName name = .ok name ∧ (namedDraft name).objection = none) ∧
      ¬∀ path ∈ [masterTablePath pathsBot pathsEventId name,
          publicTablePath pathsBot pathsEventId name],
        validDestination path = true ∧ validMirror path = true := by
  have hid : isUuid pathsEventId.toList = true := by decide +kernel
  have hrefused {name : String} (h : ¬FitsGateways name) :
      ¬∀ path ∈ [masterTablePath pathsBot pathsEventId name,
          publicTablePath pathsBot pathsEventId name],
        validDestination path = true ∧ validMirror path = true := by
    intro hall
    exact h ((tablePath_accepted_iff (.inl rfl) hid masterTablePath_toList).1 (hall _ mem_cons_self))
  refine ⟨hid, ?_⟩
  intro name hname
  simp only [mem_cons, not_mem_nil, or_false] at hname
  rcases hname with rfl | rfl | rfl
  · refine ⟨by decide +kernel, hrefused fun h => ?_⟩
    exact absurd h.dots (by decide +kernel)
  · refine ⟨by decide +kernel, hrefused fun h => ?_⟩
    exact absurd h.deletion (by decide +kernel)
  · refine ⟨longName_admitted, hrefused fun h => ?_⟩
    have hbytes := h.bytes
    rw [fileStem, pythonStrip_longName, longName_toList] at hbytes
    exact absurd hbytes (by decide +kernel)

end Samples

end LarpBot
