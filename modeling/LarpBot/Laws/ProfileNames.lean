import LarpBot.Application.ProfileFields
import LarpBot.Laws.LinkForms
import LarpBot.Laws.QueueMessages

/-!
# What a profile keeps of its fields

Each validator of a profile field takes a message and leaves a text that the models of the profile take
too: the parts of a full name are names of a pass, and the surname and the name of it, which the profile
keeps, are read back as these two words. Nicknames, phones, emails and contacts are taken again.
-/

namespace LarpBot

open List

/-! ## Words -/

section Words

variable {word current rest : List Char}

/-- The word being read goes on while there is no white space. -/
theorem splitWords_word (hword : ∀ c ∈ word, isPythonSpace c = false) :
    splitWords (word ++ rest) current = splitWords rest (word.reverse ++ current) := by
  induction word generalizing current with
  | nil => rfl
  | cons c word ih =>
    have hc : isPythonSpace c = false := hword c mem_cons_self
    rw [cons_append, splitWords, hc, if_neg Bool.false_ne_true,
      ih fun d hd => hword d (mem_cons_of_mem c hd), reverse_cons, append_assoc]
    rfl

theorem splitWords_end (hcurrent : current ≠ []) : splitWords [] current = [current.reverse] := by
  cases current with
  | nil => exact absurd rfl hcurrent
  | cons c current => rfl

theorem splitWords_space (hcurrent : current ≠ []) :
    splitWords (' ' :: rest) current = current.reverse :: splitWords rest [] := by
  have hspace : isPythonSpace ' ' = true := rfl
  rw [splitWords, hspace, if_pos rfl, if_neg]
  simpa using hcurrent

/-- Two words with a space between them are split into these words. -/
theorem pythonSplit_pair {first second : String} (hfirst : ∀ c ∈ first.toList, isPythonSpace c = false)
    (hsecond : ∀ c ∈ second.toList, isPythonSpace c = false) (hsome : first ≠ "") (hsome' : second ≠ "") :
    pythonSplit (first ++ " " ++ second) = [first, second] := by
  have htext : (first ++ " " ++ second).toList = first.toList ++ ' ' :: (second.toList ++ []) := by
    simp
  have hwords : splitWords (first.toList ++ ' ' :: (second.toList ++ [])) [] =
      [first.toList, second.toList] := by
    rw [splitWords_word hfirst, splitWords_space (by simpa using hsome), splitWords_word hsecond,
      splitWords_end (by simpa using hsome')]
    simp
  rw [pythonSplit, htext, hwords]
  simp

end Words

/-! ## Names -/

section Names

variable {alphabet : Alphabet} {cs : List Char} {value : String}

theorem letter_of_isPythonSpace {c : Char} (h : isPythonSpace c = true) : alphabet.letter c = false := by
  rcases Bool.or_eq_true_iff.mp h with hplain | hother
  · simp only [Char.isWhitespace, Bool.or_eq_true, decide_eq_true_eq] at hplain
    rcases hplain with ((rfl | rfl) | rfl) | rfl <;> cases alphabet <;> decide
  · have hall (hlist : all _ (fun d => !alphabet.letter d) = true) :=
      all_eq_true.mp hlist c (of_decide_eq_true hother)
    simpa using hall (by cases alphabet <;> decide)

theorem isPythonSpace_of_letter {c : Char} (h : alphabet.letter c = true) : isPythonSpace c = false := by
  by_contra hspace
  rw [letter_of_isPythonSpace ((Bool.not_eq_false _).mp hspace)] at h
  exact absurd h Bool.false_ne_true

theorem isPythonSpace_of_joint {c : Char} (h : alphabet.joint c = true) : isPythonSpace c = false := by
  cases alphabet with
  | cyrillic =>
    rw [of_decide_eq_true h]
    rfl
  | latin =>
    rcases Bool.or_eq_true_iff.mp h with hc | hc <;>
    · rw [of_decide_eq_true hc]
      rfl

/-- A part of a full name has no white space in it. -/
theorem isPythonSpace_of_isNamePart {afterLetter : Bool} (h : isNamePart alphabet afterLetter cs = true) :
    ∀ c ∈ cs, isPythonSpace c = false := by
  induction cs generalizing afterLetter with
  | nil => exact fun c hc => absurd hc not_mem_nil
  | cons c cs ih =>
    rw [isNamePart] at h
    split at h
    · next hletter => exact forall_mem_cons.mpr ⟨isPythonSpace_of_letter hletter, ih h⟩
    · simp only [Bool.and_eq_true] at h
      exact forall_mem_cons.mpr ⟨isPythonSpace_of_joint h.1.2, ih h.2⟩

/-- The characters that a name of a pass may have. -/
def isInner (alphabet : Alphabet) (c : Char) : Bool :=
  alphabet.letter c || c = ' ' || c = '-' || (alphabet = .latin && c = '\'')

theorem isInner_of_isNamePart {afterLetter : Bool} (h : isNamePart alphabet afterLetter cs = true) :
    cs.all (isInner alphabet) = true := by
  induction cs generalizing afterLetter with
  | nil => rfl
  | cons c cs ih =>
    rw [isNamePart] at h
    rw [all_cons, Bool.and_eq_true]
    split at h
    · next hletter =>
      refine ⟨?_, ih h⟩
      rw [isInner, hletter, Bool.true_or]
      rfl
    · simp only [Bool.and_eq_true] at h
      refine ⟨?_, ih h.2⟩
      have hjoint := h.1.2
      cases alphabet with
      | cyrillic =>
        rw [of_decide_eq_true hjoint]
        rfl
      | latin =>
        rcases Bool.or_eq_true_iff.mp hjoint with hc | hc <;>
        · rw [of_decide_eq_true hc]
          rfl

/-- It ends with a letter, if there is anything after the start. -/
theorem getLast_of_isNamePart {afterLetter : Bool} (h : isNamePart alphabet afterLetter cs = true)
    (hsome : cs ≠ []) : cs.getLast?.any alphabet.letter = true := by
  induction cs generalizing afterLetter with
  | nil => exact absurd rfl hsome
  | cons c cs ih =>
    rw [isNamePart] at h
    cases cs with
    | nil =>
      split at h
      · next hletter => exact hletter
      · simp only [isNamePart, Bool.and_false] at h
        exact absurd h Bool.false_ne_true
    | cons d cs =>
      rw [getLast?_cons_cons]
      split at h
      · exact ih h (cons_ne_nil d cs)
      · simp only [Bool.and_eq_true] at h
        exact ih h.2 (cons_ne_nil d cs)

/-- A part of a full name is a name of a pass. -/
theorem isPassName_of_isNamePart (h : isNamePart alphabet false cs = true) (hlength : cs.length ≤ 100) :
    isPassName alphabet cs = true := by
  have hsome : cs ≠ [] := by
    rintro rfl
    exact absurd h Bool.false_ne_true
  have hhead : cs.head?.any alphabet.letter = true := by
    cases cs with
    | nil => exact absurd rfl hsome
    | cons c cs =>
      rw [isNamePart] at h
      split at h
      · next hletter => exact hletter
      · exact absurd h Bool.false_ne_true
  unfold isPassName
  simp only [Bool.and_eq_true, decide_eq_true_eq]
  exact ⟨⟨⟨hlength, hhead⟩, getLast_of_isNamePart h hsome⟩, isInner_of_isNamePart h⟩

/-- A word that is a name of a pass. -/
structure IsWord (alphabet : Alphabet) (word : String) : Prop where
  name : isPassName alphabet word.toList = true
  plain : ∀ c ∈ word.toList, isPythonSpace c = false

theorem IsWord.ne_empty {word : String} (h : IsWord alphabet word) : word ≠ "" := by
  rintro rfl
  have hname := h.name
  unfold isPassName at hname
  simp at hname

/-- What the profile keeps of a full name: the surname and the name. -/
structure IsFullName (fullName surname name : String) : Prop where
  first : IsWord .cyrillic surname
  second : IsWord .cyrillic name
  split : pythonSplit fullName = [surname, name]
  length : 2 ≤ fullName.length ∧ fullName.length ≤ 300

theorem parseFullName_parts {parts : String × String × Option String}
    (h : parseFullName value alphabet = some parts) :
    IsWord alphabet parts.1 ∧ IsWord alphabet parts.2.1 ∧
      (∀ patronym, parts.2.2 = some patronym → IsWord alphabet patronym) ∧
      pythonSplit value = [parts.1, parts.2.1] ++ parts.2.2.toList ∧
      (" ".intercalate (pythonSplit value)).length ≤ 300 := by
  unfold parseFullName at h
  dsimp only at h
  split at h
  · exact nomatch h
  · next haccepted =>
    simp only [Bool.or_eq_true, decide_eq_true_eq, not_or, any_eq_true, not_exists, not_and,
      Bool.not_eq_true', Bool.not_eq_false, not_lt] at haccepted
    obtain ⟨hlength, hparts⟩ := haccepted
    have hword (part : String) (hpart : part ∈ pythonSplit value) : IsWord alphabet part := by
      obtain ⟨hshort, hname⟩ := hparts part hpart
      exact ⟨isPassName_of_isNamePart hname hshort, isPythonSpace_of_isNamePart hname⟩
    split at h
    · next surname name hsplit =>
      obtain rfl := Option.some.inj h
      rw [hsplit] at hword hlength ⊢
      exact ⟨hword _ (by simp), hword _ (by simp), fun _ h => (nomatch h), rfl, hlength⟩
    · next surname name patronym hsplit =>
      obtain rfl := Option.some.inj h
      rw [hsplit] at hword hlength ⊢
      refine ⟨hword _ (by simp), hword _ (by simp), ?_, rfl, hlength⟩
      rintro _ ⟨⟩
      exact hword _ (by simp)
    · exact nomatch h

/-- The surname and the name of a full name are what the profile keeps of it. -/
theorem isFullName_of_parse {parts : String × String × Option String}
    (h : parseFullName value .cyrillic = some parts) :
    IsFullName (surnameAndName value) parts.1 parts.2.1 := by
  obtain ⟨hsurname, hgiven, hpatronym, hsplit, hlength⟩ := parseFullName_parts h
  have hname : surnameAndName value = parts.1 ++ " " ++ parts.2.1 := by
    rw [surnameAndName, hsplit]
    simp [String.intercalate_cons_cons]
  have hpair : (parts.1 ++ " " ++ parts.2.1).length ≤ (" ".intercalate (pythonSplit value)).length := by
    rw [hsplit]
    cases parts.2.2 with
    | none => simp [String.intercalate_cons_cons]
    | some patronym =>
      simp [String.intercalate_cons_cons]
      omega
  rw [hname]
  refine ⟨hsurname, hgiven, pythonSplit_pair hsurname.plain hgiven.plain hsurname.ne_empty hgiven.ne_empty,
    ?_, hpair.trans hlength⟩
  have hfirst : parts.1.length ≠ 0 := fun hzero => hsurname.ne_empty (String.length_eq_zero_iff.mp hzero)
  rw [String.length_append, String.length_append]
  have hspace : " ".length = 1 := rfl
  omega

end Names

/-! ## Fields -/

section Fields

variable {bot : Deployment} {value stored : String}

theorem strip_idempotent (p : Char → Bool) (cs : List Char) :
    (((((cs.dropWhile p).reverse.dropWhile p).reverse).dropWhile p).reverse.dropWhile p).reverse =
      ((cs.dropWhile p).reverse.dropWhile p).reverse := by
  have hnormal := congrArg String.toList (stripBy_stripBy p (String.ofList cs))
  simpa only [stripBy, String.toList_ofList, rdropWhile] using hnormal

theorem normalizeNickname_normal (h : normalizeNickname value = some stored) :
    normalizeNickname stored = some stored := by
  unfold normalizeNickname at h
  dsimp only at h
  split at h
  · exact nomatch h
  · next haccepted =>
    obtain rfl := Option.some.inj h
    unfold normalizeNickname
    rw [String.toList_ofList, strip_idempotent]
    exact if_neg haccepted

theorem pythonStrip_normal (value : String) :
    pythonStrip (String.ofList (pythonStrip value)) = pythonStrip value := by
  unfold pythonStrip
  rw [String.toList_ofList, strip_idempotent]

theorem normalizeMobilePhone_normal (h : normalizeMobilePhone value = some stored) :
    normalizeMobilePhone stored = some stored := by
  unfold normalizeMobilePhone at h
  obtain ⟨haccepted, hstored⟩ := Option.ite_none_right_eq_some.mp h
  obtain rfl := Option.some.inj hstored
  unfold normalizeMobilePhone
  rw [pythonStrip_normal]
  exact if_pos haccepted

theorem isPassEmail_of_validate (h : validatePassEmail value = some stored) :
    isPassEmail stored.toList = true := by
  unfold validatePassEmail at h
  dsimp only at h
  split at h
  · next haccepted =>
    obtain rfl := Option.some.inj h
    rwa [String.toList_ofList]
  · exact nomatch h

theorem normalizeVkUrl_normal (hfold : FoldsCase bot.casefold) (h : normalizeVkUrl bot value = .ok stored) :
    normalizeVkUrl bot stored = .ok stored := by
  obtain ⟨url, -, hpath, rfl⟩ := isLink_of_normalizeVkUrl h
  exact vkUrl_again hfold (isVkPath_iff.mp hpath).2

theorem normalizeHandle_normal (hfold : FoldsCase bot.casefold) {handle : Option String}
    (h : normalizeVkTelegramContact bot value = handle) : normalizeTelegramHandle bot handle = .ok handle := by
  cases handle with
  | none => rfl
  | some handle =>
    suffices IsHandle bot handle from this.again
    unfold normalizeVkTelegramContact at h
    split at h
    · next hprofile => exact isHandle_of_profile hfold (Option.some.inj h ▸ hprofile)
    · split at h
      · next hread => exact isHandle_of_normalize hfold (h ▸ hread)
      · exact nomatch h

end Fields

end LarpBot
