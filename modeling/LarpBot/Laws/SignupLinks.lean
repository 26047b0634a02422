import LarpBot.Application.ConversationCore
import LarpBot.Laws.Maintenance
import LarpBot.Laws.QueueMessages
import LarpBot.Laws.TablePaths
import LarpBot.Laws.Texts

/-!
# Signup links

A link to a game opens the bot with a start command that carries the token of the game. The token has
letters, digits and underscores only and fits the parameter of such a command, whatever the game is
called, so the command gives it back as it is (`signup_link_resolves`).
-/

namespace LarpBot

open Atomic List

/-! ## The token -/

section Token

variable {bot : Deployment} {name suffix : String} {gameDate : GameDate} {c : Char} {cs : List Char}

/-- A character of a token. -/
abbrev isTokenCharacter (c : Char) : Bool :=
  isWordCharacter [] c

theorem isParameterCharacter_of_isTokenCharacter (h : isTokenCharacter c = true) :
    isWordCharacter ['-'] c = true := by
  have hletter : c.isAlphanum = true ∨ c = '_' := by
    simpa [isTokenCharacter, isWordCharacter] using h
  rcases hletter with hletter | rfl
  · simp [isWordCharacter, hletter]
  · rfl

theorem isTokenCharacter_of_isAlphanum (h : c.isAlphanum = true) : isTokenCharacter c = true := by
  simp [isTokenCharacter, isWordCharacter, h]

theorem isTokenCharacter_transliteration : ∀ entry ∈ transliteration,
    entry.2.toList.all isTokenCharacter = true ∧
      (capitalized entry.2.toList).all isTokenCharacter = true := by
  decide

theorem isTokenCharacter_of_mem_transliterated {d : Char} (h : d ∈ transliterated bot c) :
    isTokenCharacter d = true := by
  unfold transliterated at h
  cases hlookup : transliteration.lookup (bot.casefold (String.singleton c)) with
  | some replacement =>
    rw [hlookup] at h
    obtain ⟨before, after, htable, -⟩ := lookup_eq_some_iff.mp hlookup
    have hmem : (bot.casefold (String.singleton c), replacement) ∈ transliteration := by
      rw [htable]
      simp
    obtain ⟨hplain, hcapital⟩ := isTokenCharacter_transliteration _ hmem
    dsimp only at h
    split at h
    · exact all_eq_true.mp hcapital d h
    · exact all_eq_true.mp hplain d h
  | none =>
    rw [hlookup] at h
    dsimp only at h
    split at h
    · rename_i hplain
      rw [mem_singleton.mp h]
      exact isTokenCharacter_of_isAlphanum hplain
    · rw [mem_singleton.mp h]
      decide

theorem isTokenCharacter_of_mem_orGame (hcs : ∀ d ∈ cs, isTokenCharacter d = true)
    (h : c ∈ orGame cs) : isTokenCharacter c = true := by
  unfold orGame at h
  split at h
  · have hgame : "game".toList.all isTokenCharacter = true := by decide
    exact all_eq_true.mp hgame c h
  · exact hcs c h

theorem mem_rstripChars {chars : List Char} (h : c ∈ rstripChars chars cs) : c ∈ cs := by
  rw [rstripChars, mem_reverse] at h
  exact mem_reverse.mp (mem_of_mem_dropWhile h)

/-- The name of the game as part of its token. -/
def tokenName (bot : Deployment) (name : String) : List Char :=
  orGame (stripChars ['_'] (replaceRuns (· = '_') ['_'] false
    ((pythonStrip name).flatMap (transliterated bot))))

theorem mem_replaceRuns_self {p : Char → Bool} {replacement : List Char} {inRun : Bool}
    (h : c ∈ replaceRuns p replacement inRun cs) : c ∈ replacement ∨ c ∈ cs := by
  induction cs generalizing inRun with
  | nil => simp [replaceRuns] at h
  | cons d cs ih =>
    rw [replaceRuns] at h
    split at h
    · rcases mem_append.mp h with h | h
      · split at h
        · simp at h
        · exact .inl h
      · exact (ih h).imp_right (mem_cons_of_mem d)
    · rcases mem_cons.mp h with rfl | h
      · exact .inr mem_cons_self
      · exact (ih h).imp_right (mem_cons_of_mem d)

theorem isTokenCharacter_of_mem_tokenName (h : c ∈ tokenName bot name) : isTokenCharacter c = true := by
  apply isTokenCharacter_of_mem_orGame _ h
  intro d hd
  rcases mem_replaceRuns_self (mem_stripChars hd) with hline | hletter
  · rw [mem_singleton.mp hline]
    decide
  · obtain ⟨letter, -, hmem⟩ := mem_flatMap.mp hletter
    exact isTokenCharacter_of_mem_transliterated hmem

/-- The date and the suffix of a token. -/
def tokenTail (gameDate : GameDate) (suffix : String) : String :=
  let date := s!"{twoDigits gameDate.day}_{twoDigits gameDate.month}_{gameDate.year}"
  s!"_{date}_{suffix}"

theorem gameSignupToken_eq (h : isSignupSuffix suffix = true) :
    gameSignupToken bot name gameDate suffix = .ok (String.ofList
      (orGame (rstripChars ['_'] ((tokenName bot name).take
        (maxStartParameterLength - (tokenTail gameDate suffix).toList.length))) ++
        (tokenTail gameDate suffix).toList)) := by
  unfold gameSignupToken
  rw [h]
  rfl

theorem isTokenCharacter_of_mem_repr {n : Nat} (h : c ∈ (toString n).toList) :
    isTokenCharacter c = true := by
  rw [Nat.toString_eq_repr, Nat.toList_repr] at h
  have hdigit : c.isDigit = true := Nat.isDigit_of_mem_toDigits (by decide) (by decide) h
  apply isTokenCharacter_of_isAlphanum
  rw [Char.isAlphanum, hdigit, Bool.or_true]

theorem length_repr_le {n k : Nat} (hk : 0 < k) (h : n < 10 ^ k) : (toString n).toList.length ≤ k := by
  rw [Nat.toString_eq_repr, String.length_toList]
  exact (Nat.length_repr_le_iff hk).mpr h

theorem twoDigits_toList (n : Nat) : (twoDigits n).toList =
    if n < 10 then '0' :: (toString n).toList else (toString n).toList := by
  unfold twoDigits
  split
  · exact String.toList_append
  · rfl

theorem isTokenCharacter_of_mem_twoDigits {n : Nat} (h : c ∈ (twoDigits n).toList) :
    isTokenCharacter c = true := by
  rw [twoDigits_toList] at h
  split at h
  · rcases mem_cons.mp h with rfl | h
    · decide
    · exact isTokenCharacter_of_mem_repr h
  · exact isTokenCharacter_of_mem_repr h

theorem length_twoDigits_le {n : Nat} (h : n < 100) : (twoDigits n).toList.length ≤ 2 := by
  rw [twoDigits_toList]
  split
  · rename_i hn
    exact Nat.succ_le_succ (length_repr_le (k := 1) (by decide) hn)
  · exact length_repr_le (k := 2) (by decide) h

theorem tokenTail_toList (gameDate : GameDate) (suffix : String) : (tokenTail gameDate suffix).toList =
    '_' :: ((twoDigits gameDate.day).toList ++ '_' :: ((twoDigits gameDate.month).toList ++
      '_' :: ((toString gameDate.year).toList ++ '_' :: suffix.toList))) := by
  unfold tokenTail
  simp only [toString, String.toList_append]
  simp

theorem isTokenCharacter_of_mem_tokenTail (hsuffix : isSignupSuffix suffix = true)
    (h : c ∈ (tokenTail gameDate suffix).toList) : isTokenCharacter c = true := by
  have hline : isTokenCharacter '_' = true := by decide
  rw [tokenTail_toList] at h
  simp only [mem_cons, mem_append] at h
  rcases h with rfl | h | rfl | h | rfl | h | rfl | h
  · exact hline
  · exact isTokenCharacter_of_mem_twoDigits h
  · exact hline
  · exact isTokenCharacter_of_mem_twoDigits h
  · exact hline
  · exact isTokenCharacter_of_mem_repr h
  · exact hline
  · have hall := (Bool.and_eq_true_iff.mp hsuffix).2
    exact isTokenCharacter_of_isAlphanum (all_eq_true.mp hall c h)

/-- A real date leaves most of the parameter to the name. -/
theorem length_tokenTail_le (hdate : gameDate.Exists) (hsuffix : isSignupSuffix suffix = true) :
    (tokenTail gameDate suffix).toList.length ≤ 15 := by
  obtain ⟨⟨-, hyear⟩, ⟨-, hmonth⟩, -, hday⟩ := hdate
  have hdays : gameDate.day ≤ 31 := by
    refine hday.trans ?_
    cases Calendar.isLeap gameDate.year <;>
    · unfold Calendar.daysInMonth
      split <;> simp
  have hlength : suffix.length = 3 := of_decide_eq_true (Bool.and_eq_true_iff.mp hsuffix).1
  have hd := length_twoDigits_le (n := gameDate.day) (by omega)
  have hm := length_twoDigits_le (n := gameDate.month) (by omega)
  have hy := length_repr_le (n := gameDate.year) (k := 4) (by decide) (by omega)
  rw [tokenTail_toList]
  simp only [length_cons, length_append, String.length_toList] at hd hm hy ⊢
  omega

/-- A token fits a start command, and its last character is a letter or a digit. -/
structure FitsStart (token : List Char) : Prop where
  short : token.length ≤ maxStartParameterLength
  characters : ∀ c ∈ token, isTokenCharacter c = true
  last : ∃ c, token.getLast? = some c ∧ c.isAlphanum = true

theorem length_orGame_le {most : Nat} (h : cs.length ≤ most) (hmost : 4 ≤ most) :
    (orGame cs).length ≤ most := by
  unfold orGame
  split
  · exact hmost
  · exact h

theorem length_rstripChars_le (chars : List Char) : (rstripChars chars cs).length ≤ cs.length := by
  rw [rstripChars, length_reverse]
  exact (dropWhile_suffix _).length_le.trans_eq length_reverse

theorem fitsStart_gameSignupToken (bot : Deployment) (name : String) (hdate : gameDate.Exists)
    (hsuffix : isSignupSuffix suffix = true) :
    FitsStart (orGame (rstripChars ['_'] ((tokenName bot name).take
      (maxStartParameterLength - (tokenTail gameDate suffix).toList.length))) ++
        (tokenTail gameDate suffix).toList) := by
  have htail := length_tokenTail_le hdate hsuffix
  constructor
  · have hname : (orGame (rstripChars ['_'] ((tokenName bot name).take
        (maxStartParameterLength - (tokenTail gameDate suffix).toList.length)))).length ≤
        maxStartParameterLength - (tokenTail gameDate suffix).toList.length := by
      apply length_orGame_le
      · exact (length_rstripChars_le _).trans (length_take_le _ _)
      · unfold maxStartParameterLength
        omega
    rw [length_append]
    unfold maxStartParameterLength at hname ⊢
    omega
  · intro c hc
    rcases mem_append.mp hc with hname | hend
    · apply isTokenCharacter_of_mem_orGame _ hname
      intro d hd
      exact isTokenCharacter_of_mem_tokenName (mem_of_mem_take (mem_rstripChars hd))
    · exact isTokenCharacter_of_mem_tokenTail hsuffix hend
  · obtain ⟨hlength, hall⟩ := Bool.and_eq_true_iff.mp hsuffix
    have hsome : suffix.toList ≠ [] := by
      intro hnil
      have hzero := congrArg length hnil
      rw [String.length_toList, of_decide_eq_true hlength] at hzero
      exact absurd hzero (by decide)
    refine ⟨suffix.toList.getLast hsome, ?_, all_eq_true.mp hall _ (getLast_mem hsome)⟩
    rw [tokenTail_toList]
    simp [getLast?_append, getLast?_cons, getLast?_eq_some_getLast hsome]

end Token

/-! ## The command -/

section Command

/-- Nothing, or the name of a bot as Telegram puts it behind a command. -/
def IsMention (mention : List Char) : Prop :=
  mention = [] ∨ ∃ username, mention = '@' :: username ∧ isTelegramName (String.ofList username) = true

theorem isTokenCharacter_of_isTelegramName {username : List Char}
    (h : isTelegramName (String.ofList username) = true) :
    ∀ c ∈ username, isTokenCharacter c = true := by
  intro c hc
  have hall := (Bool.and_eq_true_iff.mp h).2
  rw [String.toList_ofList] at hall
  have hletter := all_eq_true.mp hall c hc
  simpa [isTokenCharacter, isWordCharacter] using hletter

theorem isPythonSpace_of_isTokenCharacter {c : Char} (h : isTokenCharacter c = true) :
    isPythonSpace c = false := by
  apply isPythonSpace_of_isPlainCharacter
  simp only [isTokenCharacter, isPlainCharacter, isWordCharacter] at h ⊢
  simp_all

/-- A start command gives back the token that it carries. -/
theorem startCommandOf_token {text : String} {message : InboundMessage} {mention token : List Char}
    (hplatform : message.identity.platform ≠ .vk) (hmention : IsMention mention) (htoken : FitsStart token)
    (htext : text.toList = "/start".toList ++ (mention ++ ' ' :: token)) :
    startCommandOf text message = (true, some (String.ofList token)) := by
  have hsome : token ≠ [] := by
    intro hnil
    obtain ⟨c, hc, -⟩ := htoken.last
    rw [hnil] at hc
    exact absurd hc.symm (Option.some_ne_none c)
  have hplain : token.any isPythonSpace = false := by
    rw [any_eq_false]
    intro c hc
    rw [isPythonSpace_of_isTokenCharacter (htoken.characters c hc)]
    exact Bool.false_ne_true
  have htail : startTail (' ' :: token) = some (some token) := by
    rw [startTail, if_pos]
    simp [hplain, hsome]
  have hparameter : (token.length ≤ 64 && token.all (isWordCharacter ['-'])) = true := by
    rw [Bool.and_eq_true, decide_eq_true_eq, all_eq_true]
    exact ⟨htoken.short, fun c hc => isParameterCharacter_of_isTokenCharacter (htoken.characters c hc)⟩
  have hrest : (afterPrefix "/start" text).map String.toList = some (mention ++ ' ' :: token) := by
    rw [afterPrefix_append htext, Option.map_some, String.toList_ofList]
  unfold startCommandOf
  rw [if_neg hplatform, hrest]
  dsimp only
  rcases hmention with rfl | ⟨username, rfl, husername⟩
  · rw [nil_append, head?_cons, if_neg (by simp), htail]
    dsimp only
    rw [hparameter]
    rfl
  · have hname : (username ++ ' ' :: token).takeWhile (isWordCharacter []) = username := by
      rw [takeWhile_append_of_pos (isTokenCharacter_of_isTelegramName husername)]
      simp [show isWordCharacter [] ' ' = false from rfl]
    have hdrop : (('@' :: username) ++ ' ' :: token).drop (username.length + 1) = ' ' :: token := by
      rw [cons_append, drop_succ_cons, drop_left]
    rw [cons_append, head?_cons, drop_succ_cons, drop_zero, hname, husername, if_pos (by simp),
      ← cons_append, hdrop, htail]
    dsimp only
    rw [hparameter]
    rfl

end Command

/-- Whatever a game is called, the token of its signup link fits a start command, and the bot reads the
token back from the command, with white space around it and with the mention of a bot. -/
theorem signup_link_resolves (bot : Deployment) (name : String) (gameDate : GameDate) (suffix : String)
    (hdate : gameDate.Exists) (hsuffix : isSignupSuffix suffix = true) :
    ∃ token, gameSignupToken bot name gameDate suffix = .ok token ∧
      token.length ≤ maxStartParameterLength ∧ token.toList.all (isWordCharacter ['-']) = true ∧
      ∀ (message : InboundMessage) (before mention after : String),
        message.identity.platform ≠ .vk → message.callback.getD "" = "" →
        (∀ c ∈ before.toList, isPythonSpace c = true) → (∀ c ∈ after.toList, isPythonSpace c = true) →
        IsMention mention.toList →
        message.text = before ++ "/start" ++ mention ++ " " ++ token ++ after →
        startCommandOf message.value message = (true, some token) := by
  have hfits := fitsStart_gameSignupToken bot name hdate hsuffix
  generalize hchars : orGame (rstripChars ['_'] ((tokenName bot name).take
    (maxStartParameterLength - (tokenTail gameDate suffix).toList.length))) ++
      (tokenTail gameDate suffix).toList = chars at hfits
  refine ⟨String.ofList chars, ?_, ?_, ?_, ?_⟩
  · rw [gameSignupToken_eq hsuffix, hchars]
  · rw [String.length_ofList]
    exact hfits.short
  · rw [String.toList_ofList, all_eq_true]
    intro c hc
    exact isParameterCharacter_of_isTokenCharacter (hfits.characters c hc)
  · intro message before mention after hplatform hcallback hbefore hafter hmention htext
    apply startCommandOf_token hplatform hmention hfits
    have hvalue : message.value = String.ofList (pythonStrip message.text) := by
      unfold InboundMessage.value
      cases hcall : message.callback with
      | none => rfl
      | some callback =>
        rw [hcall, Option.getD_some] at hcallback
        rw [hcallback]
        rfl
    have hchars : message.text.toList =
        before.toList ++ (("/start".toList ++ (mention.toList ++ ' ' :: chars)) ++ after.toList) := by
      rw [htext]
      simp [String.toList_append]
    obtain ⟨c, hlast, hc⟩ := hfits.last
    rw [hvalue, String.toList_ofList]
    apply pythonStrip_around hchars hbefore hafter
    · rfl
    · have hback : ("/start".toList ++ (mention.toList ++ ' ' :: chars)).getLast? = some c := by
        simp [getLast?_append, getLast?_cons, hlast]
      rw [hback]
      have hletter := isPythonSpace_of_isTokenCharacter (isTokenCharacter_of_isAlphanum hc)
      simp [hletter]

theorem signup_link_resolves_misty : ∃ token,
    gameSignupToken sampleBot "ёжик в тумане!" ⟨2026, 11, 14⟩ "A7z" = .ok token ∧
      token.length ≤ maxStartParameterLength ∧ token.toList.all (isWordCharacter ['-']) = true ∧
      ∀ (message : InboundMessage) (before mention after : String),
        message.identity.platform ≠ .vk → message.callback.getD "" = "" →
        (∀ c ∈ before.toList, isPythonSpace c = true) → (∀ c ∈ after.toList, isPythonSpace c = true) →
        IsMention mention.toList →
        message.text = before ++ "/start" ++ mention ++ " " ++ token ++ after →
        startCommandOf message.value message = (true, some token) :=
  signup_link_resolves sampleBot "ёжик в тумане!" ⟨2026, 11, 14⟩ "A7z" (by decide) (by decide)

end LarpBot
