import LarpBot.Application.ProfileFields
import LarpBot.Laws.QueueMessages
import LarpBot.Laws.Texts

/-!
# The forms of links

The link normalisers are run again on what they have stored, each time that a row is loaded. What one of
them makes of a text it makes of its own result too (`vkUrl_again`, `IsHandle.again`, `IsHandle.profile_again`,
`telegramPost_again`, `vkPost_again`).

A normaliser splits a text into the parts of a link and accepts it by them. The parts say how the text was
written (`Parts`), and a stored link is plain: it is read as it is written (`splitHttps_https`).
-/

namespace LarpBot

open List

/-! ## Reading a link -/

section Reading

variable {bot : Deployment} {text : List Char} {url : SplitUrl}

/-- The characters that `urlsplit` keeps. -/
def isKept (c : Char) : Bool :=
  c ∉ ['\t', '\r', '\n']

theorem rdropWhile_split {p : Char → Bool} {c : Char} {back : List Char} (front : List Char) (h : p c = false) :
    (front ++ c :: back).rdropWhile p = front ++ c :: back.rdropWhile p := by
  induction back using List.reverseRecOn with
  | nil => rw [rdropWhile_concat_neg _ _ _ (by simp [h]), rdropWhile_nil]
  | append_singleton back d ih =>
    rw [show front ++ c :: (back ++ [d]) = (front ++ c :: back) ++ [d] by simp]
    by_cases hd : p d = true
    · rw [rdropWhile_concat_pos _ _ _ hd, rdropWhile_concat_pos _ _ _ hd, ih]
    · rw [rdropWhile_concat_neg _ _ _ hd, rdropWhile_concat_neg _ _ _ hd]
      simp

theorem drop_takeWhile (p : Char → Bool) (text : List Char) :
    text.drop (text.takeWhile p).length = text.dropWhile p := by
  have hdrop : (text.takeWhile p ++ text.dropWhile p).drop (text.takeWhile p).length = text.dropWhile p :=
    drop_left
  rwa [takeWhile_append_dropWhile] at hdrop

theorem not_of_dropWhile_eq_cons {p : Char → Bool} {c : Char} {rest : List Char}
    (h : text.dropWhile p = c :: rest) : p c = false := by
  have hc := head_dropWhile_not p (l := text) (by rw [h]; exact cons_ne_nil c rest)
  simpa only [h, head_cons] using hc

theorem dropWhile_eq_nil_or {c : Char} (text : List Char) (h : (text.dropWhile (· ≠ c)).length ≤ 1) :
    text.dropWhile (· ≠ c) = [] ∨ text.dropWhile (· ≠ c) = [c] := by
  cases hrest : text.dropWhile (· ≠ c) with
  | nil => exact .inl rfl
  | cons d rest =>
    rw [hrest] at h
    have hnil : rest = [] := length_eq_zero_iff.mp (by rw [length_cons] at h; omega)
    have hd := not_of_dropWhile_eq_cons hrest
    rw [decide_eq_false_iff_not, not_not] at hd
    exact .inr (by rw [hd, hnil])

/-- The signs of an empty query and of an empty fragment. -/
def IsMarks (marks : List Char) : Prop :=
  marks = [] ∨ marks = ['?'] ∨ marks = ['#'] ∨ marks = ['?', '#']

/-- The parts of a text that `urlsplit` has read, with a host. -/
structure Parts (text : List Char) (url : SplitUrl) (lead scheme marks : List Char) : Prop where
  whole : text = lead ++ (scheme ++ ':' :: '/' :: '/' :: (url.netloc ++ (url.path ++ marks)))
  lead_control : ∀ c ∈ lead, c.toNat ≤ 0x20
  scheme_lower : asciiLower scheme = url.scheme
  netloc_plain : ∀ c ∈ url.netloc, c ∉ ['/', '?', '#']
  path_plain : ∀ c ∈ url.path, c ≠ '?' ∧ c ≠ '#'
  path_rooted : url.path = [] ∨ ∃ rest, url.path = '/' :: rest
  marks_empty : url.bare = true → IsMarks marks

theorem parts_of_urlsplit (h : urlsplit text = some url) (hnetloc : url.netloc ≠ []) :
    ∃ lead scheme marks, Parts text url lead scheme marks := by
  simp only [urlsplit, cutAt] at h
  generalize hu : text.dropWhile (fun c => decide (c.toNat ≤ 0x20)) = u at h
  have hlead := takeWhile_append_dropWhile (p := fun c => decide (c.toNat ≤ 0x20)) (l := text)
  rw [hu] at hlead
  obtain ⟨hscheme, h⟩ := Option.ite_none_right_eq_some.mp h
  rw [Bool.and_eq_true, Bool.and_eq_true] at hscheme
  have hcolon : ':' ∈ u := by simpa using hscheme.1.1
  have hsplit := takeWhile_append_dropWhile (p := fun c => !decide (c = ':')) (l := u)
  obtain ⟨rest, hrest⟩ : ∃ rest, u.dropWhile (fun c => !decide (c = ':')) = ':' :: rest := by
    cases hdrop : u.dropWhile (fun c => !decide (c = ':')) with
    | nil =>
      have hall := dropWhile_eq_nil_iff.mp hdrop ':' hcolon
      exact absurd hall (by decide)
    | cons d rest =>
      have hd := not_of_dropWhile_eq_cons hdrop
      rw [Bool.not_eq_false', decide_eq_true_eq] at hd
      exact ⟨rest, by rw [hd]⟩
  rw [hrest] at hsplit
  simp only [hrest, drop_succ_cons, drop_zero] at h
  by_cases hslashes : ['/', '/'].isPrefixOf rest = true
  · obtain ⟨authority, rfl⟩ := isPrefixOf_iff_prefix.mp hslashes
    simp only [hslashes, if_true] at h
    simp only [cons_append, nil_append, drop_succ_cons, drop_zero, drop_takeWhile] at h
    have htail := takeWhile_append_dropWhile (p := fun c => decide (c ∉ ['/', '?', '#'])) (l := authority)
    generalize hrooted : authority.dropWhile (fun c => decide (c ∉ ['/', '?', '#'])) = tail at h htail
    have hfragment := takeWhile_append_dropWhile (p := fun c => decide (c ≠ '#')) (l := tail)
    have hquery := takeWhile_append_dropWhile (p := fun c => decide (c ≠ '?'))
      (l := tail.takeWhile fun c => decide (c ≠ '#'))
    obtain rfl := Option.some.inj h
    refine ⟨text.takeWhile fun c => decide (c.toNat ≤ 0x20), _,
      (tail.takeWhile fun c => decide (c ≠ '#')).dropWhile (fun c => decide (c ≠ '?')) ++
        tail.dropWhile fun c => decide (c ≠ '#'),
      ?_, fun c hc => ?_, rfl, fun c hc => ?_, fun c hc => ?_, ?_, ?_⟩
    · dsimp only
      rw [← append_assoc (takeWhile (fun c => decide (c ≠ '?')) _), hquery, hfragment, htail]
      exact (hlead.symm.trans (congrArg _ hsplit.symm))
    · simpa using mem_takeWhile_imp hc
    · simpa using mem_takeWhile_imp hc
    · have hquestion := mem_takeWhile_imp hc
      have hhash := mem_takeWhile_imp (( takeWhile_prefix _).mem hc)
      exact ⟨by simpa using hquestion, by simpa using hhash⟩
    · -- the tail begins with one of the three signs
      cases htailed : tail with
      | nil => exact .inl rfl
      | cons d rest =>
        have hd := not_of_dropWhile_eq_cons (hrooted.trans htailed)
        simp only [decide_eq_false_iff_not, not_not, mem_cons, not_mem_nil, or_false] at hd
        rcases hd with rfl | rfl | rfl
        · exact .inr ⟨_, rfl⟩
        · exact .inl rfl
        · exact .inl rfl
    · intro hbare
      rw [Bool.and_eq_true, decide_eq_true_eq, decide_eq_true_eq] at hbare
      rcases dropWhile_eq_nil_or _ hbare.1 with hquestion | hquestion <;>
        rcases dropWhile_eq_nil_or _ hbare.2 with hhash | hhash <;>
        rw [hquestion, hhash] <;> simp [IsMarks]
  · simp only [hslashes, if_false, Bool.false_eq_true] at h
    obtain rfl := Option.some.inj h
    exact absurd rfl hnetloc

/-- A plain link is read as it is written. -/
theorem urlsplit_https {host rest : List Char} (hhost : ∀ c ∈ host, c ∉ ['/', '?', '#'])
    (hrest : ∀ c ∈ rest, c ≠ '?' ∧ c ≠ '#') :
    urlsplit ("https://".toList ++ (host ++ '/' :: rest)) =
      some ⟨"https".toList, host, '/' :: rest, true⟩ := by
  have hnetloc : (host ++ '/' :: rest).takeWhile (fun c => decide (c ∉ ['/', '?', '#'])) = host := by
    rw [takeWhile_append_of_pos fun c hc => decide_eq_true (hhost c hc), takeWhile_cons_of_neg (by simp),
      append_nil]
  have hfragment : ('/' :: rest).takeWhile (fun c => decide (c ≠ '#')) = '/' :: rest :=
    takeWhile_eq_self_iff.mpr (by simpa using fun c hc => (hrest c hc).2)
  have hquery : ('/' :: rest).takeWhile (fun c => decide (c ≠ '?')) = '/' :: rest :=
    takeWhile_eq_self_iff.mpr (by simpa using fun c hc => (hrest c hc).1)
  have hcut : cutAt (fun c => decide (c = ':')) ("https://".toList ++ (host ++ '/' :: rest)) =
      ("https".toList, '/' :: '/' :: (host ++ '/' :: rest)) := rfl
  have hstart : ("https://".toList ++ (host ++ '/' :: rest)).dropWhile (fun c => decide (c.toNat ≤ 0x20)) =
      "https://".toList ++ (host ++ '/' :: rest) := rfl
  have hslashes : ['/', '/'].isPrefixOf ('/' :: '/' :: (host ++ '/' :: rest)) = true := rfl
  have hcond : (("https://".toList ++ (host ++ '/' :: rest)).contains ':' &&
      ("https".toList.head?.any fun c => c.isAlpha) &&
      "https".toList.all fun c => c.isAlphanum || decide (c ∈ ['+', '-', '.'])) = true := rfl
  unfold urlsplit
  simp only [hstart, hcut, hcond, hslashes, if_true, drop_succ_cons, drop_zero, hnetloc, drop_left, hfragment, hquery,
    drop_length, length_nil]
  rfl

theorem hasScheme_https (text : List Char) : hasScheme ("https://".toList ++ text) = true := rfl

/-- A character of a host as the normalisers write it. -/
def isHostCharacter (c : Char) : Bool :=
  isKept c && c ∉ ['/', '?', '#'] && c ∉ ['[', ']'] && c.toNat < 128

/-- A plain link is read as it is written, by a normaliser too. -/
theorem splitHttps_https (bot : Deployment) {host rest : List Char} (hhost : host.all isHostCharacter = true)
    (hrest : ∀ c ∈ rest, c ≠ '?' ∧ c ≠ '#' ∧ isKept c = true) :
    splitHttps bot ("https://".toList ++ (host ++ '/' :: rest)) =
      some ⟨"https".toList, host, '/' :: rest, true⟩ := by
  have hchars : ∀ c ∈ host, ((isKept c = true ∧ c ∉ ['/', '?', '#']) ∧ c ∉ ['[', ']']) ∧ c.toNat < 128 := by
    intro c hc
    have hchar := all_eq_true.mp hhost c hc
    simpa only [isHostCharacter, Bool.and_eq_true, decide_eq_true_eq] using hchar
  have hkept : ("https://".toList ++ (host ++ '/' :: rest)).filter isKept =
      "https://".toList ++ (host ++ '/' :: rest) := by
    rw [filter_eq_self]
    intro c hc
    rcases mem_append.mp hc with hc | hc
    · have hall : "https://".toList.all isKept = true := by decide
      exact all_eq_true.mp hall c hc
    · rcases mem_append.mp hc with hc | hc
      · exact (hchars c hc).1.1.1
      · rcases mem_cons.mp hc with rfl | hc
        · rfl
        · exact (hrest c hc).2.2
  have hread := urlsplit_https (fun c hc => (hchars c hc).1.1.2) fun c hc => ⟨(hrest c hc).1, (hrest c hc).2.1⟩
  unfold splitHttps
  have hwith : withHttps ("https://".toList ++ (host ++ '/' :: rest)) =
      "https://".toList ++ (host ++ '/' :: rest) := by
    rw [withHttps, hasScheme_https, if_pos rfl]
    exact hkept
  have hnone (c : Char) (hc : c ∈ ['[', ']']) : host.contains c = false :=
    Bool.eq_false_iff.mpr fun hin => (hchars c (List.contains_iff_mem.mp hin)).1.2 hc
  have hascii : (host.all fun c => c.toNat < 128 && c ≠ '[') = true := by
    refine all_eq_true.mpr fun c hc => ?_
    have hchar := hchars c hc
    rw [Bool.and_eq_true]
    exact ⟨decide_eq_true hchar.2, decide_eq_true fun heq => hchar.1.2 (heq ▸ mem_cons_self)⟩
  rw [hwith, hread]
  apply Option.filter_eq_some_iff.mpr
  refine ⟨rfl, ?_⟩
  rw [Bool.and_eq_true, all_eq_true]
  refine ⟨fun c hc => decide_eq_true (hchars c hc).1.2, ?_⟩
  rw [authorityRefusal, hnone '[' mem_cons_self, hnone ']' (mem_cons_of_mem _ mem_cons_self),
    if_neg (not_not.mpr rfl),
    if_pos hascii]
  rfl

end Reading

/-! ## Folding -/

/-- What is documented of `str.casefold`: every character is folded on its own, the capitals of ASCII to
small letters and the rest of ASCII to itself, and what is folded is folded. -/
structure FoldsCase (casefold : String → String) : Prop where
  each : ∀ text rest, casefold (text ++ rest) = casefold text ++ casefold rest
  ascii : ∀ c : Char, c.toNat < 128 → casefold (String.singleton c) = String.singleton c.toLower
  again : ∀ text, casefold (casefold text) = casefold text

namespace FoldsCase

variable {casefold : String → String} (h : FoldsCase casefold) {cs : List Char} {text : String}
include h

theorem empty : casefold "" = "" := by
  have hlength := congrArg String.length (h.each "" "")
  rw [String.length_append] at hlength
  rw [← String.length_eq_zero_iff]
  change (casefold "").length = _ at hlength
  omega

theorem ofList (hcs : ∀ c ∈ cs, c.toNat < 128) :
    casefold (String.ofList cs) = String.ofList (asciiLower cs) := by
  induction cs with
  | nil => exact h.empty
  | cons c cs ih =>
    have hcons (d : Char) (ds : List Char) :
        String.ofList (d :: ds) = String.singleton d ++ String.ofList ds := by
      apply String.toList_inj.mp
      simp
    rw [hcons, h.each, h.ascii c (hcs c mem_cons_self), ih fun d hd => hcs d (mem_cons_of_mem c hd)]
    exact (hcons c.toLower (asciiLower cs)).symm

/-- A text of small letters stays as it is. -/
theorem literal (htext : text.toList.all (fun c => decide (c.toNat < 128) && c.toLower = c) = true) :
    casefold text = text := by
  have hall : ∀ c ∈ text.toList, c.toNat < 128 ∧ c.toLower = c := by
    intro c hc
    have hchar := all_eq_true.mp htext c hc
    simpa using hchar
  have hlower : asciiLower text.toList = text.toList := by
    unfold asciiLower
    conv_rhs => rw [← map_id text.toList]
    exact map_congr_left fun c hc => (hall c hc).2
  have hfold := h.ofList fun c hc => (hall c hc).1
  rwa [hlower, String.ofList_toList] at hfold

end FoldsCase

/-! ## Links to hosts -/

/-- A link to one of some hosts. -/
structure IsLink (bot : Deployment) (candidate : List Char) (hosts : List String) (url : SplitUrl) :
    Prop where
  split : splitHttps bot candidate = some url
  scheme : url.scheme = "https".toList
  host : url.hostname bot ∈ hosts
  bare : url.bare = true

/-- The host that `https://host/…` names. -/
theorem hostname_plain {bot : Deployment} (hfold : FoldsCase bot.casefold) (url : SplitUrl) (host : String)
    (hnetloc : url.netloc = host.toList) (hat : '@' ∉ host.toList) (hcolon : ':' ∉ host.toList)
    (hhost : host.toList.all (fun c => decide (c.toNat < 128) && c.toLower = c) = true) :
    url.hostname bot = host ∧ url.portText = [] := by
  have hinfo : (url.netloc.reverse.takeWhile (· ≠ '@')).reverse = host.toList := by
    rw [hnetloc, takeWhile_eq_self_iff.mpr, reverse_reverse]
    intro c hc
    exact decide_eq_true fun heq => hat (heq ▸ mem_reverse.mp hc)
  have hcut : cutAt (· = ':') host.toList = (host.toList, []) := by
    have hall : ∀ c ∈ host.toList, (!decide (c = ':')) = true := by
      intro c hc
      simp only [Bool.not_eq_true', decide_eq_false_iff_not]
      exact fun heq => hcolon (heq ▸ hc)
    rw [cutAt, takeWhile_eq_self_iff.mpr hall, dropWhile_eq_nil_iff.mpr hall, drop_nil]
  have hlower : asciiLower host.toList = host.toList := by
    have hall := all_eq_true.mp hhost
    unfold asciiLower
    conv_rhs => rw [← map_id host.toList]
    refine map_congr_left fun c hc => ?_
    simpa using (Bool.and_eq_true_iff.mp (hall c hc)).2
  constructor
  · rw [SplitUrl.hostname, hinfo, hcut]
    dsimp only
    rw [hlower, String.ofList_toList, hfold.literal hhost]
  · rw [SplitUrl.portText, hinfo, hcut]

/-! ## Handles -/

section Handles

variable {bot : Deployment} {value handle : String}

theorem isPlainCharacter_of_isTelegramName {name : String} (h : isTelegramName name = true) :
    ∀ c ∈ name.toList, isPlainCharacter c = true := by
  intro c hc
  have hchar := all_eq_true.mp (Bool.and_eq_true_iff.mp h).2 c hc
  simp only [isPlainCharacter, isWordCharacter]
  simp_all

/-- A stored handle: its name is folded. -/
def IsHandle (bot : Deployment) (handle : String) : Prop :=
  ∃ name, handle = "@" ++ name ∧ isTelegramName name = true ∧ bot.casefold name = name

theorem isHandle_of_normalize (hfold : FoldsCase bot.casefold)
    (h : normalizeTelegramHandle bot (some value) = .ok (some handle)) : IsHandle bot handle := by
  unfold normalizeTelegramHandle at h
  dsimp only [Option.map_some] at h
  split at h
  · exact nomatch h
  · split at h
    · next hname =>
      obtain rfl := Option.some.inj (Except.ok.inj h)
      exact ⟨_, rfl, hname, hfold.again _⟩
    · exact nomatch h

theorem IsHandle.pythonStrip (h : IsHandle bot handle) :
    pythonStrip handle = handle.toList := by
  obtain ⟨name, rfl, hname, -⟩ := h
  apply pythonStrip_plain
  intro c hc
  rw [String.toList_append] at hc
  rcases mem_append.mp hc with hc | hc
  · rw [mem_singleton.mp hc]
    rfl
  · exact isPlainCharacter_of_isTelegramName hname c hc

/-- A stored handle is accepted and stays as it is. -/
theorem IsHandle.again (h : IsHandle bot handle) :
    normalizeTelegramHandle bot (some handle) = .ok (some handle) := by
  have hstrip := h.pythonStrip
  obtain ⟨name, rfl, hname, hfolded⟩ := h
  have hafter : afterPrefix "@" ("@" ++ name) = some (String.ofList name.toList) :=
    afterPrefix_append String.toList_append
  rw [String.ofList_toList] at hafter
  have hlong : ("@" ++ name) ∉ ["", "-", "Пропустить"] := by
    intro hmem
    have hhead : ("@" ++ name).toList.head? = some '@' := by
      rw [String.toList_append]
      rfl
    simp only [mem_cons, not_mem_nil, or_false] at hmem
    rcases hmem with heq | heq | heq <;>
    · rw [heq] at hhead
      exact absurd hhead (by decide)
  unfold normalizeTelegramHandle
  dsimp only [Option.map_some]
  rw [hstrip, String.ofList_toList, if_neg hlong, hafter, Option.getD_some, hfolded, if_pos hname]

theorem IsHandle.head (h : IsHandle bot handle) : ∃ rest, handle.toList = '@' :: rest := by
  obtain ⟨name, rfl, -, -⟩ := h
  exact ⟨name.toList, String.toList_append⟩

theorem handleOf_eq_ok {text : List Char} : handleOf bot text = .ok handle ↔
    normalizeTelegramHandle bot (some (String.ofList text)) = .ok (some handle) := by
  unfold handleOf
  cases hread : normalizeTelegramHandle bot (some (String.ofList text)) with
  | error fault => constructor <;> intro h <;> exact nomatch h
  | ok found =>
    cases found with
    | none => constructor <;> intro h <;> exact nomatch h
    | some found =>
      constructor
      · intro h
        rw [Except.ok.inj h]
      · intro h
        rw [Option.some.inj (Except.ok.inj h)]
        rfl

/-- The text of a profile without the mention around it. -/
def profileCandidate (value : String) : List Char :=
  (vkTelegramMention (pythonStrip value)).getD (pythonStrip value)

theorem normalizeTelegramProfile_at (h : (profileCandidate value).head? = some '@') :
    normalizeTelegramProfile bot value = handleOf bot (profileCandidate value) :=
  if_pos h

/-- A profile that is given as a link. -/
structure IsProfileLink (bot : Deployment) (candidate : List Char) (url : SplitUrl)
    (part : List Char) : Prop where
  link : IsLink bot candidate telegramProfileHosts url
  port : url.portText = []
  path : (url.path.splitOn '/').filter (fun part => !part.isEmpty) = [part]

theorem isProfileLink_of_normalize (hplain : (profileCandidate value).head? ≠ some '@')
    (h : normalizeTelegramProfile bot value = .ok handle) :
    ∃ url part, IsProfileLink bot (profileCandidate value) url part ∧ handleOf bot part = .ok handle := by
  have hlink : normalizeTelegramProfile bot value = _ := if_neg hplain
  rw [hlink] at h
  unfold profileCandidate
  cases hsplit : splitHttps bot ((vkTelegramMention (pythonStrip value)).getD (pythonStrip value)) with
  | none =>
    rw [hsplit] at h
    exact nomatch h
  | some url =>
    rw [hsplit] at h
    dsimp only at h
    split at h
    · exact nomatch h
    · next haccepted =>
      split at h
      · next part hpart =>
        simp only [Bool.or_eq_true, not_or, decide_eq_true_eq, not_not, Bool.not_eq_true',
          Bool.not_eq_false, List.isEmpty_iff] at haccepted
        obtain ⟨⟨⟨hscheme, hhost⟩, hport⟩, hbare⟩ := haccepted
        exact ⟨url, part, ⟨⟨hsplit, hscheme, hhost, hbare⟩, hport, hpart⟩, h⟩
      · exact nomatch h

theorem isHandle_of_profile (hfold : FoldsCase bot.casefold)
    (h : normalizeTelegramProfile bot value = .ok handle) : IsHandle bot handle := by
  by_cases hat : (profileCandidate value).head? = some '@'
  · rw [normalizeTelegramProfile_at hat, handleOf_eq_ok] at h
    exact isHandle_of_normalize hfold h
  · obtain ⟨url, part, -, hpart⟩ := isProfileLink_of_normalize hat h
    exact isHandle_of_normalize hfold (handleOf_eq_ok.mp hpart)

theorem IsHandle.profile_again (h : IsHandle bot handle) :
    normalizeTelegramProfile bot handle = .ok handle := by
  obtain ⟨rest, hrest⟩ := h.head
  have hcandidate : profileCandidate handle = handle.toList := by
    have hmention : vkTelegramMention ('@' :: rest) = none := rfl
    rw [profileCandidate, h.pythonStrip, hrest, hmention, Option.getD_none]
  have hat : (profileCandidate handle).head? = some '@' := by
    rw [hcandidate, hrest]
    rfl
  rw [normalizeTelegramProfile_at hat, handleOf_eq_ok, hcandidate, String.ofList_toList]
  exact h.again

end Handles

/-! ## Pages -/

section Pages

variable {bot : Deployment} {value link : String}

theorem isLink_of_normalizeVkUrl (h : normalizeVkUrl bot value = .ok link) :
    ∃ url, IsLink bot (pythonStrip value) vkHosts url ∧ isVkPath url.path = true ∧
      link = "https://vk.com/" ++ String.ofList ((withoutFinalSlash url.path).drop 1) := by
  unfold normalizeVkUrl at h
  dsimp only at h
  split at h
  · exact nomatch h
  · split at h
    · exact nomatch h
    · next url hsplit =>
      split at h
      · exact nomatch h
      · next hhost =>
        split at h
        · exact nomatch h
        · next hpath =>
          simp only [Bool.or_eq_true, not_or, decide_eq_true_eq, not_not, Bool.not_eq_true',
            Bool.not_eq_false] at hhost hpath
          exact ⟨url, ⟨hsplit, hhost.1, hhost.2, hpath.2⟩, hpath.1, (Except.ok.inj h).symm⟩

/-- The name of a page of VK. -/
def isVkName (name : List Char) : Bool :=
  1 ≤ name.length && name.length ≤ 100 && name.all (isWordCharacter ['.', '-'])

theorem isVkPath_iff {path : List Char} : isVkPath path = true ↔
    path.head? = some '/' ∧ isVkName ((withoutFinalSlash path).drop 1) = true := by
  unfold isVkPath isVkName
  simp [and_assoc]

theorem isKept_of_isPlainCharacter {c : Char} (h : isPlainCharacter c = true) : isKept c = true := by
  by_contra hlost
  simp only [isKept, decide_eq_true_eq, not_not, mem_cons, not_mem_nil, or_false] at hlost
  rcases hlost with rfl | rfl | rfl <;> exact absurd h (by decide)

theorem isPlainCharacter_of_isVkName {name : List Char} (h : isVkName name = true) {c : Char}
    (hc : c ∈ name) : isPlainCharacter c = true ∧ c ≠ '/' ∧ c ≠ '?' ∧ c ≠ '#' := by
  have hchar := all_eq_true.mp (Bool.and_eq_true_iff.mp h).2 c hc
  refine ⟨?_, ?_, ?_, ?_⟩
  · simp only [isPlainCharacter, isWordCharacter] at hchar ⊢
    simp_all
    tauto
  all_goals
    rintro rfl
    exact absurd hchar (by decide)

/-- The stored link of a page is accepted and stays as it is. -/
theorem vkUrl_again (hfold : FoldsCase bot.casefold) {name : List Char} (h : isVkName name = true) :
    normalizeVkUrl bot ("https://vk.com/" ++ String.ofList name) =
      .ok ("https://vk.com/" ++ String.ofList name) := by
  have hsome : name ≠ [] := by
    rintro rfl
    exact absurd h (by decide)
  have hname : (String.ofList name).toList = name := String.toList_ofList
  have htext : ("https://vk.com/" ++ String.ofList name).toList =
      "https://".toList ++ ("vk.com".toList ++ '/' :: name) := by
    rw [String.toList_append, hname]
    rfl
  have hstrip : pythonStrip ("https://vk.com/" ++ String.ofList name) =
      "https://".toList ++ ("vk.com".toList ++ '/' :: name) := by
    rw [← htext]
    apply pythonStrip_plain
    intro c hc
    rw [String.toList_append, hname] at hc
    rcases mem_append.mp hc with hc | hc
    · have hall : "https://vk.com/".toList.all isPlainCharacter = true := by decide
      exact all_eq_true.mp hall c hc
    · exact (isPlainCharacter_of_isVkName h hc).1
  have hsplit : splitHttps bot (pythonStrip ("https://vk.com/" ++ String.ofList name)) =
      some ⟨"https".toList, "vk.com".toList, '/' :: name, true⟩ := by
    rw [hstrip]
    apply splitHttps_https bot (by decide)
    intro c hc
    obtain ⟨hplain, -, hquestion, hhash⟩ := isPlainCharacter_of_isVkName h hc
    exact ⟨hquestion, hhash, isKept_of_isPlainCharacter hplain⟩
  obtain ⟨hhost, -⟩ := hostname_plain hfold ⟨"https".toList, "vk.com".toList, '/' :: name, true⟩
    "vk.com" rfl (by decide) (by decide) (by decide)
  have hslash : withoutFinalSlash ('/' :: name) = '/' :: name := by
    rw [withoutFinalSlash, if_neg]
    rw [getLast?_cons, getLast?_eq_some_getLast hsome, Option.getD_some]
    exact fun heq => (isPlainCharacter_of_isVkName h (getLast_mem hsome)).2.1 (Option.some.inj heq)
  have hpath : isVkPath ('/' :: name) = true := by
    rw [isVkPath_iff, hslash]
    exact ⟨rfl, h⟩
  have hgiven : ¬ ((pythonStrip ("https://vk.com/" ++ String.ofList name)).isEmpty ||
      decide (pythonStrip ("https://vk.com/" ++ String.ofList name) = ['-'])) = true := by
    rw [hstrip]
    simp
  unfold normalizeVkUrl
  dsimp only
  rw [if_neg hgiven, hsplit]
  dsimp only
  rw [hhost, hpath, hslash]
  rfl

end Pages

/-! ## Posts -/

section Posts

variable {bot : Deployment} {value link : String} {hosts : List String}
  {matchesPath : List Char → Bool} {path front : List Char}

/-- The path of a post: it ends in the number of the post. -/
def IsPostPath (path : List Char) : Prop :=
  ∃ front post, path = '/' :: (front ++ post) ∧
    (∀ c ∈ front, isPlainCharacter c = true ∧ c ≠ ':') ∧ isPostNumber post = true

theorem isPlainCharacter_of_isPostNumber {post : List Char} (h : isPostNumber post = true) {c : Char}
    (hc : c ∈ post) : isPlainCharacter c = true ∧ c ≠ '/' ∧ c ≠ ':' := by
  have hdigit := all_eq_true.mp (Bool.and_eq_true_iff.mp h).2 c hc
  refine ⟨?_, ?_, ?_⟩
  · simp [isPlainCharacter, isWordCharacter, Char.isAlphanum, hdigit]
  all_goals
    rintro rfl
    exact absurd hdigit (by decide)

namespace IsPostPath

variable (h : IsPostPath path)
include h

theorem rooted : ∃ rest, path = '/' :: rest := by
  obtain ⟨front, post, rfl, -, -⟩ := h
  exact ⟨_, rfl⟩

theorem plain {c : Char} (hc : c ∈ path) : isPlainCharacter c = true ∧ c ≠ ':' := by
  obtain ⟨front, post, rfl, hfront, hpost⟩ := h
  rcases mem_cons.mp hc with rfl | hc
  · decide
  · rcases mem_append.mp hc with hc | hc
    · exact hfront c hc
    · obtain ⟨hplain, -, hcolon⟩ := isPlainCharacter_of_isPostNumber hpost hc
      exact ⟨hplain, hcolon⟩

theorem last : ∃ c, path.getLast? = some c ∧ c ≠ '/' := by
  obtain ⟨front, post, rfl, -, hpost⟩ := h
  have hsome : post ≠ [] := by
    rintro rfl
    exact absurd hpost (by decide)
  refine ⟨post.getLast hsome, ?_, (isPlainCharacter_of_isPostNumber hpost (getLast_mem hsome)).2.1⟩
  simp [getLast?_cons, getLast?_append, getLast?_eq_some_getLast hsome]

theorem withoutFinalSlash : withoutFinalSlash path = path := by
  obtain ⟨c, hlast, hc⟩ := h.last
  rw [LarpBot.withoutFinalSlash, hlast, if_neg]
  exact fun heq => hc (Option.some.inj heq)

theorem withoutFinalSlashes (back : List Char) (hback : ∀ c ∈ back, c = '/') :
    withoutFinalSlashes (path ++ back) = path := by
  obtain ⟨c, hlast, hc⟩ := h.last
  obtain ⟨front, rfl⟩ := getLast?_eq_some_iff.mp hlast
  have hstop : decide (c = '/') = false := decide_eq_false hc
  have hnone : back.rdropWhile (fun c => decide (c = '/')) = [] :=
    rdropWhile_eq_nil_iff.mpr fun c hc => decide_eq_true (hback c hc)
  have hsplit : (front ++ c :: back).rdropWhile (fun c => decide (c = '/')) =
      front ++ c :: back.rdropWhile (fun c => decide (c = '/')) := rdropWhile_split front hstop
  rw [hnone] at hsplit
  rw [append_assoc, singleton_append]
  exact hsplit

end IsPostPath

/-- What the patterns for the paths of posts have in common: a slash may follow. -/
structure ReadsPosts (matchesPath : List Char → Bool) : Prop where
  shape : ∀ path, matchesPath path = true → IsPostPath (withoutFinalSlash path)
  again : ∀ path, matchesPath path = true → matchesPath (withoutFinalSlash path) = true

theorem withoutFinalSlash_cases (path : List Char) :
    path = withoutFinalSlash path ∨ path = withoutFinalSlash path ++ ['/'] := by
  unfold withoutFinalSlash
  split
  · next hlast =>
    obtain ⟨front, rfl⟩ := getLast?_eq_some_iff.mp hlast
    exact .inr (by simp)
  · exact .inl rfl

theorem ReadsPosts.withoutFinalSlashes (hreads : ReadsPosts matchesPath) (h : matchesPath path = true) :
    withoutFinalSlashes path = withoutFinalSlash path := by
  have hshape := hreads.shape path h
  rcases withoutFinalSlash_cases path with heq | heq
  · have hall := hshape.withoutFinalSlashes [] (by simp)
    rw [append_nil] at hall
    exact (congrArg _ heq).trans hall
  · have hall := hshape.withoutFinalSlashes ['/'] (by simp)
    rwa [← heq] at hall

theorem isPlainCharacter_of_isWordCharacter {c : Char} (h : isWordCharacter [] c = true) :
    isPlainCharacter c = true ∧ c ≠ ':' := by
  constructor
  · simp only [isPlainCharacter, isWordCharacter] at h ⊢
    simp_all
  · rintro rfl
    exact absurd h (by decide)

theorem isPlainCharacter_of_isChannelName {channel : List Char} (h : isChannelName channel = true) :
    ∀ c ∈ channel, isPlainCharacter c = true ∧ c ≠ ':' := by
  simp only [isChannelName, Bool.and_eq_true] at h
  exact fun c hc => isPlainCharacter_of_isWordCharacter (all_eq_true.mp h.1.1.2 c hc)

/-- A start that is given, a name and the number of the post. -/
theorem isPostPath_of_parts {middle post : List Char} (start : List Char)
    (hpath : path = '/' :: (start ++ (middle ++ '/' :: post)))
    (hstart : start.all (fun c => isPlainCharacter c && c ≠ ':') = true)
    (hmiddle : ∀ c ∈ middle, isPlainCharacter c = true ∧ c ≠ ':') (hpost : isPostNumber post = true) :
    IsPostPath path := by
  refine ⟨start ++ (middle ++ ['/']), post, by simp [hpath], fun c hc => ?_, hpost⟩
  rcases mem_append.mp hc with hc | hc
  · simpa using all_eq_true.mp hstart c hc
  · rcases mem_append.mp hc with hc | hc
    · exact hmiddle c hc
    · rw [mem_singleton.mp hc]
      decide

theorem readsPosts_telegram : ReadsPosts isTelegramPostPath := by
  have hshape (path : List Char) (h : isTelegramPostPath path = true) : IsPostPath (withoutFinalSlash path) := by
    unfold isTelegramPostPath at h
    generalize withoutFinalSlash path = base at h
    have hwhole : intercalate ['/'] (base.splitOn '/') = base := intercalate_splitOn '/'
    split at h
    case h_5 => exact nomatch h
    all_goals
      rename_i hparts
      rw [hparts] at hwhole
      rw [Bool.and_eq_true] at h
      simp only [intercalate_cons_cons, intercalate_singleton, append_assoc, nil_append, cons_append] at hwhole
    · exact isPostPath_of_parts [] hwhole.symm rfl (isPlainCharacter_of_isChannelName h.1) h.2
    · exact isPostPath_of_parts ['s', '/'] hwhole.symm rfl
        (isPlainCharacter_of_isChannelName h.1) h.2
    · apply isPostPath_of_parts ['c', '/'] hwhole.symm rfl _ h.2
      intro c hc
      exact (isPlainCharacter_of_isPostNumber h.1 hc).imp_right And.right
    · apply isPostPath_of_parts ['s', '/', 'c', '/'] hwhole.symm rfl _ h.2
      intro c hc
      exact (isPlainCharacter_of_isPostNumber h.1 hc).imp_right And.right
  refine ⟨hshape, fun path h => ?_⟩
  have hbase := (hshape path h).withoutFinalSlash
  unfold isTelegramPostPath at h ⊢
  rwa [hbase]

/-- The path of a post of VK: the owner of the wall, with or without the sign of a group, and the
number of the post. -/
theorem isVkPostPath_split (h : isVkPostPath path = true) : ∃ sign number post,
    withoutFinalSlash path = "/wall".toList ++ (sign ++ (number ++ '_' :: post)) ∧
      (sign = [] ∨ sign = ['-']) ∧ isPostNumber number = true ∧ isPostNumber post = true := by
  unfold isVkPostPath at h
  dsimp only [cutAt] at h
  rw [Bool.and_eq_true, Bool.and_eq_true] at h
  obtain ⟨⟨hwall, hnumber⟩, hpost⟩ := h
  obtain ⟨rest, rfl⟩ := isPrefixOf_iff_prefix.mp hwall
  obtain ⟨owned, hbase⟩ : ∃ owned, withoutFinalSlash ("/wall".toList ++ rest) = "/wall".toList ++ owned := by
    rcases withoutFinalSlash_cases ("/wall".toList ++ rest) with heq | heq
    · exact ⟨rest, heq.symm⟩
    · induction rest using List.reverseRecOn with
      | nil => exact ⟨[], rfl⟩
      | append_singleton rest c =>
        rw [← append_assoc] at heq
        exact ⟨rest, ((append_inj' heq rfl).1).symm.trans rfl⟩
  have hdrop : ("/wall".toList ++ owned).drop "/wall".length = owned := rfl
  rw [hbase, hdrop] at hnumber hpost
  -- what is behind the sign of a group, if it is one
  obtain ⟨sign, owner, howned, hsign, howner⟩ : ∃ sign owner, owned = sign ++ owner ∧
      (sign = [] ∨ sign = ['-']) ∧ (if owned.head? = some '-' then owned.drop 1 else owned) = owner := by
    by_cases hminus : owned.head? = some '-'
    · obtain ⟨owner, rfl⟩ := head?_eq_some_iff.mp hminus
      exact ⟨['-'], owner, rfl, .inr rfl, if_pos hminus⟩
    · exact ⟨[], owned, rfl, .inl rfl, if_neg hminus⟩
  rw [howner] at hnumber hpost
  have hsplit := takeWhile_append_dropWhile (p := fun c => !decide (c = '_')) (l := owner)
  cases hrest : owner.dropWhile (fun c => !decide (c = '_')) with
  | nil =>
    rw [hrest] at hpost
    exact absurd hpost (by decide)
  | cons c post =>
    have hc := not_of_dropWhile_eq_cons hrest
    rw [Bool.not_eq_false', decide_eq_true_eq] at hc
    rw [hrest, hc] at hsplit
    rw [hrest] at hpost
    exact ⟨sign, _, post, by rw [hbase, howned, hsplit], hsign, hnumber, hpost⟩

theorem readsPosts_vk : ReadsPosts isVkPostPath := by
  have hshape (path : List Char) (h : isVkPostPath path = true) : IsPostPath (withoutFinalSlash path) := by
    obtain ⟨sign, number, post, hpath, hsign, hnumber, hpost⟩ := isVkPostPath_split h
    refine ⟨"wall".toList ++ (sign ++ (number ++ ['_'])), post, ?_, fun c hc => ?_, hpost⟩
    · rw [hpath]
      simp
    · simp only [mem_append, mem_singleton] at hc
      rcases hc with hc | hc | hc | rfl
      · have hall : "wall".toList.all (fun c => isPlainCharacter c && c ≠ ':') = true := by decide
        simpa using all_eq_true.mp hall c hc
      · rcases hsign with rfl | rfl
        · exact absurd hc not_mem_nil
        · rw [mem_singleton.mp hc]
          decide
      · exact (isPlainCharacter_of_isPostNumber hnumber hc).imp_right And.right
      · decide
  refine ⟨hshape, fun path h => ?_⟩
  have hbase := (hshape path h).withoutFinalSlash
  obtain ⟨sign, number, post, hpath, -⟩ := isVkPostPath_split h
  have hstart : "/wall".toList.isPrefixOf (withoutFinalSlash path) = true := by
    rw [hpath]
    exact isPrefixOf_iff_prefix.mpr (prefix_append _ _)
  unfold isVkPostPath at h ⊢
  dsimp only at h ⊢
  rw [Bool.and_eq_true, Bool.and_eq_true] at h
  rw [hbase, Bool.and_eq_true, Bool.and_eq_true]
  exact ⟨⟨hstart, h.1.2⟩, h.2⟩

/-- A link to a post. -/
structure IsPost (bot : Deployment) (candidate : List Char) (hosts : List String)
    (matchesPath : List Char → Bool) (url : SplitUrl) : Prop where
  link : IsLink bot candidate hosts url
  port : url.portText = []
  user : '@' ∉ url.netloc
  path : matchesPath url.path = true

/-- The host of a post without the start that every site has. -/
def postHost (hostname : String) : String :=
  (afterPrefix "www." hostname).getD hostname

theorem isPost_of_postUrl {error : String} (h : postUrl bot value hosts matchesPath error = .ok link) :
    ∃ url, IsPost bot (pythonStrip value) hosts matchesPath url ∧
      link = "https://" ++ postHost (url.hostname bot) ++ String.ofList (withoutFinalSlashes url.path) := by
  unfold postUrl at h
  split at h
  · exact nomatch h
  · next url hsplit =>
    dsimp only at h
    split at h
    · exact nomatch h
    · next haccepted =>
      simp only [Bool.or_eq_true, not_or, decide_eq_true_eq, not_not, Bool.not_eq_true',
        Bool.not_eq_false, List.isEmpty_iff, contains_iff_mem] at haccepted
      obtain ⟨⟨⟨⟨⟨hscheme, hhost⟩, hport⟩, huser⟩, hbare⟩, hpath⟩ := haccepted
      exact ⟨url, ⟨⟨hsplit, hscheme, hhost, hbare⟩, hport, huser, hpath⟩, (Except.ok.inj h).symm⟩

/-- A host as the normalisers write it. -/
def isPlainHost (host : String) : Bool :=
  host.toList.all fun c => isHostCharacter c && isPlainCharacter c && c ≠ '@' && c ≠ ':' && c.toLower = c

/-- The stored link of a post is accepted and stays as it is. -/
theorem postUrl_again (error : String) (hfold : FoldsCase bot.casefold) {host : String}
    (hhost : isPlainHost host = true)
    (hmem : host ∈ hosts) (hstart : afterPrefix "www." host = none) (hpath : IsPostPath path)
    (hmatches : matchesPath path = true) :
    postUrl bot ("https://" ++ host ++ String.ofList path) hosts matchesPath error =
      .ok ("https://" ++ host ++ String.ofList path) := by
  obtain ⟨rest, hrest⟩ := hpath.rooted
  have hchars : ∀ c ∈ host.toList, ((((isHostCharacter c = true ∧ isPlainCharacter c = true) ∧ c ≠ '@') ∧
      c ≠ ':') ∧ c.toLower = c) := by
    intro c hc
    have hchar := all_eq_true.mp hhost c hc
    simpa only [Bool.and_eq_true, decide_eq_true_eq] using hchar
  have htext : ("https://" ++ host ++ String.ofList path).toList =
      "https://".toList ++ (host.toList ++ path) := by
    have hlist : (String.ofList path).toList = path := String.toList_ofList
    rw [String.toList_append, String.toList_append, hlist, append_assoc]
  have hstrip : pythonStrip ("https://" ++ host ++ String.ofList path) =
      "https://".toList ++ (host.toList ++ path) := by
    rw [← htext]
    apply pythonStrip_plain
    intro c hc
    rw [htext] at hc
    rcases mem_append.mp hc with hc | hc
    · have hall : "https://".toList.all isPlainCharacter = true := by decide
      exact all_eq_true.mp hall c hc
    · rcases mem_append.mp hc with hc | hc
      · exact (hchars c hc).1.1.1.2
      · exact (hpath.plain hc).1
  have hsplit : splitHttps bot (pythonStrip ("https://" ++ host ++ String.ofList path)) =
      some ⟨"https".toList, host.toList, path, true⟩ := by
    rw [hstrip, hrest]
    apply splitHttps_https bot (all_eq_true.mpr fun c hc => (hchars c hc).1.1.1.1)
    intro c hc
    have hplain := (hpath.plain (hrest ▸ mem_cons_of_mem _ hc)).1
    refine ⟨?_, ?_, isKept_of_isPlainCharacter hplain⟩
    all_goals
      rintro rfl
      exact absurd hplain (by decide)
  obtain ⟨hhostname, hport⟩ := hostname_plain hfold ⟨"https".toList, host.toList, path, true⟩ host rfl
    (fun h => (hchars _ h).1.1.2 rfl) (fun h => (hchars _ h).1.2 rfl)
    (all_eq_true.mpr fun c hc => by
      have hhostchar := (hchars c hc).1.1.1.1
      rw [isHostCharacter, Bool.and_eq_true] at hhostchar
      rw [Bool.and_eq_true]
      exact ⟨hhostchar.2, decide_eq_true (hchars c hc).2⟩)
  have hslashes : withoutFinalSlashes path = path := by
    have hall := hpath.withoutFinalSlashes [] (by simp)
    rwa [append_nil] at hall
  have huser : host.toList.contains '@' = false := by
    rw [← Bool.not_eq_true, contains_iff_mem]
    exact fun h => (hchars _ h).1.1.2 rfl
  unfold postUrl
  rw [hsplit]
  dsimp only
  rw [hhostname, hport, huser, hmatches, hstart, hslashes, Option.getD_none, if_neg]
  simp [hmem]

/-- The stored forms of the hosts of Telegram. -/
theorem postHost_telegram {hostname : String} (h : hostname ∈ telegramProfileHosts) :
    postHost hostname ∈ ["t.me", "telegram.me"] := by
  have hall : ∀ hostname ∈ telegramProfileHosts, postHost hostname ∈ ["t.me", "telegram.me"] := by decide
  exact hall hostname h

theorem telegramPost_again (hfold : FoldsCase bot.casefold)
    (h : normalizeTelegramPostUrl bot value = .ok link) : normalizeTelegramPostUrl bot link = .ok link := by
  obtain ⟨url, hpost, rfl⟩ := isPost_of_postUrl h
  rw [readsPosts_telegram.withoutFinalSlashes hpost.path]
  have hshape := readsPosts_telegram.shape _ hpost.path
  have hmatches := readsPosts_telegram.again _ hpost.path
  have hhost := postHost_telegram hpost.link.host
  generalize postHost (url.hostname bot) = host at hhost
  have hgood : ∀ host ∈ ["t.me", "telegram.me"], isPlainHost host = true ∧ host ∈ telegramProfileHosts ∧
      afterPrefix "www." host = none := by decide
  obtain ⟨hplain, hmem, hstart⟩ := hgood host hhost
  exact postUrl_again _ hfold hplain hmem hstart hshape hmatches

/-! ## Replacing the host -/

theorem replaceAll_skip (old new : List Char) (n : Nat) (cs : List Char) :
    replaceAll old new n cs = replaceAll old new 0 (cs.drop n) := by
  induction cs generalizing n with
  | nil => cases n <;> rfl
  | cons c cs ih =>
    cases n with
    | zero => rfl
    | succ n => exact ih n

/-- Without a colon there is no link to replace. -/
theorem replaceAll_plain {old cs : List Char} (new : List Char) (hold : ':' ∈ old) (hcs : ':' ∉ cs) :
    replaceAll old new 0 cs = cs := by
  induction cs with
  | nil => rfl
  | cons c cs ih =>
    have hnot : old.isPrefixOf (c :: cs) = false := by
      rw [← Bool.not_eq_true, isPrefixOf_iff_prefix]
      exact fun hbegins => hcs (hbegins.mem hold)
    rw [replaceAll, hnot, ih fun h => hcs (mem_cons_of_mem c h)]
    rfl

theorem replaceAll_here {old new cs : List Char} {c : Char} (h : old.isPrefixOf (c :: cs) = true) :
    replaceAll old new 0 (c :: cs) = new ++ replaceAll old new 0 (cs.drop (old.length - 1)) := by
  rw [replaceAll, if_pos h, replaceAll_skip]

theorem replaceAll_later {old new cs : List Char} {c d : Char} (h : c ≠ d) :
    replaceAll (d :: old) new 0 (c :: cs) = c :: replaceAll (d :: old) new 0 cs := by
  have hnot : (d :: old).isPrefixOf (c :: cs) = false := by simp [List.isPrefixOf, h.symm]
  rw [replaceAll, hnot, if_neg Bool.false_ne_true]

/-- A text behind the scheme. -/
def behindScheme (text : List Char) : List Char :=
  'h' :: 't' :: 't' :: 'p' :: 's' :: ':' :: '/' :: '/' :: text

/-- A link is replaced at its start only. -/
theorem replaceAll_link {start new cs : List Char} (hcs : ':' ∉ cs) :
    replaceAll (behindScheme start) new 0 (behindScheme cs) =
      if start.isPrefixOf cs then new ++ cs.drop start.length else behindScheme cs := by
  have hold : ':' ∈ behindScheme start := by simp [behindScheme]
  have hbegins : (behindScheme start).isPrefixOf (behindScheme cs) = start.isPrefixOf cs := by
    simp [behindScheme]
  by_cases hstart : start.isPrefixOf cs = true
  · have hrest : ':' ∉ cs.drop start.length := fun h => hcs (mem_of_mem_drop h)
    have hdrop : ('t' :: 't' :: 'p' :: 's' :: ':' :: '/' :: '/' :: cs).drop ((behindScheme start).length - 1) =
        cs.drop start.length := by simp [behindScheme]
    rw [if_pos hstart]
    calc replaceAll (behindScheme start) new 0 (behindScheme cs)
        = new ++ replaceAll (behindScheme start) new 0
            (('t' :: 't' :: 'p' :: 's' :: ':' :: '/' :: '/' :: cs).drop ((behindScheme start).length - 1)) :=
          replaceAll_here (hbegins.trans hstart)
      _ = new ++ cs.drop start.length := by rw [hdrop, replaceAll_plain new hold hrest]
  · have hnot : (behindScheme start).isPrefixOf (behindScheme cs) = false := by
      rw [hbegins]
      exact Bool.eq_false_of_not_eq_true hstart
    have hplain := replaceAll_plain new hold hcs
    rw [if_neg hstart]
    unfold behindScheme at hnot hplain ⊢
    rw [replaceAll, hnot, if_neg Bool.false_ne_true]
    iterate 7 rw [replaceAll_later (by decide)]
    rw [hplain]

/-- One replacement: another host for the one that is named. -/
theorem replaced_host {text : String} {cs : List Char} (old : String) (start : List Char)
    (hold : old.toList = behindScheme start)
    (htext : text.toList = behindScheme cs) (hcs : ':' ∉ cs) :
    (replaced old "https://vk.com/" text).toList = behindScheme
      (if start.isPrefixOf cs then "vk.com/".toList ++ cs.drop start.length else cs) := by
  have hlist (cs : List Char) : (String.ofList cs).toList = cs := String.toList_ofList
  rw [replaced, hlist, hold, htext, replaceAll_link hcs]
  split
  · rfl
  · rfl

def vkPostHosts : List String :=
  ["vk.com", "m.vk.com", "vk.ru", "m.vk.ru"]

theorem postHost_vk {hostname : String} (h : hostname ∈ vkHosts) : postHost hostname ∈ vkPostHosts := by
  have hall : ∀ hostname ∈ vkHosts, postHost hostname ∈ vkPostHosts := by decide
  exact hall hostname h

/-- The hosts of VK become one. -/
theorem replaced_vk {host : String} {rest : List Char} (hhost : host ∈ vkPostHosts) (hrest : ':' ∉ rest) :
    replaced "https://m.vk.ru/" "https://vk.com/" (replaced "https://m.vk.com/" "https://vk.com/"
      (replaced "https://vk.ru/" "https://vk.com/" ("https://" ++ host ++ String.ofList ('/' :: rest)))) =
      "https://" ++ "vk.com" ++ String.ofList ('/' :: rest) := by
  have hlist : (String.ofList ('/' :: rest)).toList = '/' :: rest := String.toList_ofList
  have htext (host : String) : ("https://" ++ host ++ String.ofList ('/' :: rest)).toList =
      behindScheme (host.toList ++ '/' :: rest) := by
    rw [String.toList_append, String.toList_append, hlist, append_assoc]
    rfl
  have hcolon (host : String) (h : host ∈ vkPostHosts) : ':' ∉ host.toList ++ '/' :: rest := by
    have hall : ∀ host ∈ vkPostHosts, ':' ∉ host.toList := by decide
    simp [hall host h, hrest]
  have hvk := hcolon "vk.com" (by decide)
  apply String.toList_inj.mp
  rw [htext "vk.com"]
  simp only [vkPostHosts, mem_cons, not_mem_nil, or_false] at hhost
  rcases hhost with rfl | rfl | rfl | rfl
  · have hfirst := replaced_host "https://vk.ru/" "vk.ru/".toList rfl (htext "vk.com") hvk
    have hsecond := replaced_host "https://m.vk.com/" "m.vk.com/".toList rfl hfirst hvk
    exact replaced_host "https://m.vk.ru/" "m.vk.ru/".toList rfl hsecond hvk
  · have hmobile := hcolon "m.vk.com" (by decide)
    have hfirst := replaced_host "https://vk.ru/" "vk.ru/".toList rfl (htext "m.vk.com") hmobile
    have hsecond := replaced_host "https://m.vk.com/" "m.vk.com/".toList rfl hfirst hmobile
    exact replaced_host "https://m.vk.ru/" "m.vk.ru/".toList rfl hsecond hvk
  · have hfirst := replaced_host "https://vk.ru/" "vk.ru/".toList rfl (htext "vk.ru") (hcolon "vk.ru" (by decide))
    have hsecond := replaced_host "https://m.vk.com/" "m.vk.com/".toList rfl hfirst hvk
    exact replaced_host "https://m.vk.ru/" "m.vk.ru/".toList rfl hsecond hvk
  · have hmobile := hcolon "m.vk.ru" (by decide)
    have hfirst := replaced_host "https://vk.ru/" "vk.ru/".toList rfl (htext "m.vk.ru") hmobile
    have hsecond := replaced_host "https://m.vk.com/" "m.vk.com/".toList rfl hfirst hmobile
    exact replaced_host "https://m.vk.ru/" "m.vk.ru/".toList rfl hsecond hmobile

/-- The stored link of a post of VK. -/
theorem isPost_of_normalizeVkPostUrl (h : normalizeVkPostUrl bot value = .ok link) :
    ∃ url, IsPost bot (pythonStrip value) vkHosts isVkPostPath url ∧
      link = "https://" ++ "vk.com" ++ String.ofList (withoutFinalSlash url.path) := by
  unfold normalizeVkPostUrl at h
  cases hread : postUrl bot value vkHosts isVkPostPath "Нужна HTTPS-ссылка на пост во VK" with
  | error fault =>
    rw [hread] at h
    exact nomatch h
  | ok stored =>
    rw [hread] at h
    obtain ⟨url, hpost, rfl⟩ := isPost_of_postUrl hread
    rw [readsPosts_vk.withoutFinalSlashes hpost.path] at h
    have hshape := readsPosts_vk.shape _ hpost.path
    have hcolon : ':' ∉ withoutFinalSlash url.path := fun hc => (hshape.plain hc).2 rfl
    obtain ⟨rest, hrest⟩ := hshape.rooted
    rw [hrest] at h hcolon
    refine ⟨url, hpost, ?_⟩
    rw [hrest, ← Except.ok.inj h]
    exact replaced_vk (postHost_vk hpost.link.host) fun hc => hcolon (mem_cons_of_mem _ hc)

theorem vkPost_again (hfold : FoldsCase bot.casefold)
    (h : normalizeVkPostUrl bot value = .ok link) : normalizeVkPostUrl bot link = .ok link := by
  obtain ⟨url, hpost, rfl⟩ := isPost_of_normalizeVkPostUrl h
  have hshape := readsPosts_vk.shape _ hpost.path
  have hmatches := readsPosts_vk.again _ hpost.path
  have hcolon : ':' ∉ withoutFinalSlash url.path := fun hc => (hshape.plain hc).2 rfl
  have hplain : isPlainHost "vk.com" = true := by decide
  have hmem : "vk.com" ∈ vkHosts := by decide
  have hagain := postUrl_again "Нужна HTTPS-ссылка на пост во VK" hfold hplain hmem (by decide) hshape hmatches
  obtain ⟨rest, hrest⟩ := hshape.rooted
  unfold normalizeVkPostUrl
  rw [hagain, hrest]
  rw [hrest] at hcolon
  exact congrArg Except.ok (replaced_vk (by decide) fun hc => hcolon (mem_cons_of_mem _ hc))

end Posts

end LarpBot
