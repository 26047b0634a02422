import LarpBot.Laws.LinkForms
import LarpBot.Laws.Maintenance
import Mathlib

/-!
# Spellings of links

What the link normalisers make of a text does not depend on how a link is spelled: with the scheme or
without it, with `www.` or `m.` before the host, with a slash at the end or without it (`link_spellings`).
A spelling puts these around one body (`Spelling`).

The result for a page of VK is at `vk.com`. A post in Telegram keeps the host that it was given with,
`t.me` or `telegram.me`, and a profile is stored by its name, without a host.

A normaliser reads a text as it stands, or behind a scheme that is put before it. What it reads is cut at the
first slash: before it stands the host, from it on the page (`beforeSlash`, `fromSlash`). A body with a scheme
of its own has the two slashes there (`Spelling.Reads`), and no other spelling of it is accepted.
-/

namespace LarpBot

open List

/-! ## Slashes and white space -/

section Texts

variable {c : Char} {text front back : List Char}

/-- A text from its first slash on. -/
def fromSlash (text : List Char) : List Char :=
  text.dropWhile (· ≠ '/')

theorem fromSlash_append (h : '/' ∉ front) : fromSlash (front ++ back) = fromSlash back := by
  apply dropWhile_append_of_pos
  intro c hc
  have hne : c ≠ '/' := fun heq => h (heq ▸ hc)
  simp [hne]

theorem fromSlash_of_not_mem (h : '/' ∉ text) : fromSlash text = [] := by
  have hall : fromSlash (text ++ []) = fromSlash [] := fromSlash_append h
  rwa [append_nil] at hall

@[simp] theorem fromSlash_slash (text : List Char) : fromSlash ('/' :: text) = '/' :: text := by
  simp [fromSlash]

/-- A text up to its first slash, and the rest. -/
theorem fromSlash_cases (text : List Char) :
    '/' ∉ text ∨ ∃ front back, text = front ++ '/' :: back ∧ '/' ∉ front := by
  induction text with
  | nil => exact .inl not_mem_nil
  | cons c text ih =>
    by_cases hc : c = '/'
    · exact .inr ⟨[], text, by rw [hc, nil_append], not_mem_nil⟩
    · rcases ih with hnone | ⟨front, back, rfl, hfront⟩
      · exact .inl (not_mem_cons_of_ne_of_not_mem (Ne.symm hc) hnone)
      · exact .inr ⟨c :: front, back, rfl, not_mem_cons_of_ne_of_not_mem (Ne.symm hc) hfront⟩

theorem fromSlash_split (h : '/' ∉ front) : fromSlash (front ++ '/' :: back) = '/' :: back := by
  rw [fromSlash_append h, fromSlash_slash]

/-- A slash at the end stays at the end. -/
theorem fromSlash_concat (text : List Char) : fromSlash (text ++ ['/']) = fromSlash text ++ ['/'] := by
  rcases fromSlash_cases text with hnone | ⟨front, back, rfl, hfront⟩
  · rw [fromSlash_append hnone, fromSlash_of_not_mem hnone]
    rfl
  · rw [append_assoc, cons_append, fromSlash_split hfront, fromSlash_split hfront, cons_append]

/-- White space at the end has no slash. -/
theorem fromSlash_rdropWhile (text : List Char) :
    fromSlash (text.rdropWhile isPythonSpace) = (fromSlash text).rdropWhile isPythonSpace := by
  have hslash : isPythonSpace '/' = false := rfl
  rcases fromSlash_cases text with hnone | ⟨front, back, rfl, hfront⟩
  · rw [fromSlash_of_not_mem hnone, rdropWhile_nil]
    exact fromSlash_of_not_mem fun h => hnone (( rdropWhile_prefix _ _).mem h)
  · rw [rdropWhile_split front hslash, fromSlash_split hfront, fromSlash_split hfront]
    exact (rdropWhile_split [] hslash).symm

/-- White space is all that `urlsplit` drops. -/
theorem isKept_of_not_space (h : ¬ isPythonSpace c = true) : isKept c = true := by
  by_contra hlost
  apply h
  simp only [isKept, decide_eq_true_eq, not_not, mem_cons, not_mem_nil, or_false] at hlost
  rcases hlost with rfl | rfl | rfl <;> rfl

theorem rdropWhile_filter (text : List Char) : (text.rdropWhile isPythonSpace).filter isKept =
    (text.filter isKept).rdropWhile isPythonSpace := by
  induction text using List.reverseRecOn with
  | nil => simp
  | append_singleton text c ih =>
    by_cases hc : isPythonSpace c = true
    · rw [rdropWhile_concat_pos _ _ _ hc, ih, filter_append]
      by_cases hkept : isKept c = true
      · rw [filter_cons_of_pos hkept, filter_nil, rdropWhile_concat_pos _ _ _ hc]
      · rw [filter_cons_of_neg hkept, filter_nil, append_nil]
    · rw [rdropWhile_concat_neg _ _ _ hc, filter_append, filter_cons_of_pos (isKept_of_not_space hc), filter_nil,
        rdropWhile_concat_neg _ _ _ hc]

/-- White space at the front has no slash. -/
theorem fromSlash_dropWhile (text : List Char) :
    fromSlash (text.dropWhile isPythonSpace) = fromSlash text := by
  have hfront : '/' ∉ text.takeWhile isPythonSpace := by
    intro hmem
    exact absurd (mem_takeWhile_imp hmem) (by decide)
  calc fromSlash (text.dropWhile isPythonSpace)
      = fromSlash (text.takeWhile isPythonSpace ++ text.dropWhile isPythonSpace) := (fromSlash_append hfront).symm
    _ = fromSlash text := by rw [takeWhile_append_dropWhile]

end Texts

/-! ## Before the first slash -/

section Hosts

variable {c : Char} {text front back : List Char}

/-- A text up to its first slash. -/
def beforeSlash (text : List Char) : List Char :=
  text.takeWhile (· ≠ '/')

theorem beforeSlash_append (h : '/' ∉ front) : beforeSlash (front ++ back) = front ++ beforeSlash back := by
  apply takeWhile_append_of_pos
  intro c hc
  have hne : c ≠ '/' := fun heq => h (heq ▸ hc)
  simp [hne]

theorem beforeSlash_split (h : '/' ∉ front) : beforeSlash (front ++ '/' :: back) = front := by
  rw [beforeSlash_append h]
  simp [beforeSlash]

theorem beforeSlash_concat (text : List Char) : beforeSlash (text ++ ['/']) = beforeSlash text := by
  rcases fromSlash_cases text with hnone | ⟨front, back, rfl, hfront⟩
  · have hall : beforeSlash (text ++ []) = text ++ beforeSlash [] := beforeSlash_append hnone
    rw [append_nil] at hall
    rw [beforeSlash_split hnone, hall]
    simp [beforeSlash]
  · rw [append_assoc, cons_append, beforeSlash_split hfront, beforeSlash_split hfront]

/-- What follows a slash does not matter. -/
theorem beforeSlash_append_of_mem (h : '/' ∈ front) : beforeSlash (front ++ back) = beforeSlash front := by
  rcases fromSlash_cases front with hnone | ⟨start, rest, rfl, hstart⟩
  · exact absurd h hnone
  · rw [append_assoc, cons_append, beforeSlash_split hstart, beforeSlash_split hstart]

theorem beforeSlash_dropWhile (text : List Char) :
    beforeSlash (text.dropWhile isPythonSpace) = (beforeSlash text).dropWhile isPythonSpace := by
  induction text with
  | nil => rfl
  | cons c text ih =>
    by_cases hspace : isPythonSpace c = true
    · have hc : c ≠ '/' := by
        rintro rfl
        exact absurd hspace (by decide)
      rw [dropWhile_cons_of_pos hspace, ih]
      simp [beforeSlash, hc, hspace]
    · rw [dropWhile_cons_of_neg hspace]
      by_cases hc : c = '/'
      · simp [beforeSlash, hc]
      · simp [beforeSlash, hc, hspace]

theorem dropWhile_filter (text : List Char) : (text.dropWhile isPythonSpace).filter isKept =
    (text.filter isKept).dropWhile isPythonSpace := by
  induction text with
  | nil => rfl
  | cons c text ih =>
    by_cases hspace : isPythonSpace c = true
    · rw [dropWhile_cons_of_pos hspace, ih]
      by_cases hkept : isKept c = true
      · rw [filter_cons_of_pos hkept, dropWhile_cons_of_pos hspace]
      · rw [filter_cons_of_neg hkept]
    · rw [dropWhile_cons_of_neg hspace, filter_cons_of_pos (isKept_of_not_space hspace),
        dropWhile_cons_of_neg hspace]

/-- What is left of a text at the ends and by `urlsplit`. -/
theorem filter_pythonStrip (value : String) : (pythonStrip value).filter isKept =
    ((value.toList.filter isKept).dropWhile isPythonSpace).rdropWhile isPythonSpace := by
  have hstrip : pythonStrip value = (value.toList.dropWhile isPythonSpace).rdropWhile isPythonSpace := rfl
  rw [hstrip, rdropWhile_filter, dropWhile_filter]

end Hosts

/-! ## The parts of an accepted link -/

section Accepted

variable {bot : Deployment} {candidate text lead scheme marks : List Char} {hosts : List String} {url : SplitUrl}

theorem toLower_of_not_upper {c : Char} (h : ¬ (65 ≤ c.toNat ∧ c.toNat ≤ 90)) : c.toLower = c := by
  have hupper : ¬ (c.val ≥ 'A'.val ∧ c.val ≤ 'Z'.val) := h
  unfold Char.toLower
  rw [dif_neg hupper]

/-- Behind a scheme that is given come the host, the path and the marks. -/
theorem Parts.behind (h : Parts text url lead scheme marks) (hurl : url.scheme = "https".toList)
    {given rest : List Char} (htext : text = given ++ rest) (hgiven : asciiLower given = "https://".toList) :
    rest = url.netloc ++ (url.path ++ marks) := by
  have hwhole := htext.symm.trans h.whole
  have hlength : given.length = 8 := by
    have hmap := congrArg length hgiven
    rwa [asciiLower, length_map] at hmap
  have hscheme : scheme.length = 5 := by
    have hmap := congrArg length (h.scheme_lower.trans hurl)
    rwa [asciiLower, length_map] at hmap
  have hlead : lead = [] := by
    cases lead with
    | nil => rfl
    | cons d lead =>
      cases given with
      | nil => exact absurd hlength (by decide)
      | cons c given =>
        have hcontrol := h.lead_control d mem_cons_self
        have hhead : c = d := (cons.inj hwhole).1
        have hlower : c.toLower = 'h' := (cons.inj hgiven).1
        rw [hhead, toLower_of_not_upper (by omega)] at hlower
        rw [hlower] at hcontrol
        exact absurd hcontrol (by decide)
  rw [hlead, nil_append] at hwhole
  have hsplit : given ++ rest = (scheme ++ [':', '/', '/']) ++ (url.netloc ++ (url.path ++ marks)) := by
    rw [hwhole]
    simp
  exact (append_inj hsplit (by rw [hlength, length_append, hscheme]; rfl)).2

theorem IsLink.netloc_ne_nil (hfold : FoldsCase bot.casefold) (hhosts : "" ∉ hosts)
    (h : IsLink bot candidate hosts url) : url.netloc ≠ [] := by
  intro hnone
  apply hhosts
  have hhost := h.host
  rw [SplitUrl.hostname, hnone] at hhost
  change bot.casefold "" ∈ hosts at hhost
  rwa [hfold.empty] at hhost

/-- What `urlsplit` has read. -/
theorem IsLink.parts (h : IsLink bot candidate hosts url) (hnetloc : url.netloc ≠ []) :
    ∃ lead scheme marks, Parts ((if hasScheme candidate then candidate else "https://".toList ++ candidate).filter
      isKept) url lead scheme marks := by
  have hsplit := h.split
  unfold splitHttps at hsplit
  exact parts_of_urlsplit (Option.filter_eq_some_iff.mp hsplit).1 hnetloc

/-- A text without a scheme is the host, the path and the marks. -/
theorem IsLink.plain (h : IsLink bot candidate hosts url) (hnetloc : url.netloc ≠ [])
    (hscheme : hasScheme candidate = false) :
    ∃ marks, IsMarks marks ∧ candidate.filter isKept = url.netloc ++ (url.path ++ marks) := by
  obtain ⟨lead, scheme, marks, hparts⟩ := h.parts hnetloc
  rw [hscheme, if_neg Bool.false_ne_true, filter_append] at hparts
  have hkept : "https://".toList.filter isKept = "https://".toList := by decide
  rw [hkept] at hparts
  exact ⟨marks, hparts.marks_empty h.bare, hparts.behind h.scheme rfl rfl⟩

/-- A text with a scheme has it before the host. -/
theorem IsLink.schemed (h : IsLink bot candidate hosts url) (hnetloc : url.netloc ≠ [])
    (hscheme : hasScheme candidate = true) :
    ∃ lead scheme marks, Parts (candidate.filter isKept) url lead scheme marks ∧ IsMarks marks := by
  obtain ⟨lead, scheme, marks, hparts⟩ := h.parts hnetloc
  rw [hscheme, if_pos rfl] at hparts
  exact ⟨lead, scheme, marks, hparts, hparts.marks_empty h.bare⟩

end Accepted

/-! ## Spellings -/

/-- The spellings of a link: with the scheme or without it, with `www.` or `m.` before the host, with a
slash at the end. -/
structure Spelling (body : String) where
  scheme : List Char
  start : List Char
  slash : List Char
  scheme_given : scheme = [] ∨ asciiLower scheme = "https://".toList
  start_given : asciiLower start ∈ ["".toList, "www.".toList, "m.".toList]
  slash_given : slash = [] ∨ slash = ['/']

/-- The text of a spelling. -/
def Spelling.text {body : String} (spelling : Spelling body) : String :=
  String.ofList (spelling.scheme ++ (spelling.start ++ (body.toList ++ spelling.slash)))

/-- The host of a body, as it is written. -/
def siteOf (body : String) : List Char :=
  beforeSlash (body.toList.filter isKept)

/-- The page of a body. -/
def pageOf (body : String) : List Char :=
  fromSlash (body.toList.filter isKept)

theorem isPlainCharacter_of_toLower {c : Char} (h : isPlainCharacter c.toLower = true) :
    isPlainCharacter c = true := by
  by_cases hupper : c.val ≥ 'A'.val ∧ c.val ≤ 'Z'.val
  · have hletter : c.isUpper = true := by
      exact decide_eq_true hupper
    simp [isPlainCharacter, isWordCharacter, Char.isAlphanum, Char.isAlpha, hletter]
  · unfold Char.toLower at h
    rwa [dif_neg hupper] at h

/-- The characters of the starts that are common to sites. -/
theorem mem_of_start {c : Char} {start : List Char}
    (hstart : asciiLower start ∈ ["".toList, "www.".toList, "m.".toList]) (hc : c ∈ start) :
    c.toLower ∈ ['w', 'm', '.'] := by
  have hall : ["".toList, "www.".toList, "m.".toList].all (fun start => start.all (· ∈ ['w', 'm', '.'])) = true := by
    decide
  have hlower : c.toLower ∈ asciiLower start := mem_map_of_mem hc
  exact of_decide_eq_true (all_eq_true.mp (all_eq_true.mp hall _ hstart) _ hlower)

namespace Spelling

variable {body : String} (spelling : Spelling body)

theorem start_lower {c : Char} (hc : c ∈ spelling.start) : c.toLower ∈ ['w', 'm', '.'] :=
  mem_of_start spelling.start_given hc

theorem start_plain {c : Char} (hc : c ∈ spelling.start) : isPlainCharacter c = true := by
  have hall : ['w', 'm', '.'].all isPlainCharacter = true := by decide
  exact isPlainCharacter_of_toLower (all_eq_true.mp hall _ (spelling.start_lower hc))

theorem slash_not_mem_start : '/' ∉ spelling.start :=
  fun h => absurd (spelling.start_lower h) (by decide)

theorem filter_start : spelling.start.filter isKept = spelling.start :=
  filter_eq_self.mpr fun _ hc => isKept_of_isPlainCharacter (spelling.start_plain hc)

theorem filter_slash : spelling.slash.filter isKept = spelling.slash := by
  rcases spelling.slash_given with heq | heq
  · rw [heq, filter_nil]
  · rw [heq]
    rfl

/-- The text behind the scheme. -/
def rest : List Char :=
  spelling.start ++ (body.toList.filter isKept ++ spelling.slash)

theorem filter_rest : (spelling.start ++ (body.toList ++ spelling.slash)).filter isKept = spelling.rest := by
  rw [filter_append, filter_append, spelling.filter_start, spelling.filter_slash]
  rfl

theorem fromSlash_rest : fromSlash spelling.rest = pageOf body ++ spelling.slash := by
  unfold rest pageOf
  rw [fromSlash_append spelling.slash_not_mem_start]
  rcases spelling.slash_given with heq | heq
  · rw [heq, append_nil, append_nil]
  · rw [heq, fromSlash_concat]

theorem beforeSlash_rest : beforeSlash spelling.rest = spelling.start ++ siteOf body := by
  unfold rest siteOf
  rw [beforeSlash_append spelling.slash_not_mem_start]
  rcases spelling.slash_given with heq | heq
  · rw [heq, append_nil]
  · rw [heq, beforeSlash_concat]

/-- How an accepted spelling is read. Its path begins behind the host that the body has, or the body has a
scheme of its own. -/
inductive Reads (url : SplitUrl) : Prop
  | plain (marks : List Char) (hmarks : IsMarks marks)
      (hpage : url.path ++ marks = (pageOf body ++ spelling.slash).rdropWhile isPythonSpace)
      (hsite : url.netloc = spelling.start ++ siteOf body ∨
        spelling.start = [] ∧ url.netloc = (siteOf body).dropWhile isPythonSpace)
  | schemed (marks : List Char) (hmarks : IsMarks marks)
      (hpage : '/' :: '/' :: (url.netloc ++ (url.path ++ marks)) =
        (pageOf body ++ spelling.slash).rdropWhile isPythonSpace)
      (hsite : ∃ front c, siteOf body = front ++ [c, ':'] ∧ c.toLower = 's' ∧ ∀ d ∈ front, d ≠ ':' ∧ d ≠ '@')

theorem toList_text : spelling.text.toList =
    spelling.scheme ++ (spelling.start ++ (body.toList ++ spelling.slash)) :=
  String.toList_ofList

theorem filter_text : spelling.text.toList.filter isKept = spelling.scheme.filter isKept ++ spelling.rest := by
  rw [toList_text, filter_append, spelling.filter_rest]

theorem scheme_plain {c : Char} (hc : c ∈ spelling.scheme) : isPlainCharacter c = true := by
  rcases spelling.scheme_given with heq | heq
  · rw [heq] at hc
    exact absurd hc not_mem_nil
  · have hlower : c.toLower ∈ asciiLower spelling.scheme := mem_map_of_mem hc
    rw [heq] at hlower
    have hall : "https://".toList.all isPlainCharacter = true := by decide
    exact isPlainCharacter_of_toLower (all_eq_true.mp hall _ hlower)

theorem filter_scheme : spelling.scheme.filter isKept = spelling.scheme :=
  filter_eq_self.mpr fun _ hc => isKept_of_isPlainCharacter (spelling.scheme_plain hc)

/-- A text is cut at its first slash, and stripped behind it. -/
theorem cut_at_slash {text front back : List Char} (hfront : '/' ∉ front)
    (h : text.rdropWhile isPythonSpace = front ++ '/' :: back) :
    beforeSlash text = front ∧ '/' :: back = (fromSlash text).rdropWhile isPythonSpace := by
  obtain ⟨after, hafter⟩ := rdropWhile_prefix isPythonSpace text
  have hmem : '/' ∈ text.rdropWhile isPythonSpace := by
    rw [h]
    simp
  constructor
  · rw [← hafter, beforeSlash_append_of_mem hmem, h, beforeSlash_split hfront]
  · rw [← fromSlash_rdropWhile, h, fromSlash_split hfront]

theorem toLower_sign {c d : Char} (h : c.toLower = d) (hd : d.toNat < 97) : c = d := by
  unfold Char.toLower at h
  split at h
  · next hupper =>
    have hlow : 65 ≤ c.toNat := hupper.1
    have hhigh : c.toNat ≤ 90 := hupper.2
    have hval := congrArg (fun e : Char => e.toNat) h
    change (c.val + 32).toNat = d.toNat at hval
    rw [UInt32.toNat_add] at hval
    change (c.toNat + 32) % 4294967296 = d.toNat at hval
    omega
  · exact h

theorem asciiLower_signs {cs ds : List Char} (h : asciiLower cs = ds) (hds : ds.all (fun d => d.toNat < 97) = true) :
    cs = ds := by
  induction cs generalizing ds with
  | nil => exact h
  | cons c cs ih =>
    obtain rfl := h.symm
    rw [asciiLower, map_cons] at hds ⊢
    rw [all_cons, Bool.and_eq_true, decide_eq_true_eq] at hds
    congr 1
    · exact toLower_sign rfl hds.1
    · exact ih rfl hds.2

/-- The signs of a scheme. -/
theorem scheme_signs (h : asciiLower spelling.scheme = "https://".toList) :
    ∃ letters, spelling.scheme = letters ++ ['/'] ∧ "://".toList <:+ spelling.scheme := by
  have hsplit : asciiLower spelling.scheme = "https".toList ++ "://".toList := h
  obtain ⟨letters, signs, hscheme, -, hsigns⟩ := map_eq_append_iff.mp hsplit
  have heq : signs = "://".toList := asciiLower_signs hsigns (by decide)
  rw [hscheme, heq]
  exact ⟨letters ++ [':', '/'], by simp, suffix_append _ _⟩

theorem pythonStrip_scheme (h : asciiLower spelling.scheme = "https://".toList) :
    pythonStrip spelling.text = spelling.scheme ++
      (spelling.start ++ (body.toList ++ spelling.slash)).rdropWhile isPythonSpace := by
  obtain ⟨letters, hletters, -⟩ := spelling.scheme_signs h
  have hfirst : (spelling.scheme ++ (spelling.start ++ (body.toList ++ spelling.slash))).dropWhile isPythonSpace =
      spelling.scheme ++ (spelling.start ++ (body.toList ++ spelling.slash)) := by
    cases hscheme : spelling.scheme with
    | nil => exact absurd (hletters.symm.trans hscheme) (by simp)
    | cons c scheme =>
      have hc := isPythonSpace_of_isPlainCharacter (spelling.scheme_plain (hscheme ▸ mem_cons_self))
      exact dropWhile_cons_of_neg (by simp [hc])
  change (spelling.text.toList.dropWhile isPythonSpace).rdropWhile isPythonSpace = _
  rw [toList_text, hfirst, hletters, append_assoc, append_assoc]
  exact rdropWhile_split letters rfl

theorem hasScheme_scheme (h : asciiLower spelling.scheme = "https://".toList) :
    hasScheme (pythonStrip spelling.text) = true := by
  obtain ⟨-, -, front, hfront⟩ := spelling.scheme_signs h
  rw [spelling.pythonStrip_scheme h, ← hfront, append_assoc]
  unfold hasScheme
  rw [any_eq_true]
  refine ⟨_, (mem_tails _ _).mpr (suffix_append front _), ?_⟩
  exact isPrefixOf_iff_prefix.mpr (prefix_append _ _)

variable {bot : Deployment} {hosts : List String} {url : SplitUrl} {spelling}

theorem rdropWhile_rest (h : spelling.scheme = []) : (pythonStrip spelling.text).filter isKept =
    (spelling.rest.dropWhile isPythonSpace).rdropWhile isPythonSpace := by
  rw [filter_pythonStrip, filter_text, h, filter_nil, nil_append]

/-- The letter before the colon of a scheme that the body has. -/
theorem site_of_scheme {lead scheme : List Char} (hlead : ∀ c ∈ lead, c.toNat ≤ 0x20)
    (hscheme : asciiLower scheme = "https".toList)
    (h : (spelling.start ++ siteOf body).dropWhile isPythonSpace = lead ++ (scheme ++ [':'])) :
    ∃ front c, siteOf body = front ++ [c, ':'] ∧ c.toLower = 's' ∧ ∀ d ∈ front, d ≠ ':' ∧ d ≠ '@' := by
  have hsplit : asciiLower scheme = "http".toList ++ ['s'] := hscheme
  obtain ⟨letters, last, rfl, hletters, hlast⟩ := map_eq_append_iff.mp hsplit
  obtain ⟨c, rfl, hc⟩ := map_eq_singleton_iff.mp hlast
  have hwhole : spelling.start ++ siteOf body =
      ((spelling.start ++ siteOf body).takeWhile isPythonSpace ++ (lead ++ letters)) ++ [c, ':'] := by
    conv_lhs => rw [← takeWhile_append_dropWhile (p := isPythonSpace) (l := spelling.start ++ siteOf body), h]
    simp
  generalize hbefore : (spelling.start ++ siteOf body).takeWhile isPythonSpace ++ (lead ++ letters) = before at hwhole
  have hsigns : ∀ d ∈ before, d ≠ ':' ∧ d ≠ '@' := by
    intro d hd
    rw [← hbefore, mem_append, mem_append] at hd
    rcases hd with hd | hd | hd
    · have hspace := mem_takeWhile_imp hd
      constructor <;>
      · rintro rfl
        exact absurd hspace (by decide)
    · have hcontrol := hlead d hd
      constructor <;>
      · rintro rfl
        exact absurd hcontrol (by decide)
    · have hlower : d.toLower ∈ asciiLower letters := mem_map_of_mem hd
      rw [asciiLower, hletters] at hlower
      constructor <;>
      · rintro rfl
        exact absurd hlower (by decide)
  rcases append_eq_append_iff.mp hwhole with ⟨front, hfront, hsite⟩ | ⟨front, hfront, hsite⟩
  · exact ⟨front, c, hsite, hc, fun d hd => hsigns d (hfront ▸ mem_append_right _ hd)⟩
  · -- the host does not end with the start that is common to sites
    cases front with
    | nil => exact ⟨[], c, by simpa using hsite.symm, hc, by simp⟩
    | cons d front =>
      have hd := (cons.inj hsite).1
      have hstart := spelling.start_lower (c := d) (by simp [hfront])
      rw [← hd, hc] at hstart
      exact absurd hstart (by decide)

/-- What an accepted link does not have before its path. -/
theorem slash_not_mem_netloc {candidate : List Char} (h : IsLink bot candidate hosts url)
    (hnetloc : url.netloc ≠ []) :
    '/' ∉ url.netloc := by
  obtain ⟨lead, scheme, marks, hparts⟩ := h.parts hnetloc
  intro hmem
  exact absurd (hparts.netloc_plain _ hmem) (by decide)

theorem reads (h : IsLink bot (pythonStrip spelling.text) hosts url) (hnetloc : url.netloc ≠ [])
    (hpath : ∃ rest, url.path = '/' :: rest) : spelling.Reads url := by
  have hslash := slash_not_mem_netloc h hnetloc
  obtain ⟨page, hpage⟩ := hpath
  rcases spelling.scheme_given with hnone | hgiven
  · have hrest := rdropWhile_rest hnone
    cases hscheme : hasScheme (pythonStrip spelling.text) with
    | false =>
      obtain ⟨marks, hmarks, hread⟩ := h.plain hnetloc hscheme
      rw [hrest, hpage, cons_append] at hread
      obtain ⟨hsite, htail⟩ := cut_at_slash hslash hread
      rw [beforeSlash_dropWhile, beforeSlash_rest] at hsite
      rw [fromSlash_dropWhile, fromSlash_rest] at htail
      refine .plain marks hmarks (by rw [hpage]; exact htail) ?_
      cases hstart : spelling.start with
      | nil => exact .inr ⟨rfl, by rw [← hsite, hstart, nil_append]⟩
      | cons c start =>
        have hc := isPythonSpace_of_isPlainCharacter (spelling.start_plain (hstart ▸ mem_cons_self))
        rw [hstart, cons_append, dropWhile_cons_of_neg (by simp [hc])] at hsite
        exact .inl hsite.symm
    | true =>
      obtain ⟨lead, scheme, marks, hparts, hmarks⟩ := h.schemed hnetloc hscheme
      have hlower := hparts.scheme_lower.trans h.scheme
      have hfront : '/' ∉ lead ++ (scheme ++ [':']) := by
        intro hmem
        rcases mem_append.mp hmem with hmem | hmem
        · exact absurd (hparts.lead_control _ hmem) (by decide)
        · rcases mem_append.mp hmem with hmem | hmem
          · have hletter : Char.toLower '/' ∈ asciiLower scheme := mem_map_of_mem hmem
            rw [hlower] at hletter
            exact absurd hletter (by decide)
          · exact absurd hmem (by decide)
      have hread : (spelling.rest.dropWhile isPythonSpace).rdropWhile isPythonSpace =
          (lead ++ (scheme ++ [':'])) ++ '/' :: '/' :: (url.netloc ++ (url.path ++ marks)) := by
        rw [← hrest, hparts.whole]
        simp
      obtain ⟨hsite, htail⟩ := cut_at_slash hfront hread
      rw [beforeSlash_dropWhile, beforeSlash_rest] at hsite
      rw [fromSlash_dropWhile, fromSlash_rest] at htail
      exact .schemed marks hmarks htail (site_of_scheme hparts.lead_control hlower hsite)
  · obtain ⟨lead, scheme, marks, hparts, hmarks⟩ := h.schemed hnetloc (hasScheme_scheme spelling hgiven)
    have hwhole : (pythonStrip spelling.text).filter isKept =
        spelling.scheme ++ spelling.rest.rdropWhile isPythonSpace := by
      rw [pythonStrip_scheme spelling hgiven, filter_append, spelling.filter_scheme, rdropWhile_filter,
        spelling.filter_rest]
    have hread := hparts.behind h.scheme hwhole hgiven
    rw [hpage, cons_append] at hread
    obtain ⟨hsite, htail⟩ := cut_at_slash hslash hread
    rw [beforeSlash_rest] at hsite
    rw [fromSlash_rest] at htail
    exact .plain marks hmarks (by rw [hpage]; exact htail) (.inl hsite.symm)

end Spelling

/-! ## Two spellings -/

section Pairs

variable {page front front' marks marks' slash slash' : List Char}

/-- White space and a slash that follow. -/
def Slashed (front front' : List Char) : Prop :=
  ∃ space, (∀ c ∈ space, isPythonSpace c = true) ∧ front' = front ++ (space ++ ['/'])

/-- Two texts that differ in no more than a slash at the end, with white space before it. -/
def SameEnd (front front' : List Char) : Prop :=
  front = front' ∨ Slashed front front' ∨ Slashed front' front

def Unmarked (front : List Char) : Prop :=
  ∀ c ∈ front, c ≠ '?' ∧ c ≠ '#'

theorem Unmarked.eq (h : Unmarked front) (h' : Unmarked front') (hmarks : IsMarks marks) (hmarks' : IsMarks marks')
    (heq : front ++ marks = front' ++ marks') : front = front' := by
  have htake {front marks : List Char} (h : Unmarked front) (hmarks : IsMarks marks) :
      (front ++ marks).takeWhile (fun c => c ≠ '?' && c ≠ '#') = front := by
    have hnone : marks.takeWhile (fun c => c ≠ '?' && c ≠ '#') = [] := by
      rcases hmarks with rfl | rfl | rfl | rfl <;> rfl
    rw [takeWhile_append_of_pos, hnone, append_nil]
    intro c hc
    simpa using h c hc
  rw [← htake h hmarks, ← htake h' hmarks', heq]

theorem slashed_of_page (h : Unmarked front') (hmarks : IsMarks marks) (hmarks' : IsMarks marks')
    (hpage : front ++ marks = page.rdropWhile isPythonSpace)
    (hpage' : front' ++ marks' = (page ++ ['/']).rdropWhile isPythonSpace) : Slashed front front' := by
  have hslash : (page ++ ['/']).rdropWhile isPythonSpace = page ++ ['/'] :=
    rdropWhile_concat_neg _ _ _ (by decide)
  have hsplit : page.rdropWhile isPythonSpace ++ page.rtakeWhile isPythonSpace = page :=
    rdropWhile_append_rtakeWhile
  rw [hslash, ← hsplit, ← hpage] at hpage'
  have hnone' : marks' = [] := by
    have hlast := congrArg getLast? hpage'
    rcases hmarks' with rfl | rfl | rfl | rfl
    · rfl
    all_goals
      rw [getLast?_concat] at hlast
      simp [getLast?_append] at hlast
  rw [hnone', append_nil] at hpage'
  have hnone : marks = [] := by
    rcases hmarks with rfl | rfl | rfl | rfl
    · rfl
    · exact absurd rfl (h '?' (by simp [hpage'])).1
    · exact absurd rfl (h '#' (by simp [hpage'])).2
    · exact absurd rfl (h '?' (by simp [hpage'])).1
  refine ⟨page.rtakeWhile isPythonSpace, fun c hc => mem_rtakeWhile_imp hc, ?_⟩
  rw [hpage', hnone, append_nil, append_assoc]

theorem sameEnd_of_page (hslash : slash = [] ∨ slash = ['/']) (hslash' : slash' = [] ∨ slash' = ['/'])
    (h : Unmarked front) (h' : Unmarked front') (hmarks : IsMarks marks) (hmarks' : IsMarks marks')
    (hpage : front ++ marks = (page ++ slash).rdropWhile isPythonSpace)
    (hpage' : front' ++ marks' = (page ++ slash').rdropWhile isPythonSpace) : SameEnd front front' := by
  rcases hslash with rfl | rfl <;> rcases hslash' with rfl | rfl
  · exact .inl (h.eq h' hmarks hmarks' (hpage.trans hpage'.symm))
  · rw [append_nil] at hpage
    exact .inr (.inl (slashed_of_page h' hmarks hmarks' hpage hpage'))
  · rw [append_nil] at hpage'
    exact .inr (.inr (slashed_of_page h hmarks' hmarks hpage' hpage))
  · exact .inl (h.eq h' hmarks hmarks' (hpage.trans hpage'.symm))

end Pairs

/-! ## The hosts of two spellings -/

section Sites

variable {bot : Deployment} {url url' : SplitUrl} {site front back : List Char}

/-- The hosts that the normalisers accept. -/
def linkHosts : List String :=
  vkHosts ++ telegramProfileHosts

/-- A host as a spelling writes it: with a start that is common to sites, or without the white space. -/
def Sited (site netloc : List Char) : Prop :=
  (∃ start, asciiLower start ∈ ["".toList, "www.".toList, "m.".toList] ∧ netloc = start ++ site) ∨
    netloc = site.dropWhile isPythonSpace

/-- A host is folded part by part. -/
theorem hostname_append (hfold : FoldsCase bot.casefold) (hat : '@' ∉ url.netloc)
    (hnetloc : url.netloc = front ++ back) (hfront : ':' ∉ front) : url.hostname bot =
      bot.casefold (String.ofList (asciiLower front)) ++
        bot.casefold (String.ofList (asciiLower (cutAt (· = ':') back).1)) := by
  have hinfo : (url.netloc.reverse.takeWhile (· ≠ '@')).reverse = front ++ back := by
    rw [takeWhile_eq_self_iff.mpr, reverse_reverse, hnetloc]
    intro c hc
    exact decide_eq_true fun heq => hat (heq ▸ mem_reverse.mp hc)
  have hcut : (cutAt (· = ':') (front ++ back)).1 = front ++ (cutAt (· = ':') back).1 := by
    apply takeWhile_append_of_pos
    intro c hc
    rw [Bool.not_eq_true', decide_eq_false_iff_not]
    exact fun heq => hfront (heq ▸ hc)
  have hlower (front back : List Char) : String.ofList (asciiLower (front ++ back)) =
      String.ofList (asciiLower front) ++ String.ofList (asciiLower back) := by
    rw [asciiLower, map_append, String.ofList_append]
    rfl
  rw [SplitUrl.hostname, hinfo, hcut, hlower, hfold.each]

/-- No host is the name of a scheme. -/
theorem netloc_ne_scheme {c : Char} (hfold : FoldsCase bot.casefold) (hhost : url.hostname bot ∈ linkHosts)
    (hfront : ∀ d ∈ front, d ≠ ':' ∧ d ≠ '@') (hc : c.toLower = 's') : url.netloc ≠ front ++ [c, ':'] := by
  intro hnetloc
  have hat : '@' ∉ url.netloc := by
    rw [hnetloc]
    intro hmem
    rcases mem_append.mp hmem with hmem | hmem
    · exact (hfront _ hmem).2 rfl
    · rcases mem_cons.mp hmem with rfl | hmem
      · exact absurd hc (by decide)
      · exact absurd hmem (by decide)
  have hcolon : c ≠ ':' := by
    rintro rfl
    exact absurd hc (by decide)
  have hcut : (cutAt (· = ':') [c, ':']).1 = [c] := by simp [cutAt, hcolon]
  have hname := hostname_append hfold hat hnetloc fun h => (hfront _ h).1 rfl
  have hletter : bot.casefold (String.ofList (asciiLower [c])) = "s" := by
    rw [asciiLower, map_singleton, hc]
    exact hfold.literal (by decide)
  rw [hcut, hletter] at hname
  have hall : ∀ host ∈ linkHosts, host.toList.getLast? ≠ some 's' := by decide
  apply hall _ hhost
  rw [hname, String.toList_append]
  exact getLast?_concat

theorem not_mem_of_start {c : Char} {start : List Char}
    (hstart : asciiLower start ∈ ["".toList, "www.".toList, "m.".toList]) (hc : c.toLower ∉ ['w', 'm', '.']) :
    c ∉ start := by
  intro hmem
  exact hc (mem_of_start hstart hmem)

theorem fold_start {start : List Char} (hfold : FoldsCase bot.casefold)
    (hstart : asciiLower start ∈ ["".toList, "www.".toList, "m.".toList]) :
    bot.casefold (String.ofList (asciiLower start)) ∈ ["", "www.", "m."] := by
  simp only [mem_cons, not_mem_nil, or_false] at hstart
  rcases hstart with heq | heq | heq
  · have hfolded : bot.casefold "" = "" := hfold.literal (by decide)
    rw [heq, String.ofList_toList, hfolded]
    exact mem_cons_self
  · have hfolded : bot.casefold "www." = "www." := hfold.literal (by decide)
    rw [heq, String.ofList_toList, hfolded]
    decide
  · have hfolded : bot.casefold "m." = "m." := hfold.literal (by decide)
    rw [heq, String.ofList_toList, hfolded]
    decide

/-- Two hosts of Telegram of one body are the same one. -/
theorem postHost_of_starts {first first' tail : String} (hfirst : first ∈ ["", "www.", "m."])
    (hfirst' : first' ∈ ["", "www.", "m."]) (h : first ++ tail ∈ telegramProfileHosts)
    (h' : first' ++ tail ∈ telegramProfileHosts) : postHost (first ++ tail) = postHost (first' ++ tail) := by
  have hall : ∀ host ∈ telegramProfileHosts, ∀ host' ∈ telegramProfileHosts, ∀ first ∈ ["", "www.", "m."],
      ∀ first' ∈ ["", "www.", "m."], (afterPrefix first host).isSome = true →
        afterPrefix first host = afterPrefix first' host' → postHost host = postHost host' := by decide
  have hafter (first : String) : afterPrefix first (first ++ tail) = some (String.ofList tail.toList) :=
    afterPrefix_append String.toList_append
  exact hall _ h _ h' first hfirst first' hfirst' (by rw [hafter]; rfl) ((hafter first).trans (hafter first').symm)

theorem postHost_of_suffix {first host : String} (h : first ++ host ∈ telegramProfileHosts)
    (h' : host ∈ telegramProfileHosts) : postHost (first ++ host) = postHost host := by
  have hall : ∀ host ∈ telegramProfileHosts, ∀ host' ∈ telegramProfileHosts,
      host'.toList <:+ host.toList → postHost host = postHost host' := by decide
  apply hall _ h _ h'
  rw [String.toList_append]
  exact suffix_append _ _

theorem postHost_of_sited (hfold : FoldsCase bot.casefold) (hat : '@' ∉ url.netloc) (hat' : '@' ∉ url'.netloc)
    (hhost : url.hostname bot ∈ telegramProfileHosts) (hhost' : url'.hostname bot ∈ telegramProfileHosts)
    (hsited : Sited site url.netloc) (hsited' : Sited site url'.netloc) :
    postHost (url.hostname bot) = postHost (url'.hostname bot) := by
  -- the white space before a host is a start too
  have hspace {url : SplitUrl} (hat : '@' ∉ url.netloc) (hnetloc : url.netloc = site.dropWhile isPythonSpace)
      {url' : SplitUrl} {start : List Char} (hat' : '@' ∉ url'.netloc)
      (hstart : asciiLower start ∈ ["".toList, "www.".toList, "m.".toList]) (hnetloc' : url'.netloc = start ++ site) :
      ∃ first, url'.hostname bot = first ++ url.hostname bot := by
    have hwhole : url'.netloc = (start ++ site.takeWhile isPythonSpace) ++ url.netloc := by
      rw [hnetloc, append_assoc, takeWhile_append_dropWhile, hnetloc']
    have hcolon : ':' ∉ start ++ site.takeWhile isPythonSpace := by
      intro hmem
      rcases mem_append.mp hmem with hmem | hmem
      · exact not_mem_of_start hstart (by decide) hmem
      · exact absurd (mem_takeWhile_imp hmem) (by decide)
    have hname : url.hostname bot = bot.casefold "" ++ _ :=
      hostname_append hfold hat (nil_append _).symm not_mem_nil
    rw [hfold.empty, String.empty_append] at hname
    rw [hname]
    exact ⟨_, hostname_append hfold hat' hwhole hcolon⟩
  rcases hsited with ⟨start, hstart, hnetloc⟩ | hnetloc <;> rcases hsited' with ⟨start', hstart', hnetloc'⟩ | hnetloc'
  · have hname := hostname_append hfold hat hnetloc (not_mem_of_start hstart (by decide))
    have hname' := hostname_append hfold hat' hnetloc' (not_mem_of_start hstart' (by decide))
    rw [hname] at hhost ⊢
    rw [hname'] at hhost' ⊢
    exact postHost_of_starts (fold_start hfold hstart) (fold_start hfold hstart') hhost hhost'
  · obtain ⟨first, hfirst⟩ := hspace hat' hnetloc' hat hstart hnetloc
    rw [hfirst] at hhost ⊢
    exact postHost_of_suffix hhost hhost'
  · obtain ⟨first, hfirst⟩ := hspace hat hnetloc hat' hstart' hnetloc'
    rw [hfirst] at hhost' ⊢
    exact (postHost_of_suffix hhost' hhost).symm
  · have hinfo : url.hostname bot = url'.hostname bot := by
      rw [SplitUrl.hostname, SplitUrl.hostname, hnetloc, hnetloc']
    rw [hinfo]

end Sites

namespace Spelling

variable {bot : Deployment} {hosts : List String} {body : String} {spelling spelling' : Spelling body}
  {url url' : SplitUrl}

theorem unmarked_of_link {candidate : List Char} (h : IsLink bot candidate hosts url) (hnetloc : url.netloc ≠ []) :
    Unmarked url.netloc ∧ Unmarked url.path := by
  obtain ⟨lead, scheme, marks, hparts⟩ := h.parts hnetloc
  constructor
  · intro c hc
    have hplain := hparts.netloc_plain c hc
    simp only [mem_cons, not_mem_nil, or_false, not_or] at hplain
    exact hplain.2
  · exact hparts.path_plain

/-- A host that is accepted is not the scheme of the body. -/
theorem not_schemed (hfold : FoldsCase bot.casefold) (hhost : url.hostname bot ∈ linkHosts)
    (hsite : url.netloc = spelling.start ++ siteOf body ∨
      spelling.start = [] ∧ url.netloc = (siteOf body).dropWhile isPythonSpace) {front : List Char} {c : Char}
    (hbody : siteOf body = front ++ [c, ':']) (hc : c.toLower = 's') (hfront : ∀ d ∈ front, d ≠ ':' ∧ d ≠ '@') :
    False := by
  rcases hsite with hsite | ⟨-, hsite⟩
  · rw [hbody, ← append_assoc] at hsite
    apply netloc_ne_scheme hfold hhost _ hc hsite
    intro d hd
    rcases mem_append.mp hd with hd | hd
    · constructor
      · rintro rfl
        exact absurd (spelling.start_lower hd) (by decide)
      · rintro rfl
        exact absurd (spelling.start_lower hd) (by decide)
    · exact hfront d hd
  · have hspace : isPythonSpace c = false := by
      apply isPythonSpace_of_isPlainCharacter
      apply isPlainCharacter_of_toLower
      rw [hc]
      rfl
    have hdrop : (front ++ [c, ':']).dropWhile isPythonSpace = front.dropWhile isPythonSpace ++ [c, ':'] := by
      rw [dropWhile_append]
      split
      · next hnone =>
        rw [List.isEmpty_iff.mp hnone, dropWhile_cons_of_neg (by simp [hspace]), nil_append]
      · rfl
    rw [hbody, hdrop] at hsite
    exact netloc_ne_scheme hfold hhost (fun d hd => hfront d ((dropWhile_suffix _).mem hd)) hc hsite

theorem sited_of_plain {netloc : List Char} (h : netloc = spelling.start ++ siteOf body ∨
    spelling.start = [] ∧ netloc = (siteOf body).dropWhile isPythonSpace) : Sited (siteOf body) netloc := by
  rcases h with h | ⟨-, h⟩
  · exact .inl ⟨spelling.start, spelling.start_given, h⟩
  · exact .inr h

theorem sited_self (netloc : List Char) : Sited netloc netloc :=
  .inl ⟨[], mem_cons_self, rfl⟩

/-- Two hosts that are followed by one page. -/
theorem sameEnd_of_netloc (hnetloc : '/' ∉ url.netloc) (hnetloc' : '/' ∉ url'.netloc)
    (hpath : ∃ rest, url.path = '/' :: rest) (hpath' : ∃ rest, url'.path = '/' :: rest)
    (h : SameEnd ('/' :: '/' :: (url.netloc ++ url.path)) ('/' :: '/' :: (url'.netloc ++ url'.path))) :
    url.netloc = url'.netloc ∧ SameEnd url.path url'.path := by
  have hslashed {netloc netloc' path path' : List Char} (hnetloc : '/' ∉ netloc) (hnetloc' : '/' ∉ netloc')
      (hpath : ∃ rest, path = '/' :: rest) (hpath' : ∃ rest, path' = '/' :: rest) {after : List Char}
      (h : '/' :: '/' :: (netloc' ++ path') = '/' :: '/' :: (netloc ++ path) ++ after) :
      netloc = netloc' ∧ path' = path ++ after := by
    obtain ⟨rest, rfl⟩ := hpath
    obtain ⟨rest', rfl⟩ := hpath'
    simp only [cons_append, cons.injEq, true_and, append_assoc] at h
    have hsite := congrArg beforeSlash h
    rw [beforeSlash_split hnetloc', beforeSlash_split hnetloc] at hsite
    have hpage := congrArg fromSlash h
    rw [fromSlash_split hnetloc', fromSlash_split hnetloc] at hpage
    exact ⟨hsite.symm, hpage⟩
  rcases h with heq | ⟨space, hspace, heq⟩ | ⟨space, hspace, heq⟩
  · have hboth := hslashed hnetloc hnetloc' hpath hpath' (heq.symm.trans (append_nil _).symm)
    rw [append_nil] at hboth
    exact ⟨hboth.1, .inl hboth.2.symm⟩
  · have hboth := hslashed hnetloc hnetloc' hpath hpath' heq
    exact ⟨hboth.1, .inr (.inl ⟨space, hspace, hboth.2⟩)⟩
  · have hboth := hslashed hnetloc' hnetloc hpath' hpath heq
    exact ⟨hboth.1.symm, .inr (.inr ⟨space, hspace, hboth.2⟩)⟩

/-- Two accepted spellings of one body are at one host and have one path, up to a slash at the end. -/
theorem same (hfold : FoldsCase bot.casefold) (hhosts : hosts ⊆ linkHosts)
    (h : IsLink bot (pythonStrip spelling.text) hosts url) (h' : IsLink bot (pythonStrip spelling'.text) hosts url')
    (hpath : ∃ rest, url.path = '/' :: rest) (hpath' : ∃ rest, url'.path = '/' :: rest) :
    SameEnd url.path url'.path ∧ ∃ site, Sited site url.netloc ∧ Sited site url'.netloc := by
  have hempty : "" ∉ hosts := fun hmem => absurd (hhosts hmem) (by decide)
  have hnetloc := h.netloc_ne_nil hfold hempty
  have hnetloc' := h'.netloc_ne_nil hfold hempty
  obtain ⟨hunmarked, hplain⟩ := unmarked_of_link h hnetloc
  obtain ⟨hunmarked', hplain'⟩ := unmarked_of_link h' hnetloc'
  have hwhole {url : SplitUrl} (hunmarked : Unmarked url.netloc) (hplain : Unmarked url.path) :
      Unmarked ('/' :: '/' :: (url.netloc ++ url.path)) := by
    intro c hc
    simp only [mem_cons, mem_append] at hc
    rcases hc with rfl | rfl | hc | hc
    · decide
    · decide
    · exact hunmarked c hc
    · exact hplain c hc
  cases reads h hnetloc hpath with
  | plain marks hmarks hpage hsite =>
    cases reads h' hnetloc' hpath' with
    | plain marks' hmarks' hpage' hsite' =>
      exact ⟨sameEnd_of_page spelling.slash_given spelling'.slash_given hplain hplain' hmarks hmarks' hpage hpage',
        _, sited_of_plain hsite, sited_of_plain hsite'⟩
    | schemed marks' hmarks' hpage' hsite' =>
      obtain ⟨front, c, hbody, hc, hfront⟩ := hsite'
      exact (not_schemed hfold (hhosts h.host) hsite hbody hc hfront).elim
  | schemed marks hmarks hpage hsite =>
    cases reads h' hnetloc' hpath' with
    | plain marks' hmarks' hpage' hsite' =>
      obtain ⟨front, c, hbody, hc, hfront⟩ := hsite
      exact (not_schemed hfold (hhosts h'.host) hsite' hbody hc hfront).elim
    | schemed marks' hmarks' hpage' hsite' =>
      rw [← append_assoc] at hpage hpage'
      have hend := sameEnd_of_page spelling.slash_given spelling'.slash_given (hwhole hunmarked hplain)
        (hwhole hunmarked' hplain') hmarks hmarks' hpage hpage'
      obtain ⟨heq, hsame⟩ := sameEnd_of_netloc (slash_not_mem_netloc h hnetloc) (slash_not_mem_netloc h' hnetloc')
        hpath hpath' hend
      exact ⟨hsame, url.netloc, sited_self _, heq ▸ sited_self _⟩

end Spelling

/-! ## Pages and posts -/

section Pages

variable {bot : Deployment} {path path' : List Char} {url url' : SplitUrl}

/-- The path of a page: no white space, and at most the one slash at the end. -/
def IsPage (path : List Char) : Prop :=
  (∀ c ∈ withoutFinalSlash path, isPythonSpace c = false) ∧ (withoutFinalSlash path).getLast? ≠ some '/'

theorem withoutFinalSlash_of_slashed (hpage : IsPage path') (h : Slashed path path') :
    withoutFinalSlash path = withoutFinalSlash path' := by
  obtain ⟨space, hspace, rfl⟩ := h
  have hbase : withoutFinalSlash (path ++ (space ++ ['/'])) = path ++ space := by
    rw [withoutFinalSlash, if_pos (by simp), ← append_assoc, dropLast_concat]
  have hnone : space = [] := by
    cases space with
    | nil => rfl
    | cons c space =>
      have hc := hpage.1 c (by rw [hbase]; simp)
      rw [hspace c mem_cons_self] at hc
      exact absurd hc (by decide)
  have hlast := hpage.2
  rw [hbase, hnone, append_nil] at hlast
  rw [hbase, hnone, append_nil, withoutFinalSlash, if_neg hlast]

theorem withoutFinalSlash_of_sameEnd (hpage : IsPage path) (hpage' : IsPage path') (h : SameEnd path path') :
    withoutFinalSlash path = withoutFinalSlash path' := by
  rcases h with rfl | h | h
  · rfl
  · exact withoutFinalSlash_of_slashed hpage' h
  · exact (withoutFinalSlash_of_slashed hpage h).symm

/-- The path of a page of VK without the slash at the end. -/
theorem vkPath_shape (h : isVkPath path = true) :
    ∃ name, withoutFinalSlash path = '/' :: name ∧ isVkName name = true := by
  obtain ⟨hrooted, hname⟩ := isVkPath_iff.mp h
  cases hbase : withoutFinalSlash path with
  | nil =>
    rw [hbase] at hname
    exact absurd hname (by decide)
  | cons c name =>
    rw [hbase] at hname
    have hc : path.head? = some c := by
      rcases withoutFinalSlash_cases path with heq | heq
      · rw [heq, hbase, head?_cons]
      · rw [heq, hbase, cons_append, head?_cons]
    rw [hrooted] at hc
    exact ⟨name, by rw [Option.some.inj hc], hname⟩

theorem isPage_of_isVkPath (h : isVkPath path = true) : IsPage path := by
  obtain ⟨name, hbase, hname⟩ := vkPath_shape h
  have hsome : name ≠ [] := by
    rintro rfl
    exact absurd hname (by decide)
  rw [IsPage, hbase]
  constructor
  · intro c hc
    apply isPythonSpace_of_isPlainCharacter
    rcases mem_cons.mp hc with rfl | hc
    · rfl
    · exact (isPlainCharacter_of_isVkName hname hc).1
  · rw [getLast?_cons, getLast?_eq_some_getLast hsome, Option.getD_some]
    intro heq
    exact (isPlainCharacter_of_isVkName hname (getLast_mem hsome)).2.1 (Option.some.inj heq)

theorem isPage_of_isPostPath (h : IsPostPath (withoutFinalSlash path)) : IsPage path := by
  obtain ⟨c, hlast, hc⟩ := h.last
  refine ⟨fun d hd => isPythonSpace_of_isPlainCharacter (h.plain hd).1, ?_⟩
  rw [hlast]
  exact fun heq => hc (Option.some.inj heq)

theorem rooted_of_page {base : List Char} (h : withoutFinalSlash path = '/' :: base) :
    ∃ rest, path = '/' :: rest := by
  rcases withoutFinalSlash_cases path with heq | heq
  · exact ⟨base, heq.trans h⟩
  · exact ⟨base ++ ['/'], by rw [heq, h, cons_append]⟩

theorem rooted_of_post (h : IsPostPath (withoutFinalSlash path)) : ∃ rest, path = '/' :: rest := by
  obtain ⟨base, hbase⟩ := h.rooted
  exact rooted_of_page hbase

end Pages

/-! ## Profiles -/

section Profiles

variable {bot : Deployment} {path path' : List Char} {value text : String}

theorem flatten_splitOn (path : List Char) : (path.splitOn '/').flatten = path.filter (· ≠ '/') := by
  induction path with
  | nil => rfl
  | cons c path ih =>
    have hsome : path.splitOn '/' ≠ [] := splitOnP_ne_nil _ _
    rw [splitOn, splitOnP_cons_eq_if_modifyHead, ← splitOn]
    by_cases hc : c = '/'
    · simp [hc, ih]
    · cases hparts : path.splitOn '/' with
      | nil => exact absurd hparts hsome
      | cons part parts =>
        rw [hparts] at ih
        simpa [hc] using ih

/-- The name of a profile is what its path has besides the slashes. -/
theorem part_of_path {part : List Char} (h : (path.splitOn '/').filter (fun part => !part.isEmpty) = [part]) :
    part = path.filter (· ≠ '/') := by
  have hflatten : ((path.splitOn '/').filter (fun part => !part.isEmpty)).flatten = (path.splitOn '/').flatten :=
    flatten_filter_not_isEmpty
  rw [h, flatten_splitOn, flatten_singleton] at hflatten
  exact hflatten

theorem pythonStrip_space {part space : List Char} (hspace : ∀ c ∈ space, isPythonSpace c = true) :
    pythonStrip (String.ofList (part ++ space)) = pythonStrip (String.ofList part) := by
  have hlist (cs : List Char) : (String.ofList cs).toList = cs := String.toList_ofList
  have hback (cs : List Char) : (cs ++ space).rdropWhile isPythonSpace = cs.rdropWhile isPythonSpace := by
    unfold rdropWhile
    rw [reverse_append, dropWhile_append_of_pos fun c hc => hspace c (mem_reverse.mp hc)]
  change ((String.ofList (part ++ space)).toList.dropWhile isPythonSpace).rdropWhile isPythonSpace =
    ((String.ofList part).toList.dropWhile isPythonSpace).rdropWhile isPythonSpace
  rw [hlist, hlist, dropWhile_append]
  split
  · next hnone =>
    rw [List.isEmpty_iff.mp hnone, dropWhile_eq_nil_iff.mpr hspace]
  · exact hback _

theorem normalizeTelegramHandle_congr {text text' : String} (h : pythonStrip text = pythonStrip text') :
    normalizeTelegramHandle bot (some text) = normalizeTelegramHandle bot (some text') := by
  unfold normalizeTelegramHandle
  rw [Option.map_some, Option.map_some, h]

theorem handleOf_slashed {part part' : List Char}
    (hpart : (path.splitOn '/').filter (fun part => !part.isEmpty) = [part])
    (hpart' : (path'.splitOn '/').filter (fun part => !part.isEmpty) = [part']) (h : Slashed path path') :
    handleOf bot part = handleOf bot part' := by
  obtain ⟨space, hspace, rfl⟩ := h
  have hkept : space.filter (· ≠ '/') = space := by
    rw [filter_eq_self]
    intro c hc
    refine decide_eq_true fun heq => ?_
    rw [heq] at hc
    exact absurd (hspace _ hc) (by decide)
  have hwhole : part' = part ++ space := by
    rw [part_of_path hpart', part_of_path hpart, filter_append, filter_append, hkept]
    simp
  unfold handleOf
  rw [hwhole, normalizeTelegramHandle_congr (pythonStrip_space hspace)]

theorem handleOf_sameEnd {part part' : List Char}
    (hpart : (path.splitOn '/').filter (fun part => !part.isEmpty) = [part])
    (hpart' : (path'.splitOn '/').filter (fun part => !part.isEmpty) = [part']) (h : SameEnd path path') :
    handleOf bot part = handleOf bot part' := by
  rcases h with rfl | h | h
  · have heq := hpart.symm.trans hpart'
    rw [(cons.inj heq).1]
  · exact handleOf_slashed hpart hpart' h
  · exact (handleOf_slashed hpart' hpart h).symm

/-! ## Names -/

theorem mem_pythonStrip {c : Char} (hc : c ∈ text.toList) (hspace : isPythonSpace c = false) :
    c ∈ pythonStrip text := by
  change c ∈ (text.toList.dropWhile isPythonSpace).rdropWhile isPythonSpace
  have hfront : c ∈ text.toList.dropWhile isPythonSpace := by
    rw [← takeWhile_append_dropWhile (p := isPythonSpace) (l := text.toList), mem_append] at hc
    rcases hc with hc | hc
    · rw [mem_takeWhile_imp hc] at hspace
      exact absurd hspace (by decide)
    · exact hc
  rw [← rdropWhile_append_rtakeWhile (p := isPythonSpace) (l := text.toList.dropWhile isPythonSpace),
    mem_append] at hfront
  rcases hfront with hfront | hfront
  · exact hfront
  · rw [mem_rtakeWhile_imp hfront] at hspace
    exact absurd hspace (by decide)

/-- A sign of a text is in the folded text. -/
theorem FoldsCase.mem {casefold : String → String} (h : FoldsCase casefold) {c : Char} (hascii : c.toNat < 128)
    (hlower : c.toLower = c) (hc : c ∈ text.toList) : c ∈ (casefold text).toList := by
  obtain ⟨front, back, hsplit⟩ := append_of_mem hc
  have htext : text = String.ofList front ++ (String.singleton c ++ String.ofList back) := by
    apply String.toList_inj.mp
    rw [hsplit]
    simp
  rw [htext, h.each, h.each, h.ascii c hascii, hlower]
  simp

/-- The signs of a link that no name has. -/
def linkSigns : List Char :=
  ['/', '.']

theorem linkSigns_plain {c : Char} (hc : c ∈ linkSigns) : c.toNat < 128 ∧ c.toLower = c ∧
    isPythonSpace c = false ∧ c ≠ '@' ∧ c.isDigit = false ∧ c ∉ ['[', 'i', 'd', '|', ']'] := by
  simp only [linkSigns, mem_cons, not_mem_nil, or_false] at hc
  rcases hc with rfl | rfl <;> decide

/-- The text of a name has none of the signs of a link. -/
theorem isTelegramName_signs {name : String} (h : isTelegramName name = true) : ∀ c ∈ linkSigns, c ∉ name.toList := by
  intro c hc hmem
  have hchar := all_eq_true.mp (Bool.and_eq_true_iff.mp h).2 c hmem
  simp only [linkSigns, mem_cons, not_mem_nil, or_false] at hc
  rcases hc with rfl | rfl <;> exact absurd hchar (by decide)

theorem isTelegramName_fold (hfold : FoldsCase bot.casefold) (h : isTelegramName (bot.casefold text) = true) :
    ∀ c ∈ linkSigns, c ∉ text.toList := by
  intro c hc hmem
  obtain ⟨hascii, hlower, -⟩ := linkSigns_plain hc
  exact isTelegramName_signs h c hc (hfold.mem hascii hlower hmem)

theorem toList_of_afterPrefix {start rest : String} (h : afterPrefix start text = some rest) :
    text.toList = start.toList ++ rest.toList := by
  have hlist : (String.ofList (text.toList.drop start.toList.length)).toList =
      text.toList.drop start.toList.length := String.toList_ofList
  obtain ⟨hbegins, hrest⟩ := Option.ite_none_right_eq_some.mp h
  obtain ⟨back, hback⟩ := isPrefixOf_iff_prefix.mp hbegins
  rw [← Option.some.inj hrest, hlist, ← hback, drop_left]

/-- What is accepted where a handle is asked for has none of them. -/
theorem signs_of_handle (hfold : FoldsCase bot.casefold) {result : Option String}
    (h : normalizeTelegramHandle bot (some text) = .ok result) : ∀ c ∈ linkSigns, c ∉ text.toList := by
  intro c hc hmem
  obtain ⟨-, -, hspace, hat, -⟩ := linkSigns_plain hc
  have hlist : (String.ofList (pythonStrip text)).toList = pythonStrip text := String.toList_ofList
  have hstripped : c ∈ (String.ofList (pythonStrip text)).toList := by
    rw [hlist]
    exact mem_pythonStrip hmem hspace
  unfold normalizeTelegramHandle at h
  rw [Option.map_some] at h
  dsimp only at h
  generalize String.ofList (pythonStrip text) = stripped at h hstripped
  split at h
  · next hnone =>
    have hall : ["", "-", "Пропустить"].all (fun text => linkSigns.all (· ∉ text.toList)) = true := by decide
    exact of_decide_eq_true (all_eq_true.mp (all_eq_true.mp hall _ hnone) _ hc) hstripped
  · split at h
    · next hname =>
      refine isTelegramName_fold hfold hname c hc ?_
      cases hafter : afterPrefix "@" stripped with
      | none => exact hstripped
      | some rest =>
        rw [toList_of_afterPrefix hafter, mem_append] at hstripped
        rcases hstripped with heq | hrest
        · exact absurd (mem_singleton.mp heq) hat
        · exact hrest
    · exact nomatch h

/-- The texts of a mention. -/
theorem mention_shape {candidate handle : List Char} (h : vkTelegramMention candidate = some handle) :
    ∃ number name, candidate = "[id".toList ++ (number ++ '|' :: '@' :: (name ++ [']'])) ∧ handle = '@' :: name ∧
      number.all Char.isDigit = true ∧ isTelegramName (String.ofList name) = true := by
  unfold vkTelegramMention at h
  dsimp only [cutAt] at h
  obtain ⟨hcond, hhandle⟩ := Option.ite_none_right_eq_some.mp h
  rw [Option.some.injEq] at hhandle
  simp only [Bool.and_eq_true, decide_eq_true_eq] at hcond
  obtain ⟨⟨⟨⟨⟨hstart, hnumber⟩, -⟩, hlast⟩, hfirst⟩, hname⟩ := hcond
  obtain ⟨rest, rfl⟩ := isPrefixOf_iff_prefix.mp hstart
  have hdrop : ("[id".toList ++ rest).drop "[id".length = rest := rfl
  rw [hdrop] at hnumber hlast hfirst hname hhandle
  have hsplit := takeWhile_append_dropWhile (p := fun c => !decide (c = '|')) (l := rest)
  cases hbehind : rest.dropWhile (fun c => !decide (c = '|')) with
  | nil =>
    rw [hbehind] at hfirst
    exact absurd hfirst (by decide)
  | cons c tail =>
    have hc := not_of_dropWhile_eq_cons hbehind
    rw [Bool.not_eq_false', decide_eq_true_eq] at hc
    rw [hbehind, hc] at hsplit
    rw [hbehind, drop_succ_cons, drop_zero] at hlast hfirst hname hhandle
    obtain ⟨front, rfl⟩ := getLast?_eq_some_iff.mp hlast
    cases front with
    | nil => exact absurd hfirst (by decide)
    | cons d name =>
      obtain rfl : d = '@' := by simpa using hfirst
      have htail : (('@' :: name ++ [']']).drop 1).dropLast = name := by simp
      rw [htail] at hname
      rw [dropLast_concat] at hhandle
      exact ⟨_, name, congrArg _ hsplit.symm, hhandle.symm, hnumber, hname⟩

/-- A mention of a profile has none of them either. -/
theorem signs_of_mention {candidate handle : List Char} (h : vkTelegramMention candidate = some handle) :
    ∀ c ∈ linkSigns, c ∉ candidate := by
  obtain ⟨number, name, rfl, -, hnumber, hname⟩ := mention_shape h
  have hlist : (String.ofList name).toList = name := String.toList_ofList
  intro c hc hmem
  obtain ⟨-, -, -, hat, hdigit, hsign⟩ := linkSigns_plain hc
  have hother := isTelegramName_signs hname c hc
  rw [hlist] at hother
  simp only [mem_cons, not_mem_nil, or_false, not_or] at hsign
  rcases mem_append.mp hmem with hmem | hmem
  · have hstart : c = '[' ∨ c = 'i' ∨ c = 'd' := by simpa using hmem
    tauto
  · rcases mem_append.mp hmem with hmem | hmem
    · rw [all_eq_true.mp hnumber c hmem] at hdigit
      exact absurd hdigit (by decide)
    · simp only [mem_cons, mem_append, not_mem_nil, or_false] at hmem
      tauto

/-- A text without the signs of a link is spelled in one way. -/
theorem Spelling.text_eq_body {body : String} (spelling : Spelling body)
    (h : ∀ c ∈ linkSigns, c ∉ spelling.text.toList) : spelling.text = body := by
  have hslash := h '/' (by decide)
  have hdot := h '.' (by decide)
  rw [spelling.toList_text] at hslash hdot
  simp only [mem_append, not_or] at hslash hdot
  have hscheme : spelling.scheme = [] := by
    rcases spelling.scheme_given with heq | heq
    · exact heq
    · obtain ⟨letters, hletters, -⟩ := spelling.scheme_signs heq
      rw [hletters] at hslash
      exact absurd (mem_append_right _ mem_cons_self) hslash.1
  have hstart : spelling.start = [] := by
    have hgiven := spelling.start_given
    have hsign (h : '.' ∈ asciiLower spelling.start) : '.' ∈ spelling.start := by
      obtain ⟨c, hc, hlower⟩ := mem_map.mp h
      rwa [toLower_sign hlower (by decide)] at hc
    simp only [mem_cons, not_mem_nil, or_false] at hgiven
    rcases hgiven with heq | heq | heq
    · exact map_eq_nil_iff.mp heq
    · exact absurd (hsign (by rw [heq]; decide)) hdot.2.1
    · exact absurd (hsign (by rw [heq]; decide)) hdot.2.1
  have hend : spelling.slash = [] := by
    rcases spelling.slash_given with heq | heq
    · exact heq
    · rw [heq] at hslash
      exact absurd mem_cons_self hslash.2.2.2
  apply String.toList_inj.mp
  rw [spelling.toList_text, hscheme, hstart, hend, nil_append, nil_append, append_nil]

theorem profileCandidate_cases (value : String) :
    profileCandidate value = pythonStrip value ∨ (profileCandidate value).head? = some '@' ∧
      ∀ c ∈ linkSigns, c ∉ pythonStrip value := by
  unfold profileCandidate
  cases hmention : vkTelegramMention (pythonStrip value) with
  | none => exact .inl rfl
  | some handle =>
    obtain ⟨number, name, -, rfl, -⟩ := mention_shape hmention
    exact .inr ⟨rfl, signs_of_mention hmention⟩

/-- A profile that is given by its handle has none of the signs of a link. -/
theorem signs_of_at {handle : String} (hfold : FoldsCase bot.casefold)
    (hat : (profileCandidate value).head? = some '@')
    (h : normalizeTelegramProfile bot value = .ok handle) : ∀ c ∈ linkSigns, c ∉ value.toList := by
  have hlist : (String.ofList (profileCandidate value)).toList = profileCandidate value := String.toList_ofList
  rw [normalizeTelegramProfile_at hat, handleOf_eq_ok] at h
  have hsigns := signs_of_handle hfold h
  rw [hlist] at hsigns
  intro c hc hmem
  have hstripped := mem_pythonStrip hmem (linkSigns_plain hc).2.2.1
  rcases profileCandidate_cases value with heq | ⟨-, hnone⟩
  · rw [heq] at hsigns
    exact hsigns c hc hstripped
  · exact hnone c hc hstripped

theorem rooted_of_profile {hosts : List String} {candidate part : List Char} {url : SplitUrl}
    (hfold : FoldsCase bot.casefold) (hhosts : "" ∉ hosts) (h : IsLink bot candidate hosts url)
    (hpart : (url.path.splitOn '/').filter (fun part => !part.isEmpty) = [part]) :
    ∃ rest, url.path = '/' :: rest := by
  obtain ⟨lead, scheme, marks, hparts⟩ := h.parts (h.netloc_ne_nil hfold hhosts)
  rcases hparts.path_rooted with hnone | hrooted
  · have hparts : (([] : List Char).splitOn '/').filter (fun part => !part.isEmpty) = [] := by decide
    rw [hnone, hparts] at hpart
    exact nomatch hpart
  · exact hrooted

/-- A body without a slash is no link to a profile. -/
theorem not_link_of_signs {body : String} {spelling : Spelling body} {hosts : List String} {url : SplitUrl}
    {part : List Char} (hfold : FoldsCase bot.casefold) (hhosts : "" ∉ hosts) (hbody : '/' ∉ body.toList)
    (h : IsLink bot (pythonStrip spelling.text) hosts url) :
    (url.path.splitOn '/').filter (fun part => !part.isEmpty) ≠ [part] := by
  intro hpart
  have hnetloc := h.netloc_ne_nil hfold hhosts
  have hpage : pageOf body = [] := fromSlash_of_not_mem fun hmem => hbody (mem_of_mem_filter hmem)
  have hslash : (pageOf body ++ spelling.slash).rdropWhile isPythonSpace = spelling.slash := by
    rw [hpage, nil_append]
    rcases spelling.slash_given with heq | heq <;> rw [heq] <;> rfl
  obtain ⟨rest, hrest⟩ := rooted_of_profile hfold hhosts h hpart
  have hlength : spelling.slash.length ≤ 1 := by
    rcases spelling.slash_given with heq | heq <;> rw [heq] <;> decide
  cases Spelling.reads h hnetloc ⟨rest, hrest⟩ with
  | plain marks hmarks hpage hsite =>
    rw [hslash, hrest] at hpage
    have hnone := congrArg length hpage
    rw [cons_append, length_cons, length_append] at hnone
    have hempty : rest = [] := length_eq_zero_iff.mp (by omega)
    have hparts : (['/'].splitOn '/').filter (fun part => !part.isEmpty) = [] := by decide
    rw [hrest, hempty, hparts] at hpart
    exact nomatch hpart
  | schemed marks hmarks hpage hsite =>
    rw [hslash] at hpage
    have hnone := congrArg length hpage
    rw [length_cons, length_cons] at hnone
    omega

end Profiles

/-! ## The normalisers -/

section Normalisers

variable {bot : Deployment}

/-- The result of a normaliser has the form that is stored and stays as it is, and the spellings of a
body that are accepted have one result. -/
structure Normalises {ε α : Type} (normalize : α → Except ε α) (ofText : String → α) (IsStored : α → Prop) :
    Prop where
  stored : ∀ value result, normalize value = .ok result → IsStored result
  again : ∀ value result, normalize value = .ok result → normalize result = .ok result
  alike : ∀ (body : String) (spelling spelling' : Spelling body) (result result' : α),
    normalize (ofText spelling.text) = .ok result → normalize (ofText spelling'.text) = .ok result' →
      result = result'

/-- A stored page of VK. -/
def IsVkPage (link : String) : Prop :=
  ∃ name, isVkName name = true ∧ link = "https://vk.com/" ++ String.ofList name

/-- A stored post in Telegram, at either of its hosts. -/
def IsTelegramPost (link : String) : Prop :=
  ∃ host ∈ ["t.me", "telegram.me"], ∃ path, isTelegramPostPath path = true ∧
    link = "https://" ++ host ++ String.ofList path

/-- A stored post of VK. -/
def IsVkPost (link : String) : Prop :=
  ∃ path, isVkPostPath path = true ∧ link = "https://vk.com" ++ String.ofList path

theorem vkUrl_normalises (hfold : FoldsCase bot.casefold) : Normalises (normalizeVkUrl bot) id IsVkPage := by
  refine ⟨fun value link h => ?_, fun value link h => ?_, fun body spelling spelling' link link' h h' => ?_⟩
  · obtain ⟨url, -, hpath, rfl⟩ := isLink_of_normalizeVkUrl h
    exact ⟨_, (isVkPath_iff.mp hpath).2, rfl⟩
  · obtain ⟨url, -, hpath, rfl⟩ := isLink_of_normalizeVkUrl h
    exact vkUrl_again hfold (isVkPath_iff.mp hpath).2
  · obtain ⟨url, hlink, hpath, rfl⟩ := isLink_of_normalizeVkUrl h
    obtain ⟨url', hlink', hpath', rfl⟩ := isLink_of_normalizeVkUrl h'
    obtain ⟨name, hname, -⟩ := vkPath_shape hpath
    obtain ⟨name', hname', -⟩ := vkPath_shape hpath'
    have hhosts : vkHosts ⊆ linkHosts := subset_append_left _ _
    have hsame := (Spelling.same hfold hhosts hlink hlink' (rooted_of_page hname) (rooted_of_page hname')).1
    rw [withoutFinalSlash_of_sameEnd (isPage_of_isVkPath hpath) (isPage_of_isVkPath hpath') hsame]

theorem telegramHandle_normalises (hfold : FoldsCase bot.casefold) :
    Normalises (normalizeTelegramHandle bot) some fun handle => ∀ stored ∈ handle, IsHandle bot stored := by
  have hstored (value handle : Option String) (h : normalizeTelegramHandle bot value = .ok handle) :
      ∀ stored ∈ handle, IsHandle bot stored := by
    intro stored hmem
    rw [Option.mem_def.mp hmem] at h
    cases value with
    | none => exact nomatch h
    | some text => exact isHandle_of_normalize hfold h
  refine ⟨hstored, fun value handle h => ?_, fun body spelling spelling' handle handle' h h' => ?_⟩
  · cases handle with
    | none => rfl
    | some stored => exact (hstored value _ h stored rfl).again
  · rw [spelling.text_eq_body (signs_of_handle hfold h)] at h
    rw [spelling'.text_eq_body (signs_of_handle hfold h')] at h'
    exact Except.ok.inj (h.symm.trans h')

theorem not_mem_body_of_at {body : String} {spelling : Spelling body} {handle : String}
    (hfold : FoldsCase bot.casefold)
    (hat : (profileCandidate spelling.text).head? = some '@')
    (h : normalizeTelegramProfile bot spelling.text = .ok handle) : spelling.text = body ∧ '/' ∉ body.toList := by
  have hsigns := signs_of_at hfold hat h
  have hbody := spelling.text_eq_body hsigns
  refine ⟨hbody, ?_⟩
  rw [← hbody]
  exact hsigns '/' mem_cons_self

/-- One of the two is the handle itself and the other one a link: no body is spelled so. -/
theorem not_at_and_link {body : String} {spelling spelling' : Spelling body} {handle handle' : String}
    (hfold : FoldsCase bot.casefold) (hat : (profileCandidate spelling.text).head? = some '@')
    (hplain : (profileCandidate spelling'.text).head? ≠ some '@')
    (h : normalizeTelegramProfile bot spelling.text = .ok handle)
    (h' : normalizeTelegramProfile bot spelling'.text = .ok handle') : False := by
  obtain ⟨url, part, hlink, -⟩ := isProfileLink_of_normalize hplain h'
  have hcandidate := (profileCandidate_cases spelling'.text).resolve_right fun hmention => hplain hmention.1
  rw [hcandidate] at hlink
  exact not_link_of_signs hfold (by decide) (not_mem_body_of_at hfold hat h).2 hlink.link hlink.path

theorem telegramProfile_normalises (hfold : FoldsCase bot.casefold) :
    Normalises (normalizeTelegramProfile bot) id (IsHandle bot) := by
  refine ⟨fun value handle h => isHandle_of_profile hfold h,
    fun value handle h => (isHandle_of_profile hfold h).profile_again,
    fun body spelling spelling' handle handle' h h' => ?_⟩
  by_cases hat : (profileCandidate spelling.text).head? = some '@' <;>
    by_cases hat' : (profileCandidate spelling'.text).head? = some '@'
  · have htext := (not_mem_body_of_at hfold hat h).1.trans (not_mem_body_of_at hfold hat' h').1.symm
    change normalizeTelegramProfile bot spelling.text = _ at h
    rw [htext] at h
    exact Except.ok.inj (h.symm.trans h')
  · exact (not_at_and_link hfold hat hat' h h').elim
  · exact (not_at_and_link hfold hat' hat h' h).elim
  · obtain ⟨url, part, hlink, hpart⟩ := isProfileLink_of_normalize hat h
    obtain ⟨url', part', hlink', hpart'⟩ := isProfileLink_of_normalize hat' h'
    have hcandidate := (profileCandidate_cases spelling.text).resolve_right fun hmention => hat hmention.1
    have hcandidate' := (profileCandidate_cases spelling'.text).resolve_right fun hmention => hat' hmention.1
    have hhosts : telegramProfileHosts ⊆ linkHosts := subset_append_right _ _
    have hsplit := hlink.link
    have hsplit' := hlink'.link
    rw [hcandidate] at hsplit
    rw [hcandidate'] at hsplit'
    have hsame := (Spelling.same hfold hhosts hsplit hsplit' (rooted_of_profile hfold (by decide) hsplit hlink.path)
      (rooted_of_profile hfold (by decide) hsplit' hlink'.path)).1
    have heq := hpart.symm.trans ((handleOf_sameEnd hlink.path hlink'.path hsame).trans hpart')
    exact Except.ok.inj heq

theorem telegramPost_normalises (hfold : FoldsCase bot.casefold) :
    Normalises (normalizeTelegramPostUrl bot) id IsTelegramPost := by
  refine ⟨fun value link h => ?_, fun value link h => telegramPost_again hfold h,
    fun body spelling spelling' link link' h h' => ?_⟩
  · obtain ⟨url, hpost, rfl⟩ := isPost_of_postUrl h
    rw [readsPosts_telegram.withoutFinalSlashes hpost.path]
    exact ⟨_, postHost_telegram hpost.link.host, _, readsPosts_telegram.again _ hpost.path, rfl⟩
  · obtain ⟨url, hpost, rfl⟩ := isPost_of_postUrl h
    obtain ⟨url', hpost', rfl⟩ := isPost_of_postUrl h'
    have hshape := readsPosts_telegram.shape _ hpost.path
    have hshape' := readsPosts_telegram.shape _ hpost'.path
    have hhosts : telegramProfileHosts ⊆ linkHosts := subset_append_right _ _
    obtain ⟨hend, site, hsited, hsited'⟩ := Spelling.same hfold hhosts hpost.link hpost'.link
      (rooted_of_post hshape) (rooted_of_post hshape')
    rw [readsPosts_telegram.withoutFinalSlashes hpost.path, readsPosts_telegram.withoutFinalSlashes hpost'.path,
      withoutFinalSlash_of_sameEnd (isPage_of_isPostPath hshape) (isPage_of_isPostPath hshape') hend,
      postHost_of_sited hfold hpost.user hpost'.user hpost.link.host hpost'.link.host hsited hsited']

theorem vkPost_normalises (hfold : FoldsCase bot.casefold) :
    Normalises (normalizeVkPostUrl bot) id IsVkPost := by
  refine ⟨fun value link h => ?_, fun value link h => vkPost_again hfold h,
    fun body spelling spelling' link link' h h' => ?_⟩
  · obtain ⟨url, hpost, rfl⟩ := isPost_of_normalizeVkPostUrl h
    exact ⟨_, readsPosts_vk.again _ hpost.path, rfl⟩
  · obtain ⟨url, hpost, rfl⟩ := isPost_of_normalizeVkPostUrl h
    obtain ⟨url', hpost', rfl⟩ := isPost_of_normalizeVkPostUrl h'
    have hshape := readsPosts_vk.shape _ hpost.path
    have hshape' := readsPosts_vk.shape _ hpost'.path
    have hhosts : vkHosts ⊆ linkHosts := subset_append_left _ _
    have hend := (Spelling.same hfold hhosts hpost.link hpost'.link (rooted_of_post hshape)
      (rooted_of_post hshape')).1
    rw [withoutFinalSlash_of_sameEnd (isPage_of_isPostPath hshape) (isPage_of_isPostPath hshape') hend]

/-- What the five normalisers store is accepted again and stays as it is, and it is the same for the
spellings of one body. -/
theorem link_spellings (hfold : FoldsCase bot.casefold) :
    Normalises (normalizeVkUrl bot) id IsVkPage ∧
      Normalises (normalizeTelegramHandle bot) some (fun handle => ∀ stored ∈ handle, IsHandle bot stored) ∧
        Normalises (normalizeTelegramProfile bot) id (IsHandle bot) ∧
          Normalises (normalizeTelegramPostUrl bot) id IsTelegramPost ∧
            Normalises (normalizeVkPostUrl bot) id IsVkPost :=
  ⟨vkUrl_normalises hfold, telegramHandle_normalises hfold, telegramProfile_normalises hfold,
    telegramPost_normalises hfold, vkPost_normalises hfold⟩

theorem foldsCase_sampleBot : FoldsCase sampleBot.casefold := by
  have hlower (c : Char) : c.toLower.toLower = c.toLower := by
    by_cases hupper : c.val ≥ 'A'.val ∧ c.val ≤ 'Z'.val
    · have hval : c.toLower.toNat = c.toNat + 32 := by
        have hhigh : c.toNat ≤ 90 := hupper.2
        unfold Char.toLower
        rw [dif_pos hupper]
        change (c.val + 32).toNat = _
        rw [UInt32.toNat_add]
        change (c.toNat + 32) % 4294967296 = c.toNat + 32
        omega
      have hlow : 65 ≤ c.toNat := hupper.1
      exact toLower_of_not_upper fun h => absurd h.2 (by rw [hval]; omega)
    · have hsame := toLower_of_not_upper hupper
      rw [hsame, hsame]
  refine ⟨fun text rest => ?_, fun c hc => ?_, fun text => ?_⟩
  · apply String.toList_inj.mp
    simp [sampleBot]
  · apply String.toList_inj.mp
    simp [sampleBot]
  · apply String.toList_inj.mp
    simp [sampleBot, hlower]

theorem link_spellings_sample : Normalises (normalizeVkUrl sampleBot) id IsVkPage ∧
    Normalises (normalizeTelegramHandle sampleBot) some (fun handle => ∀ stored ∈ handle, IsHandle sampleBot stored) ∧
      Normalises (normalizeTelegramProfile sampleBot) id (IsHandle sampleBot) ∧
        Normalises (normalizeTelegramPostUrl sampleBot) id IsTelegramPost ∧
          Normalises (normalizeVkPostUrl sampleBot) id IsVkPost :=
  link_spellings foldsCase_sampleBot

/-- The older host of Telegram is kept. -/
theorem telegram_me_stays :
    normalizeTelegramPostUrl sampleBot "telegram.me/rolebot_news/42" = .ok "https://telegram.me/rolebot_news/42" ∧
      ¬ "https://t.me/".toList <+: "https://telegram.me/rolebot_news/42".toList ∧
        ¬ "https://vk.com/".toList <+: "https://telegram.me/rolebot_news/42".toList := by
  decide +kernel

end Normalisers

end LarpBot
