import LarpBot.Adapters.QueueMessages
import Mathlib

/-!
# A command survives the queue

What the models make of a command they make of it again: each normalisation is idempotent, each class
reads what it has written, and no object is read by two classes (`classes_apart`). So the consumer gets
the command that was published (`message_round_trip`), at the instants at which it was made, if the
clocks are ahead of UTC by whole minutes; the seconds of an offset are not written
(`seconds_of_offset_lost`).
-/

namespace LarpBot

open Records

/-! ## Normalisation -/

section Normalisation

variable {p : Char → Bool} {value normalized : String} {least most : Nat} {casefold : String → String}

theorem toList_stripBy (p : Char → Bool) (value : String) :
    (stripBy p value).toList = (value.toList.dropWhile p).rdropWhile p :=
  String.toList_ofList

theorem dropWhile_rdropWhile (p : Char → Bool) (cs : List Char) :
    ((cs.dropWhile p).rdropWhile p).dropWhile p = (cs.dropWhile p).rdropWhile p := by
  rw [List.dropWhile_eq_self_iff]
  intro hlength hfirst
  have hkept := List.rdropWhile_prefix p (cs.dropWhile p)
  have hlong : 0 < (cs.dropWhile p).length := Nat.lt_of_lt_of_le hlength hkept.length_le
  have hhead := List.dropWhile_get_zero_not p cs hlong
  rw [hkept.getElem hlength] at hfirst
  exact hhead hfirst

@[simp] theorem stripBy_stripBy (p : Char → Bool) (value : String) :
    stripBy p (stripBy p value) = stripBy p value := by
  unfold stripBy
  rw [String.toList_ofList, dropWhile_rdropWhile, List.rdropWhile_idempotent]

theorem length_stripBy_le (p : Char → Bool) (value : String) :
    (stripBy p value).length ≤ value.length := by
  rw [← String.length_toList, ← String.length_toList, toList_stripBy]
  exact (List.rdropWhile_prefix p _).length_le.trans (List.dropWhile_suffix p).length_le

theorem hasLength_iff : hasLength least most value = true ↔ least ≤ value.length ∧ value.length ≤ most := by
  simp [hasLength]

/-- A text that is stripped to something has a character left, and no more than before. -/
theorem hasLength_stripBy (h : hasLength 1 most value) (hsome : stripBy p value ≠ "") :
    hasLength 1 most (stripBy p value) := by
  have hlength := length_stripBy_le p value
  have hpositive : (stripBy p value).length ≠ 0 := fun h => hsome (String.length_eq_zero_iff.mp h)
  rw [hasLength_iff] at h ⊢
  omega

theorem strippedText_normal (h : strippedText most value = some normalized) :
    strippedText most normalized = some normalized := by
  unfold strippedText at h
  dsimp only at h
  split at h
  · next hvalue =>
    obtain rfl := Option.some.inj h
    have hfits := hasLength_stripBy hvalue.1 hvalue.2
    simp [strippedText, hfits, hvalue.2]
  · exact nomatch h

theorem validNickname_normal (h : validNickname value = some normalized) :
    validNickname normalized = some normalized := by
  unfold validNickname at h
  dsimp only at h
  split at h
  · next hvalue =>
    obtain rfl := Option.some.inj h
    simp only [validNickname, stripBy_stripBy]
    exact if_pos hvalue
  · exact nomatch h

theorem validOptionalNickname_normal {given nickname : Option String}
    (h : validOptionalNickname given = some nickname) :
    validOptionalNickname nickname = some nickname := by
  cases given with
  | none =>
    obtain rfl := Option.some.inj h
    rfl
  | some given =>
    obtain ⟨stripped, hstripped, rfl⟩ := Option.map_eq_some_iff.mp h
    rw [validOptionalNickname, validNickname_normal hstripped]
    rfl

theorem EnlistPayload.validate_normal {payload valid : EnlistPayload}
    (h : payload.validate = some valid) : valid.validate = some valid := by
  unfold EnlistPayload.validate at h
  obtain ⟨nickname, hnickname, h⟩ := Option.bind_eq_some_iff.mp h
  split at h
  · next hfits =>
    obtain rfl := Option.some.inj h
    simp only [EnlistPayload.validate, validOptionalNickname_normal hnickname, Option.bind_eq_bind,
      Option.bind_some]
    exact if_pos hfits
  · exact nomatch h

theorem AnswerOption.validate_normal {option valid : AnswerOption}
    (h : option.validate casefold = some valid) : valid.validate casefold = some valid := by
  unfold AnswerOption.validate at h
  dsimp only at h
  split at h
  · next hfits =>
    obtain rfl := Option.some.inj h
    obtain ⟨⟨hid, hname, hamount⟩, hsome, hrest⟩ := hfits
    simp only [AnswerOption.validate, stripBy_stripBy]
    exact if_pos ⟨⟨hid, hasLength_stripBy hname hsome, hamount⟩, hsome, hrest⟩
  · exact nomatch h

theorem mapM_normal {α : Type} {f : α → Option α} {as bs : List α} (h : as.mapM f = some bs)
    (hf : ∀ a b, f a = some b → f b = some b) : bs.mapM f = some bs := by
  induction as generalizing bs with
  | nil =>
    obtain rfl := Option.some.inj h
    rfl
  | cons a as ih =>
    rw [List.mapM_cons] at h
    obtain ⟨b, hb, h⟩ := Option.bind_eq_some_iff.mp h
    obtain ⟨rest, hrest, h⟩ := Option.bind_eq_some_iff.mp h
    obtain rfl := Option.some.inj h
    simp [List.mapM_cons, hf a b hb, ih hrest]

theorem RegistrationQuestion.build_normal {text : String} {options : List AnswerOption}
    {question : RegistrationQuestion} (h : build casefold text options = some question) :
    build casefold question.text question.options = some question := by
  unfold RegistrationQuestion.build at h
  obtain ⟨stripped, hstripped, h⟩ := Option.bind_eq_some_iff.mp h
  obtain ⟨valid, hvalid, h⟩ := Option.bind_eq_some_iff.mp h
  split at h
  · next hdistinct =>
    split at h
    · next hshape =>
      obtain rfl := Option.some.inj h
      have hoptions := mapM_normal hvalid fun _ _ => AnswerOption.validate_normal
      simp [RegistrationQuestion.build, strippedText_normal hstripped, hoptions, hdistinct, hshape]
    · exact nomatch h
  · exact nomatch h

/-- Of two names the second is dropped or not. -/
theorem eraseDups_pair (first second : String) : [first, second].eraseDups = [first] ∨
    [first, second].eraseDups = [first, second] ∧ second ≠ first := by
  rw [List.eraseDups_cons]
  by_cases hsame : second = first
  · exact .inl (by simp [hsame])
  · exact .inr ⟨by simp [hsame, List.eraseDups_cons], hsame⟩

theorem eraseDups_twice {names : List String} (h : names.length ≤ 2) :
    names.eraseDups.eraseDups = names.eraseDups := by
  match names, h with
  | [], _ => rfl
  | [name], _ => rfl
  | [first, second], _ =>
    rcases eraseDups_pair first second with hone | ⟨htwo, -⟩
    · rw [hone]
      rfl
    · rw [htwo, htwo]

theorem eraseDups_short {names : List String} (h : names.length ≤ 2) (hsome : names.eraseDups ≠ []) :
    1 ≤ names.eraseDups.length ∧ names.eraseDups.length ≤ 2 := by
  refine ⟨List.length_pos_iff.mpr hsome, ?_⟩
  match names, h with
  | [], _ => exact absurd rfl hsome
  | [name], _ => exact Nat.le_succ 1
  | [first, second], _ =>
    rcases eraseDups_pair first second with hone | ⟨htwo, -⟩
    · rw [hone]
      exact Nat.le_succ 1
    · rw [htwo]
      exact Nat.le_refl 2

theorem validNames_normal {names valid : List String} (h : validNames names = some valid) :
    validNames valid = some valid := by
  have hself {normal : List String} (hlength : 1 ≤ normal.length ∧ normal.length ≤ 2)
      (hstripped : ∀ name ∈ normal, stripBy isPythonSpace name = name ∧ name ≠ "")
      (hdistinct : normal.eraseDups = normal) : validNames normal = some normal := by
    have hmap : normal.map (stripBy isPythonSpace) = normal := by
      conv_rhs => rw [← List.map_id normal]
      exact List.map_congr_left fun name hname => (hstripped name hname).1
    have hfilter : normal.filter (· ≠ "") = normal :=
      List.filter_eq_self.mpr fun name hname => decide_eq_true (hstripped name hname).2
    have hsome : normal ≠ [] := fun h => by simp [h] at hlength
    simp only [validNames, hmap, hfilter, hdistinct]
    exact if_pos ⟨hlength, hsome⟩
  unfold validNames at h
  dsimp only at h
  split at h
  · next hfits =>
    obtain rfl := Option.some.inj h
    obtain ⟨hlength, hsome⟩ := hfits
    have hstripped : ∀ name ∈ (names.map (stripBy isPythonSpace)).filter (· ≠ ""),
        stripBy isPythonSpace name = name ∧ name ≠ "" := by
      intro name hname
      obtain ⟨hmem, hname⟩ := List.mem_filter.mp hname
      obtain ⟨given, -, rfl⟩ := List.mem_map.mp hmem
      exact ⟨stripBy_stripBy _ _, of_decide_eq_true hname⟩
    have hshort : ((names.map (stripBy isPythonSpace)).filter (· ≠ "")).length ≤ 2 :=
      (List.length_filter_le _ _).trans (by rw [List.length_map]; exact hlength.2)
    generalize (names.map (stripBy isPythonSpace)).filter (· ≠ "") = normal at hsome hstripped hshort ⊢
    exact hself (eraseDups_short hshort hsome)
      (fun name hname => hstripped name (List.mem_eraseDups.mp hname)) (eraseDups_twice hshort)
  · exact nomatch h

theorem CommandPayload.validate_normal {given payload : CommandPayload}
    (h : given.validate casefold = some payload) : payload.validate casefold = some payload := by
  cases given with
  | enlist enlisting =>
    obtain ⟨valid, hvalid, rfl⟩ := Option.map_eq_some_iff.mp h
    exact congrArg (Option.map _) (EnlistPayload.validate_normal hvalid)
  | question asked =>
    obtain ⟨valid, hvalid, rfl⟩ := Option.map_eq_some_iff.mp h
    exact congrArg (Option.map _) (RegistrationQuestion.build_normal hvalid)
  | coPlayerWish wishPlay =>
    obtain ⟨valid, hvalid, rfl⟩ := Option.map_eq_some_iff.mp h
    exact congrArg (Option.map _) (strippedText_normal hvalid)
  | characterWish wishing =>
    obtain ⟨valid, hvalid, rfl⟩ := Option.map_eq_some_iff.mp h
    exact congrArg (Option.map _) (strippedText_normal hvalid)
  | notification text =>
    obtain ⟨valid, hvalid, rfl⟩ := Option.map_eq_some_iff.mp h
    exact congrArg (Option.map _) (strippedText_normal hvalid)
  | eventDetails details =>
    rw [CommandPayload.validate] at h
    split at h
    · next hdate =>
      obtain ⟨valid, hvalid, rfl⟩ := Option.map_eq_some_iff.mp h
      rw [CommandPayload.validate, if_pos hdate, strippedText_normal hvalid]
      rfl
    · exact nomatch h
  | profileSync names =>
    obtain ⟨valid, hvalid, rfl⟩ := Option.map_eq_some_iff.mp h
    exact congrArg (Option.map _) (validNames_normal hvalid)
  | answer answerId =>
    obtain ⟨-, hpayload⟩ := Option.ite_none_right_eq_some.mp h
    obtain rfl := Option.some.inj hpayload
    exact h
  | playerAmount amount =>
    obtain ⟨-, hpayload⟩ := Option.ite_none_right_eq_some.mp h
    obtain rfl := Option.some.inj hpayload
    exact h
  | dailyPassRefresh gameDate =>
    obtain ⟨-, hpayload⟩ := Option.ite_none_right_eq_some.mp h
    obtain rfl := Option.some.inj hpayload
    exact h
  | statistics action gameId =>
    obtain ⟨-, hpayload⟩ := Option.ite_none_right_eq_some.mp h
    obtain rfl := Option.some.inj hpayload
    exact h
  | confirmationDeadline deadline => exact Option.some.inj h ▸ h
  | empty => exact Option.some.inj h ▸ h

end Normalisation

/-! ## Instants and dates -/

section Instants

open Calendar

theorem HasText.of_moment {moment : Moment} (h : moment.Exists) : moment.stamp.HasText :=
  ⟨by have := h.1.1; omega, by have := h.1.2; omega⟩

theorem moment_wall (moment : Moment) :
    moment.stamp.seconds * 10 ^ 6 + (parts 6 moment.wall : Int) = moment.wall := by
  have hseconds : moment.stamp.seconds = moment.wall / 10 ^ 6 := by
    rw [Moment.stamp, clock, Stamp.seconds_ofSeconds]
    omega
  rw [hseconds, seconds_parts]

/-- What is behind the seconds, without a zone. -/
theorem readNaive_text (stamp : Stamp) {fraction : Nat} (h : fraction < 10 ^ 6) :
    readNaive stamp (fractionText (fixedFraction 6 fraction)) =
      some ⟨stamp.seconds * 10 ^ 6 + (fraction : Int), none⟩ := by
  have hread := fractionOf_fixedFraction h
  have hdigits : ∀ c ∈ fixedFraction 6 fraction, c.isDigit = true :=
    fun _ => isDigit_of_mem_fixedFraction
  cases hfraction : fixedFraction 6 fraction with
  | nil =>
    rw [hfraction, fractionOf_nil] at hread
    rw [← Option.some.inj hread]
    simp [fractionText, readNaive]
  | cons d ds =>
    rw [hfraction] at hread hdigits
    have hall : (d :: ds).all Char.isDigit = true := List.all_eq_true.mpr hdigits
    show readNaive stamp ('.' :: d :: ds) = _
    rw [readNaive, if_pos ⟨List.cons_ne_nil d ds, hall⟩, hread]
    rfl

/-- A zone is not a part of a text without one. -/
theorem readNaive_zone (stamp : Stamp) (fraction : Nat) {zone : List Char} {c : Char}
    (hfirst : zone.head? = some c) (hc : c.isDigit = false ∧ c ≠ '.') :
    readNaive stamp (fractionText (fixedFraction 6 fraction) ++ zone) = none := by
  cases zone with
  | nil => cases hfirst
  | cons c' rest =>
    obtain rfl := Option.some.inj hfirst
    cases fixedFraction 6 fraction with
    | nil =>
      rw [fractionText, List.nil_append]
      unfold readNaive
      split
      · next hnone => cases hnone
      · next hpoint => exact absurd (List.cons.inj hpoint).1 hc.2
      · rfl
    | cons d ds =>
      show readNaive stamp ('.' :: (d :: ds ++ c' :: rest)) = none
      have hmixed : ¬ (d :: ds ++ c' :: rest).all Char.isDigit = true := by
        intro hall
        have hdigit := List.all_eq_true.mp hall c' (by simp)
        rw [hc.1] at hdigit
        cases hdigit
      rw [readNaive, if_neg fun h => hmixed h.2]

/-- What the zone of a moment is read as. -/
theorem readZone_moment {offset : Int} (hday : offset.natAbs < 86400) (hminutes : offset % 60 = 0) :
    ∃ c, (Moment.zoneText (some offset)).head? = some c ∧ (c.isDigit = false ∧ c ≠ '.') ∧
      ∃ minutes, readZone (Moment.zoneText (some offset)) = some minutes ∧ minutes * 60 = offset := by
  by_cases hutc : offset = 0
  · subst hutc
    exact ⟨'Z', rfl, by decide, 0, rfl, rfl⟩
  · have hzone : Moment.zoneText (some offset) = zoneText (offset.tdiv 60) := by
      rw [Moment.zoneText]
      exact hutc
    have hwhole : offset.tdiv 60 * 60 = offset := Int.tdiv_mul_cancel (Int.dvd_of_emod_eq_zero hminutes)
    rw [hzone]
    refine ⟨_, rfl, zoneText_head (offset.tdiv 60) _ rfl, _, readZone_zoneText ?_, hwhole⟩
    omega

/-- A moment whose clock is ahead by whole minutes is read as it was written. -/
theorem readMoment_text {moment : Moment} (h : moment.Exists)
    (hminutes : ∀ offset ∈ moment.offset, offset % 60 = 0) :
    readMoment moment.text = some moment := by
  have hstamp := HasText.of_moment h
  have hfraction := parts_lt 6 moment.wall
  have hyear : 1 ≤ moment.stamp.date.year := h.1.1
  rw [readMoment, Moment.text, String.toList_ofList, readStamp_text hstamp, Option.bind_some,
    if_pos hyear]
  dsimp only
  cases hoffset : moment.offset with
  | none =>
    rw [Moment.zoneText, List.append_nil, readNaive_text moment.stamp hfraction, moment_wall, ← hoffset]
    rfl
  | some offset =>
    obtain ⟨c, hfirst, hc, minutes, hzone, hwhole⟩ :=
      readZone_moment (h.2 offset hoffset) (hminutes offset hoffset)
    have hread := read_text hstamp
      (fun c' (hc' : c' ∈ fixedFraction 6 (parts 6 moment.wall)) => isDigit_of_mem_fixedFraction hc') hzone
      (fun c' hc' => Option.some.inj (hfirst.symm.trans hc') ▸ hc)
    rw [Calendar.read, readStamp_text hstamp, Option.bind_some] at hread
    rw [readNaive_zone moment.stamp _ hfirst hc, Option.none_or, hread, Option.bind_some, readAware,
      fractionOf_fixedFraction hfraction, Option.map_some]
    dsimp only
    rw [moment_wall, hwhole, ← hoffset]

theorem readDate_text {date : GameDate} (h : date.Exists) : readDate date.text = some date := by
  have hmost : daysInMonth (isLeap date.year) date.month ≤ 31 := by
    unfold daysInMonth
    split <;> (try split) <;> omega
  obtain ⟨hyear, hmonth, hday⟩ := h
  have hread := readDigits_of_lt (show date.day < 10 ^ 2 by omega) []
  rw [List.append_nil] at hread
  simp only [readDate, GameDate.text, String.toList_ofList,
    readDigits_of_lt (show date.year < 10 ^ 4 by omega), readChar_cons,
    readDigits_of_lt (show date.month < 10 ^ 2 by omega), hread, Option.bind_eq_bind, Option.bind_some]
  exact if_pos ⟨trivial, hyear, hmonth, hday⟩

end Instants

/-! ## Payloads -/

section Payloads

variable {casefold : String → String}

/-- The class of a payload. -/
def CommandPayload.payloadClass : CommandPayload → PayloadClass
  | .enlist _ => .enlist
  | .answer _ => .answer
  | .question _ => .question
  | .coPlayerWish _ => .coPlayerWish
  | .characterWish _ => .characterWish
  | .confirmationDeadline _ => .confirmationDeadline
  | .notification _ => .notification
  | .eventDetails _ => .eventDetails
  | .playerAmount _ => .playerAmount
  | .profileSync _ => .profileSync
  | .dailyPassRefresh _ => .dailyPassRefresh
  | .statistics _ _ => .statistics
  | .empty => .empty

/-- Each class demands a name that another one refuses, but for those that can have nothing. -/
theorem classes_apart : ∀ i ∈ PayloadClass.all, ∀ j ∈ PayloadClass.all, j ≠ i →
    i.shape.Apart j.shape := by
  decide +kernel

theorem mem_all_classes (payloadClass : PayloadClass) : payloadClass ∈ PayloadClass.all := by
  cases payloadClass <;> decide

@[simp] theorem readText_text (value : String) : readText (.text value) = some value := rfl

@[simp] theorem readFlag_flag (value : Bool) : readFlag (.flag value) = some value := rfl

@[simp] theorem readNumber_number (value : Int) : readNumber (.number value) = some value := rfl

section Nullable

variable {α : Type} {read : ContextValue → Option α} {write : α → ContextValue}

theorem readNullable_nullable (hread : ∀ a, read (write a) = some a) (hnull : ∀ a, write a ≠ .null)
    (value : Option α) : readNullable read (nullable write value) = some value := by
  cases value with
  | none => rfl
  | some a =>
    have hvalue : readNullable read (write a) = (read (write a)).map some := by
      rw [readNullable]
      exact hnull a
    rw [nullable, hvalue, hread]
    rfl

@[simp] theorem readNullable_text (value : Option String) :
    readNullable readText (nullable .text value) = some value :=
  @readNullable_nullable _ readText .text (fun _ => rfl) (fun _ => nofun) value

@[simp] theorem readNullable_flag (value : Option Bool) :
    readNullable readFlag (nullable .flag value) = some value :=
  @readNullable_nullable _ readFlag .flag (fun _ => rfl) (fun _ => nofun) value

@[simp] theorem readNullable_number (value : Option Int) :
    readNullable readNumber (nullable .number value) = some value :=
  @readNullable_nullable _ readNumber .number (fun _ => rfl) (fun _ => nofun) value

theorem readList_map {values : List α} (hread : ∀ a ∈ values, read (write a) = some a) :
    readList read (.list (values.map write)) = some values := by
  rw [readList]
  induction values with
  | nil => rfl
  | cons a values ih =>
    have hrest := ih fun a' ha' => hread a' (List.mem_cons_of_mem a ha')
    simp [List.mapM_cons, hread a List.mem_cons_self, hrest]

@[simp] theorem readNatural_number (n : Nat) : readNatural (.number n) = some n := by
  simp [readNatural]

end Nullable

@[simp] theorem readAnswerOption_write (option : AnswerOption) :
    readAnswerOption option.write = some option := by
  rfl

/-- A question that is valid is read as it was written. -/
theorem readQuestion_write {question : RegistrationQuestion}
    (h : RegistrationQuestion.build casefold question.text question.options = some question) :
    readQuestion casefold question.write = some question := by
  have hoptions : readList readAnswerOption (.list (question.options.map AnswerOption.write)) =
      some question.options := readList_map fun option _ => readAnswerOption_write option
  have hshape : Shape.Admits ⟨["text", "options"], ["text", "options"]⟩ ["text", "options"] := by decide
  rw [readQuestion, RegistrationQuestion.write, readRecord]
  simp only [names, List.map_cons, List.map_nil, if_pos hshape]
  show (do
    let options ← readList readAnswerOption (.list (question.options.map AnswerOption.write))
    RegistrationQuestion.build casefold question.text options) = _
  rw [hoptions]
  exact h

/-- The values of an object that a payload has written. -/
theorem values_write {payload : CommandPayload} (hvalid : payload.validate casefold = some payload)
    {zone : Int} (hdeadline : ∀ deadline, payload = .confirmationDeadline deadline →
      readMoment (Moment.text ⟨deadline + zone * 10 ^ 6, some zone⟩) =
        some ⟨deadline + zone * 10 ^ 6, some zone⟩) :
    payload.payloadClass.values casefold (payload.write zone) = some payload := by
  cases payload with
  | enlist enlisting =>
    simp [CommandPayload.payloadClass, PayloadClass.values, CommandPayload.write, Fields.required,
      Fields.optional, field?, List.lookup]
  | answer answerId => rfl
  | question asked =>
    have hquestion : RegistrationQuestion.build casefold asked.text asked.options = some asked := by
      obtain ⟨built, hbuilt, hsame⟩ := Option.map_eq_some_iff.mp hvalid
      rw [hbuilt, CommandPayload.question.inj hsame]
    show (readQuestion casefold asked.write).bind _ = _
    rw [readQuestion_write hquestion]
    rfl
  | coPlayerWish wishPlay => rfl
  | characterWish wishing =>
    simp [CommandPayload.payloadClass, PayloadClass.values, CommandPayload.write, Fields.required,
      Fields.optional, field?, List.lookup]
  | confirmationDeadline deadline =>
    show ((readMoment _).bind _) = _
    rw [hdeadline deadline rfl]
    simp [Moment.instant]
  | notification text => rfl
  | eventDetails details =>
    have hdate : details.gameDate.Exists := by
      rw [CommandPayload.validate] at hvalid
      exact (Option.ite_none_right_eq_some.mp hvalid).1
    simp [CommandPayload.payloadClass, PayloadClass.values, CommandPayload.write, Fields.required,
      field?, List.lookup, readDate_text hdate]
  | playerAmount amount =>
    simp [CommandPayload.payloadClass, PayloadClass.values, CommandPayload.write, Fields.required,
      field?]
  | profileSync names =>
    have hnames : readList readText (.list (names.map .text)) = some names :=
      readList_map fun _ _ => rfl
    show (readList readText (.list (names.map .text))).bind _ = _
    rw [hnames]
    rfl
  | dailyPassRefresh gameDate =>
    have hdate : gameDate.Exists := by
      rw [CommandPayload.validate] at hvalid
      exact (Option.ite_none_right_eq_some.mp hvalid).1
    simp [CommandPayload.payloadClass, PayloadClass.values, CommandPayload.write, Fields.required,
      field?, readDate_text hdate]
  | statistics action gameId =>
    simp [CommandPayload.payloadClass, PayloadClass.values, CommandPayload.write, Fields.required,
      Fields.optional, field?, List.lookup]
  | empty => rfl

/-- What a payload writes has the names of its class. -/
theorem admits_write (payload : CommandPayload) (zone : Int) :
    payload.payloadClass.shape.Admits (names (payload.write zone)) := by
  cases payload <;> exact of_decide_eq_true rfl

/-- The union reads a payload as one of the class that has written it. -/
theorem readPayload_write {payload : CommandPayload}
    (hvalid : payload.validate casefold = some payload) {zone : Int}
    (hdeadline : ∀ deadline, payload = .confirmationDeadline deadline →
      readMoment (Moment.text ⟨deadline + zone * 10 ^ 6, some zone⟩) =
        some ⟨deadline + zone * 10 ^ 6, some zone⟩) :
    readPayload casefold (.record (payload.write zone)) = some payload := by
  rw [readPayload, readUnion_eq (classes_apart _ (mem_all_classes payload.payloadClass))
    (mem_all_classes _) (admits_write payload zone), PayloadClass.read, values_write hvalid hdeadline]
  exact hvalid

end Payloads

/-! ## Commands -/

section Commands

variable {casefold : String → String}

@[simp] theorem readOperation_value (operation : Operation) :
    readOperation (.text operation.value) = some operation := by
  cases operation <;> rfl

@[simp] theorem readPlatform_value (platform : Platform) :
    readPlatform (.text platform.value) = some platform := by
  cases platform <;> rfl

@[simp] theorem readReplyContext_write (context : ReplyContext) :
    readReplyContext context.write = some context := by
  have hbuttons : readList readButton (.list (context.buttons.map Button.write)) =
      some context.buttons := readList_map fun _ _ => rfl
  have hshape : Shape.Admits
      ⟨["chat_id", "peer_id", "text_success", "text_failure", "buttons"], []⟩
      ["chat_id", "peer_id", "text_success", "text_failure", "buttons"] := by decide
  rw [readReplyContext, ReplyContext.write, readRecord]
  simp only [names, List.map_cons, List.map_nil, if_pos hshape]
  simp [Fields.optional, field?, List.lookup, hbuttons]

theorem checked_of {α : Type} {test : α → Bool} {value : α} (h : test value = true) :
    checked test value = some value :=
  if_pos h

theorem build_self (command : OrderedRegistrationCommand) :
    OrderedRegistrationCommand.build command.operationId command.eventId command.operation
      command.platform command.platformUserId command.participantKey command.identityGroup
      command.payload command.replyContext = some command :=
  dif_pos ⟨command.payload_fits, command.participant_named, command.group_fits⟩

/-- A group name that is valid is read as it was written. -/
theorem readGroup_nullable {group : Option String} (h : ∀ value ∈ group, hasLength 1 160 value) :
    readNullable (fun value => (readText value).bind (checked (hasLength 1 160)))
      (nullable .text group) = some group := by
  cases group with
  | none => rfl
  | some value =>
    show ((checked (hasLength 1 160) value).map some) = _
    rw [checked_of (h value rfl)]
    rfl

/-- A deadline is read as it was written, on a clock that can show it and is ahead of UTC by whole
minutes. -/
theorem readMoment_deadline {payload : CommandPayload} {zone : Int} (hzone : zone % 60 = 0)
    (hdeadline : ∀ deadline, payload = .confirmationDeadline deadline →
      Moment.Exists ⟨deadline + zone * 10 ^ 6, some zone⟩)
    (deadline : Time) (hpayload : payload = .confirmationDeadline deadline) :
    readMoment (Moment.text ⟨deadline + zone * 10 ^ 6, some zone⟩) =
      some ⟨deadline + zone * 10 ^ 6, some zone⟩ := by
  apply readMoment_text (hdeadline deadline hpayload)
  intro offset hoffset
  obtain rfl := Option.some.inj hoffset
  exact hzone

/-- The consumer gets the command that was published, created when it was, and it is of the group it
was sent with. -/
theorem message_round_trip {command : OrderedRegistrationCommand} (hcommand : command.Valid casefold)
    {zone : Int} (hzone : zone % 60 = 0)
    (hdeadline : ∀ deadline, command.payload = .confirmationDeadline deadline →
      Moment.Exists ⟨deadline + zone * 10 ^ 6, some zone⟩)
    {createdAt : Moment} (hcreated : createdAt.Exists)
    (hminutes : ∀ offset ∈ createdAt.offset, offset % 60 = 0) (now : Moment) :
    command.payload.validate casefold = some command.payload ∧
      (command.message zone createdAt).command casefold now = some (command, createdAt) ∧
      ∀ decoded, (command.message zone createdAt).command casefold now = some decoded →
        decoded.1.queueGroupId = (command.message zone createdAt).messageGroupId := by
  obtain ⟨given, hgiven⟩ := hcommand.payload
  have hvalid := CommandPayload.validate_normal hgiven
  have hpayload := readPayload_write hvalid (readMoment_deadline hzone hdeadline)
  have hgroup := readGroup_nullable hcommand.identityGroup
  have hcreatedAt := readMoment_text hcreated hminutes
  have hdecoded : (command.message zone createdAt).command casefold now = some (command, createdAt) := by
    have hshape : commandShape.Admits commandShape.fields := by decide
    have hversion : checked (fun version : Int => decide (version = 1)) 1 = some 1 := rfl
    show OrderedRegistrationCommand.read casefold now (command.write zone createdAt) = _
    rw [OrderedRegistrationCommand.read, OrderedRegistrationCommand.write, readRecord]
    refine (if_pos hshape).trans ?_
    simp [Fields.required, Fields.optional, field?, List.lookup, checked_of hcommand.operationId,
      hversion, hpayload, hgroup, hcreatedAt, build_self]
  refine ⟨hvalid, hdecoded, fun decoded h => ?_⟩
  rw [hdecoded] at h
  rw [← Option.some.inj h]
  rfl

/-- A confirmation, with a wish that still has its spaces when it is made. -/
def sampleCommand : OrderedRegistrationCommand where
  operationId := "0123456789abcdef0123456789abcdef"
  eventId := "game"
  operation := .confirm
  platform := .vk
  platformUserId := 7
  participantKey := some "vk:7"
  identityGroup := some "anna"
  payload := .characterWish ⟨"a baron", some "other"⟩

theorem sampleCommand_valid : sampleCommand.Valid id where
  operationId := by decide
  identityGroup := by
    intro group hgroup
    obtain rfl := Option.some.inj hgroup
    decide
  payload := ⟨.characterWish ⟨" a baron ", some "other"⟩, by decide +kernel⟩

theorem sample_message_round_trip :
    sampleCommand.payload.validate id = some sampleCommand.payload ∧
      (sampleCommand.message 10800 ⟨10 ^ 12, some 10800⟩).command id ⟨0, some 0⟩ =
        some (sampleCommand, ⟨10 ^ 12, some 10800⟩) ∧
      ∀ decoded, (sampleCommand.message 10800 ⟨10 ^ 12, some 10800⟩).command id ⟨0, some 0⟩ =
        some decoded →
          decoded.1.queueGroupId = (sampleCommand.message 10800 ⟨10 ^ 12, some 10800⟩).messageGroupId :=
  message_round_trip sampleCommand_valid (by decide) (fun _ h => nomatch h) (by decide +kernel)
    (by
      intro offset hoffset
      obtain rfl := Option.some.inj hoffset
      rfl)
    ⟨0, some 0⟩

/-- At the beginning of 1900 the clocks of Moscow were ahead by two hours, thirty minutes and
seventeen seconds; the seconds are lost. -/
theorem seconds_of_offset_lost :
    ∃ (command : OrderedRegistrationCommand) (createdAt now : Moment),
      command.Valid id ∧ createdAt.Exists ∧
        ∃ decoded, (command.message 0 createdAt).command id now = some decoded ∧
          decoded.2.instant ≠ createdAt.instant := by
  refine ⟨sampleCommand, ⟨-2208988800 * 10 ^ 6, some 9017⟩, ⟨0, some 0⟩, sampleCommand_valid,
    by decide +kernel, (sampleCommand, ⟨-2208988800 * 10 ^ 6, some 9000⟩), ?_, by decide⟩
  decide +kernel

end Commands

end LarpBot
