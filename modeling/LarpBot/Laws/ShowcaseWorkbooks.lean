import LarpBot.Adapters.ShowcaseWorkbooks
import LarpBot.Laws.QuestionRosters

/-!
# The workbooks hold the roster

A sheet that shows a roster has a line for each place of the main roster, taken or not, the separator,
and a line for each member of the reserve (`Roster.lines`). Both workbooks are renderings of these
lines (`workbooks_show_rosters`), so they put the same people at the same numbers. A row whose answer
is not one of the options is in none of the sheets (`unanswered_nowhere`).
-/

namespace LarpBot

open Atomic

/-! ## Rosters and their lines -/

/-- What a line of a sheet is there for. -/
inductive Line
  | header
  | person (number : Nat) (registration : Registration)
  | vacant (number : Nat)
  | separator

def Line.registration? : Line → Option Registration
  | person _ registration => some registration
  | _ => none

/-- The roster that a sheet is to show. -/
structure Roster where
  title : String
  playerAmount : Nat
  main : List Registration
  reserve : List Registration

namespace Roster

/-- People in a row, numbered from a number on. -/
def people (start : Nat) (rows : List Registration) : List Line :=
  (rows.zipIdx start).map fun place => .person place.2 place.1

/-- The places of the main roster that nobody has. -/
def vacancies (roster : Roster) : List Line :=
  (List.range' (roster.main.length + 1) (roster.playerAmount - roster.main.length)).map .vacant

def lines (roster : Roster) : List Line :=
  .header :: (people 1 roster.main ++ roster.vacancies) ++
    .separator :: people (roster.playerAmount + 1) roster.reserve

end Roster

/-- The roster of each sheet: the members of `main_roster` and of `reserve_roster` with the answer of
the sheet. -/
def rosters (event : Event) (rows : List Registration) : List Roster :=
  match event.registrationQuestion with
  | none => [⟨"Регистрация", event.playerAmount, mainRoster event rows, reserveRoster event rows⟩]
  | some question => question.options.map fun option =>
    { title := option.name
      playerAmount := option.playerAmount
      main := (mainRoster event rows).filter fun row => row.answerId = some option.optionId
      reserve := (reserveRoster event rows).filter fun row => row.answerId = some option.optionId }

section Renders

variable (headers : List String) (rowCells : Nat → Registration → Except Fault (List Cell))

/-- The cells that a line has in a workbook. -/
inductive Line.Renders : Line → List Cell → Prop
  | header : Line.Renders .header (headers.map .text)
  | person {number : Nat} {registration : Registration} {cells : List Cell}
    (h : rowCells number registration = .ok cells) : Line.Renders (.person number registration) cells
  | vacant (number : Nat) : Line.Renders (.vacant number) [.number number]
  | separator : Line.Renders .separator [.text "ЗАПАС"]

/-- A sheet shows a roster line by line, and the line after the main roster is merged into one
cell. -/
structure Roster.Shown (roster : Roster) (sheet : Sheet) : Prop where
  title : sheet.title = roster.title
  lines : List.Forall₂ (Line.Renders headers rowCells) roster.lines sheet.rows
  merged : sheet.merged = [(roster.playerAmount + 2, headers.length)]

end Renders

/-! ## A sheet -/

section Sheets

variable {headers : List String} {rowCells : Nat → Registration → Except Fault (List Cell)}

theorem appendEach_ok (headers : List String) {number : Nat} {rows : List Registration} {sheet sheet' : Sheet}
    (h : sheet.appendEach rowCells number rows = .ok sheet') :
    ∃ cells, sheet' = { sheet with rows := sheet.rows ++ cells } ∧
      List.Forall₂ (Line.Renders headers rowCells) (Roster.people number rows) cells := by
  induction rows generalizing number sheet with
  | nil =>
    obtain rfl := Except.ok.inj h
    exact ⟨[], by simp, .nil⟩
  | cons row rows ih =>
    rw [Sheet.appendEach] at h
    cases hrow : rowCells number row with
    | error fault => rw [hrow] at h; exact nomatch h
    | ok first =>
      rw [hrow] at h
      obtain ⟨cells, rfl, hcells⟩ := ih h
      exact ⟨first :: cells, by simp [Sheet.append], .cons (.person hrow) hcells⟩

theorem appendNumbers_eq (start stop : Nat) (sheet : Sheet) :
    sheet.appendNumbers start stop = { sheet with
      rows := sheet.rows ++ (List.range' start (stop - start)).map fun number => [.number number] } := by
  rw [Sheet.appendNumbers]
  generalize List.range' start (stop - start) = numbers
  induction numbers generalizing sheet with
  | nil => simp
  | cons number numbers ih =>
    rw [List.foldl_cons, ih]
    simp [Sheet.append]

theorem setFirst_below {sheet : Sheet} {row : Nat} (h : row = sheet.rows.length + 1) (value : Cell) :
    sheet.setFirst row value = { sheet with rows := sheet.rows ++ [[value]] } := by
  subst h
  simp [Sheet.setFirst, List.modify_eq_take_cons_drop]

theorem appendReserveSeparator_ok {playerAmount columnCount : Nat} {sheet sheet' : Sheet}
    (hrows : sheet.rows.length = playerAmount + 1)
    (h : sheet.appendReserveSeparator playerAmount columnCount = .ok sheet') :
    sheet' = { sheet with
      rows := sheet.rows ++ [[.text "ЗАПАС"]]
      merged := sheet.merged ++ [(playerAmount + 2, columnCount)] } := by
  rw [Sheet.appendReserveSeparator] at h
  split at h
  · rw [← Except.ok.inj h, setFirst_below (by simp [Sheet.mergeRow, hrows])]
    rfl
  · exact nomatch h

/-- A step of a computation that has succeeded. -/
theorem ok_of_bind {α β : Type} {x : Except Fault α} {f : α → Except Fault β} {b : β}
    (h : x >>= f = .ok b) : ∃ a, x = .ok a ∧ f a = .ok b := by
  cases x with
  | error fault => exact nomatch h
  | ok a => exact ⟨a, rfl, h⟩

/-- The roster of a group: the first rows are in the main roster. -/
def SheetGroup.roster (group : SheetGroup) : Roster where
  title := group.title
  playerAmount := group.playerAmount
  main := group.ordered.take group.playerAmount
  reserve := group.ordered.drop group.playerAmount

theorem renders_vacant (numbers : List Nat) :
    List.Forall₂ (Line.Renders headers rowCells) (numbers.map .vacant)
      (numbers.map fun number => [.number number]) := by
  induction numbers with
  | nil => exact .nil
  | cons number numbers ih => exact .cons (.vacant number) ih

theorem SheetGroup.vacancies_eq (group : SheetGroup) : group.roster.vacancies =
    (List.range' (group.ordered.length + 1) (group.playerAmount + 1 - (group.ordered.length + 1))).map
      .vacant := by
  rw [Roster.vacancies, SheetGroup.roster, List.length_take, Nat.add_sub_add_right]
  by_cases hfull : group.playerAmount ≤ group.ordered.length
  · rw [Nat.min_eq_left hfull, Nat.sub_self, Nat.sub_eq_zero_of_le hfull]
    rfl
  · rw [Nat.min_eq_right (by omega)]

/-- The sheet of a group shows its roster. -/
theorem groupSheet_ok {group : SheetGroup} {sheet : Sheet}
    (h : groupSheet headers rowCells group.title group.playerAmount group.ordered = .ok sheet) :
    group.roster.Shown headers rowCells sheet := by
  obtain ⟨filled, hmain, h⟩ := ok_of_bind h
  obtain ⟨separated, hseparator, hreserve⟩ := ok_of_bind h
  obtain ⟨mainCells, rfl, hmainCells⟩ := appendEach_ok headers hmain
  obtain ⟨reserveCells, rfl, hreserveCells⟩ := appendEach_ok headers hreserve
  rw [appendNumbers_eq] at hseparator
  have hcount : mainCells.length = min group.playerAmount group.ordered.length := by
    rw [← hmainCells.length_eq, Roster.people, List.length_map, List.length_zipIdx, List.length_take]
  obtain rfl := appendReserveSeparator_ok (by
    simp only [Sheet.append, List.length_append, List.length_map, List.length_range', List.length_nil,
      List.length_cons, hcount]
    omega) hseparator
  refine ⟨rfl, ?_, rfl⟩
  have hplaces : List.Forall₂ (Line.Renders headers rowCells)
      (Roster.people 1 group.roster.main ++ group.roster.vacancies)
      (mainCells ++ (List.range' (group.ordered.length + 1)
        (group.playerAmount + 1 - (group.ordered.length + 1))).map fun number => [.number number]) := by
    rw [group.vacancies_eq]
    exact List.rel_append hmainCells (renders_vacant _)
  have hseparated : Line.Renders headers rowCells .separator [.text "ЗАПАС"] := .separator
  have hlower := List.Forall₂.cons hseparated hreserveCells
  have hall := List.rel_append (List.Forall₂.cons .header hplaces) hlower
  rw [Roster.lines]
  simpa [Sheet.append, SheetGroup.roster] using hall

/-- A sheet is there if its capacity is in bounds and each row has its cells. -/
theorem groupSheet_isOk {title : String} {playerAmount : Nat} {ordered : List Registration}
    (hamount : 1 ≤ playerAmount ∧ playerAmount ≤ maxPlayerAmount)
    (hcells : ∀ row ∈ ordered, ∀ number, ∃ cells, rowCells number row = .ok cells) :
    ∃ sheet, groupSheet headers rowCells title playerAmount ordered = .ok sheet := by
  have heach (number : Nat) (sheet : Sheet) {people : List Registration} (hpeople : people ⊆ ordered) :
      ∃ sheet', sheet.appendEach rowCells number people = .ok sheet' := by
    induction people generalizing number sheet with
    | nil => exact ⟨sheet, rfl⟩
    | cons row people ih =>
      obtain ⟨cells, hrow⟩ := hcells row (hpeople List.mem_cons_self) number
      rw [Sheet.appendEach, hrow]
      exact ih _ _ fun _ h => hpeople (List.mem_cons_of_mem _ h)
  obtain ⟨filled, hmain⟩ := heach 1 (({ title := title } : Sheet).append (headers.map .text))
    (List.take_subset playerAmount ordered)
  obtain ⟨whole, hreserve⟩ := heach (playerAmount + 1)
    (((filled.appendNumbers (ordered.length + 1) (playerAmount + 1)).mergeRow (playerAmount + 2)
      headers.length).setFirst (playerAmount + 2) (.text "ЗАПАС"))
    (List.drop_subset playerAmount ordered)
  refine ⟨whole, ?_⟩
  rw [groupSheet, hmain]
  show (Sheet.appendReserveSeparator _ _ _ >>= fun _ => _) = _
  rw [Sheet.appendReserveSeparator, if_pos hamount]
  exact hreserve

theorem forall₂_of_mapM {α β : Type} {f : α → Except Fault β} {as : List α} {bs : List β}
    (h : as.mapM f = .ok bs) : List.Forall₂ (fun a b => f a = .ok b) as bs := by
  induction as generalizing bs with
  | nil =>
    obtain rfl := Except.ok.inj h
    exact .nil
  | cons a as ih =>
    rw [List.mapM_cons] at h
    obtain ⟨b, hb, h⟩ := ok_of_bind h
    obtain ⟨rest, hrest, h⟩ := ok_of_bind h
    obtain rfl := Except.ok.inj h
    exact .cons hb (ih hrest)

/-- The sheets of groups show their rosters. -/
theorem groupSheets_ok {groups : List SheetGroup} {sheets : List Sheet}
    (h : (groups.mapM fun group =>
      groupSheet headers rowCells group.title group.playerAmount group.ordered) = .ok sheets) :
    List.Forall₂ (Roster.Shown headers rowCells) (groups.map SheetGroup.roster) sheets :=
  List.forall₂_map_left_iff.mpr ((forall₂_of_mapM h).imp fun _ _ => groupSheet_ok)

theorem mapM_isOk {α β : Type} {f : α → Except Fault β} {as : List α}
    (h : ∀ a ∈ as, ∃ b, f a = .ok b) : ∃ bs, as.mapM f = .ok bs := by
  induction as with
  | nil => exact ⟨[], rfl⟩
  | cons a as ih =>
    obtain ⟨b, hb⟩ := h a List.mem_cons_self
    obtain ⟨bs, hbs⟩ := ih fun a' ha' => h a' (List.mem_cons_of_mem a ha')
    refine ⟨b :: bs, ?_⟩
    rw [List.mapM_cons, hb, hbs]
    rfl

end Sheets

/-! ## The rosters of a game -/

section Rosters

variable {event : Event} {rows : List Registration}

theorem ranks_queueKey (hkeys : (rows.map Registration.participantKey).Nodup) :
    Ranks queueKey rows := by
  intro a ha b hb hab
  exact List.inj_on_of_nodup_map hkeys ha hb (congrArg (fun key => (ofLex key).2) hab)

theorem filter_ordered (hkeys : (rows.map Registration.participantKey).Nodup) (optionId : String) :
    (orderedActiveRegistrations rows).filter (fun row => row.answerId = some optionId) =
      activeQueue rows (some optionId) := by
  rw [orderedActiveRegistrations, filter_sortBy ((ranks_queueKey hkeys).filter _), activeQueue,
    List.filter_filter]
  congr 1
  refine List.filter_congr fun row _ => ?_
  simp [Bool.and_comm]

theorem ordered_eq : orderedActiveRegistrations rows = activeQueue rows := by
  simp [orderedActiveRegistrations, activeQueue]

theorem keys_activeQueue (hkeys : (rows.map Registration.participantKey).Nodup)
    (answerId : Option String) :
    ((activeQueue rows answerId).map Registration.participantKey).Nodup :=
  ((sortBy_perm queueKey _).map _).nodup_iff.mpr (hkeys.sublist (List.filter_sublist.map _))

/-- The main roster of an option is the head of its queue. -/
theorem main_of_option {question : RegistrationQuestion} {option : AnswerOption}
    (hasked : event.registrationQuestion = some question) (hoption : option ∈ question.options) :
    (mainRoster event rows).filter (fun row => row.answerId = some option.optionId) =
      optionHead rows option := by
  have hdistinct : (question.options.map fun o => some o.optionId).Nodup := by
    have hdistinct := question.distinct.map (Option.some_injective String)
    rwa [List.map_map] at hdistinct
  rw [mainRoster_split hasked]
  exact filter_flatMap_eq Registration.answerId (fun o : AnswerOption => some o.optionId) hdistinct
    (fun _ _ _ hrow => answerId_of_optionHead hrow) hoption

/-- A row of an option has the key of one of the main roster only if it is one. -/
theorem mem_main_keys (hkeys : (rows.map Registration.participantKey).Nodup)
    {question : RegistrationQuestion} {option : AnswerOption}
    (hasked : event.registrationQuestion = some question) (hoption : option ∈ question.options)
    {row : Registration} (hrow : row ∈ activeQueue rows (some option.optionId)) :
    row.participantKey ∈ (mainRoster event rows).map Registration.participantKey ↔
      row.participantKey ∈ (optionHead rows option).map Registration.participantKey := by
  have hrows := mem_activeQueue.mp hrow
  constructor
  · intro hkey
    obtain ⟨other, hother, hsame⟩ := List.mem_map.mp hkey
    have hin := (mem_mainRoster_split hasked hother).1
    obtain rfl := List.inj_on_of_nodup_map hkeys hin hrows.1 hsame
    refine List.mem_map_of_mem ?_
    rw [← main_of_option hasked hoption]
    exact List.mem_filter.mpr ⟨hother, decide_eq_true (hrows.2.2.resolve_left (by simp))⟩
  · intro hkey
    obtain ⟨other, hother, hsame⟩ := List.mem_map.mp hkey
    rw [← main_of_option hasked hoption] at hother
    exact hsame ▸ List.mem_map_of_mem (List.mem_of_mem_filter hother)

/-- The reserve of an option is the rest of its queue. -/
theorem reserve_of_option (hkeys : (rows.map Registration.participantKey).Nodup)
    {question : RegistrationQuestion} {option : AnswerOption}
    (hasked : event.registrationQuestion = some question) (hoption : option ∈ question.options) :
    (reserveRoster event rows).filter (fun row => row.answerId = some option.optionId) =
      (activeQueue rows (some option.optionId)).drop option.playerAmount := by
  have hqueue : (activeQueue rows).filter (fun row => row.answerId = some option.optionId) =
      activeQueue rows (some option.optionId) := by
    rw [← ordered_eq, filter_ordered hkeys]
  rw [reserveRoster, List.filter_comm, hqueue,
    ← filter_not_take (keys_activeQueue hkeys (some option.optionId)) option.playerAmount]
  refine List.filter_congr fun row hrow => ?_
  exact decide_eq_decide.mpr (not_congr (mem_main_keys hkeys hasked hoption hrow))

/-- What the sheets are filled with is the rosters of the game. -/
theorem rosters_eq (hkeys : (rows.map Registration.participantKey).Nodup) :
    (sheetGroups rows event.playerAmount event.registrationQuestion).map SheetGroup.roster =
      rosters event rows := by
  unfold sheetGroups rosters
  cases hasked : event.registrationQuestion with
  | none =>
    have hmain : mainRoster event rows = (activeQueue rows).take event.playerAmount := by
      rw [mainRoster, hasked]
    have hreserve : reserveRoster event rows = (activeQueue rows).drop event.playerAmount := by
      rw [reserveRoster, hmain]
      exact filter_not_take (keys_activeQueue hkeys none) event.playerAmount
    simp [SheetGroup.roster, ordered_eq, hmain, hreserve]
  | some question =>
    simp only [List.map_map]
    refine List.map_congr_left fun option hoption => ?_
    simp only [Function.comp_apply, SheetGroup.roster, filter_ordered hkeys,
      main_of_option hasked hoption, reserve_of_option hkeys hasked hoption, optionHead]

/-- A row has a sheet to be in: its answer is one of the options. -/
def HasSheet (event : Event) (row : Registration) : Prop :=
  ∀ question, event.registrationQuestion = some question →
    ∃ option ∈ question.options, row.answerId = some option.optionId

/-- The queue of a sheet is the one that `queue_position` counts in. -/
theorem mem_sheetGroups (hkeys : (rows.map Registration.participantKey).Nodup) {group : SheetGroup}
    (hgroup : group ∈ sheetGroups rows event.playerAmount event.registrationQuestion) :
    ∃ answerId, group.ordered = activeQueue rows answerId ∧ ∀ row ∈ group.ordered,
      HasSheet event row ∧
        (if event.registrationQuestion.isSome then row.answerId else none) = answerId := by
  unfold sheetGroups at hgroup
  cases hasked : event.registrationQuestion with
  | none =>
    rw [hasked] at hgroup
    obtain rfl := List.mem_singleton.mp hgroup
    exact ⟨none, ordered_eq, fun row _ => ⟨fun _ h => (nomatch hasked.symm.trans h), rfl⟩⟩
  | some question =>
    rw [hasked] at hgroup
    obtain ⟨option, hoption, rfl⟩ := List.mem_map.mp hgroup
    refine ⟨some option.optionId, filter_ordered hkeys _, fun row hrow => ?_⟩
    have hanswer : row.answerId = some option.optionId := by simpa using (List.mem_filter.mp hrow).2
    refine ⟨fun question' h => ?_, hanswer⟩
    obtain rfl := Option.some.inj (hasked.symm.trans h)
    exact ⟨option, hoption, hanswer⟩

theorem mem_people {start number : Nat} {people : List Registration} {row : Registration} :
    Line.person number row ∈ Roster.people start people ↔
      ∃ place, people[place]? = some row ∧ number = start + place := by
  simp only [Roster.people, List.mem_map, List.mem_zipIdx_iff_le_and_getElem?_sub, Line.person.injEq,
    Prod.exists]
  constructor
  · rintro ⟨row', number', ⟨hle, hat⟩, rfl, rfl⟩
    exact ⟨number' - start, hat, by omega⟩
  · rintro ⟨place, hat, rfl⟩
    exact ⟨row, start + place, ⟨by omega, by simpa using hat⟩, rfl, rfl⟩

/-- The numbers of a sheet count the queue. -/
theorem person_mem_lines {group : SheetGroup} {number : Nat} {row : Registration}
    (h : Line.person number row ∈ group.roster.lines) :
    ∃ place, group.ordered[place]? = some row ∧ number = place + 1 := by
  simp only [Roster.lines, List.cons_append, List.mem_cons, List.mem_append, Roster.vacancies,
    List.mem_map, reduceCtorEq, and_false, exists_false, or_false, false_or, mem_people,
    SheetGroup.roster] at h
  rcases h with ⟨place, hat, rfl⟩ | ⟨place, hat, rfl⟩
  · refine ⟨place, ?_, by omega⟩
    rw [List.getElem?_take] at hat
    split at hat
    · exact hat
    · exact nomatch hat
  · rw [List.getElem?_drop] at hat
    exact ⟨_, hat, by omega⟩

theorem registrations_people (start : Nat) (people : List Registration) :
    (Roster.people start people).filterMap Line.registration? = people := by
  induction people generalizing start with
  | nil => rfl
  | cons row people ih => exact congrArg (row :: ·) (ih (start + 1))

/-- The people of a sheet. -/
theorem registrations_lines (group : SheetGroup) :
    group.roster.lines.filterMap Line.registration? = group.ordered := by
  have hvacant (numbers : List Nat) :
      (numbers.map Line.vacant).filterMap Line.registration? = [] := by
    simp [List.filterMap_map, Function.comp_def, Line.registration?]
  simp only [Roster.lines, List.cons_append, List.filterMap_cons, List.filterMap_append,
    registrations_people, Roster.vacancies, hvacant, Line.registration?, List.append_nil]
  exact List.take_append_drop _ _

/-- Everybody who is in the sheets. -/
def shownIn (rosters : List Roster) : List Registration :=
  rosters.flatMap fun roster => roster.lines.filterMap Line.registration?

theorem shownIn_groups (groups : List SheetGroup) :
    shownIn (groups.map SheetGroup.roster) = groups.flatMap SheetGroup.ordered := by
  rw [shownIn, List.flatMap_map]
  exact congrArg (groups.flatMap ·) (funext registrations_lines)

/-- A row that has a sheet is shown once. -/
theorem count_shownIn (hkeys : (rows.map Registration.participantKey).Nodup) {row : Registration}
    (hrow : row ∈ rows) (hactive : isActive row) (hsheet : HasSheet event row) :
    (shownIn (rosters event rows)).count row = 1 := by
  have hrows : rows.Nodup := hkeys.of_map
  rw [← rosters_eq hkeys, shownIn_groups]
  unfold sheetGroups
  cases hasked : event.registrationQuestion with
  | none =>
    simp only [List.flatMap_cons, List.flatMap_nil, List.append_nil, ordered_eq]
    exact List.count_eq_one_of_mem (nodup_activeQueue hrows none)
      (mem_activeQueue.mpr ⟨hrow, hactive, .inl rfl⟩)
  | some question =>
    obtain ⟨option, hoption, hanswer⟩ := hsheet question hasked
    rw [List.flatMap_map]
    simp only [filter_ordered hkeys]
    refine List.count_eq_one_of_mem ?_ (List.mem_flatMap.mpr
      ⟨option, hoption, mem_activeQueue.mpr ⟨hrow, hactive, .inr hanswer⟩⟩)
    refine nodup_flatMap_of_tag Registration.answerId (fun o => some o.optionId) ?_ ?_ ?_
    · have hdistinct := question.distinct.map (Option.some_injective String)
      rwa [List.map_map] at hdistinct
    · exact fun o _ row hrow => (mem_activeQueue.mp hrow).2.2.resolve_left (by simp)
    · exact fun o _ => nodup_activeQueue hrows _

/-- The number of a row is its position in the queue. -/
theorem queuePosition_of_place (hkeys : (rows.map Registration.participantKey).Nodup)
    {answerId : Option String} {row : Registration} {place : Nat}
    (hat : (activeQueue rows answerId)[place]? = some row)
    (hanswer : (if event.registrationQuestion.isSome then row.answerId else none) = answerId) :
    queuePosition event rows row = some (place + 1) := by
  have hdistinct := keys_activeQueue hkeys answerId
  obtain ⟨hplace, hrow⟩ := List.getElem?_eq_some_iff.mp hat
  have hfound : (activeQueue rows answerId).findIdx?
      (fun other => other.participantKey = row.participantKey) = some place := by
    refine List.findIdx?_eq_some_iff_getElem.mpr ⟨hplace, by simp [hrow], fun earlier hearlier => ?_⟩
    rw [decide_eq_true_eq, ← hrow]
    intro hsame
    have hindex : earlier = place := by
      refine (List.getElem?_inj ?_ hdistinct).mp ?_
      · rw [List.length_map]
        exact hearlier.trans hplace
      · rw [List.getElem?_map, List.getElem?_map, List.getElem?_eq_getElem (hearlier.trans hplace),
          List.getElem?_eq_getElem hplace]
        exact congrArg some hsame
    exact absurd hindex hearlier.ne
  simp only [queuePosition, hanswer, hfound]
  rfl

/-! ## The workbooks -/

/-- The capacities are ones that the models admit. -/
def CapacitiesFit (event : Event) : Prop :=
  match event.registrationQuestion with
  | none => 1 ≤ event.playerAmount ∧ event.playerAmount ≤ maxPlayerAmount
  | some question => ∀ option ∈ question.options,
    1 ≤ option.playerAmount ∧ option.playerAmount ≤ maxPlayerAmount

/-- Both workbooks of a game show its rosters: a sheet for each, line by line. They are there if the
capacities are in bounds and the cells take the texts of the active rows. Whoever is in a sheet is an
active row and has its queue position for a number; an active row that has a sheet is there once. -/
structure ShowsRosters (cellOf : String → Except Fault Cell)
    (needsPassByKey : List (ParticipantKey × Option Bool)) (event : Event)
    (rows : List Registration) : Prop where
  master : ∀ sheets, showcaseWorkbook cellOf rows needsPassByKey event.playerAmount
    event.registrationQuestion = .ok sheets →
      List.Forall₂ (Roster.Shown visibleHeaders (masterCells cellOf needsPassByKey))
        (rosters event rows) sheets
  shared : ∀ sheets, publicShowcaseWorkbook cellOf rows event.playerAmount
    event.registrationQuestion = .ok sheets →
      List.Forall₂ (Roster.Shown publicHeaders (publicCells cellOf)) (rosters event rows) sheets
  masterThere : CapacitiesFit event →
    (∀ row ∈ rows, isActive row → ∀ number, ∃ cells,
      masterCells cellOf needsPassByKey number row = .ok cells) →
    ∃ sheets, showcaseWorkbook cellOf rows needsPassByKey event.playerAmount
      event.registrationQuestion = .ok sheets
  sharedThere : CapacitiesFit event →
    (∀ row ∈ rows, isActive row → ∀ number, ∃ cells, publicCells cellOf number row = .ok cells) →
    ∃ sheets, publicShowcaseWorkbook cellOf rows event.playerAmount
      event.registrationQuestion = .ok sheets
  bounded : ∀ roster ∈ rosters event rows, roster.main.length ≤ roster.playerAmount
  numbered : ∀ roster ∈ rosters event rows, ∀ number row, .person number row ∈ roster.lines →
    row ∈ rows ∧ isActive row ∧ HasSheet event row ∧ queuePosition event rows row = some number
  once : ∀ row ∈ rows, isActive row → HasSheet event row →
    (shownIn (rosters event rows)).count row = 1

/-- The rows of a sheet are active rows of the game. -/
theorem mem_ordered (hkeys : (rows.map Registration.participantKey).Nodup) {group : SheetGroup}
    (hgroup : group ∈ sheetGroups rows event.playerAmount event.registrationQuestion)
    {row : Registration} (hrow : row ∈ group.ordered) : row ∈ rows ∧ isActive row := by
  obtain ⟨answerId, hordered, -⟩ := mem_sheetGroups hkeys hgroup
  rw [hordered] at hrow
  exact ⟨(mem_activeQueue.mp hrow).1, (mem_activeQueue.mp hrow).2.1⟩

theorem amount_fits (hfit : CapacitiesFit event) {group : SheetGroup}
    (hgroup : group ∈ sheetGroups rows event.playerAmount event.registrationQuestion) :
    1 ≤ group.playerAmount ∧ group.playerAmount ≤ maxPlayerAmount := by
  unfold sheetGroups at hgroup
  unfold CapacitiesFit at hfit
  cases hasked : event.registrationQuestion with
  | none =>
    rw [hasked] at hgroup hfit
    obtain rfl := List.mem_singleton.mp hgroup
    exact hfit
  | some question =>
    rw [hasked] at hgroup hfit
    obtain ⟨option, hoption, rfl⟩ := List.mem_map.mp hgroup
    exact hfit option hoption

/-- The workbooks of a game show its rosters, whatever the question, the rows and the capacities. -/
theorem workbooks_show_rosters (cellOf : String → Except Fault Cell)
    (needsPassByKey : List (ParticipantKey × Option Bool)) (event : Event)
    (rows : List Registration) (hkeys : (rows.map Registration.participantKey).Nodup) :
    ShowsRosters cellOf needsPassByKey event rows where
  master sheets h := rosters_eq hkeys ▸ groupSheets_ok h
  shared sheets h := rosters_eq hkeys ▸ groupSheets_ok h
  masterThere hfit hcells := mapM_isOk fun group hgroup =>
    groupSheet_isOk (amount_fits hfit hgroup) fun row hrow =>
      have hrow := mem_ordered hkeys hgroup hrow
      hcells row hrow.1 hrow.2
  sharedThere hfit hcells := mapM_isOk fun group hgroup =>
    groupSheet_isOk (amount_fits hfit hgroup) fun row hrow =>
      have hrow := mem_ordered hkeys hgroup hrow
      hcells row hrow.1 hrow.2
  bounded roster hroster := by
    rw [← rosters_eq hkeys] at hroster
    obtain ⟨group, -, rfl⟩ := List.mem_map.mp hroster
    exact List.length_take_le _ _
  numbered roster hroster number row hline := by
    rw [← rosters_eq hkeys] at hroster
    obtain ⟨group, hgroup, rfl⟩ := List.mem_map.mp hroster
    obtain ⟨place, hat, rfl⟩ := person_mem_lines hline
    have hrow : row ∈ group.ordered := List.mem_of_getElem? hat
    obtain ⟨hmem, hactive⟩ := mem_ordered hkeys hgroup hrow
    obtain ⟨answerId, hordered, hanswers⟩ := mem_sheetGroups hkeys hgroup
    obtain ⟨hsheet, hanswer⟩ := hanswers row hrow
    rw [hordered] at hat
    exact ⟨hmem, hactive, hsheet, queuePosition_of_place hkeys hat hanswer⟩
  once row hrow hactive hsheet := count_shownIn hkeys hrow hactive hsheet

end Rosters

/-! ## A row without an answer -/

section Sample

def askingEvent : Event where
  eventId := "game"
  name := "Игра"
  registrationQuestion := some tableQuestion

def seat (participantKey displayName : String) (answerId : Option String) : Registration where
  eventId := "game"
  participantKey := participantKey
  displayName := displayName
  wishPlay := ""
  answerId := answerId

def plainCell (value : String) : Except Fault Cell :=
  .ok (.text value)

/-- One player for each table, and a third one for the first. -/
theorem tables_show_rosters : ShowsRosters plainCell [] askingEvent
    [seat "a" "Иванов Иван" (some "a"), seat "b" "Петров Пётр" (some "b"),
      seat "c" "Сидоров Сидор" (some "a")] :=
  workbooks_show_rosters plainCell [] askingEvent _ (by decide)

/-- The lines of a sheet below its header have no name. -/
def nobodyIn (sheets : List Sheet) : Bool :=
  sheets.all fun sheet => (sheet.rows.drop 1).all fun cells => cells.length = 1

/-- An active row without an answer is in the reserve of the game and in none of the sheets, and of
two rows with one key the second has another number than its queue position. -/
theorem unanswered_nowhere :
    (∃ event row, isActive row ∧ reserveRoster event [row] = [row] ∧
      ∃ master shared, showcaseWorkbook plainCell [row] [] event.playerAmount
          event.registrationQuestion = .ok master ∧
        publicShowcaseWorkbook plainCell [row] event.playerAmount event.registrationQuestion =
          .ok shared ∧ nobodyIn master ∧ nobodyIn shared) ∧
    ∃ event first second, isActive second ∧ queuePosition event [first, second] second = some 1 ∧
      ∃ sheet, publicShowcaseWorkbook plainCell [first, second] event.playerAmount
          event.registrationQuestion = .ok [sheet] ∧
        ∃ cells, publicCells plainCell 2 second = .ok cells ∧ sheet.rows[2]? = some cells := by
  refine ⟨⟨askingEvent, seat "a" "Иванов Иван" none, rfl, rfl, _, _, rfl, rfl, ?_, ?_⟩,
    { askingEvent with registrationQuestion := none, playerAmount := 3 },
    seat "a" "Иванов Иван" none, seat "a" "Петров Пётр" none, rfl, rfl, _, rfl, _, rfl, rfl⟩
  · rfl
  · rfl

end Sample

end LarpBot
