import LarpBot.Laws.Maintenance
import LarpBot.Laws.WorkbookAdditions

/-!
# A statistics file over many games

A run of edits, of which some are refused and some have been made before. What a file has at the end of it
is told by the edits that replaced it on the way: each credits the players that it names, once for a game,
and the sheets of the other seasons stay as they are.
-/

namespace LarpBot

open Worksheets Atomic StatisticsWorkbook

variable {bot : Deployment} {floatText : ℚ → String} {book : StatisticsBook} {file : Sheets}
variable {w v w' : StatisticsWorkbook} {edit : StatisticsEdit} {edits log : List StatisticsEdit}

/-! ## One edit -/

section Edit

/-- A file that is taken and has nothing besides its headers, its players and its footer. -/
structure Editable (book : StatisticsBook) (file : Sheets) (w : StatisticsWorkbook) : Prop where
  loaded : Loaded book file w
  tidy : Tidy w

/-- An edit after which the file can be loaded: the year has a season, the game has a name, and nobody is called
like a line of the footer. The names of profiles may be such, and `load` then finds a footer in the row. -/
structure StatisticsEdit.Proper (book : StatisticsBook) (edit : StatisticsEdit) : Prop where
  season : 2000 ≤ edit.seasonYear ∧ edit.seasonYear ≤ 2098
  game : edit.game ≠ ""
  names : ∀ name ∈ edit.names, name ∉ book.layout.footerTitles

variable (bot floatText) in
/-- Whether an edit replaces the file. -/
def replaces (book : StatisticsBook) (file : Sheets) (edit : StatisticsEdit) : Bool :=
  match editStatistics bot floatText book file edit with
  | .ok (_, replaced) => replaced
  | .error _ => false

variable (bot floatText) in
/-- An edit leaves the file, or the file has the game afterwards. -/
theorem edit_cases (heditable : Editable book file w) (hproper : edit.Proper book) :
    (replaces bot floatText book file edit = false ∧ afterEdit bot floatText book file edit = file) ∨
    (replaces bot floatText book file edit = true ∧ ∃ w', Editable book (afterEdit bot floatText book file edit) w' ∧
      Advanced bot floatText w w' edit) := by
  have hload : book.load file = .ok w := loaded_iff.mpr heditable.loaded
  have hprepared : prepareStatistics bot floatText book file edit.seasonYear edit.game edit.names =
      (do return (← w.addGame bot floatText edit.seasonYear edit.game edit.names).map StatisticsWorkbook.sheets) := by
    unfold prepareStatistics
    rw [hload]
    rfl
  unfold replaces afterEdit editStatistics
  rw [hprepared]
  cases hadd : w.addGame bot floatText edit.seasonYear edit.game edit.names with
  | error failure => exact .inl ⟨rfl, rfl⟩
  | ok added =>
    cases added with
    | none => exact .inl ⟨rfl, rfl⟩
    | some m =>
      have hadvanced := advanced_addGame heditable.loaded heditable.tidy
        (isSeasonName_seasonTitle hproper.season.1 hproper.season.2) hproper.game hproper.names hadd
      refine .inr ⟨rfl, m.reloaded, ⟨?_, hadvanced.tidy⟩, hadvanced⟩
      exact heditable.loaded.book_eq ▸ hadvanced.loaded

end Edit

namespace StatisticsWorkbook

/-! ## Runs -/

section Runs

variable (bot floatText) in
/-- The edits of a run that replace the file. -/
def entered (book : StatisticsBook) : Sheets → List StatisticsEdit → List StatisticsEdit
  | _, [] => []
  | file, edit :: edits =>
    let later := entered book (afterEdit bot floatText book file edit) edits
    if replaces bot floatText book file edit then edit :: later else later

variable (bot floatText) in
/-- The workbooks of a file, from one edit that replaces it to the next. -/
inductive History : StatisticsWorkbook → List StatisticsEdit → StatisticsWorkbook → Prop
  | start (w : StatisticsWorkbook) : History w [] w
  | edit {w v w' : StatisticsWorkbook} {edit : StatisticsEdit} {log : List StatisticsEdit}
    (first : Advanced bot floatText w v edit) (rest : History v log w') : History w (edit :: log) w'

variable (bot floatText) in
theorem history_afterEdits (heditable : Editable book file w) (hproper : ∀ edit ∈ edits, edit.Proper book) :
    ∃ w', Editable book (afterEdits bot floatText book file edits) w' ∧
      History bot floatText w (entered bot floatText book file edits) w' := by
  induction edits generalizing file w with
  | nil => exact ⟨w, heditable, .start w⟩
  | cons edit edits ih =>
    have hlater : ∀ edit ∈ edits, edit.Proper book :=
      fun other hother => hproper other (List.mem_cons_of_mem _ hother)
    have hrun : afterEdits bot floatText book file (edit :: edits) =
        afterEdits bot floatText book (afterEdit bot floatText book file edit) edits := rfl
    rw [hrun, entered]
    rcases edit_cases bot floatText heditable (hproper edit List.mem_cons_self) with
      ⟨hkept, hsame⟩ | ⟨hreplaced, v, hv, hadvanced⟩
    · rw [hkept, hsame]
      exact ih heditable hlater
    · obtain ⟨w', hw', hhistory⟩ := ih hv hlater
      rw [hreplaced]
      exact ⟨w', hw', .edit hadvanced hhistory⟩

end Runs

/-! ## The players -/

section Players

theorem Advanced.layout (h : Advanced bot floatText w v edit) : v.layout = w.layout := by
  unfold StatisticsWorkbook.layout
  rw [h.loaded.book_eq]

theorem Advanced.player_mem (h : Advanced bot floatText w v edit) {row : Nat} (hrow : row ∈ w.playerRows) :
    row ∈ v.playerRows := by
  have hlast := h.lastPlayer
  obtain ⟨hlow, hhigh⟩ := mem_playerRows.mp hrow
  exact mem_playerRows.mpr ⟨hlow, by omega⟩

theorem Advanced.row_cases (h : Advanced bot floatText w v edit) {row : Nat} (hrow : row ∈ v.playerRows) :
    row ∈ w.playerRows ∨ ∃ index other, (w.newcomers bot floatText edit.names)[index]? = some other ∧
      row = w.lastPlayer + 1 + index := by
  have hlast := h.lastPlayer
  obtain ⟨hlow, hhigh⟩ := mem_playerRows.mp hrow
  by_cases hold : row ≤ w.lastPlayer
  · exact .inl (mem_playerRows.mpr ⟨hlow, hold⟩)
  · have hindex : row - (w.lastPlayer + 1) < (w.newcomers bot floatText edit.names).length := by omega
    exact .inr ⟨row - (w.lastPlayer + 1), _, List.getElem?_eq_getElem hindex, by omega⟩

theorem Advanced.playerName (h : Advanced bot floatText w v edit) {row : Nat} (hrow : row ∈ w.playerRows) :
    v.playerName floatText row = w.playerName floatText row :=
  playerName_congr (h.names row hrow)

theorem Advanced.newName (h : Advanced bot floatText w v edit) {index : Nat} {other : String}
    (hother : (w.newcomers bot floatText edit.names)[index]? = some other) :
    v.playerName floatText (w.lastPlayer + 1 + index) = other := by
  unfold StatisticsWorkbook.playerName
  rw [cellValue, h.newNames index other hother]
  rfl

theorem mem_matchingRows {player : String} {row : Nat} : row ∈ w.matchingRows bot floatText player ↔
    (normalizedName bot.casefold player, row) ∈ w.lookupNames bot floatText ∨
      (∀ other, (normalizedName bot.casefold player, other) ∉ w.lookupNames bot floatText) ∧
        (normalizedName bot.casefold player, row) ∈ w.lookupReversed bot floatText := by
  unfold matchingRows
  by_cases hdirect : rowsUnder (normalizedName bot.casefold player) (w.lookupNames bot floatText) = []
  · have hnone : ∀ other, (normalizedName bot.casefold player, other) ∉ w.lookupNames bot floatText := by
      intro other hin
      have := mem_rowsUnder.mpr hin
      rw [hdirect] at this
      exact nomatch this
    simp only [hdirect, ne_eq, not_true_eq_false, if_false, mem_rowsUnder]
    constructor
    · exact fun h => .inr ⟨hnone, h⟩
    · rintro (h | ⟨-, h⟩)
      · exact absurd h (hnone row)
      · exact h
  · simp only [ne_eq, hdirect, not_false_eq_true, if_true, mem_rowsUnder]
    constructor
    · exact Or.inl
    · rintro (h | ⟨hnone, -⟩)
      · exact h
      · obtain ⟨other, hother⟩ := List.exists_mem_of_ne_nil _ hdirect
        exact absurd (mem_rowsUnder.mp hother) (hnone other)

/-- A name that some row has makes no new row. -/
theorem Advanced.newcomer_unmatched (h : Advanced bot floatText w v edit) {player : String} {row : Nat}
    (hrow : row ∈ v.playerRows)
    (hname : normalizedName bot.casefold (v.playerName floatText row) = normalizedName bot.casefold player)
    (hmatched : w.matchingRows bot floatText player ≠ []) : row ∈ w.playerRows := by
  rcases h.row_cases hrow with hold | ⟨index, other, hother, rfl⟩
  · exact hold
  · rw [h.newName hother] at hname
    rw [← matchingRows_congr hname] at hmatched
    exact absurd (newcomers_unmatched (List.mem_of_getElem? hother)) hmatched

/-- Which of the old rows a name marks does not change. -/
theorem Advanced.matching_iff (h : Advanced bot floatText w v edit) {player : String} {row : Nat}
    (hrow : row ∈ w.playerRows) :
    row ∈ v.matchingRows bot floatText player ↔ row ∈ w.matchingRows bot floatText player := by
  have hdirect (other : Nat) (hother : other ∈ w.playerRows) :
      (normalizedName bot.casefold player, other) ∈ v.lookupNames bot floatText ↔
        (normalizedName bot.casefold player, other) ∈ w.lookupNames bot floatText := by
    rw [mem_lookupNames, mem_lookupNames, h.playerName hother]
    exact and_congr_left' ⟨fun _ => hother, fun _ => h.player_mem hother⟩
  have hreversed : (normalizedName bot.casefold player, row) ∈ v.lookupReversed bot floatText ↔
      (normalizedName bot.casefold player, row) ∈ w.lookupReversed bot floatText := by
    rw [mem_lookupReversed, mem_lookupReversed, h.layout, h.playerName hrow]
    exact and_congr_right fun _ => and_congr_left' ⟨fun _ => hrow, fun _ => h.player_mem hrow⟩
  rw [mem_matchingRows, mem_matchingRows, hdirect row hrow, hreversed]
  constructor
  · rintro (hin | ⟨hnone, hin⟩)
    · exact .inl hin
    · refine .inr ⟨fun other hother => ?_, hin⟩
      exact hnone other ((hdirect other (mem_lookupNames.mp hother).1).mpr hother)
  · rintro (hin | ⟨hnone, hin⟩)
    · exact .inl hin
    · refine .inr ⟨fun other hother => ?_, hin⟩
      obtain ⟨hplayer, hname⟩ := mem_lookupNames.mp hother
      have hmatched : w.matchingRows bot floatText player ≠ [] :=
        List.ne_nil_of_mem (mem_matchingRows.mpr (.inr ⟨hnone, hin⟩))
      have hold := h.newcomer_unmatched hplayer hname hmatched
      exact hnone other ((hdirect other hold).mp hother)

theorem Advanced.credited_iff (h : Advanced bot floatText w v edit) {players : List String} {row : Nat}
    (hrow : row ∈ w.playerRows) :
    v.Credited bot floatText players row ↔ w.Credited bot floatText players row :=
  exists_congr fun _ => and_congr_right fun _ => h.matching_iff hrow

/-- The total of a row is what it was, with the games that credit the row. -/
theorem History.total (h : History bot floatText w log w') {row : Nat} (hrow : row ∈ w.playerRows) {total : ℚ}
    (htotal : w.total row = .ok total) :
    w'.total row = .ok (total + (log.countP fun edit => w.Credited bot floatText edit.names row : Nat)) := by
  induction h generalizing total with
  | start w =>
    rw [List.countP_nil, Nat.cast_zero, add_zero]
    exact htotal
  | @edit w v w' edit log first rest ih =>
    obtain ⟨before, hbefore, hafter⟩ := first.credited row hrow
    obtain rfl : total = before := Except.ok.inj (htotal.symm.trans hbefore)
    rw [ih (first.player_mem hrow) hafter]
    simp only [first.credited_iff hrow]
    rw [List.countP_cons]
    by_cases hcredited : w.Credited bot floatText edit.names row
    · simp only [hcredited, if_true, decide_true, Nat.cast_add, Nat.cast_one]
      rw [add_assoc, add_comm (1 : ℚ)]
    · simp only [hcredited, if_false, decide_false, Bool.false_eq_true, add_zero]

end Players

/-! ## Who is found -/

section Found

variable (bot floatText) in
/-- Some row has the name, or has it with its two parts exchanged where that counts. -/
def Knows (w : StatisticsWorkbook) (player : String) : Prop :=
  ∃ row ∈ w.playerRows, normalizedName bot.casefold (w.playerName floatText row) =
    normalizedName bot.casefold player ∨
    w.layout.matchReversedNames = true ∧
      reversedName bot (w.playerName floatText row) = some (normalizedName bot.casefold player)

variable (bot floatText) in
/-- No name has two rows. -/
def Distinct (w : StatisticsWorkbook) : Prop :=
  ∀ row ∈ w.playerRows, ∀ other ∈ w.playerRows,
    normalizedName bot.casefold (w.playerName floatText row) =
      normalizedName bot.casefold (w.playerName floatText other) → row = other

theorem knows_of_matching {player : String} (h : w.matchingRows bot floatText player ≠ []) :
    w.Knows bot floatText player := by
  obtain ⟨row, hrow⟩ := List.exists_mem_of_ne_nil _ h
  rcases mem_matchingRows.mp hrow with hdirect | ⟨-, hreversed⟩
  · obtain ⟨hplayer, hname⟩ := mem_lookupNames.mp hdirect
    exact ⟨row, hplayer, .inl hname⟩
  · obtain ⟨hmatch, hplayer, hname⟩ := mem_lookupReversed.mp hreversed
    exact ⟨row, hplayer, .inr ⟨hmatch, hname⟩⟩

theorem playerName_of_tidy (htidy : Tidy w) {row : Nat} (hrow : row ∈ w.playerRows) :
    pythonTextOrEmpty floatText (cellValue w.sheet (row, 1)) = w.playerName floatText row := by
  obtain ⟨⟨name, hname, -⟩, -⟩ := isPlayerRow_iff.mp (htidy.players row hrow)
  unfold playerName
  rw [hname]
  rfl

theorem hasAnyPlayer_of_knows (htidy : Tidy w) {player : String} {names : List String} (hplayer : player ∈ names)
    (h : w.Knows bot floatText player) : w.hasAnyPlayer bot floatText names = true := by
  obtain ⟨row, hrow, hname⟩ := h
  have hcandidate : normalizedName bot.casefold player ∈ names.map (normalizedName bot.casefold) :=
    List.mem_map_of_mem hplayer
  unfold hasAnyPlayer
  refine List.any_eq_true.mpr ⟨row, hrow, ?_⟩
  rw [playerName_of_tidy htidy hrow, Bool.or_eq_true, decide_eq_true_eq, Bool.and_eq_true]
  rcases hname with hdirect | ⟨hmatch, hreversed⟩
  · exact .inl (hdirect ▸ hcandidate)
  · refine .inr ⟨hmatch, ?_⟩
    rw [hreversed]
    exact decide_eq_true hcandidate

theorem Advanced.keeps_known (h : Advanced bot floatText w v edit) {player : String}
    (hknown : w.Knows bot floatText player) :
    v.Knows bot floatText player := by
  obtain ⟨row, hrow, hname⟩ := hknown
  refine ⟨row, h.player_mem hrow, ?_⟩
  rw [h.layout, h.playerName hrow]
  exact hname

/-- Who came to the game has a row. -/
theorem Advanced.knows (h : Advanced bot floatText w v edit) {player : String} (hplayer : player ∈ edit.names) :
    v.Knows bot floatText player := by
  have hcases : w.matchingRows bot floatText player ≠ [] ∨
      normalizedName bot.casefold player ∈
        (w.newcomers bot floatText edit.names).map (normalizedName bot.casefold) := matched_or_newcomer hplayer
  rcases hcases with hmatched | hnew
  · exact h.keeps_known (knows_of_matching hmatched)
  · obtain ⟨other, hother, hname⟩ := List.mem_map.mp hnew
    obtain ⟨index, hindex⟩ := List.getElem?_of_mem hother
    have hlast := h.lastPlayer
    have hbound := (List.getElem?_eq_some_iff.mp hindex).1
    have hfirst := h.first
    refine ⟨w.lastPlayer + 1 + index, mem_playerRows.mpr ⟨by omega, by omega⟩, .inl ?_⟩
    rw [h.newName hindex]
    exact hname

theorem newcomers_nodup {players : List String} :
    ((w.newcomers bot floatText players).map (normalizedName bot.casefold)).Nodup := by
  induction players using List.reverseRecOn with
  | nil => exact List.nodup_nil
  | append_singleton players player ih =>
    rw [newcomers_append]
    split
    · exact ih
    · next hnew =>
      rw [List.map_append, List.map_singleton]
      exact ih.append (List.nodup_singleton _) (List.disjoint_singleton.mpr (not_or.mp hnew).2)

theorem Advanced.distinct (h : Advanced bot floatText w v edit) (hdistinct : w.Distinct bot floatText) :
    v.Distinct bot floatText := by
  -- an old name has no new row
  have hold {row other : Nat} (hrow : row ∈ w.playerRows) (hother : other ∈ v.playerRows)
      (hname : normalizedName bot.casefold (v.playerName floatText row) =
        normalizedName bot.casefold (v.playerName floatText other)) :
      row = other := by
    have hmatched : w.matchingRows bot floatText (v.playerName floatText row) ≠ [] := by
      refine List.ne_nil_of_mem (mem_matchingRows.mpr (.inl (mem_lookupNames.mpr ⟨hrow, ?_⟩)))
      rw [h.playerName hrow]
    have hother := h.newcomer_unmatched hother hname.symm hmatched
    rw [h.playerName hrow, h.playerName hother] at hname
    exact hdistinct row hrow other hother hname
  intro row hrow other hother hname
  rcases h.row_cases hrow with hin | ⟨index, first, hfirst, rfl⟩
  · exact hold hin hother hname
  · rcases h.row_cases hother with hin | ⟨index', second, hsecond, rfl⟩
    · exact (hold hin hrow hname.symm).symm
    · rw [h.newName hfirst, h.newName hsecond] at hname
      have hnodup : ((w.newcomers bot floatText edit.names).map (normalizedName bot.casefold)).Nodup :=
        newcomers_nodup
      have hbound : index < ((w.newcomers bot floatText edit.names).map (normalizedName bot.casefold)).length := by
        rw [List.length_map]
        exact (List.getElem?_eq_some_iff.mp hfirst).1
      have hindex : index = index' := by
        refine (List.getElem?_inj hbound hnodup).mp ?_
        rw [List.getElem?_map, List.getElem?_map, hfirst, hsecond]
        exact congrArg some hname
      rw [hindex]

theorem History.players (h : History bot floatText w log w') :
    w.lastPlayer ≤ w'.lastPlayer ∧
      (∀ row ∈ w.playerRows, w'.sheet.entry (row, 1) = w.sheet.entry (row, 1)) ∧
      (w.Distinct bot floatText → w'.Distinct bot floatText) ∧
      (∀ player, w.Knows bot floatText player → w'.Knows bot floatText player) ∧
      ∀ edit ∈ log, ∀ player ∈ edit.names, w'.Knows bot floatText player := by
  induction h with
  | start w => exact ⟨Nat.le_refl _, fun _ _ => rfl, id, fun _ => id, fun _ hedit => nomatch hedit⟩
  | edit first rest ih =>
    obtain ⟨hlast, hnames, hdistinct, hkept, hknows⟩ := ih
    refine ⟨?_, fun row hrow => ?_, fun h => hdistinct (first.distinct h),
      fun player h => hkept player (first.keeps_known h), fun edit hedit player hplayer => ?_⟩
    · have := first.lastPlayer
      omega
    · rw [hnames row (first.player_mem hrow), first.names row hrow]
    · rcases List.mem_cons.mp hedit with rfl | hedit
      · exact hkept player (first.knows hplayer)
      · exact hknows edit hedit player hplayer

end Found

/-! ## Once for a game -/

section Once

variable {year : Int} {game : String}

variable (bot floatText) in
/-- The game was entered, in the latest season or in one before. -/
def Held (w : StatisticsWorkbook) (year : Int) (game : String) : Prop :=
  seasonTitle year ∈ w.sheets.rows.map Prod.fst ∧
    (w.season = seasonTitle year → w.hasGame bot floatText game = true)

theorem hasGame_normalized {other : String}
    (h : normalizedName bot.casefold game = normalizedName bot.casefold other) :
    w.hasGame bot floatText game = w.hasGame bot floatText other := by
  unfold hasGame
  rw [h]

theorem Advanced.held (h : Advanced bot floatText w v edit) : v.Held bot floatText edit.seasonYear edit.game := by
  refine ⟨(h.titles _).mpr (.inr h.season.symm), fun _ => h.game⟩

theorem Advanced.hasGame (h : Advanced bot floatText w v edit) (hsame : w.season = v.season)
    (hgame : w.hasGame bot floatText game = true) : v.hasGame bot floatText game = true := by
  obtain ⟨hlast, hheaders⟩ := h.headers hsame
  unfold StatisticsWorkbook.hasGame at hgame ⊢
  obtain ⟨column, hcolumn, hname⟩ := List.any_eq_true.mp hgame
  refine List.any_eq_true.mpr ⟨column, ?_, ?_⟩
  · rw [mem_gameColumns] at hcolumn ⊢
    rw [h.layout]
    omega
  · rw [cellValue_congr (hheaders column hcolumn)]
    exact hname

theorem Advanced.keeps_held (h : Advanced bot floatText w v edit) (hheld : w.Held bot floatText year game) :
    v.Held bot floatText year game := by
  obtain ⟨htitle, hgame⟩ := hheld
  refine ⟨(h.titles _).mpr (.inl htitle), fun hseason => ?_⟩
  rcases h.opened with hsame | hnew
  · exact h.hasGame hsame (hgame (hsame.trans hseason))
  · exact absurd (hseason ▸ htitle) hnew

/-- What was entered is not entered again. -/
theorem Advanced.not_held (h : Advanced bot floatText w v edit) :
    ¬ w.Held bot floatText edit.seasonYear edit.game := by
  rintro ⟨htitle, hgame⟩
  rcases h.opened with hsame | hnew
  · have hfresh := h.fresh hsame
    rw [hgame (hsame.trans h.season)] at hfresh
    exact nomatch hfresh
  · exact hnew (h.season ▸ htitle)

theorem History.not_again (h : History bot floatText w log w') (hheld : w.Held bot floatText year game) :
    ∀ edit ∈ log, edit.seasonYear = year → normalizedName bot.casefold edit.game ≠
      normalizedName bot.casefold game := by
  induction h with
  | start w => exact fun _ hedit => nomatch hedit
  | edit first rest ih =>
    intro edit hedit hyear hname
    rcases List.mem_cons.mp hedit with rfl | hedit
    · apply first.not_held
      rw [hyear]
      refine ⟨hheld.1, fun hseason => ?_⟩
      rw [hasGame_normalized hname]
      exact hheld.2 hseason
    · exact ih (first.keeps_held hheld) edit hedit hyear hname

/-- The edits that replace a file are of different games, season after season. -/
theorem History.once (h : History bot floatText w log w') :
    (log.map fun edit => (edit.seasonYear, normalizedName bot.casefold edit.game)).Nodup := by
  induction h with
  | start w => exact List.nodup_nil
  | @edit w v w' edit log first rest ih =>
    rw [List.map_cons, List.nodup_cons]
    refine ⟨fun hin => ?_, ih⟩
    obtain ⟨other, hother, hsame⟩ := List.mem_map.mp hin
    obtain ⟨hyear, hname⟩ := Prod.mk.inj hsame
    exact rest.not_again first.held other hother hyear hname

theorem History.seasons (h : History bot floatText w log w') :
    (∀ edit ∈ log, w.season ≤ seasonTitle edit.seasonYear) ∧
      (log.map fun edit => seasonTitle edit.seasonYear).Pairwise fun a b => a ≤ b := by
  induction h with
  | start w => exact ⟨fun _ hedit => (nomatch hedit), List.Pairwise.nil⟩
  | @edit w v w' edit log first rest ih =>
    obtain ⟨hlater, hordered⟩ := ih
    constructor
    · intro other hother
      rcases List.mem_cons.mp hother with rfl | hother
      · exact first.season ▸ first.later
      · exact first.later.trans (hlater other hother)
    · rw [List.map_cons, List.pairwise_cons]
      refine ⟨fun title htitle => ?_, hordered⟩
      obtain ⟨other, hother, rfl⟩ := List.mem_map.mp htitle
      exact first.season ▸ hlater other hother

theorem History.sheets (h : History bot floatText w log w') {title : String}
    (hother : ∀ edit ∈ log, seasonTitle edit.seasonYear ≠ title) : w'.sheets.find? title = w.sheets.find? title := by
  induction h with
  | start w => rfl
  | edit first rest ih =>
    rw [ih fun edit hedit => hother edit (List.mem_cons_of_mem _ hedit)]
    apply first.history
    rw [first.season]
    exact (hother _ List.mem_cons_self).symm

theorem History.cached (h : History bot floatText w log w') (hplain : w.Plain) (hplayers : 2 ≤ w.lastPlayer) :
    w'.Plain ∧ (w.Cached ∨ log ≠ [] → w'.Cached) := by
  induction h with
  | start w => exact ⟨hplain, fun h => h.resolve_right (fun hne => hne rfl)⟩
  | edit first rest ih =>
    have hlast := first.lastPlayer
    obtain ⟨hvplain, hvcached⟩ := first.cached hplain
    obtain ⟨hplain', hcached'⟩ := ih hvplain (by omega)
    exact ⟨hplain', fun _ => hcached' (.inl (hvcached (by omega)))⟩

end Once

end StatisticsWorkbook

/-! ## The file of a deployment -/

section Sample

def sampleSeason : Grid ℚ where
  rows := [1, 2]
  cells := Table.ofList [
    ((1, 1), { content := .text "Игрок" }),
    ((1, 4), { content := .text "5 игр" }),
    ((1, 13), { content := .text "50 игр" }),
    ((2, 1), { content := .text "Ли Ян" }),
    ((2, 3), { content := .number 4 })]

/-- A file with one player in its latest season. -/
def sampleStatistics : Sheets := ⟨[("2024-2025", sampleSeason), ("2023-2024", ⟨[], .empty⟩)], by decide⟩

def sampleWorkbook : StatisticsWorkbook where
  book := .attendance
  sheets := sampleStatistics
  season := "2024-2025"
  path := "2024-2025"
  sheet := sampleSeason
  lastColumn := 13
  lastPlayer := 2

def sampleEdit : StatisticsEdit :=
  { seasonYear := 2025, game := "Бал", names := ["Ян Ли", "Ю Ия"] }

/-- A game of the next season, twice. -/
def sampleEdits : List StatisticsEdit := [sampleEdit, sampleEdit]

/-- `str` of a whole float. -/
def wholeText (value : ℚ) : String := s!"{value.num}.0"

theorem editable_sampleStatistics : Editable .attendance sampleStatistics sampleWorkbook where
  loaded := {
    same := rfl
    latest := by
      refine latestSeason_eq_some.mpr ⟨by decide, List.mem_cons_self, fun other hother _ => ?_⟩
      have hle : ∀ other ∈ sampleStatistics.rows.map Prod.fst, other ≤ "2024-2025" := by decide
      exact hle other hother
    headers := by decide
    lastColumn := by decide
    lastPlayer := by decide
    footer := by decide }
  tidy := {
    positive := by decide
    first := by decide
    players := by decide
    headers := by decide
    column := by decide
    clear := by
      intro row _ column hcolumn
      have hnone : sampleSeason.cells.find? (row, column) = none := by
        rw [Table.find?_eq_none_iff]
        intro hin
        have hle : ∀ place ∈ sampleSeason.cells.rows.map Prod.fst, place.2 ≤ 13 := by decide
        exact absurd (hle _ hin) (Nat.not_le.mpr hcolumn)
      show ((sampleSeason.cells.find? (row, column)).map Prod.snd).getD {} = {}
      rw [hnone]
      rfl
    present := by decide }

theorem plain_sampleWorkbook : sampleWorkbook.Plain where
  carried := by
    intro row hrow
    have hrows : sampleWorkbook.playerRows = [2] := rfl
    rw [hrows, List.mem_singleton] at hrow
    subst hrow
    exact .inr ⟨4, rfl⟩
  marks := by
    intro row hrow column hcolumn
    have hnone : sampleWorkbook.gameColumns = [] := rfl
    rw [hnone] at hcolumn
    exact nomatch hcolumn
  counted := fun hmasters => nomatch hmasters

theorem proper_sampleEdits : ∀ edit ∈ sampleEdits, edit.Proper .attendance := by
  unfold sampleEdits sampleEdit
  simp only [List.forall_mem_cons]
  exact ⟨⟨by decide, by decide, by decide⟩, ⟨by decide, by decide, by decide⟩, nofun⟩

theorem entered_sampleEdits :
    entered sampleBot wholeText .attendance sampleStatistics sampleEdits = [sampleEdit] := by
  decide +kernel

end Sample

section Files

theorem entered_subset : ∀ edit ∈ entered bot floatText book file edits, edit ∈ edits := by
  induction edits generalizing file with
  | nil => exact fun _ hedit => nomatch hedit
  | cons first edits ih =>
    intro edit hedit
    unfold entered at hedit
    dsimp only at hedit
    split at hedit
    · rcases List.mem_cons.mp hedit with rfl | hedit
      · exact List.mem_cons_self
      · exact List.mem_cons_of_mem _ (ih edit hedit)
    · exact List.mem_cons_of_mem _ (ih edit hedit)

/-- A game replaces the file once in its season, and the seasons come in their order. -/
theorem games_afterEdits (heditable : Editable book file w) (hproper : ∀ edit ∈ edits, edit.Proper book) :
    ((entered bot floatText book file edits).map fun edit =>
      (edit.seasonYear, normalizedName bot.casefold edit.game)).Nodup ∧
      ((entered bot floatText book file edits).map fun edit => seasonTitle edit.seasonYear).Pairwise
        fun a b => a ≤ b := by
  obtain ⟨w', -, hhistory⟩ := history_afterEdits bot floatText heditable hproper
  exact ⟨hhistory.once, hhistory.seasons.2⟩

theorem games_sampleEdits :
    ([sampleEdit].map fun edit => (edit.seasonYear, normalizedName sampleBot.casefold edit.game)).Nodup :=
  entered_sampleEdits ▸ (games_afterEdits editable_sampleStatistics proper_sampleEdits).1

/-- The sheets of the seasons before the latest one are never changed, and neither are the other sheets. -/
theorem sheets_afterEdits (heditable : Editable book file w) (hproper : ∀ edit ∈ edits, edit.Proper book)
    {title : String} (htitle : title < w.season ∨ isSeasonName title = false) :
    (afterEdits bot floatText book file edits).find? title = file.find? title := by
  obtain ⟨w', hw', hhistory⟩ := history_afterEdits bot floatText heditable hproper
  rw [← hw'.loaded.sheets_eq, ← heditable.loaded.sheets_eq]
  apply hhistory.sheets
  rintro edit hedit rfl
  rcases htitle with hearlier | hnone
  · exact absurd (hhistory.seasons.1 edit hedit) (not_le.mpr hearlier)
  · have hyear := (hproper edit (entered_subset edit hedit)).season
    rw [isSeasonName_seasonTitle hyear.1 hyear.2] at hnone
    exact nomatch hnone

theorem sheets_sampleEdits :
    (afterEdits sampleBot wholeText .attendance sampleStatistics sampleEdits).find? "2023-2024" =
      some ("2023-2024", ⟨[], .empty⟩) :=
  (sheets_afterEdits editable_sampleStatistics proper_sampleEdits (.inl (by decide))).trans rfl

end Files

end LarpBot
