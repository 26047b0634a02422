import LarpBot.Laws.WorkbookRefreshes

/-!
# What a game marks in a statistics workbook

`mark_game` looks each participant up by name, first as it is and then with its parts exchanged, and gives
a new row to a name that it does not find. `matchingRows` and `newcomers` say this without the two
dictionaries that change on the way: a participant is looked up among the rows that were there before,
and a name that no row has makes one row, however often it is given.
-/

namespace LarpBot

open Worksheets Atomic

namespace StatisticsWorkbook

variable {bot : Deployment} {floatText : ℚ → String} {w m : StatisticsWorkbook}

/-! ## Who is found -/

section Matching

variable (bot floatText) in
/-- The rows that a name marks. -/
def matchingRows (w : StatisticsWorkbook) (player : String) : List Nat :=
  let direct := rowsUnder (normalizedName bot.casefold player) (w.lookupNames bot floatText)
  if direct ≠ [] then direct else rowsUnder (normalizedName bot.casefold player) (w.lookupReversed bot floatText)

variable (bot floatText) in
/-- The names that no row has, each in its first spelling. -/
def newcomers (w : StatisticsWorkbook) (players : List String) : List String :=
  players.foldl (fun found player =>
    if w.matchingRows bot floatText player ≠ [] ∨
        normalizedName bot.casefold player ∈ found.map (normalizedName bot.casefold) then found
    else found ++ [player]) []

variable (bot floatText) in
/-- Somebody is found in the row. -/
def Credited (w : StatisticsWorkbook) (players : List String) (row : Nat) : Prop :=
  ∃ player ∈ players, row ∈ w.matchingRows bot floatText player

instance (players : List String) (row : Nat) : Decidable (w.Credited bot floatText players row) :=
  inferInstanceAs (Decidable (∃ player ∈ players, _))

theorem mem_rowsUnder {key : String} {lookup : List (String × Nat)} {row : Nat} :
    row ∈ rowsUnder key lookup ↔ (key, row) ∈ lookup := by
  unfold rowsUnder
  constructor
  · intro h
    obtain ⟨⟨other, row⟩, hentry, rfl⟩ := List.mem_map.mp h
    obtain ⟨hin, hkey⟩ := List.mem_filter.mp hentry
    obtain rfl : other = key := of_decide_eq_true hkey
    exact hin
  · intro h
    exact List.mem_map.mpr ⟨_, List.mem_filter.mpr ⟨h, decide_eq_true rfl⟩, rfl⟩

theorem rowsUnder_append {key : String} {lookup more : List (String × Nat)} :
    rowsUnder key (lookup ++ more) = rowsUnder key lookup ++ rowsUnder key more := by
  unfold rowsUnder
  rw [List.filter_append, List.map_append]

theorem mem_lookupNames {key : String} {row : Nat} : (key, row) ∈ w.lookupNames bot floatText ↔
    row ∈ w.playerRows ∧ normalizedName bot.casefold (w.playerName floatText row) = key := by
  unfold lookupNames
  rw [List.mem_map]
  constructor
  · rintro ⟨other, hother, hsame⟩
    obtain ⟨rfl, rfl⟩ := Prod.mk.inj hsame
    exact ⟨hother, rfl⟩
  · rintro ⟨hrow, rfl⟩
    exact ⟨row, hrow, rfl⟩

theorem mem_lookupReversed {key : String} {row : Nat} : (key, row) ∈ w.lookupReversed bot floatText ↔
    w.layout.matchReversedNames = true ∧ row ∈ w.playerRows ∧
      reversedName bot (w.playerName floatText row) = some key := by
  unfold lookupReversed
  split
  · next hmatch =>
    rw [List.mem_filterMap]
    constructor
    · rintro ⟨other, hother, hsame⟩
      obtain ⟨found, hfound, hpair⟩ := Option.map_eq_some_iff.mp hsame
      obtain ⟨rfl, rfl⟩ := Prod.mk.inj hpair
      exact ⟨hmatch, hother, hfound⟩
    · rintro ⟨-, hrow, hkey⟩
      exact ⟨row, hrow, by rw [hkey]; rfl⟩
  · next hmatch =>
    simp [hmatch]

theorem mem_playerRows_of_matching {player : String} {row : Nat} (h : row ∈ w.matchingRows bot floatText player) :
    row ∈ w.playerRows := by
  unfold matchingRows at h
  dsimp only at h
  split at h
  · exact (mem_lookupNames.mp (mem_rowsUnder.mp h)).1
  · exact (mem_lookupReversed.mp (mem_rowsUnder.mp h)).2.1

theorem matchingRows_congr {player other : String}
    (h : normalizedName bot.casefold player = normalizedName bot.casefold other) :
    w.matchingRows bot floatText player = w.matchingRows bot floatText other := by
  unfold matchingRows
  rw [h]

theorem newcomers_append {players : List String} {player : String} :
    w.newcomers bot floatText (players ++ [player]) =
      if w.matchingRows bot floatText player ≠ [] ∨
          normalizedName bot.casefold player ∈
            (w.newcomers bot floatText players).map (normalizedName bot.casefold) then
        w.newcomers bot floatText players
      else w.newcomers bot floatText players ++ [player] :=
  List.foldl_append

theorem newcomers_unmatched {players : List String} {name : String} (h : name ∈ w.newcomers bot floatText players) :
    w.matchingRows bot floatText name = [] := by
  induction players using List.reverseRecOn with
  | nil => exact nomatch h
  | append_singleton players player ih =>
    rw [newcomers_append] at h
    split at h
    · exact ih h
    · next hnew =>
      rcases List.mem_append.mp h with h | h
      · exact ih h
      · rw [List.mem_singleton.mp h]
        exact not_not.mp (not_or.mp hnew).1

theorem newcomers_subset {players : List String} : ∀ name ∈ w.newcomers bot floatText players, name ∈ players := by
  intro name h
  induction players using List.reverseRecOn with
  | nil => exact nomatch h
  | append_singleton players player ih =>
    rw [newcomers_append] at h
    split at h
    · exact List.mem_append_left _ (ih h)
    · rcases List.mem_append.mp h with h | h
      · exact List.mem_append_left _ (ih h)
      · exact List.mem_append_right _ h

/-- Everybody who is given is found or is new. -/
theorem matched_or_newcomer {players : List String} {player : String} (h : player ∈ players) :
    w.matchingRows bot floatText player ≠ [] ∨
      normalizedName bot.casefold player ∈ (w.newcomers bot floatText players).map (normalizedName bot.casefold) := by
  induction players using List.reverseRecOn with
  | nil => exact nomatch h
  | append_singleton players other ih =>
    rw [newcomers_append]
    rcases List.mem_append.mp h with h | h
    · rcases ih h with hmatched | hnew
      · exact .inl hmatched
      · right
        split
        · exact hnew
        · rw [List.map_append]
          exact List.mem_append_left _ hnew
    · obtain rfl := List.mem_singleton.mp h
      by_cases hold : w.matchingRows bot floatText player ≠ [] ∨
          normalizedName bot.casefold player ∈ (w.newcomers bot floatText players).map (normalizedName bot.casefold)
      · rw [if_pos hold]
        exact hold
      · rw [if_neg hold, List.map_append]
        exact .inr (List.mem_append_right _ (List.mem_singleton_self _))

theorem credited_append {players : List String} {player : String} {row : Nat} :
    w.Credited bot floatText (players ++ [player]) row ↔
      w.Credited bot floatText players row ∨ row ∈ w.matchingRows bot floatText player := by
  unfold Credited
  constructor
  · rintro ⟨other, hother, hrow⟩
    rcases List.mem_append.mp hother with h | h
    · exact .inl ⟨other, h, hrow⟩
    · exact .inr (List.mem_singleton.mp h ▸ hrow)
  · rintro (⟨other, hother, hrow⟩ | hrow)
    · exact ⟨other, List.mem_append_left _ hother, hrow⟩
    · exact ⟨player, List.mem_append_right _ (List.mem_singleton_self _), hrow⟩

end Matching

/-! ## Single writes -/

section Writes

theorem markRows_same {rows : List Nat} : w.markRows rows = { w with sheet := (w.markRows rows).sheet } := by
  unfold markRows
  induction rows generalizing w with
  | nil => rfl
  | cons row rows ih =>
    rw [List.foldl_cons]
    exact ih

theorem entry_markRows {rows : List Nat} {place : Place} : (w.markRows rows).sheet.entry place =
    if place.2 = w.lastColumn ∧ place.1 ∈ rows then { content := .number 1 } else w.sheet.entry place := by
  unfold markRows
  induction rows generalizing w with
  | nil => simp
  | cons row rows ih =>
    rw [List.foldl_cons, ih]
    show (if place.2 = w.lastColumn ∧ place.1 ∈ rows then _ else (w.sheet.put (row, w.lastColumn) _).entry place) = _
    by_cases hcolumn : place.2 = w.lastColumn
    · by_cases hrow : place.1 = row
      · have hplace : place = (row, w.lastColumn) := Prod.ext hrow hcolumn
        by_cases hlater : place.1 ∈ rows
        · rw [if_pos ⟨hcolumn, hlater⟩, if_pos ⟨hcolumn, List.mem_cons_of_mem _ hlater⟩]
        · rw [if_neg fun h => hlater h.2, if_pos ⟨hcolumn, hrow ▸ List.mem_cons_self⟩, hplace, Grid.entry_put_self]
      · have hne : place ≠ (row, w.lastColumn) := fun h => hrow (congrArg Prod.fst h)
        simp only [Grid.entry_put_of_ne hne, hcolumn, true_and, List.mem_cons, hrow, false_or]
    · have hne : place ≠ (row, w.lastColumn) := fun h => hcolumn (congrArg Prod.snd h)
      rw [if_neg fun h => hcolumn h.1, if_neg fun h => hcolumn h.1, Grid.entry_put_of_ne hne]

theorem rows_markRows {rows : List Nat} {row : Nat} :
    row ∈ (w.markRows rows).sheet.rows ↔ row ∈ w.sheet.rows ∨ row ∈ rows := by
  unfold markRows
  induction rows generalizing w with
  | nil => simp
  | cons first rows ih =>
    rw [List.foldl_cons, ih]
    show row ∈ (w.sheet.put (first, w.lastColumn) _).rows ∨ row ∈ rows ↔ _
    rw [Grid.mem_rows_put, List.mem_cons]
    tauto

/-- The cells of a new row. -/
def newEntry (layout : WorkbookLayout) (name : String) (column : Nat) : Entry ℚ :=
  if 1 ≤ column ∧ column ≤ layout.fixedColumn then { content := newPlayerValue layout column name } else {}

theorem entry_addPlayer {name : String} (hblank : ∀ column, w.sheet.entry (w.lastPlayer + 1, column) = {})
    {place : Place} : (w.addPlayer name).sheet.entry place =
      if place.1 = w.lastPlayer + 1 then newEntry w.layout name place.2 else w.sheet.entry place := by
  obtain ⟨row, column⟩ := place
  have hplaces : ((List.range' 1 w.layout.fixedColumn).map fun column => (((w.lastPlayer + 1, column) : Place),
      ({ content := newPlayerValue w.layout column name } : Entry ℚ))).map Prod.fst =
        (List.range' 1 w.layout.fixedColumn).map fun column => (w.lastPlayer + 1, column) := by
    rw [List.map_map]
    rfl
  have hrange : (List.range' 1 w.layout.fixedColumn).Nodup := List.nodup_range'
  have hnodup : ((List.range' 1 w.layout.fixedColumn).map fun column => ((w.lastPlayer + 1, column) : Place)).Nodup :=
    hrange.map fun a b hab => (Prod.mk.inj hab).2
  by_cases hrow : row = w.lastPlayer + 1
  · subst hrow
    rw [if_pos rfl]
    unfold newEntry
    by_cases hcolumn : 1 ≤ column ∧ column ≤ w.layout.fixedColumn
    · rw [if_pos hcolumn]
      apply Grid.entry_write_of_mem (hplaces ▸ hnodup)
      exact List.mem_map_of_mem (f := fun column => (((w.lastPlayer + 1, column) : Place),
        ({ content := newPlayerValue w.layout column name } : Entry ℚ))) (List.mem_range'_1.mpr (by omega))
    · rw [if_neg hcolumn, ← hblank column]
      apply Grid.entry_write_of_notMem
      rw [hplaces]
      intro hin
      obtain ⟨other, hother, hsame⟩ := List.mem_map.mp hin
      obtain rfl := (Prod.mk.inj hsame).2
      have := List.mem_range'_1.mp hother
      exact hcolumn (by omega)
  · rw [if_neg hrow]
    apply Grid.entry_write_of_notMem
    rw [hplaces]
    intro hin
    obtain ⟨other, -, hsame⟩ := List.mem_map.mp hin
    exact hrow (Prod.mk.inj hsame).1.symm

theorem rows_addPlayer {name : String} {row : Nat} :
    row ∈ (w.addPlayer name).sheet.rows ↔ row ∈ w.sheet.rows ∨ row = w.lastPlayer + 1 := by
  show row ∈ (w.sheet.write _).rows ↔ _
  rw [Grid.mem_rows_write, List.map_map]
  have hfixed : 1 ≤ w.layout.fixedColumn := by
    unfold layout
    cases w.book <;> decide
  apply or_congr_right
  constructor
  · rintro ⟨place, hplace, rfl⟩
    obtain ⟨column, -, rfl⟩ := List.mem_map.mp hplace
    rfl
  · rintro rfl
    exact ⟨_, List.mem_map_of_mem (a := 1) (List.mem_range'_1.mpr (by omega)), rfl⟩

end Writes

/-! ## The loop over the participants -/

section Loop

variable {name : String} {o : StatisticsWorkbook} {lookup : List (String × Nat)} {done : List String}

variable (bot) in
/-- The names of new rows, as they are added to the dictionary. -/
def newLookup (names : List String) (first : Nat) : List (String × Nat) :=
  names.zipIdx.map fun (name, index) => (normalizedName bot.casefold name, first + index)

variable (bot floatText) in
/-- Where the loop is after some participants: `w` is the workbook that they are looked up in, and `o` the
one with the column of the game. -/
structure Marking (w o : StatisticsWorkbook) (done : List String) (m : StatisticsWorkbook)
    (lookup : List (String × Nat)) : Prop where
  same : m = { o with sheet := m.sheet, lastPlayer := o.lastPlayer + (w.newcomers bot floatText done).length }
  lookup : lookup = w.lookupNames bot floatText ++ newLookup bot (w.newcomers bot floatText done) (o.lastPlayer + 1)
  old : ∀ place : Place, place.1 ≤ o.lastPlayer → m.sheet.entry place =
    if place.2 = o.lastColumn ∧ w.Credited bot floatText done place.1 then { content := .number 1 }
    else o.sheet.entry place
  new : ∀ index name, (w.newcomers bot floatText done)[index]? = some name → ∀ column,
    m.sheet.entry (o.lastPlayer + 1 + index, column) =
      if column = o.lastColumn then { content := .number 1 } else newEntry o.layout name column
  beyond : ∀ place : Place, o.lastPlayer + (w.newcomers bot floatText done).length < place.1 →
    m.sheet.entry place = {}
  rows : ∀ row, row ∈ m.sheet.rows ↔ row ∈ o.sheet.rows ∨
    o.lastPlayer < row ∧ row ≤ o.lastPlayer + (w.newcomers bot floatText done).length

theorem mem_newLookup {names : List String} {first row : Nat} {key : String} :
    (key, row) ∈ newLookup bot names first ↔
      ∃ index name, names[index]? = some name ∧ normalizedName bot.casefold name = key ∧ row = first + index := by
  unfold newLookup
  rw [List.mem_map]
  constructor
  · rintro ⟨⟨name, index⟩, hin, hsame⟩
    obtain ⟨rfl, rfl⟩ := Prod.mk.inj hsame
    exact ⟨index, name, List.mem_zipIdx_iff_getElem?.mp hin, rfl, rfl⟩
  · rintro ⟨index, name, hin, rfl, rfl⟩
    exact ⟨(name, index), List.mem_zipIdx_iff_getElem?.mpr hin, rfl⟩

theorem newLookup_append {names : List String} {name : String} {first : Nat} :
    newLookup bot (names ++ [name]) first =
      newLookup bot names first ++ [(normalizedName bot.casefold name, first + names.length)] := by
  unfold newLookup
  rw [List.zipIdx_append, List.map_append]
  simp

/-- A name with rows of its own has no new row. -/
theorem rowsUnder_newLookup {player : String} {first : Nat} (h : w.matchingRows bot floatText player ≠ []) :
    rowsUnder (normalizedName bot.casefold player) (newLookup bot (w.newcomers bot floatText done) first) = [] := by
  rw [List.eq_nil_iff_forall_not_mem]
  intro row hrow
  obtain ⟨index, other, hother, hkey, -⟩ := mem_newLookup.mp (mem_rowsUnder.mp hrow)
  apply h
  rw [← matchingRows_congr hkey]
  exact newcomers_unmatched (List.mem_of_getElem? hother)

/-- The rows of the workbook, the column of the game and nothing below the players. -/
structure Opened (w o : StatisticsWorkbook) : Prop where
  lastPlayer : o.lastPlayer = w.lastPlayer
  present : ∀ row ∈ w.playerRows, row ∈ o.sheet.rows
  below : ∀ place : Place, o.lastPlayer < place.1 → o.sheet.entry place = {}

theorem Marking.start (h : Opened w o) : Marking bot floatText w o [] o (w.lookupNames bot floatText) where
  same := rfl
  lookup := (List.append_nil _).symm
  old place _ := by
    rw [if_neg]
    rintro ⟨-, player, hplayer, -⟩
    exact nomatch hplayer
  new _ _ hname := nomatch hname
  beyond place hplace := h.below place hplace
  rows row := by
    have hnone : (w.newcomers bot floatText []).length = 0 := rfl
    rw [hnone]
    constructor
    · exact Or.inl
    · rintro (hrow | ⟨hlow, hhigh⟩)
      · exact hrow
      · omega

/-- A participant with rows of their own. -/
theorem Marking.found (hm : Marking bot floatText w o done m lookup) (h : Opened w o) {player : String}
    (hmatched : w.matchingRows bot floatText player ≠ []) :
    Marking bot floatText w o (done ++ [player]) (m.markRows (w.matchingRows bot floatText player)) lookup := by
  have hnew : w.newcomers bot floatText (done ++ [player]) = w.newcomers bot floatText done := by
    rw [newcomers_append, if_pos (.inl hmatched)]
  have hcolumn : m.lastColumn = o.lastColumn := (congrArg StatisticsWorkbook.lastColumn hm.same).trans rfl
  have hrows (row : Nat) (hrow : row ∈ w.matchingRows bot floatText player) : row ≤ o.lastPlayer :=
    h.lastPlayer ▸ (mem_playerRows.mp (mem_playerRows_of_matching hrow)).2
  refine ⟨?_, ?_, fun place hplace => ?_, fun index name hname column => ?_, fun place hplace => ?_, fun row => ?_⟩
  · rw [hnew, markRows_same, hm.same]
  · rw [hnew]
    exact hm.lookup
  · rw [entry_markRows, hcolumn, hm.old place hplace]
    simp only [credited_append]
    by_cases hlast : place.2 = o.lastColumn
    · by_cases hin : place.1 ∈ w.matchingRows bot floatText player
      · rw [if_pos ⟨hlast, hin⟩, if_pos ⟨hlast, .inr hin⟩]
      · simp only [hlast, hin, or_false, true_and, if_false]
    · simp only [hlast, false_and, if_false]
  · rw [hnew] at hname
    rw [entry_markRows, if_neg, hm.new index name hname column]
    rintro ⟨-, hin⟩
    have hle : o.lastPlayer + 1 + index ≤ o.lastPlayer := hrows _ hin
    omega
  · rw [hnew] at hplace
    rw [entry_markRows, if_neg, hm.beyond place hplace]
    rintro ⟨-, hin⟩
    have := hrows _ hin
    omega
  · rw [hnew, rows_markRows, hm.rows row]
    constructor
    · rintro (hrow | hrow)
      · exact hrow
      · exact .inl (h.present row (mem_playerRows_of_matching hrow))
    · exact Or.inl

/-- A participant who was new before. -/
theorem Marking.again (hm : Marking bot floatText w o done m lookup) {player : String}
    (hunmatched : w.matchingRows bot floatText player = [])
    (hknown : normalizedName bot.casefold player ∈
      (w.newcomers bot floatText done).map (normalizedName bot.casefold)) :
    Marking bot floatText w o (done ++ [player]) (m.markRows (rowsUnder (normalizedName bot.casefold player)
      (newLookup bot (w.newcomers bot floatText done) (o.lastPlayer + 1)))) lookup := by
  have hnew : w.newcomers bot floatText (done ++ [player]) = w.newcomers bot floatText done := by
    rw [newcomers_append, if_pos (.inr hknown)]
  have hcolumn : m.lastColumn = o.lastColumn := (congrArg StatisticsWorkbook.lastColumn hm.same).trans rfl
  -- the mark is there already
  have hmarked (row : Nat) (hrow : row ∈ rowsUnder (normalizedName bot.casefold player)
      (newLookup bot (w.newcomers bot floatText done) (o.lastPlayer + 1))) :
      ∃ index name, (w.newcomers bot floatText done)[index]? = some name ∧ row = o.lastPlayer + 1 + index := by
    obtain ⟨index, name, hname, -, hrow⟩ := mem_newLookup.mp (mem_rowsUnder.mp hrow)
    exact ⟨index, name, hname, hrow⟩
  have hentry (place : Place) : (m.markRows (rowsUnder (normalizedName bot.casefold player)
      (newLookup bot (w.newcomers bot floatText done) (o.lastPlayer + 1)))).sheet.entry place =
        m.sheet.entry place := by
    rw [entry_markRows]
    split
    · next hin =>
      obtain ⟨index, name, hname, hrow⟩ := hmarked _ hin.2
      have hplace : place = (o.lastPlayer + 1 + index, o.lastColumn) :=
        Prod.ext hrow (hin.1.trans hcolumn)
      rw [hplace, hm.new index name hname, if_pos rfl]
    · rfl
  refine ⟨?_, ?_, fun place hplace => ?_, fun index name hname column => ?_, fun place hplace => ?_, fun row => ?_⟩
  · rw [hnew, markRows_same, hm.same]
  · rw [hnew]
    exact hm.lookup
  · rw [hentry, hm.old place hplace]
    simp only [credited_append, hunmatched, List.not_mem_nil, or_false]
  · rw [hnew] at hname
    rw [hentry, hm.new index name hname column]
  · rw [hnew] at hplace
    rw [hentry, hm.beyond place hplace]
  · rw [hnew, rows_markRows, hm.rows row]
    constructor
    · rintro (hrow | hrow)
      · exact hrow
      · obtain ⟨index, name, hname, rfl⟩ := hmarked row hrow
        have := (List.getElem?_eq_some_iff.mp hname).1
        exact .inr (by omega)
    · exact Or.inl

/-- A participant who is new. -/
theorem Marking.added (hm : Marking bot floatText w o done m lookup) {player : String}
    (hunmatched : w.matchingRows bot floatText player = [])
    (hunknown :
      normalizedName bot.casefold player ∉ (w.newcomers bot floatText done).map (normalizedName bot.casefold)) :
    Marking bot floatText w o (done ++ [player])
      ((m.addPlayer player).markRows [(m.addPlayer player).lastPlayer])
      (lookup ++ [(normalizedName bot.casefold player, (m.addPlayer player).lastPlayer)]) := by
  have hnew : w.newcomers bot floatText (done ++ [player]) = w.newcomers bot floatText done ++ [player] := by
    rw [newcomers_append, if_neg]
    rintro (h | h)
    · exact h hunmatched
    · exact hunknown h
  have hcolumn : m.lastColumn = o.lastColumn := (congrArg StatisticsWorkbook.lastColumn hm.same).trans rfl
  have hlayout : m.layout = o.layout := (congrArg StatisticsWorkbook.layout hm.same).trans rfl
  have hlast : m.lastPlayer = o.lastPlayer + (w.newcomers bot floatText done).length :=
    (congrArg StatisticsWorkbook.lastPlayer hm.same).trans rfl
  have haddedLast : (m.addPlayer player).lastPlayer =
      o.lastPlayer + 1 + (w.newcomers bot floatText done).length := by
    show m.lastPlayer + 1 = _
    omega
  have hblank (column : Nat) : m.sheet.entry (m.lastPlayer + 1, column) = {} :=
    hm.beyond _ (by
      show o.lastPlayer + (w.newcomers bot floatText done).length < m.lastPlayer + 1
      omega)
  have hentry (place : Place) :
      ((m.addPlayer player).markRows [(m.addPlayer player).lastPlayer]).sheet.entry place =
        if place.1 = o.lastPlayer + 1 + (w.newcomers bot floatText done).length then
          if place.2 = o.lastColumn then { content := .number 1 } else newEntry o.layout player place.2
        else m.sheet.entry place := by
    have hlastColumn : (m.addPlayer player).lastColumn = o.lastColumn := hcolumn
    have hrow : m.lastPlayer + 1 = o.lastPlayer + 1 + (w.newcomers bot floatText done).length := haddedLast
    rw [entry_markRows, entry_addPlayer hblank, hlastColumn, haddedLast, hlayout, hrow]
    simp only [List.mem_singleton]
    by_cases hplace : place.1 = o.lastPlayer + 1 + (w.newcomers bot floatText done).length
    · simp only [hplace, and_true, if_true]
    · simp only [hplace, and_false, if_false]
  have hlength : (w.newcomers bot floatText (done ++ [player])).length =
      (w.newcomers bot floatText done).length + 1 := by
    rw [hnew, List.length_append, List.length_singleton]
  refine ⟨?_, ?_, fun place hplace => ?_, fun index name hname column => ?_, fun place hplace => ?_, fun row => ?_⟩
  · have hadded : (m.addPlayer player).markRows [(m.addPlayer player).lastPlayer] =
        { m with
          sheet := ((m.addPlayer player).markRows [(m.addPlayer player).lastPlayer]).sheet
          lastPlayer := m.lastPlayer + 1 } := rfl
    rw [hadded, hm.same, hlength]
    rfl
  · rw [hm.lookup, haddedLast, hnew, newLookup_append, List.append_assoc]
  · rw [hentry, if_neg (by omega), hm.old place hplace]
    simp only [credited_append, hunmatched, List.not_mem_nil, or_false]
  · rw [hnew] at hname
    rw [hentry]
    rcases Nat.lt_trichotomy index (w.newcomers bot floatText done).length with hlt | rfl | hgt
    · rw [List.getElem?_append_left hlt] at hname
      have hne : ¬ o.lastPlayer + 1 + index = o.lastPlayer + 1 + (w.newcomers bot floatText done).length := by omega
      rw [if_neg hne, hm.new index name hname column]
    · rw [List.getElem?_append_right (Nat.le_refl _), Nat.sub_self] at hname
      obtain rfl := Option.some.inj hname
      rw [if_pos rfl]
    · have := (List.getElem?_eq_some_iff.mp hname).1
      rw [List.length_append, List.length_singleton] at this
      omega
  · rw [hlength] at hplace
    rw [hentry, if_neg (by omega)]
    exact hm.beyond place (by omega)
  · rw [hlength, rows_markRows, rows_addPlayer, hm.rows row, List.mem_singleton, haddedLast, hlast]
    constructor
    · rintro (((hold | hnewRow) | hrow) | hrow)
      · exact .inl hold
      · exact .inr (by omega)
      · exact .inr (by omega)
      · exact .inr (by omega)
    · rintro (hold | hnewRow)
      · exact .inl (.inl (.inl hold))
      · by_cases hrow : row = o.lastPlayer + 1 + (w.newcomers bot floatText done).length
        · exact .inr hrow
        · exact .inl (.inl (.inr (by omega)))

/-- One participant. -/
theorem Marking.step (hm : Marking bot floatText w o done m lookup) (h : Opened w o) (player : String) :
    Marking bot floatText w o (done ++ [player])
      (m.markPlayer bot (w.lookupReversed bot floatText) lookup player).1
      (m.markPlayer bot (w.lookupReversed bot floatText) lookup player).2 := by
  unfold markPlayer
  dsimp only
  rw [hm.lookup, rowsUnder_append]
  by_cases hdirect : rowsUnder (normalizedName bot.casefold player) (w.lookupNames bot floatText) = []
  · by_cases hreversed : rowsUnder (normalizedName bot.casefold player) (w.lookupReversed bot floatText) = []
    · have hunmatched : w.matchingRows bot floatText player = [] := by
        unfold matchingRows
        dsimp only
        rw [if_neg (not_not.mpr hdirect), hreversed]
      rw [hdirect, List.nil_append, hreversed]
      by_cases hknown :
          normalizedName bot.casefold player ∈ (w.newcomers bot floatText done).map (normalizedName bot.casefold)
      · have hrows : rowsUnder (normalizedName bot.casefold player)
            (newLookup bot (w.newcomers bot floatText done) (o.lastPlayer + 1)) ≠ [] := by
          obtain ⟨other, hother, hkey⟩ := List.mem_map.mp hknown
          obtain ⟨index, hindex⟩ := List.mem_iff_getElem?.mp hother
          exact List.ne_nil_of_mem (mem_rowsUnder.mpr (mem_newLookup.mpr ⟨index, other, hindex, hkey, rfl⟩))
        rw [if_pos hrows]
        exact hm.lookup ▸ hm.again hunmatched hknown
      · have hrows : rowsUnder (normalizedName bot.casefold player)
            (newLookup bot (w.newcomers bot floatText done) (o.lastPlayer + 1)) = [] := by
          rw [List.eq_nil_iff_forall_not_mem]
          intro row hrow
          obtain ⟨index, other, hother, hkey, -⟩ := mem_newLookup.mp (mem_rowsUnder.mp hrow)
          exact hknown (List.mem_map.mpr ⟨other, List.mem_of_getElem? hother, hkey⟩)
        rw [if_neg (not_not.mpr hrows), if_neg (by simp)]
        exact hm.lookup ▸ hm.added hunmatched hknown
    · have hmatching : w.matchingRows bot floatText player =
          rowsUnder (normalizedName bot.casefold player) (w.lookupReversed bot floatText) := by
        unfold matchingRows
        dsimp only
        rw [if_neg (not_not.mpr hdirect)]
      have hmatched : w.matchingRows bot floatText player ≠ [] := hmatching ▸ hreversed
      rw [hdirect, List.nil_append, rowsUnder_newLookup hmatched, if_neg (by simp), if_pos hreversed, ← hmatching]
      exact hm.lookup ▸ hm.found h hmatched
  · have hmatching : w.matchingRows bot floatText player =
        rowsUnder (normalizedName bot.casefold player) (w.lookupNames bot floatText) := by
      unfold matchingRows
      dsimp only
      rw [if_pos hdirect]
    have hmatched : w.matchingRows bot floatText player ≠ [] := hmatching ▸ hdirect
    rw [rowsUnder_newLookup hmatched, List.append_nil, if_pos hdirect, ← hmatching]
    exact hm.lookup ▸ hm.found h hmatched

theorem Marking.run (hm : Marking bot floatText w o done m lookup) (h : Opened w o) (players : List String) :
    ∃ lookup', Marking bot floatText w o (done ++ players)
      (m.markPlayers bot (w.lookupReversed bot floatText) lookup players) lookup' := by
  induction players generalizing done m lookup with
  | nil =>
    rw [List.append_nil]
    exact ⟨lookup, hm⟩
  | cons player players ih =>
    have hstep := hm.step h player
    obtain ⟨lookup', hrest⟩ := ih hstep
    rw [List.append_assoc] at hrest
    exact ⟨lookup', hrest⟩

/-- All participants of a game. -/
theorem marking_markPlayers (h : Opened w o) (players : List String) :
    ∃ lookup, Marking bot floatText w o players
      (o.markPlayers bot (w.lookupReversed bot floatText) (w.lookupNames bot floatText) players) lookup :=
  (Marking.start h).run h players

end Loop

end StatisticsWorkbook

end LarpBot
