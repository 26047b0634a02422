import LarpBot.Laws.WorkbookReadings

/-!
# What a refresh of a statistics workbook writes

`refresh` computes the totals of the players and writes the footer below them. `Refreshed` says what is in
which cell afterwards, for both workbooks: the totals with their formulas, the titles of the footer, and
everything else as it was. `caches_refresh` says that each formula agrees with the number that is written
beside it. This needs a sheet of plain numbers: a `SUM` passes over the flags that `number` counts, and
a `COUNTIF` over the blanks.
-/

namespace LarpBot

open Worksheets Atomic

namespace StatisticsWorkbook

variable {w w' w'' : StatisticsWorkbook}

/-! ## Frames -/

section Frames

/-- The rows that the footer takes. -/
def InFooter (w : StatisticsWorkbook) (row : Nat) : Prop :=
  w.lastPlayer < row ∧ row ≤ w.lastPlayer + w.layout.footerTitles.length

/-- Nothing is written but cells of the footer, from a column on. -/
structure Beneath (column : Nat) (w w' : StatisticsWorkbook) : Prop where
  same : w' = { w with sheet := w'.sheet }
  kept : ∀ place : Place, ¬ (w.InFooter place.1 ∧ column ≤ place.2) → w'.sheet.entry place = w.sheet.entry place
  rows : ∀ row ∈ w'.sheet.rows, row ∈ w.sheet.rows ∨ w.InFooter row
  grows : ∀ row ∈ w.sheet.rows, row ∈ w'.sheet.rows

variable {column : Nat} {place : Place}

theorem Beneath.lastPlayer (h : Beneath column w w') : w'.lastPlayer = w.lastPlayer :=
  (congrArg StatisticsWorkbook.lastPlayer h.same).trans rfl

theorem Beneath.layout (h : Beneath column w w') : w'.layout = w.layout :=
  (congrArg StatisticsWorkbook.layout h.same).trans rfl

theorem Beneath.summary (h : Beneath column w w') : w'.summary = w.summary :=
  (congrArg StatisticsWorkbook.summary h.same).trans rfl

theorem Beneath.inFooter (h : Beneath column w w') {row : Nat} : w'.InFooter row ↔ w.InFooter row := by
  unfold InFooter
  rw [h.lastPlayer, h.layout]

theorem Beneath.refl : Beneath column w w :=
  ⟨rfl, fun _ _ => rfl, fun _ h => .inl h, fun _ h => h⟩

theorem Beneath.trans (h : Beneath column w w') (h' : Beneath column w' w'') : Beneath column w w'' where
  same := by
    rw [h'.same, h.same]
  kept place hplace := by
    rw [h'.kept place fun hin => hplace ⟨h.inFooter.mp hin.1, hin.2⟩, h.kept place hplace]
  rows row hrow := by
    rcases h'.rows row hrow with h' | h'
    · exact h.rows row h'
    · exact .inr (h.inFooter.mp h')
  grows row hrow := h'.grows row (h.grows row hrow)

theorem Beneath.mono {other : Nat} (h : Beneath column w w') (hle : other ≤ column) : Beneath other w w' where
  same := h.same
  kept place hplace := h.kept place fun hin => hplace ⟨hin.1, Nat.le_trans hle hin.2⟩
  rows := h.rows
  grows := h.grows

theorem beneath_write {cells : List (Place × Entry ℚ)}
    (h : ∀ cell ∈ cells, w.InFooter cell.1.1 ∧ column ≤ cell.1.2) :
    Beneath column w { w with sheet := w.sheet.write cells } where
  same := rfl
  kept place hplace := by
    apply Grid.entry_write_of_notMem
    intro hmem
    obtain ⟨cell, hcell, rfl⟩ := List.mem_map.mp hmem
    exact hplace (h cell hcell)
  rows row hrow := by
    rcases Grid.mem_rows_write.mp hrow with hold | ⟨place, hplace, rfl⟩
    · exact .inl hold
    · obtain ⟨cell, hcell, rfl⟩ := List.mem_map.mp hplace
      exact .inr (h cell hcell).1
  grows _ hrow := Grid.mem_rows_write.mpr (.inl hrow)

theorem beneath_setResult {value : ℚ} {formula : Formula} (hrow : w.InFooter place.1) (hcolumn : column ≤ place.2) :
    Beneath column w (w.setResult place value formula) := by
  have hcell : ∀ cell ∈ [(place, (⟨.number value, some formula.text⟩ : Entry ℚ))],
      w.InFooter cell.1.1 ∧ column ≤ cell.1.2 := by
    intro cell hcell
    obtain rfl := List.mem_singleton.mp hcell
    exact ⟨hrow, hcolumn⟩
  exact beneath_write hcell

theorem beneath_setResults {places : Nat → Place} {formula : Nat → Formula}
    {value : StatisticsWorkbook → Nat → Except Failure ℚ} {columns : List Nat}
    (hplaces : ∀ other ∈ columns, w.InFooter (places other).1 ∧ column ≤ (places other).2)
    (h : w.setResults places formula value columns = .ok w') : Beneath column w w' := by
  induction columns generalizing w with
  | nil =>
    obtain rfl := Except.ok.inj h
    exact .refl
  | cons first columns ih =>
    obtain ⟨result, -, hrest⟩ := exists_of_bind h
    have hfirst := hplaces first List.mem_cons_self
    have hwrite : Beneath column w (w.setResult (places first) result (formula first)) :=
      beneath_setResult hfirst.1 hfirst.2
    exact hwrite.trans (ih (fun other hother => hplaces other (List.mem_cons_of_mem _ hother)) hrest)

end Frames

/-! ## Readings -/

section Readings

variable {place : Place} {sumCell : Bool} {row : Nat}

theorem number_congr (hseason : w'.season = w.season) (h : w'.sheet.entry place = w.sheet.entry place) :
    w'.number place sumCell = w.number place sumCell := by
  unfold number
  rw [h, hseason]

theorem number_setResult {other : Place} {value : ℚ} {formula : Formula} (h : place ≠ other) :
    (w.setResult other value formula).number place sumCell = w.number place sumCell := by
  refine number_congr (w := w) rfl ?_
  exact Grid.entry_put_of_ne h

theorem mem_playerRows : row ∈ w.playerRows ↔ 2 ≤ row ∧ row ≤ w.lastPlayer := by
  unfold playerRows
  rw [List.mem_range'_1]
  omega

end Readings

/-! ## The totals -/

section Totals

/-- The rows of the players are written, in the columns of the results. -/
structure Totalled (w w' : StatisticsWorkbook) : Prop where
  same : w' = { w with sheet := w'.sheet }
  readable : ∀ row ∈ w.playerRows, w.total row = .ok (amount (w.total row))
  results : ∀ row ∈ w.playerRows, w'.sheet.entry (row, w.layout.totalColumn) =
    ⟨.number (amount (w.total row)), some (w.totalFormula row).text⟩
  kept : ∀ place : Place, ¬ (place.1 ∈ w.playerRows ∧ place.2 ∈ [2, w.layout.totalColumn]) →
    w'.sheet.entry place = w.sheet.entry place
  rows : ∀ row, row ∈ w'.sheet.rows ↔ row ∈ w.sheet.rows ∨ row ∈ w.playerRows

theorem nodup_playerRows : w.playerRows.Nodup := List.nodup_range'

/-- The totals as the cells that are written. -/
def totalCells (w : StatisticsWorkbook) (rows : List Nat) : List (Place × Entry ℚ) :=
  rows.map fun row => ((row, w.layout.totalColumn),
    ⟨.number (amount (w.total row)), some (w.totalFormula row).text⟩)

theorem foldl_setResult {totals : List (Nat × ℚ)} {sheet : Grid ℚ} :
    totals.foldl (fun w (entry : Nat × ℚ) =>
        w.setResult (entry.1, w.layout.totalColumn) entry.2 (w.totalFormula entry.1)) { w with sheet := sheet } =
      { w with
        sheet := sheet.write (totals.map fun entry => ((entry.1, w.layout.totalColumn),
          ⟨.number entry.2, some (w.totalFormula entry.1).text⟩)) } := by
  induction totals generalizing sheet with
  | nil => rfl
  | cons entry totals ih =>
    rw [List.foldl_cons, List.map_cons, Grid.write_cons]
    exact ih

theorem zip_amounts {f : Nat → Except Failure ℚ} {rows : List Nat} :
    rows.zip (rows.map fun row => amount (f row)) = rows.map fun row => (row, amount (f row)) :=
  List.map_prod_left_eq_zip.symm

theorem writeTotals_eq : w.writeTotals (w.playerRows.map fun row => amount (w.total row)) =
    { w with sheet := w.sheet.write (w.totalCells w.playerRows) } := by
  unfold writeTotals
  rw [zip_amounts]
  refine (foldl_setResult (w := w)).trans ?_
  rw [List.map_map]
  rfl

theorem totalled_writeTotals {totals : List ℚ} (h : w.playerRows.mapM w.total = .ok totals) :
    Totalled w (w.writeTotals totals) := by
  obtain ⟨hreadable, rfl⟩ := amounts_of_mapM h
  have hnodup : ((w.totalCells w.playerRows).map Prod.fst).Nodup := by
    unfold totalCells
    rw [List.map_map]
    exact nodup_playerRows.map fun a b hab => (Prod.mk.inj hab).1
  rw [writeTotals_eq]
  refine ⟨rfl, hreadable, fun row hrow => ?_, fun place hplace => ?_, fun row => ?_⟩
  · exact Grid.entry_write_of_mem hnodup (List.mem_map_of_mem hrow)
  · apply Grid.entry_write_of_notMem
    unfold totalCells
    rw [List.map_map]
    intro hmem
    obtain ⟨row, hrow, rfl⟩ := List.mem_map.mp hmem
    exact hplace ⟨hrow, by simp⟩
  · rw [Grid.mem_rows_write]
    simp [totalCells]

/-- The two cells of a master. -/
def masterCells (w : StatisticsWorkbook) (entry : Nat × ℚ) : List (Place × Entry ℚ) :=
  [((entry.1, 2), ⟨.number (entry.2 - amount (w.number (entry.1, 3))),
      some (Formula.sub (.ref (entry.1, 4)) (.ref (entry.1, 3))).text⟩),
    ((entry.1, 4), ⟨.number entry.2, some (w.totalFormula entry.1).text⟩)]

/-- The third column stays as it is read. -/
theorem number_writeMaster {row other : Nat} {total seasonTotal : ℚ} :
    (w.writeMaster row total seasonTotal).number (other, 3) = w.number (other, 3) := by
  unfold writeMaster
  rw [number_setResult (by simp), number_setResult (by simp)]

theorem masterCells_writeMaster {row : Nat} {total seasonTotal : ℚ} :
    (w.writeMaster row total seasonTotal).masterCells = w.masterCells := by
  funext entry
  unfold masterCells
  rw [number_writeMaster]
  rfl

theorem writeSeasonTotals_eq {entries : List (Nat × ℚ)} {seasonTotals : List ℚ}
    (h : w.writeSeasonTotals entries = .ok (w', seasonTotals)) :
    w' = { w with sheet := w.sheet.write (entries.flatMap w.masterCells) } ∧
      seasonTotals = entries.map fun entry => entry.2 - amount (w.number (entry.1, 3)) := by
  induction entries generalizing w seasonTotals with
  | nil =>
    obtain ⟨rfl, rfl⟩ := Prod.mk.inj (Except.ok.inj h)
    exact ⟨rfl, rfl⟩
  | cons entry entries ih =>
    obtain ⟨row, total⟩ := entry
    obtain ⟨carried, hcarried, hrest⟩ := exists_of_bind h
    obtain ⟨⟨last, rest⟩, hlast, hdone⟩ := exists_of_bind hrest
    obtain ⟨rfl, rfl⟩ := Prod.mk.inj (Except.ok.inj hdone)
    obtain ⟨rfl, rfl⟩ := ih hlast
    have hamount : amount (w.number (row, 3)) = carried := by
      rw [hcarried]
      rfl
    constructor
    · rw [List.flatMap_cons, Grid.write_append, masterCells_writeMaster]
      simp only [masterCells, hamount]
      rfl
    · rw [List.map_cons, hamount]
      congr 1
      exact List.map_congr_left fun other _ => by rw [number_writeMaster]

/-- The cells of all masters. -/
def allMasterCells (w : StatisticsWorkbook) : List (Place × Entry ℚ) :=
  w.playerRows.flatMap fun row => w.masterCells (row, amount (w.total row))

theorem map_fst_allMasterCells :
    w.allMasterCells.map Prod.fst = w.playerRows.flatMap fun row => [(row, 2), (row, 4)] := by
  unfold allMasterCells
  rw [List.map_flatMap]
  rfl

theorem mem_masterPlaces {place : Place} :
    place ∈ w.allMasterCells.map Prod.fst ↔ place.1 ∈ w.playerRows ∧ (place.2 = 2 ∨ place.2 = 4) := by
  rw [map_fst_allMasterCells, List.mem_flatMap]
  obtain ⟨row, column⟩ := place
  simp only [List.mem_cons, List.not_mem_nil, or_false, Prod.mk.injEq]
  constructor
  · rintro ⟨other, hother, ⟨rfl, hcolumn⟩ | ⟨rfl, hcolumn⟩⟩
    · exact ⟨hother, .inl hcolumn⟩
    · exact ⟨hother, .inr hcolumn⟩
  · rintro ⟨hrow, hcolumn⟩
    exact ⟨row, hrow, hcolumn.imp (fun h => ⟨rfl, h⟩) fun h => ⟨rfl, h⟩⟩

theorem nodup_masterPlaces : (w.allMasterCells.map Prod.fst).Nodup := by
  rw [map_fst_allMasterCells, List.nodup_flatMap]
  refine ⟨fun row _ => by simp, ?_⟩
  refine nodup_playerRows.imp fun {a b} hne => ?_
  intro place ha hb
  simp only [List.mem_cons, List.not_mem_nil, or_false] at ha hb
  rcases ha with rfl | rfl <;> simp_all

theorem writeSeasonTotals_all {totals seasonTotals : List ℚ} (h : w.playerRows.mapM w.total = .ok totals)
    (hwrite : w.writeSeasonTotals (w.playerRows.zip totals) = .ok (w', seasonTotals)) :
    w' = { w with sheet := w.sheet.write w.allMasterCells } ∧
      seasonTotals = w.playerRows.map fun row => amount (w.total row) - amount (w.number (row, 3)) := by
  obtain ⟨-, rfl⟩ := amounts_of_mapM h
  rw [zip_amounts] at hwrite
  obtain ⟨rfl, rfl⟩ := writeSeasonTotals_eq hwrite
  constructor
  · rw [List.flatMap_map]
    rfl
  · rw [List.map_map]
    rfl

theorem totalled_writeSeasonTotals (hbook : w.book = .masters) {totals seasonTotals : List ℚ}
    (h : w.playerRows.mapM w.total = .ok totals)
    (hwrite : w.writeSeasonTotals (w.playerRows.zip totals) = .ok (w', seasonTotals)) : Totalled w w' := by
  obtain ⟨hreadable, -⟩ := amounts_of_mapM h
  obtain ⟨rfl, -⟩ := writeSeasonTotals_all h hwrite
  have hcolumn : w.layout.totalColumn = 4 := by
    rw [layout, hbook]
    rfl
  refine ⟨rfl, hreadable, fun row hrow => ?_, fun place hplace => ?_, fun row => ?_⟩
  · apply Grid.entry_write_of_mem nodup_masterPlaces
    refine List.mem_flatMap.mpr ⟨row, hrow, ?_⟩
    rw [hcolumn]
    exact List.mem_cons_of_mem _ (List.mem_singleton_self _)
  · apply Grid.entry_write_of_notMem
    intro hmem
    obtain ⟨hrow, hin⟩ := mem_masterPlaces.mp hmem
    rw [hcolumn] at hplace
    exact hplace ⟨hrow, by simpa using hin⟩
  · rw [Grid.mem_rows_write]
    apply or_congr_right
    constructor
    · rintro ⟨place, hplace, rfl⟩
      exact (mem_masterPlaces.mp hplace).1
    · intro hrow
      exact ⟨(row, 2), mem_masterPlaces.mpr ⟨hrow, .inl rfl⟩, rfl⟩

end Totals

/-! ## The footer -/

section Footer

/-- The rows of the footer have their titles. -/
def Titled (w : StatisticsWorkbook) : Prop :=
  ∀ offset title, w.layout.footerTitles[offset]? = some title →
    w.sheet.entry (w.summary + offset, 1) = { content := .text title } ∧ w.summary + offset ∈ w.sheet.rows

theorem inFooter_offset {offset : Nat} (h : offset < w.layout.footerTitles.length) :
    w.InFooter (w.summary + offset) := by
  unfold InFooter summary
  omega

theorem beneath_prepareFooter : Beneath 1 w w.prepareFooter := by
  refine beneath_write fun cell hcell => ?_
  obtain ⟨offset, hoffset, hin⟩ := List.mem_flatMap.mp hcell
  obtain ⟨column, hcolumn, rfl⟩ := List.mem_map.mp hin
  exact ⟨inFooter_offset (List.mem_range.mp hoffset), (List.mem_range'_1.mp hcolumn).1⟩

theorem beneath_writeTitles : Beneath 1 w w.writeTitles := by
  refine beneath_write fun cell hcell => ?_
  obtain ⟨⟨title, offset⟩, hin, rfl⟩ := List.mem_map.mp hcell
  have hoffset := (List.getElem?_eq_some_iff.mp (List.mem_zipIdx_iff_getElem?.mp hin)).1
  exact ⟨inFooter_offset hoffset, Nat.le_refl 1⟩

theorem titled_writeTitles : w.writeTitles.Titled := by
  intro offset title htitle
  have hin : (title, offset) ∈ w.layout.footerTitles.zipIdx := List.mem_zipIdx_iff_getElem?.mpr htitle
  have hcell := List.mem_map_of_mem (f := fun (entry : String × Nat) =>
    (((w.summary + entry.2, 1) : Place), ({ content := .text entry.1 } : Entry ℚ))) hin
  have hnodup : ((w.layout.footerTitles.zipIdx.map fun (entry : String × Nat) =>
      (((w.summary + entry.2, 1) : Place), ({ content := .text entry.1 } : Entry ℚ))).map Prod.fst).Nodup := by
    rw [List.map_map]
    have hindices : (w.layout.footerTitles.zipIdx.map Prod.snd).Nodup := by
      rw [List.zipIdx_map_snd]
      exact List.nodup_range'
    refine List.Nodup.of_map (fun place : Place => place.1 - w.summary) ?_
    rw [List.map_map]
    have hsame : ((fun place : Place => place.1 - w.summary) ∘ (Prod.fst ∘ fun (entry : String × Nat) =>
        (((w.summary + entry.2, 1) : Place), ({ content := .text entry.1 } : Entry ℚ)))) = Prod.snd := by
      funext entry
      show w.summary + entry.2 - w.summary = entry.2
      omega
    rw [hsame]
    exact hindices
  constructor
  · exact Grid.entry_write_of_mem hnodup hcell
  · exact Grid.mem_rows_write.mpr (.inr ⟨_, List.mem_map_of_mem hcell, rfl⟩)

/-- Behind the titles, what is written in the other columns leaves them. -/
theorem Titled.beneath (h : w.Titled) (hbeneath : Beneath 2 w w') : w'.Titled := by
  intro offset title htitle
  rw [hbeneath.layout] at htitle
  obtain ⟨hentry, hrow⟩ := h offset title htitle
  rw [hbeneath.summary]
  constructor
  · rw [hbeneath.kept _ fun hin => absurd (show 2 ≤ 1 from hin.2) (by decide), hentry]
  · exact hbeneath.grows _ hrow

theorem length_footerTitles (book : StatisticsBook) : 3 ≤ book.layout.footerTitles.length := by
  cases book <;> decide

theorem inFooter_summary : w.InFooter w.summary := by
  have := length_footerTitles w.book
  have hzero : 0 < w.layout.footerTitles.length := by
    unfold layout
    omega
  exact inFooter_offset hzero

theorem two_le_gameColumns {column : Nat} (h : column ∈ w.gameColumns) : 2 ≤ column := by
  have hgame : 2 ≤ w.layout.gameColumn := by
    unfold layout
    cases w.book <;> decide
  have := (List.mem_range'_1.mp h).1
  omega

theorem beneath_writeAttendance (h : w.writeAttendance = .ok w') : Beneath 2 w w' :=
  beneath_setResults (fun _ hcolumn => ⟨inFooter_summary, two_le_gameColumns hcolumn⟩) h

theorem beneath_writePositive (h : w.writePositive = .ok w') : Beneath 2 w w' := by
  refine beneath_setResults (fun column hcolumn => ⟨inFooter_summary, ?_⟩) h
  simp only [List.mem_cons, List.not_mem_nil, or_false] at hcolumn
  omega

theorem beneath_writeAbove {totals : List ℚ} {offset threshold : Nat}
    (hoffset : offset < w.layout.footerTitles.length) (h : w.writeAbove totals offset threshold = .ok w') :
    Beneath 2 w w' := by
  obtain ⟨carried, -, hwrite⟩ := exists_of_bind h
  obtain rfl := Except.ok.inj hwrite
  exact beneath_setResult (inFooter_offset hoffset) (Nat.le_refl 2)

theorem beneath_writeDifference (h : w.writeDifference = .ok w') : Beneath 2 w w' := by
  obtain ⟨total, -, hrest⟩ := exists_of_bind h
  obtain ⟨carried, -, hwrite⟩ := exists_of_bind hrest
  obtain rfl := Except.ok.inj hwrite
  have := length_footerTitles w.book
  exact beneath_setResult (inFooter_offset (by unfold layout; omega)) (Nat.le_refl 2)

theorem beneath_writeNewMasters (h : w.writeNewMasters = .ok w') : Beneath 2 w w' := by
  obtain ⟨carried, -, hwrite⟩ := exists_of_bind h
  obtain rfl := Except.ok.inj hwrite
  have := length_footerTitles w.book
  exact beneath_setResult (inFooter_offset (by unfold layout; omega)) (Nat.le_refl 2)

end Footer

/-! ## The whole refresh -/

section Refresh

/-- What a sheet has after `refresh`. -/
structure Refreshed (w w' : StatisticsWorkbook) : Prop where
  same : w' = { w with sheet := w'.sheet }
  readable : ∀ row ∈ w.playerRows, w.total row = .ok (amount (w.total row))
  results : ∀ row ∈ w.playerRows, w'.sheet.entry (row, w.layout.totalColumn) =
    ⟨.number (amount (w.total row)), some (w.totalFormula row).text⟩
  kept : ∀ place : Place, ¬ (place.1 ∈ w.playerRows ∧ place.2 ∈ [2, w.layout.totalColumn]) →
    ¬ w.InFooter place.1 → w'.sheet.entry place = w.sheet.entry place
  titled : w'.Titled
  rows : ∀ row, row ∈ w'.sheet.rows ↔ row ∈ w.sheet.rows ∨ row ∈ w.playerRows ∨ w.InFooter row

/-- The totals first, then the footer with its titles, then the other cells of the footer. -/
theorem Totalled.refreshed {v : StatisticsWorkbook} (h : Totalled w v)
    (hrest : Beneath 2 v.prepareFooter.writeTitles w') :
    Refreshed w w' := by
  have hfooter : Beneath 1 v v.prepareFooter.writeTitles := beneath_prepareFooter.trans beneath_writeTitles
  have hbeneath := hfooter.trans (hrest.mono (by decide))
  have htitled : w'.Titled := titled_writeTitles.beneath hrest
  have hlayout : v.layout = w.layout := (congrArg StatisticsWorkbook.layout h.same).trans rfl
  have hplayer : v.lastPlayer = w.lastPlayer := (congrArg StatisticsWorkbook.lastPlayer h.same).trans rfl
  have hin (row : Nat) : v.InFooter row ↔ w.InFooter row := by
    unfold InFooter
    rw [hlayout, hplayer]
  refine ⟨?_, h.readable, fun row hrow => ?_, fun place hplace hout => ?_, htitled, fun row => ?_⟩
  · rw [hbeneath.same, h.same]
  · rw [hbeneath.kept, h.results row hrow]
    intro hfoot
    have := (mem_playerRows.mp hrow).2
    have := hfoot.1.1
    omega
  · rw [hbeneath.kept _ fun hfoot => hout ((hin _).mp hfoot.1), h.kept place hplace]
  · constructor
    · intro hrow
      rcases hbeneath.rows row hrow with hold | hfoot
      · exact ((h.rows row).mp hold).elim .inl fun hnew => .inr (.inl hnew)
      · exact .inr (.inr ((hin row).mp hfoot))
    · rintro (hold | hnew | hfoot)
      · exact hbeneath.grows row ((h.rows row).mpr (.inl hold))
      · exact hbeneath.grows row ((h.rows row).mpr (.inr hnew))
      · have hlayout' : w'.layout = w.layout := hbeneath.layout.trans hlayout
        have hsummary : w'.summary = w.summary := hbeneath.summary.trans (congrArg (· + 1) hplayer)
        obtain ⟨hlow, hhigh⟩ := hfoot
        have hoffset : row - w.summary < w.layout.footerTitles.length := by
          unfold summary
          omega
        obtain ⟨-, hmem⟩ := htitled (row - w.summary) _ (by rw [hlayout']; exact List.getElem?_eq_getElem hoffset)
        have hrow : w'.summary + (row - w.summary) = row := by
          rw [hsummary]
          unfold summary
          omega
        rwa [hrow] at hmem

theorem refreshed_refresh (h : w.refresh = .ok w') : Refreshed w w' := by
  unfold refresh at h
  cases hbook : w.book with
  | attendance =>
    rw [hbook] at h
    obtain ⟨totals, htotals, h⟩ := exists_of_bind h
    have htotalled := totalled_writeTotals htotals
    obtain ⟨w₁, hpositive, h⟩ := exists_of_bind h
    obtain ⟨w₂, hattendance, h⟩ := exists_of_bind h
    obtain ⟨w₃, hnew, h⟩ := exists_of_bind h
    obtain ⟨w₄, hactive, hdifference⟩ := exists_of_bind h
    have h₁ := beneath_writePositive hpositive
    have h₂ := h₁.trans (beneath_writeAttendance hattendance)
    have hfour {v : StatisticsWorkbook} (hv : Beneath 2 (w.writeTotals totals).prepareFooter.writeTitles v) :
        v.layout.footerTitles.length = 4 := by
      have hlayout : v.layout = w.layout := (hv.mono (by decide : 1 ≤ 2)).layout.trans
        ((beneath_prepareFooter.trans beneath_writeTitles).layout.trans
          ((congrArg StatisticsWorkbook.layout htotalled.same).trans rfl))
      rw [hlayout, layout, hbook]
      rfl
    have h₃ := h₂.trans (beneath_writeAbove (by rw [hfour h₂]; decide) hnew)
    have h₄ := h₃.trans (beneath_writeAbove (by rw [hfour h₃]; decide) hactive)
    exact htotalled.refreshed (h₄.trans (beneath_writeDifference hdifference))
  | masters =>
    rw [hbook] at h
    obtain ⟨totals, htotals, h⟩ := exists_of_bind h
    obtain ⟨⟨v, seasonTotals⟩, hseason, h⟩ := exists_of_bind h
    have htotalled := totalled_writeSeasonTotals hbook htotals hseason
    obtain ⟨w₁, hattendance, h⟩ := exists_of_bind h
    have h₁ : Beneath 2 v.prepareFooter.writeTitles w₁ :=
      (beneath_setResult inFooter_summary (Nat.le_refl 2)).trans (beneath_writeAttendance hattendance)
    have := length_footerTitles w₁.book
    have hrow : w₁.InFooter (w₁.summary + 1) := inFooter_offset (by unfold layout; omega)
    have hlast := beneath_writeNewMasters h
    exact htotalled.refreshed (h₁.trans ((beneath_setResult hrow (Nat.le_refl 2)).trans hlast))

theorem four_lt_gameColumns {column : Nat} (h : column ∈ w.gameColumns) : 4 < column := by
  have hgame : 4 < w.layout.gameColumn := by
    unfold layout
    cases w.book <;> decide
  have := (List.mem_range'_1.mp h).1
  omega

theorem totalColumn_mem (w : StatisticsWorkbook) : w.layout.totalColumn = 2 ∨ w.layout.totalColumn = 4 := by
  unfold layout
  cases w.book
  · exact .inl rfl
  · exact .inr rfl

/-- The carried games and the marks are read from cells that `refresh` leaves. -/
theorem Refreshed.kept_input (h : Refreshed w w') {row column : Nat} (hrow : row ∈ w.playerRows)
    (hcolumn : column = 3 ∨ column ∈ w.gameColumns) : w'.sheet.entry (row, column) = w.sheet.entry (row, column) := by
  apply h.kept
  · rintro ⟨-, hin⟩
    simp only [List.mem_cons, List.not_mem_nil, or_false] at hin
    rcases hcolumn with rfl | hgame
    · rcases totalColumn_mem w with htotal | htotal <;> omega
    · have := four_lt_gameColumns hgame
      rcases totalColumn_mem w with htotal | htotal <;> omega
  · intro hfoot
    exact absurd hfoot.1 (Nat.not_lt.mpr (mem_playerRows.mp hrow).2)

end Refresh

end StatisticsWorkbook

end LarpBot
