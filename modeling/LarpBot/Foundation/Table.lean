import Mathlib

/-!
# Keyed tables

A store's table is a list of rows in which no two rows have the same key, kept in the order of
insertion. The key is a function of the row, so a row can never stand under a key that is not its
own, and the functions that rewrite rows ask for a proof that they leave the key alone. `find?` is
the only reader the rest needs: each writer comes with its equation for `find?` and with the
membership fact that follows.
-/

namespace Atomic

/-- Rows of type `V` with distinct keys. -/
structure Table {V K : Type} (key : V → K) where
  rows : List V
  nodup : (rows.map key).Nodup

namespace Table

variable {V K : Type} {key : V → K}

@[ext] theorem ext {t t' : Table key} (h : t.rows = t'.rows) : t = t' := by
  cases t; cases t'; simp_all

/-- The table with no rows. -/
def empty : Table key := ⟨[], List.nodup_nil⟩

/-- Rewrite every row in place. -/
def mapRows (t : Table key) (f : V → V) (hf : ∀ v, key (f v) = key v) : Table key where
  rows := t.rows.map f
  nodup := by
    have : key ∘ f = key := funext hf
    simpa [List.map_map, this] using t.nodup

/-- Keep the rows that pass a test. -/
def filter (t : Table key) (p : V → Bool) : Table key where
  rows := t.rows.filter p
  nodup := t.nodup.sublist (List.filter_sublist.map key)

instance [DecidableEq V] : DecidableEq (Table key) :=
  fun t t' => decidable_of_iff (t.rows = t'.rows) ⟨Table.ext, fun h => h ▸ rfl⟩

theorem rows_nodup (t : Table key) : t.rows.Nodup :=
  List.Nodup.of_map key t.nodup

@[simp] theorem rows_mapRows (t : Table key) (f hf) : (t.mapRows f hf).rows = t.rows.map f := rfl

@[simp] theorem rows_filter (t : Table key) (p : V → Bool) :
    (t.filter p).rows = t.rows.filter p := rfl

/-- Two rows of a table with one key are one row. -/
theorem eq_of_key_eq {t : Table key} {u v : V} (hu : u ∈ t.rows) (hv : v ∈ t.rows)
    (h : key u = key v) : u = v :=
  List.inj_on_of_nodup_map t.nodup hu hv h

variable [DecidableEq K]

/-- The row under a key. -/
def find? (t : Table key) (k : K) : Option V :=
  t.rows.find? fun v => key v = k

/-- Rewrite the row under a key, if there is one. -/
def modify (t : Table key) (k : K) (f : V → V) (hf : ∀ v, key (f v) = key v := by intro _; rfl) :
    Table key :=
  t.mapRows (fun v => if key v = k then f v else v) fun v => by
    by_cases h : key v = k <;> simp [h, hf]

/-- Remove the row under a key. -/
def erase (t : Table key) (k : K) : Table key :=
  t.filter fun v => key v ≠ k

/-- Add a row unless its key is taken. -/
def insertNew (t : Table key) (v : V) : Table key :=
  if h : key v ∈ t.rows.map key then t else
    { rows := t.rows ++ [v]
      nodup := by
        rw [List.map_append, List.nodup_append]
        refine ⟨t.nodup, by simp, ?_⟩
        rintro k hk k' hk' rfl
        simp only [List.map_cons, List.map_nil, List.mem_singleton] at hk'
        exact h (hk' ▸ hk) }

/-- Put a row under its key, in the place of the one that was there. -/
def insert (t : Table key) (v : V) : Table key :=
  (t.mapRows (fun u => if key u = key v then v else u) fun u => by
    by_cases h : key u = key v <;> simp [h]).insertNew v

/-! ## Reading -/

theorem key_of_find? {t : Table key} {k : K} {v : V} (h : t.find? k = some v) : key v = k := by
  simpa using List.find?_some h

theorem mem_of_find? {t : Table key} {k : K} {v : V} (h : t.find? k = some v) : v ∈ t.rows :=
  List.mem_of_find?_eq_some h

/-- Keys are distinct, so a row is what its own key finds. -/
theorem find?_key {t : Table key} {v : V} (h : v ∈ t.rows) : t.find? (key v) = some v := by
  cases hu : t.find? (key v) with
  | none => simpa using List.find?_eq_none.mp hu v h
  | some u => rw [List.inj_on_of_nodup_map t.nodup (mem_of_find? hu) h (key_of_find? hu)]

theorem find?_eq_some_iff {t : Table key} {k : K} {v : V} :
    t.find? k = some v ↔ v ∈ t.rows ∧ key v = k :=
  ⟨fun h => ⟨mem_of_find? h, key_of_find? h⟩, fun ⟨h, hk⟩ => hk ▸ find?_key h⟩

theorem find?_eq_none_iff {t : Table key} {k : K} :
    t.find? k = none ↔ k ∉ t.rows.map key := by
  simp [find?, List.find?_eq_none]

/-! ## Writing -/

/-- A key picks one row at most. -/
theorem rows_filter_key (t : Table key) (k : K) :
    t.rows.filter (fun v => key v = k) = (t.find? k).toList := by
  obtain ⟨rows, hnodup⟩ := t
  show rows.filter _ = (rows.find? _).toList
  induction rows with
  | nil => rfl
  | cons v vs ih =>
    rw [List.map_cons, List.nodup_cons] at hnodup
    by_cases h : key v = k
    · have hrest : vs.filter (fun u => key u = k) = [] := by
        rw [List.filter_eq_nil_iff]
        intro u hu hkey
        exact hnodup.1 (List.mem_map.mpr ⟨u, hu, (of_decide_eq_true hkey).trans h.symm⟩)
      simp [h, hrest]
    · simp [h, ih hnodup.2]

@[simp] theorem find?_empty (k : K) : (empty : Table key).find? k = none := rfl

@[simp] theorem rows_erase (t : Table key) (k : K) :
    (t.erase k).rows = t.rows.filter fun v => key v ≠ k := rfl

/-- A key that is not there has nothing to erase. -/
theorem erase_of_forall {t : Table key} {k : K} (h : ∀ v ∈ t.rows, key v ≠ k) : t.erase k = t := by
  refine Table.ext ?_
  rw [rows_erase]
  exact List.filter_eq_self.mpr fun v hv => decide_eq_true (h v hv)

@[simp] theorem rows_modify (t : Table key) (k : K) (f hf) :
    (t.modify k f hf).rows = t.rows.map fun v => if key v = k then f v else v := rfl

@[simp] theorem find?_mapRows (t : Table key) (f hf) (k : K) :
    (t.mapRows f hf).find? k = (t.find? k).map f := by
  unfold find?
  rw [rows_mapRows, List.find?_map]
  congr 2
  funext v
  simp [hf]

theorem find?_modify (t : Table key) (k k' : K) (f hf) :
    (t.modify k f hf).find? k' = if k' = k then (t.find? k).map f else t.find? k' := by
  rw [modify, find?_mapRows]
  cases hv : t.find? k' with
  | none => by_cases hk : k' = k <;> simp_all
  | some v =>
    have hkey := key_of_find? hv
    by_cases hk : k' = k <;> simp_all

@[simp] theorem find?_modify_self (t : Table key) (k : K) (f hf) :
    (t.modify k f hf).find? k = (t.find? k).map f := by
  simp [find?_modify]

theorem find?_modify_of_ne (t : Table key) {k k' : K} (h : k' ≠ k) (f hf) :
    (t.modify k f hf).find? k' = t.find? k' := by
  simp [find?_modify, h]

/-- A member of a list with some members rewritten. -/
theorem mem_map_ite {vs : List V} {p : V → Prop} [DecidablePred p] {f : V → V} {v : V}
    (h : v ∈ vs.map fun u => if p u then f u else u) :
    ∃ u ∈ vs, (p u ∧ v = f u) ∨ (¬ p u ∧ v = u) := by
  obtain ⟨u, hu, rfl⟩ := List.mem_map.mp h
  refine ⟨u, hu, ?_⟩
  by_cases hp : p u
  · exact .inl ⟨hp, if_pos hp⟩
  · exact .inr ⟨hp, if_neg hp⟩

/-- A row of a table with one row rewritten. -/
theorem mem_modify {t : Table key} {k : K} {f : V → V} {v : V}
    (h : v ∈ t.rows.map fun u => if key u = k then f u else u) :
    ∃ u ∈ t.rows, (key u = k ∧ v = f u) ∨ (key u ≠ k ∧ v = u) :=
  mem_map_ite h

/-- What a rewrite leaves alone in a row, it leaves alone in the table. -/
theorem map_rows_modify {β : Type} (t : Table key) (k : K) (f hf) {g : V → β}
    (hg : ∀ v, g (f v) = g v) : (t.modify k f hf).rows.map g = t.rows.map g := by
  rw [rows_modify, List.map_map]
  refine List.map_congr_left fun v _ => ?_
  by_cases hk : key v = k <;> simp [hk, hg]

theorem find?_filter (t : Table key) (p : V → Bool) (k : K) :
    (t.filter p).find? k = (t.find? k).filter p := by
  cases hv : t.find? k with
  | none =>
    rw [find?_eq_none_iff] at hv
    rw [Option.filter_none, find?_eq_none_iff]
    exact fun hk => hv ((List.filter_sublist.map key).subset hk)
  | some v =>
    obtain ⟨hmem, hkey⟩ := find?_eq_some_iff.mp hv
    by_cases hp : p v = true
    · rw [Option.filter_some_pos hp, find?_eq_some_iff]
      exact ⟨List.mem_filter.mpr ⟨hmem, hp⟩, hkey⟩
    · rw [Option.filter_some_neg (by simpa using hp), find?_eq_none_iff]
      intro hk
      obtain ⟨u, hu, huk⟩ := List.mem_map.mp hk
      obtain ⟨humem, hup⟩ := List.mem_filter.mp hu
      exact hp (eq_of_key_eq humem hmem (huk.trans hkey.symm) ▸ hup)

theorem find?_erase (t : Table key) (k k' : K) :
    (t.erase k).find? k' = if k' = k then none else t.find? k' := by
  rw [erase, find?_filter]
  cases hv : t.find? k' with
  | none => simp
  | some v =>
    have hkey := key_of_find? hv
    by_cases hk : k' = k <;> simp [Option.filter, hkey, hk]

theorem find?_insertNew (t : Table key) (v : V) (k : K) :
    (t.insertNew v).find? k =
      if k = key v then some ((t.find? (key v)).getD v) else t.find? k := by
  unfold insertNew
  split
  · next h =>
    by_cases hk : k = key v
    · subst hk
      obtain ⟨u, hu, hukey⟩ := List.mem_map.mp h
      have : t.find? (key v) = some u := hukey ▸ find?_key hu
      simp [this]
    · simp [hk]
  · next h =>
    have hnone : t.find? (key v) = none := find?_eq_none_iff.mpr h
    rw [hnone]
    unfold find? at hnone ⊢
    rw [List.find?_append]
    by_cases hk : k = key v
    · subst hk; simp [hnone]
    · simp [hk, Ne.symm hk]

theorem find?_insert (t : Table key) (v : V) (k : K) :
    (t.insert v).find? k = if k = key v then some v else t.find? k := by
  rw [insert, find?_insertNew]
  simp only [find?_mapRows]
  by_cases hk : k = key v
  · simp only [hk, if_true]
    cases hu : t.find? (key v) with
    | none => simp
    | some u => simp [key_of_find? hu]
  · simp only [hk, if_false]
    cases hu : t.find? k with
    | none => simp
    | some u => simp [key_of_find? hu, hk]

/-- A new row is appended behind the others. -/
theorem rows_insertNew_of_none {t : Table key} {v : V} (h : t.find? (key v) = none) :
    (t.insertNew v).rows = t.rows ++ [v] := by
  rw [insertNew, dif_neg (find?_eq_none_iff.mp h)]

theorem rows_insertNew_of_some {t : Table key} {v u : V} (h : t.find? (key v) = some u) :
    t.insertNew v = t := by
  rw [insertNew, dif_pos]
  exact List.mem_map.mpr ⟨u, mem_of_find? h, key_of_find? h⟩

theorem mem_insertNew {t : Table key} {v u : V} (h : u ∈ (t.insertNew v).rows) :
    u ∈ t.rows ∨ (u = v ∧ t.find? (key v) = none) := by
  cases hv : t.find? (key v) with
  | some w =>
    rw [rows_insertNew_of_some hv] at h
    exact .inl h
  | none =>
    rw [rows_insertNew_of_none hv] at h
    rcases List.mem_append.mp h with hold | hnew
    · exact .inl hold
    · exact .inr ⟨List.mem_singleton.mp hnew, rfl⟩

/-- Adding rows leaves the stored ones where they are. -/
theorem prefix_insertNew (t : Table key) (v : V) : t.rows <+: (t.insertNew v).rows := by
  cases h : t.find? (key v) with
  | none => rw [rows_insertNew_of_none h]; exact List.prefix_append _ _
  | some u => simp only [rows_insertNew_of_some h, List.prefix_refl]

theorem find?_extends {t t' : Table key} (h : t.rows <+: t'.rows) {k : K} {v : V}
    (hv : t.find? k = some v) : t'.find? k = some v := by
  obtain ⟨hmem, hkey⟩ := find?_eq_some_iff.mp hv
  exact find?_eq_some_iff.mpr ⟨h.subset hmem, hkey⟩

/-- A row of the result was stored before, or it is one of the added rows. -/
theorem mem_foldl_insertNew {t : Table key} {vs : List V} {u : V}
    (h : u ∈ (vs.foldl insertNew t).rows) : u ∈ t.rows ∨ (u ∈ vs ∧ t.find? (key u) = none) := by
  induction vs generalizing t with
  | nil => exact .inl h
  | cons v vs ih =>
    rcases ih h with hold | ⟨hmem, hnew⟩
    · rcases mem_insertNew hold with hold | ⟨rfl, hnew⟩
      · exact .inl hold
      · exact .inr ⟨List.mem_cons_self, hnew⟩
    · refine .inr ⟨List.mem_cons_of_mem v hmem, ?_⟩
      cases hu : t.find? (key u) with
      | none => rfl
      | some w =>
        rw [find?_extends (prefix_insertNew t v) hu] at hnew
        exact nomatch hnew

theorem prefix_foldl_insertNew (t : Table key) (vs : List V) :
    t.rows <+: (vs.foldl insertNew t).rows := by
  induction vs generalizing t with
  | nil => exact List.prefix_refl _
  | cons v vs ih => exact (prefix_insertNew t v).trans (ih _)

/-- Each of the added rows has its key in the result. -/
theorem isSome_find?_foldl_insertNew {t : Table key} {vs : List V} {v : V} (h : v ∈ vs) :
    ((vs.foldl insertNew t).find? (key v)).isSome := by
  induction vs generalizing t with
  | nil => exact absurd h List.not_mem_nil
  | cons u vs ih =>
    rcases List.mem_cons.mp h with rfl | hmem
    · have hfirst : (t.insertNew v).find? (key v) = some ((t.find? (key v)).getD v) := by
        rw [find?_insertNew, if_pos rfl]
      rw [List.foldl_cons, find?_extends (prefix_foldl_insertNew _ vs) hfirst]
      rfl
    · exact ih hmem

/-! ## Rows put one after another -/

/-- Rows put one after another; of two rows with one key the later one stays. -/
def ofList (vs : List V) : Table key :=
  vs.foldl insert empty

theorem find?_foldl_insert (t : Table key) (vs : List V) (k : K) :
    (vs.foldl insert t).find? k = (vs.reverse.find? fun v => key v = k).or (t.find? k) := by
  induction vs generalizing t with
  | nil => rfl
  | cons v vs ih =>
    rw [List.foldl_cons, ih, List.reverse_cons, List.find?_append, Option.or_assoc, find?_insert]
    congr 1
    by_cases hk : key v = k
    · simp [hk]
    · simp [hk, Ne.symm hk]

theorem find?_ofList (vs : List V) (k : K) :
    (ofList vs : Table key).find? k = vs.reverse.find? fun v => key v = k := by
  rw [ofList, find?_foldl_insert, find?_empty, Option.or_none]

theorem mem_of_mem_ofList {vs : List V} {v : V} (h : v ∈ (ofList vs : Table key).rows) :
    v ∈ vs := by
  have hfound := find?_key h
  rw [find?_ofList] at hfound
  exact List.mem_reverse.mp (List.mem_of_find?_eq_some hfound)

theorem isSome_find?_ofList {vs : List V} {v : V} (h : v ∈ vs) :
    ((ofList vs : Table key).find? (key v)).isSome := by
  rw [find?_ofList, List.find?_isSome]
  exact ⟨v, List.mem_reverse.mpr h, decide_eq_true rfl⟩

/-- A row with a new key is put behind the others. -/
theorem rows_insert_of_none {t : Table key} {v : V} (h : t.find? (key v) = none) :
    (t.insert v).rows = t.rows ++ [v] := by
  have hsame : t.rows.map (fun u => if key u = key v then v else u) = t.rows := by
    refine (List.map_congr_left fun u hu => ?_).trans (List.map_id _)
    have hother : key u ≠ key v := fun hk => find?_eq_none_iff.mp h (hk ▸ List.mem_map_of_mem hu)
    rw [if_neg hother]
    rfl
  rw [insert, rows_insertNew_of_none]
  · rw [rows_mapRows, hsame]
  · rw [find?_mapRows, h, Option.map_none]

/-- A row whose key is taken takes the place of the one that was there. -/
theorem rows_insert_of_some {t : Table key} {u v : V} (h : t.find? (key v) = some u) :
    (t.insert v).rows = t.rows.map fun u => if key u = key v then v else u := by
  have hfound : (t.mapRows (fun u => if key u = key v then v else u) fun u => by
      by_cases h : key u = key v <;> simp [h]).find? (key v) = some v := by
    rw [find?_mapRows, h]
    simp [key_of_find? h]
  rw [insert, rows_insertNew_of_some hfound, rows_mapRows]

theorem map_key_insert_of_some {t : Table key} {u v : V} (h : t.find? (key v) = some u) :
    (t.insert v).rows.map key = t.rows.map key := by
  rw [rows_insert_of_some h, List.map_map]
  refine List.map_congr_left fun u _ => ?_
  by_cases hk : key u = key v <;> simp [hk]

/-- Rows with distinct keys stay as they are, -/
theorem rows_ofList {vs : List V} (hnodup : (vs.map key).Nodup) :
    (ofList vs : Table key).rows = vs := by
  suffices ∀ (t : Table key) (vs : List V), ((t.rows ++ vs).map key).Nodup →
      (vs.foldl insert t).rows = t.rows ++ vs from this empty vs hnodup
  intro t vs hnodup
  induction vs generalizing t with
  | nil => simp
  | cons v vs ih =>
    have hnew : t.find? (key v) = none := by
      rw [find?_eq_none_iff]
      intro hmem
      rw [List.map_append, List.nodup_append] at hnodup
      exact hnodup.2.2 _ hmem _ (List.mem_map_of_mem List.mem_cons_self) rfl
    have hrows := rows_insert_of_none hnew
    rw [List.foldl_cons, ih _ (by rw [hrows]; simpa using hnodup), hrows]
    simp

/-- and are found under their keys. -/
theorem find?_ofList_key {vs : List V} (hnodup : (vs.map key).Nodup) {v : V} (h : v ∈ vs) :
    (ofList vs : Table key).find? (key v) = some v := by
  rw [find?_ofList]
  cases hfound : vs.reverse.find? fun u => key u = key v with
  | none =>
    exact absurd (decide_eq_true rfl) (List.find?_eq_none.mp hfound v (List.mem_reverse.mpr h))
  | some u =>
    have hu := List.mem_reverse.mp (List.mem_of_find?_eq_some hfound)
    have hkey : key u = key v := by simpa using List.find?_some hfound
    rw [List.inj_on_of_nodup_map hnodup hu h hkey]

theorem mem_ofList {vs : List V} (hnodup : (vs.map key).Nodup) {v : V} :
    v ∈ (ofList vs : Table key).rows ↔ v ∈ vs :=
  ⟨mem_of_mem_ofList, fun h => mem_of_find? (find?_ofList_key hnodup h)⟩

omit [DecidableEq K] in
/-- Rows that come from the rows of another table have distinct keys, if the keys tell where they
come from. -/
theorem nodup_filterMap {U K' : Type} {key' : U → K'} (t : Table key) (f : V → Option U)
    (g : K → Option K') (hg : ∀ k k' b, b ∈ g k → b ∈ g k' → k = k')
    (hf : ∀ v, (f v).map key' = g (key v)) : ((t.rows.filterMap f).map key').Nodup := by
  have hkeys : (t.rows.filterMap f).map key' = (t.rows.map key).filterMap g := by
    rw [List.map_filterMap, List.filterMap_map]
    exact congrArg (List.filterMap · t.rows) (funext hf)
  rw [hkeys]
  exact t.nodup.filterMap hg

end Table

end Atomic
