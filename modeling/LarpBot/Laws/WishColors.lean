import LarpBot.Adapters.ShowcaseWorkbooks
import Mathlib

/-!
# The colours of the wishes

Two rows are linked if a chain of wishes leads from one to the other, each wish naming the next one or
being named by it. The rows that are linked have one colour, each of the ten largest groups its own
(`wish_colors`). The colours are kept by participant keys, so this is about rows with distinct keys, as
the rows of an event are; of two rows with one key both have the colour of the later one
(`shared_key_colors`).
-/

namespace LarpBot

open Atomic Components

/-- A chain of wishes. -/
abbrev WishLinked (casefold : String → String) (rows : List Registration) : Nat → Nat → Prop :=
  Linked (wishAdjacency casefold rows)

/-- A group that comes first: it is larger, or as large and has the first row. -/
def Ahead (group other : Finset Nat) : Prop :=
  other.card < group.card ∨ other.card = group.card ∧ ∃ v ∈ group, ∀ w ∈ other, v < w

section Colors

variable {casefold : String → String} {rows : List Registration}

theorem mem_wishAdjacency {i j : Nat} : j ∈ wishAdjacency casefold rows i ↔
    ∃ row other, rows[i]? = some row ∧ rows[j]? = some other ∧ j ≠ i ∧
      (mentions casefold row other || mentions casefold other row) = true := by
  unfold wishAdjacency
  cases hrow : rows[i]? with
  | none => simp
  | some row =>
    simp only [List.mem_filter, List.mem_range, Bool.and_eq_true, decide_eq_true_eq,
      Option.any_eq_true, Option.some.injEq]
    constructor
    · rintro ⟨-, hne, other, hother, hmention⟩
      exact ⟨row, other, rfl, hother, hne, hmention⟩
    · rintro ⟨_, other, rfl, hother, hne, hmention⟩
      exact ⟨(List.getElem?_eq_some_iff.mp hother).1, hne, other, hother, hmention⟩

theorem undirected_wishAdjacency (casefold : String → String) (rows : List Registration) :
    Undirected rows.length (wishAdjacency casefold rows) where
  below := by
    intro i j h
    obtain ⟨_, other, -, hother, -⟩ := mem_wishAdjacency.mp h
    exact (List.getElem?_eq_some_iff.mp hother).1
  symm := by
    intro i j h
    obtain ⟨row, other, hrow, hother, hne, hmention⟩ := mem_wishAdjacency.mp h
    refine mem_wishAdjacency.mpr ⟨other, row, hother, hrow, Ne.symm hne, ?_⟩
    rw [Bool.or_comm]
    exact hmention

/-- The components in the order in which the colours are dealt. -/
def rankedComponents (casefold : String → String) (rows : List Registration) : List (List Nat) :=
  sortBy componentRank (components (wishAdjacency casefold rows) rows.length)

theorem mem_rankedComponents {component : List Nat} : component ∈ rankedComponents casefold rows ↔
    component ∈ components (wishAdjacency casefold rows) rows.length :=
  mem_sortBy

/-- What the ranked components are: each is a group of linked rows, and they are apart. -/
theorem rankedComponents_disjoint (casefold : String → String) (rows : List Registration) :
    (rankedComponents casefold rows).Pairwise List.Disjoint :=
  (sortBy_perm _ _).pairwise_iff (fun h => h.symm) |>.mpr
    (components_disjoint (undirected_wishAdjacency _ _))

/-- A row is in one place of the ranking at most. -/
theorem place_unique {i k l : Nat} {first second : List Nat}
    (hfirst : (rankedComponents casefold rows)[k]? = some first) (hi : i ∈ first)
    (hsecond : (rankedComponents casefold rows)[l]? = some second) (hi' : i ∈ second) : k = l := by
  obtain ⟨hk, rfl⟩ := List.getElem?_eq_some_iff.mp hfirst
  obtain ⟨hl, rfl⟩ := List.getElem?_eq_some_iff.mp hsecond
  have hapart := List.pairwise_iff_getElem.mp (rankedComponents_disjoint casefold rows)
  rcases Nat.lt_trichotomy k l with hlt | heq | hlt
  · exact absurd hi' (hapart k l hk hl hlt hi)
  · exact heq
  · exact absurd hi (hapart l k hl hk hlt hi')

/-- The colours that are dealt, by the rows that have them. -/
theorem mem_playerComponentColors {key : ParticipantKey} {color : String} :
    (key, color) ∈ playerComponentColors casefold rows ↔
      ∃ (k : Nat) (component : List Nat) (i : Nat) (row : Registration),
        (rankedComponents casefold rows)[k]? = some component ∧ tableau10Colors[k]? = some color ∧
        i ∈ component ∧ rows[i]? = some row ∧ row.participantKey = key := by
  unfold playerComponentColors
  simp only [List.mem_flatMap, List.mem_filterMap, Option.map_eq_some_iff, Prod.mk.injEq]
  constructor
  · rintro ⟨⟨component, color'⟩, hmem, i, hi, row, hrow, hkey, rfl⟩
    obtain ⟨k, hk⟩ := List.mem_iff_getElem?.mp hmem
    obtain ⟨hcomponent, hcolor⟩ := List.getElem?_zip_eq_some.mp hk
    exact ⟨k, component, i, row, hcomponent, hcolor, hi, hrow, hkey⟩
  · intro ⟨k, component, i, row, hcomponent, hcolor, hi, hrow, hkey⟩
    have hk := List.getElem?_zip_eq_some (z := (component, color)) |>.mpr ⟨hcomponent, hcolor⟩
    exact ⟨(component, color), List.mem_of_getElem? hk, i, hi, row, hrow, hkey, rfl⟩

/-- The colour of a row is that of its place in the ranking. -/
theorem rowColor_eq_some (hkeys : (rows.map Registration.participantKey).Nodup)
    {i : Fin rows.length} {color : String} : rowColor casefold rows i = some color ↔
      ∃ (k : Nat) (component : List Nat), (rankedComponents casefold rows)[k]? = some component ∧
        tableau10Colors[k]? = some color ∧ (i : Nat) ∈ component := by
  have hrow : rows[(i : Nat)]? = some rows[i] := List.getElem?_eq_getElem i.isLt
  have hsame : ∀ (j : Nat) (row : Registration), rows[j]? = some row →
      row.participantKey = rows[i].participantKey → j = i := by
    intro j row hj hkey
    obtain ⟨hlt, rfl⟩ := List.getElem?_eq_some_iff.mp hj
    have hlt' : j < (rows.map Registration.participantKey).length := by simpa using hlt
    apply (List.getElem?_inj hlt' hkeys).mp
    rw [List.getElem?_map, List.getElem?_map, hj, hrow]
    exact congrArg some hkey
  constructor
  · intro h
    obtain ⟨k, component, j, row, hcomponent, hcolor, hj, hjrow, hkey⟩ :=
      mem_playerComponentColors.mp (Records.mem_of_field? h)
    obtain rfl := hsame j row hjrow hkey
    exact ⟨k, component, hcomponent, hcolor, hj⟩
  · rintro ⟨k, component, hcomponent, hcolor, hi⟩
    apply Records.field?_eq_some
    · exact mem_playerComponentColors.mpr ⟨k, component, i, rows[i], hcomponent, hcolor, hi, hrow, rfl⟩
    · intro other hother
      obtain ⟨l, second, j, row, hsecond, hother, hj, hjrow, hkey⟩ :=
        mem_playerComponentColors.mp hother
      obtain rfl := hsame j row hjrow hkey
      obtain rfl := place_unique hcomponent hi hsecond hj
      exact Option.some.inj (hother.symm.trans hcolor)

theorem tableau10Colors_nodup : tableau10Colors.Nodup := by decide

/-- A component before another one in the ranking comes ahead of it. -/
theorem ahead_of_rank {first second : List Nat} (hfirst : first ∈ rankedComponents casefold rows)
    (hsecond : second ∈ rankedComponents casefold rows) (hdisjoint : first.Disjoint second)
    (hrank : componentRank first ≤ componentRank second) :
    Ahead first.toFinset second.toFinset := by
  obtain ⟨hlength, hnodup⟩ :=
    nodup_of_mem_components (undirected_wishAdjacency _ _) (mem_rankedComponents.mp hfirst)
  have hnodup' :=
    (nodup_of_mem_components (undirected_wishAdjacency _ _) (mem_rankedComponents.mp hsecond)).2
  unfold Ahead
  rw [List.toFinset_card_of_nodup hnodup, List.toFinset_card_of_nodup hnodup']
  rcases Prod.Lex.toLex_le_toLex.mp hrank with hlt | ⟨heq, hmin⟩
  · left
    simp only at hlt
    omega
  · right
    simp only at heq hmin
    refine ⟨by omega, ?_⟩
    obtain ⟨v, hv⟩ : ∃ v, first.min? = some v := by
      cases hcase : first.min? with
      | none => rw [List.min?_eq_none_iff.mp hcase] at hlength; simp at hlength
      | some v => exact ⟨v, rfl⟩
    refine ⟨v, List.mem_toFinset.mpr (List.min?_mem hv), ?_⟩
    intro w hw
    have hw := List.mem_toFinset.mp hw
    obtain ⟨u, hu⟩ : ∃ u, second.min? = some u := by
      cases hcase : second.min? with
      | none => rw [List.min?_eq_none_iff.mp hcase] at hw; simp at hw
      | some u => exact ⟨u, rfl⟩
    have hle := (List.min?_eq_some_iff.mp hu).2 w hw
    have hne : v ≠ w := fun hsame => hdisjoint (List.min?_mem hv) (hsame ▸ hw)
    rw [hv, hu] at hmin
    simp only [Option.getD_some] at hmin
    omega

theorem isSome_rowColor (hkeys : (rows.map Registration.participantKey).Nodup)
    (i : Fin rows.length) : (rowColor casefold rows i).isSome = true ↔
      ∃ component ∈ (rankedComponents casefold rows).take 10, (i : Nat) ∈ component := by
  constructor
  · intro h
    obtain ⟨color, hcolor⟩ := Option.isSome_iff_exists.mp h
    obtain ⟨k, component, hcomponent, hcolor, hi⟩ := (rowColor_eq_some hkeys).mp hcolor
    have hk : k < 10 := (List.getElem?_eq_some_iff.mp hcolor).1
    refine ⟨component, List.mem_iff_getElem?.mpr ⟨k, ?_⟩, hi⟩
    rw [List.getElem?_take, if_pos hk]
    exact hcomponent
  · intro ⟨component, hmem, hi⟩
    obtain ⟨k, hk⟩ := List.mem_iff_getElem?.mp hmem
    rw [List.getElem?_take] at hk
    by_cases hlt : k < 10
    · rw [if_pos hlt] at hk
      have hcolor : tableau10Colors[k]? = some tableau10Colors[k] := List.getElem?_eq_getElem hlt
      rw [(rowColor_eq_some hkeys).mpr ⟨k, component, hk, hcolor, hi⟩]
      rfl
    · rw [if_neg hlt] at hk
      exact absurd hk.symm (Option.some_ne_none component)

/-- The ranking, as sets of rows. -/
theorem ranking_spec :
    (∀ group : Finset Nat,
      group ∈ (rankedComponents casefold rows).map List.toFinset ↔
        1 < group.card ∧ ∃ i : Fin rows.length, ∀ v, v ∈ group ↔ WishLinked casefold rows i v) ∧
    ((rankedComponents casefold rows).map List.toFinset).Pairwise Ahead := by
  have hgraph := undirected_wishAdjacency casefold rows
  constructor
  · intro group
    rw [List.mem_map]
    constructor
    · rintro ⟨component, hmem, rfl⟩
      have hcomponent := mem_rankedComponents.mp hmem
      obtain ⟨hlength, hnodup⟩ := nodup_of_mem_components hgraph hcomponent
      rw [List.toFinset_card_of_nodup hnodup]
      obtain ⟨i, hi⟩ := List.exists_mem_of_length_pos (Nat.zero_lt_of_lt hlength)
      refine ⟨hlength, ⟨i, lt_of_mem_components hgraph hcomponent hi⟩, fun v => ?_⟩
      rw [List.mem_toFinset]
      exact mem_component_iff hgraph hcomponent hi v
    · intro ⟨hcard, i, hlinked⟩
      obtain ⟨j, hj, hother⟩ := Finset.exists_mem_ne hcard i
      obtain ⟨component, hmem, hi⟩ :=
        exists_mem_components hgraph i.isLt hother ((hlinked j).mp hj)
      refine ⟨component, mem_rankedComponents.mpr hmem, ?_⟩
      ext v
      rw [List.mem_toFinset, hlinked, mem_component_iff hgraph hmem hi]
  · rw [List.pairwise_map]
    have hrank := sortBy_pairwise componentRank
      (components (wishAdjacency casefold rows) rows.length)
    refine (hrank.and (rankedComponents_disjoint casefold rows)).imp_of_mem ?_
    intro first second hfirst hsecond ⟨hle, hdisjoint⟩
    exact ahead_of_rank hfirst hsecond hdisjoint hle

/-- The colours of rows with distinct keys: a colour is that of all the rows that are linked with one of
its rows and of no others, these are at least two, and the coloured rows are those of the ten groups
that come first. -/
theorem wish_colors (casefold : String → String) (rows : List Registration)
    (hkeys : (rows.map Registration.participantKey).Nodup) :
    (∀ (i : Fin rows.length) (color : String), rowColor casefold rows i = some color →
      (∀ j : Fin rows.length, rowColor casefold rows j = some color ↔ WishLinked casefold rows i j) ∧
      ∃ j : Fin rows.length, j ≠ i ∧ WishLinked casefold rows i j) ∧
    ∃ ranking : List (Finset Nat),
      (∀ group, group ∈ ranking ↔
        1 < group.card ∧ ∃ i : Fin rows.length, ∀ v, v ∈ group ↔ WishLinked casefold rows i v) ∧
      ranking.Pairwise Ahead ∧
      ∀ i : Fin rows.length, (rowColor casefold rows i).isSome = true ↔
        ∃ group ∈ ranking.take 10, (i : Nat) ∈ group := by
  have hgraph := undirected_wishAdjacency casefold rows
  constructor
  · intro i color hcolor
    obtain ⟨k, component, hplace, hdealt, hi⟩ := (rowColor_eq_some hkeys).mp hcolor
    have hmem := mem_rankedComponents.mp (List.mem_of_getElem? hplace)
    have hlinked : ∀ v, v ∈ component ↔ WishLinked casefold rows i v :=
      mem_component_iff hgraph hmem hi
    constructor
    · intro j
      rw [rowColor_eq_some hkeys, ← hlinked]
      constructor
      · intro ⟨l, other, hother, hdealt', hj⟩
        have hk : k < tableau10Colors.length := (List.getElem?_eq_some_iff.mp hdealt).1
        obtain rfl := (List.getElem?_inj hk tableau10Colors_nodup).mp (hdealt.trans hdealt'.symm)
        obtain rfl := Option.some.inj (hplace.symm.trans hother)
        exact hj
      · exact fun hj => ⟨k, component, hplace, hdealt, hj⟩
    · obtain ⟨hlength, hnodup⟩ := nodup_of_mem_components hgraph hmem
      rw [← List.toFinset_card_of_nodup hnodup] at hlength
      obtain ⟨j, hj, hother⟩ := Finset.exists_mem_ne hlength i
      have hj := (hlinked j).mp (List.mem_toFinset.mp hj)
      exact ⟨⟨j, lt_of_linked hgraph i.isLt hj⟩, fun hsame => hother (congrArg Fin.val hsame), hj⟩
  · refine ⟨(rankedComponents casefold rows).map List.toFinset, ranking_spec.1, ranking_spec.2, ?_⟩
    intro i
    rw [isSome_rowColor hkeys, ← List.map_take]
    simp only [List.mem_map, exists_exists_and_eq_and, List.mem_toFinset]

end Colors

/-! ## Rows with one key -/

/-- A row of a roster, with a wish. -/
def wishingRow (participantKey displayName wishPlay : String) : Registration where
  eventId := "game"
  participantKey := participantKey
  displayName := displayName
  wishPlay := wishPlay

/-- What `str.casefold` does to letters of the alphabet of the computer. -/
def lowered (value : String) : String :=
  String.ofList (value.toList.map Char.toLower)

def twoWishes : List Registration :=
  [wishingRow "a" "Petrova Anna" "Orlov Ivan", wishingRow "b" "Orlov Ivan" "",
    wishingRow "c" "Belov Oleg" ""]

theorem wish_colors_twoWishes :
    (rowColor lowered twoWishes (1 : Fin 3) = some "4E79A7" ↔ WishLinked lowered twoWishes 0 1) ∧
      (rowColor lowered twoWishes (2 : Fin 3) = some "4E79A7" ↔ WishLinked lowered twoWishes 0 2) := by
  have hcolor := (wish_colors lowered twoWishes (by decide)).1 (0 : Fin 3) "4E79A7" (by decide +kernel)
  exact ⟨hcolor.1 (1 : Fin 3), hcolor.1 (2 : Fin 3)⟩

def sharedKey : List Registration :=
  [wishingRow "a" "Petrova Anna" "Orlov Ivan", wishingRow "b" "Orlov Ivan" "",
    wishingRow "a" "Belov Oleg" "Serov Petr", wishingRow "d" "Serov Petr" ""]

/-- The first row is linked with the second one and has the colour of the third one. -/
theorem shared_key_colors :
    ¬ ∀ (casefold : String → String) (rows : List Registration) (i j : Fin rows.length)
      (color : String), rowColor casefold rows i = some color →
      (rowColor casefold rows j = some color ↔ WishLinked casefold rows i j) := by
  intro h
  have hcolor : rowColor lowered sharedKey (0 : Fin 4) = some "F28E2B" := by decide +kernel
  have hother : rowColor lowered sharedKey (1 : Fin 4) = some "4E79A7" := by decide +kernel
  have hlinked : WishLinked lowered sharedKey 0 1 := .single (by decide +kernel)
  have hsame := (h lowered sharedKey (0 : Fin 4) (1 : Fin 4) "F28E2B" hcolor).mpr hlinked
  rw [hother] at hsame
  exact absurd hsame (by decide)

end LarpBot
