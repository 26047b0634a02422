import LarpBot.Foundation.Ranking
import Mathlib

/-!
# Components of a graph

The vertices are the numbers below `n`, and `adjacent` lists the neighbours of each one. A search keeps
a stack of the vertices that it has found and not looked at yet. What was found before it is closed
under neighbours, so a search that starts outside finds all that is linked with its start
(`mem_explore`), and the searches from all vertices in turn find every component of at least two
vertices once (`exists_mem_components`, `components_disjoint`).
-/

namespace Components

/-- There is a path from one vertex to the other. -/
def Linked (adjacent : Nat → List Nat) : Nat → Nat → Prop :=
  Relation.ReflTransGen fun v w => w ∈ adjacent v

/-- The neighbours are vertices, and neighbours of their neighbours. -/
structure Undirected (n : Nat) (adjacent : Nat → List Nat) : Prop where
  below : ∀ v w, w ∈ adjacent v → w < n
  symm : ∀ v w, w ∈ adjacent v → v ∈ adjacent w

/-- The neighbours that were not found yet are found and put on the stack. -/
def push (visited stack : List Nat) : List Nat → List Nat × List Nat
  | [] => (visited, stack)
  | v :: vs => if v ∈ visited then push visited stack vs else push (v :: visited) (v :: stack) vs

section Search

variable (adjacent : Nat → List Nat)

/-- The search, with the component that it collects and the vertices that were found. -/
def explore : Nat → List Nat → List Nat → List Nat → List Nat × List Nat
  | 0, _, visited, component => (component, visited)
  | _ + 1, [], visited, component => (component, visited)
  | fuel + 1, current :: stack, visited, component =>
    let pushed := push visited stack (adjacent current)
    explore fuel pushed.2 pushed.1 (component ++ [current])

/-- A search from each vertex that was not found before, for the components of at least two. -/
def scan (n : Nat) : List Nat → List Nat → List (List Nat)
  | [], _ => []
  | start :: starts, visited =>
    if start ∈ visited then scan n starts visited
    else
      let found := explore adjacent n [start] (start :: visited) []
      if 1 < found.1.length then found.1 :: scan n starts found.2 else scan n starts found.2

def components (n : Nat) : List (List Nat) :=
  scan adjacent n (List.range n) []

end Search

variable {n : Nat} {adjacent : Nat → List Nat}

theorem Linked.symm (h : Undirected n adjacent) {v w : Nat} (hlinked : Linked adjacent v w) :
    Linked adjacent w v := by
  induction hlinked with
  | refl => exact .refl
  | tail _ hstep ih => exact .head (h.symm _ _ hstep) ih

/-! ## One search -/

theorem push_eq (visited stack vs : List Nat) :
    ∃ new, push visited stack vs = (new ++ visited, new ++ stack) ∧ new.Nodup ∧
      (∀ v ∈ new, v ∉ visited ∧ v ∈ vs) ∧ ∀ v ∈ vs, v ∈ new ++ visited := by
  induction vs generalizing visited stack with
  | nil => exact ⟨[], rfl, List.nodup_nil, by simp, by simp⟩
  | cons v vs ih =>
    by_cases hv : v ∈ visited
    · obtain ⟨new, hpush, hnodup, hnew, hall⟩ := ih visited stack
      refine ⟨new, by rw [push, if_pos hv, hpush], hnodup, ?_, ?_⟩
      · intro w hw
        exact ⟨(hnew w hw).1, List.mem_cons_of_mem v (hnew w hw).2⟩
      · intro w hw
        rcases List.mem_cons.mp hw with rfl | hw
        · exact List.mem_append_right new hv
        · exact hall w hw
    · obtain ⟨new, hpush, hnodup, hnew, hall⟩ := ih (v :: visited) (v :: stack)
      have hfresh : v ∉ new := fun hmem => (hnew v hmem).1 List.mem_cons_self
      refine ⟨new ++ [v], by rw [push, if_neg hv, hpush]; simp, ?_, ?_, ?_⟩
      · rw [List.nodup_append]
        exact ⟨hnodup, List.nodup_singleton v, by grind⟩
      · grind
      · grind

/-- A search from a start: what was found is what was found before, what is collected and what is on
the stack; the last two are linked with the start, and the neighbours of the collected are found. -/
structure Searching (n : Nat) (adjacent : Nat → List Nat) (start : Nat)
    (before stack visited component : List Nat) : Prop where
  found : ∀ v, v ∈ visited ↔ v ∈ before ∨ v ∈ component ++ stack
  nodup : (component ++ stack).Nodup
  new : ∀ v ∈ component ++ stack, v ∉ before
  linked : ∀ v ∈ component ++ stack, v < n ∧ Linked adjacent start v
  closed : ∀ v ∈ component, ∀ w ∈ adjacent v, w ∈ visited
  start : start ∈ component ++ stack

theorem Searching.step (h : Undirected n adjacent) {start current : Nat}
    {before stack visited component : List Nat}
    (hs : Searching n adjacent start before (current :: stack) visited component) :
    Searching n adjacent start before (push visited stack (adjacent current)).2
      (push visited stack (adjacent current)).1 (component ++ [current]) := by
  obtain ⟨new, hpush, hnodup, hnew, hall⟩ := push_eq visited stack (adjacent current)
  rw [hpush]
  have hcurrent := hs.linked current (by simp)
  have hfound := hs.found
  have hold := hs.nodup
  constructor
  · intro v
    rw [List.mem_append, hfound]
    simp only [List.mem_append, List.mem_cons, List.not_mem_nil, or_false]
    tauto
  · have hapart : ∀ v ∈ new, v ∉ component ++ current :: stack := fun v hv hmem =>
      (hnew v hv).1 ((hfound v).mpr (.inr hmem))
    grind
  · intro v hv
    by_cases hmem : v ∈ new
    · exact fun hbefore => (hnew v hmem).1 ((hfound v).mpr (.inl hbefore))
    · refine hs.new v ?_
      simp only [List.mem_append, List.mem_cons, List.not_mem_nil, or_false] at hv ⊢
      tauto
  · intro v hv
    by_cases hmem : v ∈ new
    · exact ⟨h.below current v (hnew v hmem).2, hcurrent.2.tail (hnew v hmem).2⟩
    · refine hs.linked v ?_
      simp only [List.mem_append, List.mem_cons, List.not_mem_nil, or_false] at hv ⊢
      tauto
  · intro v hv w hw
    rcases List.mem_append.mp hv with hv | hv
    · exact List.mem_append_right new (hs.closed v hv w hw)
    · obtain rfl := List.mem_singleton.mp hv
      exact hall w hw
  · have hstart := hs.start
    simp only [List.mem_append, List.mem_cons, List.not_mem_nil, or_false] at hstart ⊢
    tauto

/-- A search ends with an empty stack: it looks at each vertex once. -/
theorem explore_searching (h : Undirected n adjacent) {start fuel : Nat}
    {before stack visited component : List Nat}
    (hs : Searching n adjacent start before stack visited component)
    (hfuel : n ≤ fuel + component.length) :
    Searching n adjacent start before [] (explore adjacent fuel stack visited component).2
      (explore adjacent fuel stack visited component).1 := by
  induction fuel generalizing stack visited component with
  | zero =>
    have hlength : (component ++ stack).length ≤ n := by
      have hsubset : component ++ stack ⊆ List.range n :=
        fun v hv => List.mem_range.mpr (hs.linked v hv).1
      have hle := (hs.nodup.subperm hsubset).length_le
      rwa [List.length_range] at hle
    have hempty : stack = [] := by
      rw [List.length_append] at hlength
      exact List.length_eq_zero_iff.mp (by omega)
    rw [hempty] at hs
    exact hs
  | succ fuel ih =>
    cases stack with
    | nil => exact hs
    | cons current stack =>
      apply ih (hs.step h)
      rw [List.length_append, List.length_singleton]
      omega

/-- What a set of vertices found before has been: closed under neighbours. -/
def Closed (adjacent : Nat → List Nat) (visited : List Nat) : Prop :=
  ∀ v ∈ visited, ∀ w ∈ adjacent v, w ∈ visited

section Explore

variable {start : Nat} {before : List Nat}

theorem searching_start (hstart : start < n) (hnew : start ∉ before) :
    Searching n adjacent start before [start] (start :: before) [] where
  found := by simp [or_comm]
  nodup := by simp
  new := by simpa using hnew
  linked := by simpa using ⟨hstart, .refl⟩
  closed := by simp
  start := by simp

theorem explore_start (h : Undirected n adjacent) (hstart : start < n) (hnew : start ∉ before) :
    Searching n adjacent start before [] (explore adjacent n [start] (start :: before) []).2
      (explore adjacent n [start] (start :: before) []).1 :=
  explore_searching h (searching_start hstart hnew) (by simp)

/-- A search outside a closed set finds what is linked with its start. -/
theorem mem_explore (h : Undirected n adjacent) (hclosed : Closed adjacent before)
    (hstart : start < n) (hnew : start ∉ before) {v : Nat} :
    v ∈ (explore adjacent n [start] (start :: before) []).1 ↔ Linked adjacent start v := by
  have hs := explore_start h hstart hnew
  have hcomponent := hs.new
  have hstart' := hs.start
  rw [List.append_nil] at hcomponent hstart'
  constructor
  · intro hv
    exact (hs.linked v (by simpa using hv)).2
  · intro hlinked
    induction hlinked with
    | refl => exact hstart'
    | tail _ hstep ih =>
      rcases (hs.found _).mp (hs.closed _ ih _ hstep) with hbefore | hmem
      · exact absurd (hclosed _ hbefore _ (h.symm _ _ hstep)) (hcomponent _ ih)
      · simpa using hmem

theorem closed_explore (h : Undirected n adjacent) (hclosed : Closed adjacent before)
    (hstart : start < n) (hnew : start ∉ before) :
    Closed adjacent (explore adjacent n [start] (start :: before) []).2 := by
  have hs := explore_start h hstart hnew
  intro v hv w hw
  rcases (hs.found v).mp hv with hbefore | hmem
  · exact (hs.found w).mpr (.inl (hclosed v hbefore w hw))
  · exact hs.closed v (by simpa using hmem) w hw

end Explore

/-! ## All searches -/

theorem one_lt_length {vs : List Nat} {v w : Nat} (hv : v ∈ vs) (hw : w ∈ vs) (h : w ≠ v) :
    1 < vs.length := by
  match vs with
  | [] => exact absurd hv List.not_mem_nil
  | [u] => exact absurd ((List.mem_singleton.mp hw).trans (List.mem_singleton.mp hv).symm) h
  | _ :: _ :: _ => simp

/-- What the searches from some starts find, after others: each component is the vertices that are
linked with a start that was not found before, -/
theorem scan_spec (h : Undirected n adjacent) {starts visited : List Nat}
    (hclosed : Closed adjacent visited) (hstarts : ∀ start ∈ starts, start < n) :
    (∀ component ∈ scan adjacent n starts visited, 1 < component.length ∧ component.Nodup ∧
      ∃ start, start < n ∧ start ∉ visited ∧ ∀ v, v ∈ component ↔ Linked adjacent start v) ∧
    (scan adjacent n starts visited).Pairwise List.Disjoint ∧
    ∀ start ∈ starts, start ∉ visited → (∃ w, w ≠ start ∧ Linked adjacent start w) →
      ∃ component ∈ scan adjacent n starts visited, start ∈ component := by
  induction starts generalizing visited with
  | nil => exact ⟨by simp [scan], List.Pairwise.nil, by simp⟩
  | cons start starts ih =>
    have hrest := fun s hs => hstarts s (List.mem_cons_of_mem start hs)
    by_cases hfound : start ∈ visited
    · obtain ⟨hcomponents, hdisjoint, hall⟩ := ih hclosed hrest
      rw [scan, if_pos hfound]
      refine ⟨hcomponents, hdisjoint, fun s hs hnew => hall s ?_ hnew⟩
      exact (List.mem_cons.mp hs).resolve_left fun hsame => hnew (hsame ▸ hfound)
    · have hstart := hstarts start List.mem_cons_self
      have hs := explore_start h hstart hfound
      have hmem := fun v => mem_explore h hclosed hstart hfound (v := v)
      have hclosed' := closed_explore h hclosed hstart hfound
      rw [scan, if_neg hfound]
      dsimp only
      generalize explore adjacent n [start] (start :: visited) [] = found at hs hmem hclosed'
      obtain ⟨component, visited'⟩ := found
      dsimp only at hs hmem hclosed' ⊢
      have hnodup : component.Nodup := by simpa using hs.nodup
      have hvisited : ∀ v, v ∈ visited' ↔ v ∈ visited ∨ v ∈ component := by
        intro v
        rw [hs.found, List.append_nil]
      obtain ⟨hcomponents, hdisjoint, hall⟩ := ih hclosed' hrest
      have hself : start ∈ component := (hmem start).mpr .refl
      have hothers : ∀ other ∈ scan adjacent n starts visited', 1 < other.length ∧ other.Nodup ∧
          ∃ s, s < n ∧ s ∉ visited ∧ ∀ v, v ∈ other ↔ Linked adjacent s v := by
        intro other hother
        obtain ⟨hlength, hother, s, hs, hnew, hlinked⟩ := hcomponents other hother
        exact ⟨hlength, hother, s, hs, fun hold => hnew ((hvisited s).mpr (.inl hold)), hlinked⟩
      have hapart : ∀ other ∈ scan adjacent n starts visited', component.Disjoint other := by
        intro other hother v hv hv'
        obtain ⟨-, -, s, -, hnew, hlinked⟩ := hcomponents other hother
        have hjoined : Linked adjacent start s :=
          ((hmem v).mp hv).trans (((hlinked v).mp hv').symm h)
        exact hnew ((hvisited s).mpr (.inr ((hmem s).mpr hjoined)))
      by_cases hlength : 1 < component.length
      · rw [if_pos hlength]
        refine ⟨?_, List.pairwise_cons.mpr ⟨hapart, hdisjoint⟩, ?_⟩
        · intro other hother
          rcases List.mem_cons.mp hother with rfl | hother
          · exact ⟨hlength, hnodup, start, hstart, hfound, hmem⟩
          · exact hothers other hother
        · intro s hs hnew hlinked
          by_cases hin : s ∈ component
          · exact ⟨component, List.mem_cons_self, hin⟩
          · have hmore : s ∈ starts :=
              (List.mem_cons.mp hs).resolve_left fun hsame => hin (hsame ▸ hself)
            obtain ⟨other, hother, hmem'⟩ := hall s hmore
              (fun hold => ((hvisited s).mp hold).elim hnew hin) hlinked
            exact ⟨other, List.mem_cons_of_mem component hother, hmem'⟩
      · rw [if_neg hlength]
        refine ⟨hothers, hdisjoint, ?_⟩
        intro s hs hnew ⟨w, hother, hlinked⟩
        have hlone : s ∉ component := by
          intro hin
          have hw : w ∈ component := (hmem w).mpr (((hmem s).mp hin).trans hlinked)
          exact hlength (one_lt_length hin hw hother)
        have hmore : s ∈ starts :=
          (List.mem_cons.mp hs).resolve_left fun hsame => hlone (hsame ▸ hself)
        exact hall s hmore (fun hold => ((hvisited s).mp hold).elim hnew hlone) ⟨w, hother, hlinked⟩

section Found

variable {component : List Nat}

theorem closed_nil : Closed adjacent [] :=
  fun _ hv => absurd hv List.not_mem_nil

/-- Each component has at least two vertices, once each. -/
theorem nodup_of_mem_components (h : Undirected n adjacent) (hc : component ∈ components adjacent n) :
    1 < component.length ∧ component.Nodup := by
  obtain ⟨hlength, hnodup, -⟩ :=
    (scan_spec h closed_nil fun _ => List.mem_range.mp).1 component hc
  exact ⟨hlength, hnodup⟩

theorem lt_of_linked (h : Undirected n adjacent) {v w : Nat} (hv : v < n) (hlinked : Linked adjacent v w) :
    w < n := by
  cases hlinked with
  | refl => exact hv
  | tail _ hstep => exact h.below _ _ hstep

theorem lt_of_mem_components (h : Undirected n adjacent) (hc : component ∈ components adjacent n)
    {v : Nat} (hv : v ∈ component) : v < n := by
  obtain ⟨-, -, start, hstart, -, hmem⟩ :=
    (scan_spec h closed_nil fun _ => List.mem_range.mp).1 component hc
  exact lt_of_linked h hstart ((hmem v).mp hv)

/-- A component is all that is linked with one of its vertices. -/
theorem mem_component_iff (h : Undirected n adjacent) (hc : component ∈ components adjacent n) {v : Nat}
    (hv : v ∈ component) (w : Nat) : w ∈ component ↔ Linked adjacent v w := by
  obtain ⟨-, -, start, -, -, hmem⟩ :=
    (scan_spec h closed_nil fun _ => List.mem_range.mp).1 component hc
  have hstart := (hmem v).mp hv
  rw [hmem]
  exact ⟨fun hw => (hstart.symm h).trans hw, fun hw => hstart.trans hw⟩

/-- A vertex that is linked with another one is in a component. -/
theorem exists_mem_components (h : Undirected n adjacent) {v w : Nat} (hv : v < n) (hother : w ≠ v)
    (hlinked : Linked adjacent v w) : ∃ component ∈ components adjacent n, v ∈ component :=
  (scan_spec h closed_nil fun _ => List.mem_range.mp).2.2 v (List.mem_range.mpr hv)
    List.not_mem_nil ⟨w, hother, hlinked⟩

theorem components_disjoint (h : Undirected n adjacent) :
    (components adjacent n).Pairwise List.Disjoint :=
  (scan_spec h closed_nil fun _ => List.mem_range.mp).2.1

end Found

end Components
