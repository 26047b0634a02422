import Mathlib

/-!
# Pages of an ascending list

A list whose keys ascend is read a page at a time: from the start, the members after a key, or the last
ones before a key. A page is a stretch of the list, as long as it may be unless the list ends there
(`stretch_page`), so the page after a page leads back to it and the page before it leads forth again
(`previous_next`, `next_previous`). What keeps the pages together is that the key of a member cuts the
list at that member (`later_append`, `earlier_append`).
-/

namespace Paging

variable {α L : Type} [LinearOrder L]

/-- The keys ascend, and no two members have one key. -/
def Ascends (key : α → L) (l : List α) : Prop :=
  l.Pairwise fun a b => key a < key b

/-- Where a page starts, or ends. -/
inductive Cursor (L : Type)
  | start
  | after (key : L)
  | before (key : L)
deriving DecidableEq

def Cursor.after? : Cursor L → Option L
  | .after c => some c
  | .start | .before _ => none

def Cursor.before? : Cursor L → Option L
  | .before c => some c
  | .start | .after _ => none

section Defs

variable (key : α → L)

def later (c : L) (l : List α) : List α :=
  l.filter fun a => c < key a

def earlier (c : L) (l : List α) : List α :=
  l.filter fun a => key a < c

/-- The page of at most `n` members at a cursor. -/
def page (n : Nat) (l : List α) : Cursor L → List α
  | .start => l.take n
  | .after c => (later key c l).take n
  | .before c => (earlier key c l).rtake n

end Defs

variable {key : α → L} {l xs ys : List α} {a : α} {c : L} {n : Nat}

theorem Ascends.filter (h : Ascends key l) (p : α → Bool) : Ascends key (l.filter p) :=
  h.sublist List.filter_sublist

theorem Ascends.nodup (h : Ascends key l) : l.Nodup :=
  h.imp fun hlt hsame => absurd (congrArg key hsame) (ne_of_lt hlt)

/-! ## Cuts -/

theorem later_filter (p : α → Bool) : later key c (l.filter p) = (later key c l).filter p :=
  List.filter_comm _ _ _

theorem earlier_filter (p : α → Bool) : earlier key c (l.filter p) = (earlier key c l).filter p :=
  List.filter_comm _ _ _

/-- What comes after a member of the list. -/
theorem later_append (h : Ascends key (xs ++ a :: ys)) : later key (key a) (xs ++ a :: ys) = ys := by
  obtain ⟨-, hys, hxs⟩ := List.pairwise_append.mp h
  have hbefore : xs.filter (fun b => key a < key b) = [] := by
    apply List.filter_eq_nil_iff.mpr
    intro b hb
    simpa using (hxs b hb a List.mem_cons_self).le
  have hafter : ys.filter (fun b => key a < key b) = ys := by
    apply List.filter_eq_self.mpr
    intro b hb
    simpa using (List.pairwise_cons.mp hys).1 b hb
  rw [later, List.filter_append, hbefore, List.nil_append, List.filter_cons_of_neg (by simp), hafter]

/-- What comes before a member of the list. -/
theorem earlier_append (h : Ascends key (xs ++ a :: ys)) :
    earlier key (key a) (xs ++ a :: ys) = xs := by
  obtain ⟨-, hys, hxs⟩ := List.pairwise_append.mp h
  have hbefore : xs.filter (fun b => key b < key a) = xs := by
    apply List.filter_eq_self.mpr
    intro b hb
    simpa using hxs b hb a List.mem_cons_self
  have hafter : ys.filter (fun b => key b < key a) = [] := by
    apply List.filter_eq_nil_iff.mpr
    intro b hb
    simpa using ((List.pairwise_cons.mp hys).1 b hb).le
  rw [earlier, List.filter_append, hbefore, List.filter_cons_of_neg (by simp), hafter,
    List.append_nil]

theorem later_suffix (h : Ascends key l) (c : L) : later key c l <:+ l := by
  induction l with
  | nil => exact List.nil_suffix
  | cons a l ih =>
    obtain ⟨ha, hl⟩ := List.pairwise_cons.mp h
    by_cases hc : c < key a
    · have hall : later key c (a :: l) = a :: l := by
        apply List.filter_eq_self.mpr
        intro b hb
        rcases List.mem_cons.mp hb with rfl | hb
        · simpa using hc
        · simpa using hc.trans (ha b hb)
      exact hall.symm ▸ List.suffix_refl _
    · rw [later, List.filter_cons_of_neg (by simpa using hc)]
      exact (ih hl).trans (List.suffix_cons a l)

theorem earlier_prefix (h : Ascends key l) (c : L) : earlier key c l <+: l := by
  induction l with
  | nil => exact List.nil_prefix
  | cons a l ih =>
    obtain ⟨ha, hl⟩ := List.pairwise_cons.mp h
    by_cases hc : key a < c
    · rw [earlier, List.filter_cons_of_pos (by simpa using hc)]
      exact (List.prefix_cons_inj a).mpr (ih hl)
    · have hnone : earlier key c (a :: l) = [] := by
        apply List.filter_eq_nil_iff.mpr
        intro b hb
        rcases List.mem_cons.mp hb with rfl | hb
        · simpa using hc
        · simpa using (not_lt.mp hc).trans (ha b hb).le
      rw [hnone]
      exact List.nil_prefix

/-- The last member of a page cuts off what the page leaves of a rest. -/
theorem later_of_take (h : Ascends key l) {rest : List α} (hrest : rest <:+ l)
    (ha : (rest.take n).getLast? = some a) : later key (key a) l = rest.drop n := by
  obtain ⟨before, rfl⟩ := hrest
  obtain ⟨init, hinit⟩ := List.getLast?_eq_some_iff.mp ha
  have hsplit : before ++ rest = (before ++ init) ++ a :: rest.drop n := by
    conv_lhs => rw [← List.take_append_drop n rest, hinit]
    simp
  rw [hsplit] at h ⊢
  exact later_append h

/-- The first member of a page does so backwards. -/
theorem earlier_of_rtake (h : Ascends key l) {rest : List α} (hrest : rest <+: l)
    (ha : (rest.rtake n).head? = some a) : earlier key (key a) l = rest.rdrop n := by
  obtain ⟨after, rfl⟩ := hrest
  obtain ⟨tail, htail⟩ := List.head?_eq_some_iff.mp ha
  have hsplit : rest ++ after = rest.rdrop n ++ a :: (tail ++ after) := by
    have hrest : rest.rdrop n ++ rest.rtake n = rest := List.take_append_drop _ _
    rw [htail] at hrest
    conv_lhs => rw [← hrest]
    simp
  rw [hsplit] at h ⊢
  exact earlier_append h

/-! ## Pages -/

/-- A stretch of the list that is shorter than a page only where the list ends. -/
structure Stretch (n : Nat) (l part : List α) : Prop where
  split : ∃ xs ys, l = xs ++ part ++ ys ∧ (part.length < n → xs = [] ∨ ys = [])
  length_le : part.length ≤ n

theorem length_rtake (n : Nat) (l : List α) : (l.rtake n).length = min n l.length := by
  rw [List.rtake, List.length_drop]
  omega

theorem rtake_of_length_le (h : l.length ≤ n) : l.rtake n = l := by
  rw [List.rtake, Nat.sub_eq_zero_of_le h, List.drop_zero]

theorem rtake_append_of_le_length (h : n ≤ ys.length) : (xs ++ ys).rtake n = ys.rtake n := by
  have hlength : (xs ++ ys).length - n = xs.length + (ys.length - n) := by
    rw [List.length_append]
    omega
  rw [List.rtake, hlength, List.drop_append, List.drop_of_length_le (Nat.le_add_right _ _),
    List.nil_append, Nat.add_sub_cancel_left, List.rtake]

theorem stretch_page (h : Ascends key l) (cursor : Cursor L) : Stretch n l (page key n l cursor) := by
  have hforth : ∀ rest, rest <:+ l → Stretch n l (rest.take n) := by
    rintro rest ⟨before, rfl⟩
    refine ⟨⟨before, rest.drop n, by simp, fun hshort => .inr ?_⟩, List.length_take_le n rest⟩
    rw [List.length_take] at hshort
    exact List.drop_of_length_le (by omega)
  cases cursor with
  | start => exact hforth l List.suffix_rfl
  | after c => exact hforth _ (later_suffix h c)
  | before c =>
    obtain ⟨after, hafter⟩ := earlier_prefix h c
    have hsplit := List.take_append_drop ((earlier key c l).length - n) (earlier key c l)
    refine ⟨⟨(earlier key c l).rdrop n, after, ?_, fun hshort => .inl ?_⟩, ?_⟩
    · conv_lhs => rw [← hafter, ← hsplit]
      rfl
    · rw [page, length_rtake] at hshort
      rw [List.rdrop, show (earlier key c l).length - n = 0 by omega, List.take_zero]
    · rw [page, length_rtake]
      omega

theorem isEmpty_page_before (hn : 1 ≤ n) :
    (page key n l (.before c)).isEmpty = false ↔ ∃ a ∈ l, key a < c := by
  rw [List.isEmpty_eq_false_iff, ← List.length_pos_iff, page, length_rtake]
  constructor
  · intro hpos
    obtain ⟨a, ha⟩ := List.exists_mem_of_length_pos (l := earlier key c l) (by omega)
    obtain ⟨ha, hlt⟩ := List.mem_filter.mp ha
    exact ⟨a, ha, of_decide_eq_true hlt⟩
  · intro ⟨a, ha, hlt⟩
    have hmem : a ∈ earlier key c l := List.mem_filter.mpr ⟨ha, decide_eq_true hlt⟩
    have hpos := List.length_pos_of_mem hmem
    omega

theorem isEmpty_page_after (hn : 1 ≤ n) :
    (page key n l (.after c)).isEmpty = false ↔ ∃ a ∈ l, c < key a := by
  rw [List.isEmpty_eq_false_iff, ← List.length_pos_iff, page, List.length_take]
  constructor
  · intro hpos
    obtain ⟨a, ha⟩ := List.exists_mem_of_length_pos (l := later key c l) (by omega)
    obtain ⟨ha, hlt⟩ := List.mem_filter.mp ha
    exact ⟨a, ha, of_decide_eq_true hlt⟩
  · intro ⟨a, ha, hlt⟩
    have hmem : a ∈ later key c l := List.mem_filter.mpr ⟨ha, decide_eq_true hlt⟩
    have hpos := List.length_pos_of_mem hmem
    omega

section Neighbours

variable {part : List α} {first last : α}

/-- The page before the first member of the next page is the page itself. -/
theorem previous_next (h : Ascends key l) (hpart : Stretch n l part) (hlast : part.getLast? = some last)
    (hfirst : (page key n l (.after (key last))).head? = some first) :
    page key n l (.before (key first)) = part := by
  obtain ⟨xs, ys, hl, hends⟩ := hpart.split
  obtain ⟨init, hinit⟩ := List.getLast?_eq_some_iff.mp hlast
  have hl' : l = (xs ++ init) ++ last :: ys := by simp [hl, hinit]
  have hrest : later key (key last) l = ys := by
    rw [hl'] at h ⊢
    exact later_append h
  rw [page, hrest] at hfirst
  obtain ⟨tail, htail⟩ : ∃ tail, ys = first :: tail := by
    obtain ⟨tail, htail⟩ := List.head?_eq_some_iff.mp hfirst
    cases ys with
    | nil => simp at htail
    | cons b ys =>
      cases n with
      | zero => simp at htail
      | succ n => exact ⟨ys, congrArg (· :: ys) (List.cons.inj htail).1⟩
  rw [htail] at hl
  have hcut : earlier key (key first) l = xs ++ part := by
    rw [hl] at h ⊢
    exact earlier_append h
  rw [page, hcut, List.rtake, List.length_append]
  have hle := hpart.length_le
  by_cases hshort : part.length < n
  · obtain rfl : xs = [] := (hends hshort).resolve_right (by simp [htail])
    rw [List.nil_append, List.length_nil, show 0 + part.length - n = 0 by omega, List.drop_zero]
  · rw [show xs.length + part.length - n = xs.length by omega, List.drop_left]

/-- The page after the last member of the previous page is the page itself. -/
theorem next_previous (h : Ascends key l) (hpart : Stretch n l part) (hfirst : part.head? = some first)
    (hlast : (page key n l (.before (key first))).getLast? = some last) :
    page key n l (.after (key last)) = part := by
  obtain ⟨xs, ys, hl, hends⟩ := hpart.split
  obtain ⟨tail, htail⟩ := List.head?_eq_some_iff.mp hfirst
  have hl' : l = xs ++ first :: (tail ++ ys) := by simp [hl, htail]
  have hrest : earlier key (key first) l = xs := by
    rw [hl'] at h ⊢
    exact earlier_append h
  rw [page, hrest] at hlast
  obtain ⟨init, hinit⟩ : ∃ init, xs = init ++ [last] := by
    obtain ⟨init, hinit⟩ := List.getLast?_eq_some_iff.mp hlast
    refine ⟨xs.rdrop n ++ init, ?_⟩
    have hxs : xs.rdrop n ++ xs.rtake n = xs := List.take_append_drop _ _
    rw [hinit] at hxs
    simpa using hxs.symm
  have hl' : l = init ++ last :: (part ++ ys) := by simp [hl, hinit]
  have hcut : later key (key last) l = part ++ ys := by
    rw [hl'] at h ⊢
    exact later_append h
  rw [page, hcut]
  have hle := hpart.length_le
  by_cases hshort : part.length < n
  · obtain rfl : ys = [] := (hends hshort).resolve_left (by simp [hinit])
    rw [List.append_nil, List.take_of_length_le hle]
  · rw [List.take_append_of_le_length (by omega), List.take_of_length_le hle]

end Neighbours

end Paging
