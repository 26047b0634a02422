import Mathlib

/-!
# Ranking a list by a key

`sortBy f l` is `l` in the order of `f`. Where `f` tells the members of `l` apart, the order of `l`
itself does not matter: the sorted list is the only arrangement of its members that ascends
(`sortBy_unique`), so a filter, a map or another presentation of the same members commutes with
sorting. Everything a queue needs is read off from that: the place of a member is the number of the
members before it (`findIdx?_sortBy`), and a new key makes two members trade their places exactly if
each compares to the others as the other one did (`sortBy_eq_map_swap`).
-/

namespace Atomic

variable {α β L : Type}

section Ranks

variable {f : α → L} {l l' : List α}

/-- The key tells the members of the list apart. -/
def Ranks (f : α → L) (l : List α) : Prop :=
  ∀ a ∈ l, ∀ b ∈ l, f a = f b → a = b

theorem Ranks.subset (h : Ranks f l) (hs : l' ⊆ l) : Ranks f l' :=
  fun a ha b hb => h a (hs ha) b (hs hb)

theorem Ranks.filter (h : Ranks f l) (p : α → Bool) : Ranks f (l.filter p) :=
  h.subset List.filter_sublist.subset

end Ranks

variable [LinearOrder L]

/-- The list in the order of the key. -/
def sortBy (f : α → L) (l : List α) : List α :=
  l.insertionSort fun a b => f a ≤ f b

section SortBy

variable {f g : α → L} {l l' : List α}

instance byKey_total (f : α → L) : Std.Total fun a b => f a ≤ f b :=
  ⟨fun a b => le_total (f a) (f b)⟩

instance byKey_trans (f : α → L) : IsTrans α fun a b => f a ≤ f b :=
  ⟨fun _ _ _ => le_trans⟩

theorem sortBy_perm (f : α → L) (l : List α) : (sortBy f l).Perm l :=
  List.perm_insertionSort _ l

theorem sortBy_pairwise (f : α → L) (l : List α) : (sortBy f l).Pairwise fun a b => f a ≤ f b :=
  List.pairwise_insertionSort _ l

@[simp] theorem mem_sortBy {a : α} : a ∈ sortBy f l ↔ a ∈ l :=
  (sortBy_perm f l).mem_iff

@[simp] theorem length_sortBy : (sortBy f l).length = l.length :=
  (sortBy_perm f l).length_eq

theorem nodup_sortBy : (sortBy f l).Nodup ↔ l.Nodup :=
  (sortBy_perm f l).nodup_iff

@[simp] theorem sortBy_nil : sortBy f [] = [] := rfl

/-- An ascending arrangement of the members is the sorted list. -/
theorem sortBy_unique (h : Ranks f l) (hp : l'.Perm l) (hs : l'.Pairwise fun a b => f a ≤ f b) :
    l' = sortBy f l := by
  refine List.Perm.eq_of_pairwise (fun a b ha hb hab hba => ?_) hs (sortBy_pairwise f l)
    (hp.trans (sortBy_perm f l).symm)
  exact h a (hp.mem_iff.mp ha) b (mem_sortBy.mp hb) (le_antisymm hab hba)

theorem sortBy_eq_of_perm (h : Ranks f l) (hp : l'.Perm l) : sortBy f l' = sortBy f l :=
  sortBy_unique h ((sortBy_perm f l').trans hp) (sortBy_pairwise f l')

theorem filter_sortBy (h : Ranks f l) (p : α → Bool) :
    (sortBy f l).filter p = sortBy f (l.filter p) :=
  sortBy_unique (h.filter p) ((sortBy_perm f l).filter p)
    ((sortBy_pairwise f l).sublist List.filter_sublist)

theorem sortBy_of_pairwise (h : l.Pairwise fun a b => f a ≤ f b) : sortBy f l = l :=
  h.insertionSort_eq

/-- Sorting rewritten rows by `g` is rewriting the rows sorted by what `g` sees of them. -/
theorem sortBy_map {g : β → L} (e : α → β) (l : List α) :
    sortBy g (l.map e) = (sortBy (fun a => g (e a)) l).map e :=
  (List.map_insertionSort _ _ e l fun _ _ _ _ => Iff.rfl).symm

/-- Members of one rank keep their order. -/
theorem filter_sortBy_of_const {p : α → Bool} (h : ∀ a ∈ l, ∀ b ∈ l, p a = true → p b = true → f a = f b) :
    (sortBy f l).filter p = l.filter p := by
  have hlevel : (l.filter p).Pairwise fun a b => f a ≤ f b := by
    rw [List.pairwise_iff_getElem]
    intro i j hi hj _
    obtain ⟨ha, hpa⟩ := List.mem_filter.mp (List.getElem_mem hi)
    obtain ⟨hb, hpb⟩ := List.mem_filter.mp (List.getElem_mem hj)
    exact (h _ ha _ hb hpa hpb).le
  have hsub := (List.sublist_insertionSort hlevel List.filter_sublist).filter p
  rw [List.filter_filter] at hsub
  simp only [Bool.and_self] at hsub
  exact (hsub.eq_of_length ((sortBy_perm f l).filter p).length_eq.symm).symm

end SortBy

/-! ## Trades -/

section Trades

variable [DecidableEq α] {f g : α → L} {l : List α} {p d : α}

theorem swap_mem (hp : p ∈ l) (hd : d ∈ l) {a : α} (ha : a ∈ l) : Equiv.swap p d a ∈ l := by
  by_cases hap : a = p
  · rw [hap, Equiv.swap_apply_left]
    exact hd
  · by_cases had : a = d
    · rw [had, Equiv.swap_apply_right]
      exact hp
    · rw [Equiv.swap_apply_of_ne_of_ne hap had]
      exact ha

theorem map_swap_perm (hl : l.Nodup) (hp : p ∈ l) (hd : d ∈ l) :
    (l.map (Equiv.swap p d)).Perm l := by
  apply (List.perm_ext_iff_of_nodup (hl.map (Equiv.swap p d).injective) hl).mpr
  intro a
  constructor
  · intro ha
    obtain ⟨b, hb, rfl⟩ := List.mem_map.mp ha
    exact swap_mem hp hd hb
  · intro ha
    exact List.mem_map.mpr ⟨Equiv.swap p d a, swap_mem hp hd ha, Equiv.swap_apply_self p d a⟩

/-- Under a new key two members trade places, and all others keep theirs, exactly if the new key
orders the members as the old one did with the two exchanged. -/
theorem sortBy_eq_map_swap (hf : Ranks f l) (hg : Ranks g l) (hl : l.Nodup) (hp : p ∈ l)
    (hd : d ∈ l) : sortBy g l = (sortBy f l).map (Equiv.swap p d) ↔
      ∀ a ∈ l, ∀ b ∈ l, (g a < g b ↔ f (Equiv.swap p d a) < f (Equiv.swap p d b)) := by
  have hself (a : α) : Equiv.swap p d (Equiv.swap p d a) = a := Equiv.swap_apply_self p d a
  constructor
  · intro heq a ha b hb
    -- the one list ascends in both orders
    have hboth : (sortBy g l).Pairwise fun a b =>
        g a ≤ g b ∧ f (Equiv.swap p d a) ≤ f (Equiv.swap p d b) := by
      apply (sortBy_pairwise g l).and
      rw [heq, List.pairwise_map]
      simpa only [hself] using sortBy_pairwise f l
    have hagree : ∀ a ∈ sortBy g l, ∀ b ∈ sortBy g l,
        (g a ≤ g b ∧ f (Equiv.swap p d a) ≤ f (Equiv.swap p d b)) ∨
          (g b ≤ g a ∧ f (Equiv.swap p d b) ≤ f (Equiv.swap p d a)) := by
      intro a ha b hb
      apply List.Pairwise.forall_of_forall_of_flip _ _ _ ha hb
      · exact fun _ _ => .inl ⟨le_rfl, le_rfl⟩
      · exact hboth.imp fun h => .inl h
      · exact hboth.imp fun h => .inr h
    by_cases hab : a = b
    · subst hab
      simp
    · have hgne : g a ≠ g b := fun h => hab (hg a ha b hb h)
      have hfne : f (Equiv.swap p d a) ≠ f (Equiv.swap p d b) := by
        intro h
        exact hab ((Equiv.swap p d).injective (hf _ (swap_mem hp hd ha) _ (swap_mem hp hd hb) h))
      rcases hagree a (mem_sortBy.mpr ha) b (mem_sortBy.mpr hb) with h | h
      · exact iff_of_true (lt_of_le_of_ne h.1 hgne) (lt_of_le_of_ne h.2 hfne)
      · exact iff_of_false (not_lt_of_ge h.1) (not_lt_of_ge h.2)
  · intro horder
    symm
    apply sortBy_unique hg
    · exact ((sortBy_perm f l).map _).trans (map_swap_perm hl hp hd)
    · rw [List.pairwise_map]
      apply (sortBy_pairwise f l).imp_of_mem
      intro a b ha hb hab
      have hmem {a : α} (ha : a ∈ sortBy f l) : Equiv.swap p d a ∈ l :=
        swap_mem hp hd (mem_sortBy.mp ha)
      apply le_of_not_gt
      intro hgt
      have hlt := (horder _ (hmem hb) _ (hmem ha)).mp hgt
      rw [hself, hself] at hlt
      exact absurd hab (not_le_of_gt hlt)

end Trades

/-! ## Picks -/

section Picks

variable {κ : Type} [DecidableEq κ] {key : α → κ} {l picked : List α}

/-- Some members of a list and the members without the key of one of them make up the list. -/
theorem append_others_perm (hl : (l.map key).Nodup) (hpicked : picked.Nodup) (hsub : picked ⊆ l) :
    (picked ++ l.filter fun a => key a ∉ picked.map key).Perm l := by
  have hmem : ∀ a ∈ l, key a ∈ picked.map key → a ∈ picked := by
    intro a ha hkey
    obtain ⟨b, hb, hba⟩ := List.mem_map.mp hkey
    exact List.inj_on_of_nodup_map hl (hsub hb) ha hba ▸ hb
  have hfilter : picked.Perm (l.filter fun a => key a ∈ picked.map key) := by
    refine (List.perm_ext_iff_of_nodup hpicked (hl.of_map.filter _)).mpr fun a => ?_
    simp only [List.mem_filter, decide_eq_true_eq]
    exact ⟨fun ha => ⟨hsub ha, List.mem_map_of_mem ha⟩, fun ⟨ha, hkey⟩ => hmem a ha hkey⟩
  have hrest := List.filter_append_perm (fun a => decide (key a ∈ picked.map key)) l
  simp only [decide_not]
  exact (hfilter.append_right _).trans hrest

/-- The members without the key of one of the first `n` are the others. -/
theorem filter_not_take (hl : (l.map key).Nodup) (n : Nat) :
    (l.filter fun a => key a ∉ (l.take n).map key) = l.drop n := by
  have hapart : ∀ a ∈ l.drop n, key a ∉ (l.take n).map key := by
    intro a ha hkey
    rw [← List.take_append_drop n l, List.map_append, List.nodup_append] at hl
    exact hl.2.2 _ hkey _ (List.mem_map_of_mem ha) rfl
  conv_lhs => rw [← List.take_append_drop n l]
  rw [List.filter_append, List.take_append_drop, List.filter_eq_nil_iff.mpr, List.nil_append,
    List.filter_eq_self.mpr]
  · exact fun a ha => decide_eq_true (hapart a ha)
  · intro a ha
    rw [decide_eq_true_eq, not_not]
    exact List.mem_map_of_mem ha

/-- The heads of queues that are told apart by a tag: a head holds its own tag only. -/
theorem filter_flatMap_eq {ι : Type} (tag : α → κ) (id : ι → κ) {heads : ι → List α} {is : List ι}
    (hids : (is.map id).Nodup) (htag : ∀ i ∈ is, ∀ a ∈ heads i, tag a = id i) {i : ι} (hi : i ∈ is) :
    (is.flatMap heads).filter (fun a => tag a = id i) = heads i := by
  induction is with
  | nil => exact absurd hi List.not_mem_nil
  | cons j is ih =>
    obtain ⟨hj, hids⟩ := List.nodup_cons.mp hids
    have hrest := fun k hk => htag k (List.mem_cons_of_mem j hk)
    rw [List.flatMap_cons, List.filter_append]
    rcases List.mem_cons.mp hi with rfl | hi
    · have hhead : (heads i).filter (fun a => tag a = id i) = heads i :=
        List.filter_eq_self.mpr fun a ha => decide_eq_true (htag i List.mem_cons_self a ha)
      have hnone : (is.flatMap heads).filter (fun a => tag a = id i) = [] := by
        refine List.filter_eq_nil_iff.mpr fun a ha => ?_
        obtain ⟨k, hk, ha⟩ := List.mem_flatMap.mp ha
        rw [hrest k hk a ha, decide_eq_true_eq]
        exact fun hsame => hj (hsame ▸ List.mem_map_of_mem hk)
      rw [hhead, hnone, List.append_nil]
    · have hnone : (heads j).filter (fun a => tag a = id i) = [] := by
        refine List.filter_eq_nil_iff.mpr fun a ha => ?_
        rw [htag j List.mem_cons_self a ha, decide_eq_true_eq]
        exact fun hsame => hj (hsame ▸ List.mem_map_of_mem hi)
      rw [hnone, List.nil_append, ih hids hrest hi]

omit [DecidableEq κ] in
/-- The heads of queues that are told apart by a tag share no member. -/
theorem nodup_flatMap_of_tag {ι : Type} (tag : α → κ) (id : ι → κ) {heads : ι → List α} {is : List ι}
    (hids : (is.map id).Nodup) (htag : ∀ i ∈ is, ∀ a ∈ heads i, tag a = id i)
    (hheads : ∀ i ∈ is, (heads i).Nodup) : (is.flatMap heads).Nodup := by
  refine List.nodup_flatMap.mpr ⟨hheads, ?_⟩
  refine (List.pairwise_map.mp hids).imp_of_mem fun {i j} hi hj hne => ?_
  intro a ha ha'
  exact hne ((htag i hi a ha).symm.trans (htag j hj a ha'))

end Picks

/-! ## Two groups of a sorted list -/

section Groups

variable {f : α → L} {l : List α} {p : α → Bool}

omit [LinearOrder L] in
theorem groups_perm (l : List α) (p : α → Bool) : (l.filter (fun a => !p a) ++ l.filter p).Perm l := by
  simpa only [Bool.not_not] using List.filter_append_perm (fun a => !p a) l

/-- A list sorted by a group first is its two groups, each sorted. -/
theorem sortBy_grouped (h : Ranks f l) : sortBy (fun a => toLex (p a, f a)) l =
    (sortBy f l).filter (fun a => !p a) ++ (sortBy f l).filter p := by
  have hranks : Ranks (fun a => toLex (p a, f a)) l := fun a ha b hb hab =>
    h a ha b hb (congrArg (fun k => (ofLex k).2) hab)
  symm
  apply sortBy_unique hranks
  · exact (groups_perm _ p).trans (sortBy_perm f l)
  · have hsorted := sortBy_pairwise f l
    have hgroup (q : α → Bool) (group : Bool) (hq : ∀ a, q a = true → p a = group) :
        ((sortBy f l).filter q).Pairwise fun a b => toLex (p a, f a) ≤ toLex (p b, f b) := by
      refine (hsorted.sublist List.filter_sublist).imp_of_mem fun {a b} ha hb hab => ?_
      rw [hq a (List.mem_filter.mp ha).2, hq b (List.mem_filter.mp hb).2]
      exact Prod.Lex.toLex_le_toLex.mpr (.inr ⟨rfl, hab⟩)
    refine List.pairwise_append.mpr ⟨hgroup _ false fun a ha => ?_, hgroup p true fun a ha => ha, fun a ha b hb => ?_⟩
    · simpa using ha
    · have hfirst : p a = false := by simpa using (List.mem_filter.mp ha).2
      rw [hfirst, (List.mem_filter.mp hb).2]
      exact Prod.Lex.toLex_le_toLex.mpr (.inl Bool.false_lt_true)

theorem mem_take_iff {l : List α} (front back : List α) {a : α} (hl : l.Nodup) (h : l = front ++ a :: back)
    (n : Nat) :
    a ∈ l.take n ↔ front.length < n := by
  subst h
  have hfront : a ∉ front := fun hin => (List.nodup_append.mp hl).2.2 a hin a List.mem_cons_self rfl
  by_cases hn : front.length < n
  · obtain ⟨k, rfl⟩ : ∃ k, n = front.length + (k + 1) := ⟨n - front.length - 1, by omega⟩
    rw [List.take_length_add_append, List.take_succ_cons]
    exact iff_of_true (List.mem_append_right _ List.mem_cons_self) hn
  · rw [List.take_append_of_le_length (Nat.not_lt.mp hn)]
    exact iff_of_false (fun hin => hfront (List.mem_of_mem_take hin)) hn

/-- Whoever is in the first group does not fall behind when it goes first. -/
theorem mem_take_first {a : α} (hl : l.Nodup) (ha : a ∈ l) (hp : p a = false) {n : Nat} (h : a ∈ l.take n) :
    a ∈ (l.filter (fun a => !p a) ++ l.filter p).take n := by
  obtain ⟨front, back, rfl⟩ := List.append_of_mem ha
  have hlt := (mem_take_iff front back hl rfl n).mp h
  have hgroups := (groups_perm (front ++ a :: back) p).nodup_iff.mpr hl
  refine (mem_take_iff (front.filter fun a => !p a)
    (back.filter (fun a => !p a) ++ (front ++ a :: back).filter p) hgroups ?_ n).mpr ?_
  · rw [List.filter_append, List.filter_cons_of_pos (by simpa using hp), List.append_assoc, List.cons_append]
  · have := List.length_filter_le (fun a => !p a) front
    omega

/-- Whoever is in the second group does not get ahead. -/
theorem mem_take_second {a : α} (hl : l.Nodup) (ha : a ∈ l) (hp : p a = true) {n : Nat}
    (h : a ∈ (l.filter (fun a => !p a) ++ l.filter p).take n) : a ∈ l.take n := by
  obtain ⟨front, back, rfl⟩ := List.append_of_mem ha
  have hgroups := (groups_perm (front ++ a :: back) p).nodup_iff.mpr hl
  have hlt := (mem_take_iff ((front ++ a :: back).filter (fun a => !p a) ++ front.filter p)
    (back.filter p) hgroups (by
      rw [List.filter_append (p := p), List.filter_cons_of_pos hp, List.append_assoc]) n).mp h
  refine (mem_take_iff front back hl rfl n).mpr ?_
  have hlength := List.length_eq_length_filter_add (l := front) p
  rw [List.length_append, List.filter_append, List.length_append] at hlt
  omega

end Groups

end Atomic
