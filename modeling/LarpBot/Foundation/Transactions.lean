import LarpBot.Foundation.Table

/-!
# Optimistic transactions

A store of documents under keys, with a revision for each, as a key-value service keeps it. A client
reads some items, works out what they should become, and hands the difference to the service, which
carries it out as a whole or not at all. Each action is guarded by the revision that was read, so a
difference is refused when one of *its own* items has moved. Items that the client has read and does
not write, and items it has not read, are guarded by nothing.
-/

namespace Atomic

variable {D K : Type}

/-- A document with the number of times it has been written. -/
structure Item (D : Type) where
  revision : Nat
  document : D
deriving DecidableEq

abbrev Store (key : D → K) := Table fun item : Item D => key item.document

theorem Store.key_of_find? [DecidableEq K] {key : D → K} {s : Store key} {k : K} {item : Item D}
    (h : s.find? k = some item) : key item.document = k :=
  Table.key_of_find? (t := s) h

/-- What an action asks of the item under its key. -/
inductive Guard (D : Type)
  | absent
  | revision (n : Nat)
  | document (d : D)

namespace Guard

variable [DecidableEq D]

def allows : Guard D → Option (Item D) → Bool
  | absent, item => item.isNone
  | revision n, item => item.any (·.revision = n)
  | document d, item => item.any (·.document = d)

theorem absent_allows {item : Option (Item D)} : absent.allows item = true ↔ item = none := by
  simp [allows]

theorem revision_allows {n : Nat} {item : Option (Item D)} :
    (revision n).allows item = true ↔ ∃ found, item = some found ∧ found.revision = n := by
  simp [allows, Option.any_eq_true]

end Guard

inductive Action (D K : Type)
  | put (item : Item D) (guard : Guard D)
  | delete (k : K) (guard : Guard D)

namespace Action

variable (key : D → K)

/-- The key that the action is about. -/
def target : Action D K → K
  | put item _ => key item.document
  | delete k _ => k

def guard : Action D K → Guard D
  | put _ guard => guard
  | delete _ guard => guard

/-- The item that the action leaves. -/
def leaves : Action D K → Option (Item D)
  | put item _ => some item
  | delete _ _ => none

variable {key} [DecidableEq K]

def apply (s : Store key) : Action D K → Store key
  | put item _ => s.insert item
  | delete k _ => s.erase k

theorem find?_apply (s : Store key) (a : Action D K) (k : K) :
    (a.apply s).find? k = if k = a.target key then a.leaves else s.find? k := by
  cases a with
  | put item guard => exact Table.find?_insert s item k
  | delete k' guard => exact Table.find?_erase s k' k

end Action

section Transact

variable {key : D → K} [DecidableEq K] {s : Store key} {actions : List (Action D K)} {k : K}

/-- The store after all of the actions. -/
def applyAll (actions : List (Action D K)) (s : Store key) : Store key :=
  actions.foldl Action.apply s

/-- Where no two actions are about one item, each key is left as its own action leaves it. -/
theorem find?_applyAll (hnodup : (actions.map (·.target key)).Nodup) :
    (applyAll actions s).find? k =
      match actions.find? (·.target key = k) with
      | some a => a.leaves
      | none => s.find? k := by
  induction actions generalizing s with
  | nil => rfl
  | cons a rest ih =>
    rw [List.map_cons, List.nodup_cons] at hnodup
    obtain ⟨hnew, hrest⟩ := hnodup
    have hstep := ih (s := a.apply s) hrest
    rw [show applyAll (a :: rest) s = applyAll rest (a.apply s) from rfl, hstep, List.find?_cons]
    by_cases hk : a.target key = k
    · have hnone : rest.find? (·.target key = k) = none := by
        rw [List.find?_eq_none]
        intro b hb hsame
        rw [decide_eq_true_eq] at hsame
        exact hnew (List.mem_map.mpr ⟨b, hb, hsame.trans hk.symm⟩)
      simp [hnone, hk, Action.find?_apply]
    · simp [hk, Action.find?_apply, Ne.symm hk]

/-- How a transaction ends. -/
inductive Outcome
  | committed
  /-- A guard has failed, or another transaction was in the way. -/
  | cancelled
  /-- The request was not accepted. -/
  | failed
deriving DecidableEq, Repr

variable [DecidableEq D]

/-- All of the actions or none of them. Two actions about one item are not accepted. -/
def transact (actions : List (Action D K)) (s : Store key) : Outcome × Store key :=
  if ¬ (actions.map (·.target key)).Nodup then (.failed, s)
  else if actions.all fun a => a.guard.allows (s.find? (a.target key)) then
    (.committed, applyAll actions s)
  else (.cancelled, s)

/-- What is known of the actions of a transaction that was committed. -/
structure Committed (actions : List (Action D K)) (s s' : Store key) : Prop where
  nodup : (actions.map (·.target key)).Nodup
  allowed : ∀ a ∈ actions, a.guard.allows (s.find? (a.target key)) = true
  result : s' = applyAll actions s

/-- A transaction leaves the store as it was, or it was committed. -/
theorem transact_cases (actions : List (Action D K)) (s : Store key) :
    (transact actions s).2 = s ∨ Committed actions s (transact actions s).2 := by
  unfold transact
  split
  · exact .inl rfl
  · next hnodup =>
    split
    · next hallowed => exact .inr ⟨not_not.mp hnodup, List.all_eq_true.mp hallowed, rfl⟩
    · exact .inl rfl

theorem committed_of_transact (h : (transact actions s).1 = .committed) :
    Committed actions s (transact actions s).2 := by
  unfold transact at h ⊢
  split
  · next hdouble =>
    rw [if_pos hdouble] at h
    cases h
  · next hnodup =>
    rw [if_neg hnodup] at h
    split
    · next hallowed => exact ⟨not_not.mp hnodup, List.all_eq_true.mp hallowed, rfl⟩
    · next hrefused =>
      rw [if_neg hrefused] at h
      cases h

theorem transact_of_refused (h : (transact actions s).1 ≠ .committed) : (transact actions s).2 = s := by
  unfold transact at h ⊢
  split
  · rfl
  · next hnodup =>
    rw [if_neg hnodup] at h
    split
    · next hallowed => exact absurd (by rw [if_pos hallowed]) h
    · rfl

theorem transact_of_committed {s' : Store key} (h : Committed actions s s') :
    transact actions s = (.committed, s') := by
  rw [transact, if_neg (not_not.mpr h.nodup), if_pos (List.all_eq_true.mpr h.allowed), h.result]

namespace Committed

variable {s' : Store key} {a : Action D K}

/-- An item that no action is about stays as it was. -/
theorem find?_of_forall (h : Committed actions s s') (hk : ∀ a ∈ actions, a.target key ≠ k) :
    s'.find? k = s.find? k := by
  have hnone : actions.find? (·.target key = k) = none := by
    rw [List.find?_eq_none]
    intro a ha hsame
    exact hk a ha (of_decide_eq_true hsame)
  rw [h.result, find?_applyAll h.nodup, hnone]

/-- An item that an action is about is left as the action leaves it. -/
theorem find?_target (h : Committed actions s s') (ha : a ∈ actions) :
    s'.find? (a.target key) = a.leaves := by
  rw [h.result, find?_applyAll h.nodup]
  cases hfound : actions.find? (·.target key = a.target key) with
  | none => exact absurd (decide_eq_true rfl) (List.find?_eq_none.mp hfound a ha)
  | some b =>
    have hsame : b.target key = a.target key := by simpa using List.find?_some hfound
    rw [List.inj_on_of_nodup_map h.nodup (List.mem_of_find?_eq_some hfound) ha hsame]

end Committed

end Transact

/-! ## The difference of two states -/

section Delta

variable {key : D → K} [DecidableEq K] (original : Store key) (desired : Table key)

/-- Put a document in the place of the item that was read, or as a new one. -/
def putAction (document : D) : Action D K :=
  match original.find? (key document) with
  | none => .put ⟨1, document⟩ .absent
  | some item => .put ⟨item.revision + 1, document⟩ (.revision item.revision)

variable (key) in
def deleteAction (item : Item D) : Action D K :=
  .delete (key item.document) (.revision item.revision)

variable {original desired} {document : D} {item : Item D} {a : Action D K}

@[simp] theorem target_putAction : (putAction original document).target key = key document := by
  unfold putAction
  split <;> rfl

theorem leaves_putAction : ∃ revision,
    (putAction original document).leaves = some ⟨revision, document⟩ := by
  unfold putAction
  split
  · exact ⟨1, rfl⟩
  · next item _ => exact ⟨item.revision + 1, rfl⟩

omit [DecidableEq K] in
@[simp] theorem target_deleteAction : (deleteAction key item).target key = key item.document := rfl

variable (original desired) [DecidableEq D]

/-- The item as it was read is the one that is wanted. -/
def unchanged (document : D) : Bool :=
  (original.find? (key document)).any (·.document = document)

/-- The actions that make the wanted documents of the items that were read. -/
def delta : List (Action D K) :=
  (desired.rows.filter fun document => !unchanged original document).map (putAction original) ++
    (original.rows.filter fun item => desired.find? (key item.document) = none).map (deleteAction key)

variable {original desired}

theorem mem_delta : a ∈ delta original desired ↔
    (∃ document ∈ desired.rows, unchanged original document = false ∧
      a = putAction original document) ∨
    ∃ item ∈ original.rows, desired.find? (key item.document) = none ∧ a = deleteAction key item := by
  simp only [delta, List.mem_append, List.mem_map, List.mem_filter, Bool.not_eq_true',
    decide_eq_true_eq, and_assoc, eq_comm (b := a)]

/-- No two actions of a difference are about one item. -/
theorem nodup_delta : ((delta original desired).map (·.target key)).Nodup := by
  have hputs : ((desired.rows.filter fun document => !unchanged original document).map
      (putAction original)).map (·.target key) =
        (desired.rows.filter fun document => !unchanged original document).map key := by
    simp [List.map_map, Function.comp_def]
  have hdeletes : ((original.rows.filter fun item =>
      desired.find? (key item.document) = none).map (deleteAction key)).map (·.target key) =
        (original.rows.filter fun item => desired.find? (key item.document) = none).map
          fun item => key item.document := by
    simp [List.map_map, Function.comp_def]
  rw [delta, List.map_append, hputs, hdeletes, List.nodup_append]
  refine ⟨desired.nodup.sublist (List.filter_sublist.map key),
    original.nodup.sublist (List.filter_sublist.map _), ?_⟩
  rintro k hk k' hk' rfl
  obtain ⟨document, hdocument, rfl⟩ := List.mem_map.mp hk
  obtain ⟨item, hitem, hsame⟩ := List.mem_map.mp hk'
  have hnone := of_decide_eq_true (List.mem_filter.mp hitem).2
  rw [hsame, Table.find?_key (List.mem_filter.mp hdocument).1] at hnone
  cases hnone

/-- The difference is empty where every item that was read is wanted as it is, and no other. -/
theorem delta_eq_nil (h : ∀ k, desired.find? k = (original.find? k).map Item.document) :
    delta original desired = [] := by
  rw [List.eq_nil_iff_forall_not_mem]
  intro a ha
  rcases mem_delta.mp ha with ⟨document, hdocument, hchanged, -⟩ | ⟨item, hitem, hnone, -⟩
  · have hwanted := h (key document)
    rw [Table.find?_key hdocument] at hwanted
    obtain ⟨item, hitem, hsame⟩ := Option.map_eq_some_iff.mp hwanted.symm
    rw [unchanged, hitem, Option.any_some, hsame, decide_eq_false_iff_not] at hchanged
    exact hchanged rfl
  · have hread : original.find? (key item.document) = some item := Table.find?_key hitem
    rw [h, hread] at hnone
    exact nomatch hnone

/-- The items that were read are the stored ones. -/
def UpToDate (original : Store key) (desired : Table key) (s : Store key) : Prop :=
  (∀ item ∈ original.rows, s.find? (key item.document) = some item) ∧
    ∀ document ∈ desired.rows, original.find? (key document) = none → s.find? (key document) = none

/-- The guards of a difference hold of the store that was read. -/
theorem UpToDate.allowed {s : Store key} (h : UpToDate original desired s)
    (ha : a ∈ delta original desired) : a.guard.allows (s.find? (a.target key)) = true := by
  rcases mem_delta.mp ha with ⟨document, hdocument, -, rfl⟩ | ⟨item, hitem, -, rfl⟩
  · rw [target_putAction]
    unfold putAction
    split
    · next hnone =>
      rw [h.2 document hdocument hnone]
      rfl
    · next item hitem =>
      have hstored := h.1 item (Table.mem_of_find? hitem)
      rw [Store.key_of_find? hitem] at hstored
      rw [hstored]
      simp [Action.guard, Guard.allows]
  · rw [target_deleteAction, h.1 item hitem]
    simp [deleteAction, Action.guard, Guard.allows]

/-- The difference of items that were read as they are stored is carried out. -/
theorem UpToDate.committed {s : Store key} (h : UpToDate original desired s) :
    Committed (delta original desired) s (applyAll (delta original desired) s) :=
  ⟨nodup_delta, fun _ => h.allowed, rfl⟩

/-- The size of a difference that rewrites what was read, -/
theorem length_delta_map {f : D → D}
    (h : desired.rows = original.rows.map fun item => f item.document)
    (hf : ∀ document, key (f document) = key document) :
    (delta original desired).length =
      original.rows.countP fun item => f item.document ≠ item.document := by
  have hkeep : (original.rows.filter fun item => desired.find? (key item.document) = none) = [] := by
    rw [List.filter_eq_nil_iff]
    intro item hitem hnone
    have hwanted : f item.document ∈ desired.rows := h ▸ List.mem_map_of_mem hitem
    rw [← hf, Table.find?_key hwanted] at hnone
    exact absurd hnone nofun
  have hput : (desired.rows.filter fun document => !unchanged original document) =
      (original.rows.filter fun item => f item.document ≠ item.document).map
        fun item => f item.document := by
    rw [h, List.filter_map]
    congr 1
    refine List.filter_congr fun item hitem => ?_
    have hfound : original.find? (key item.document) = some item := Table.find?_key hitem
    simp [unchanged, hf, hfound, eq_comm]
  rw [delta, hkeep, hput, List.countP_eq_length_filter]
  simp

/-- and of one that deletes all of it. -/
theorem length_delta_empty (h : desired.rows = []) :
    (delta original desired).length = original.rows.length := by
  have hnone : ∀ k, desired.find? k = none := by
    intro k
    rw [Table.find?, h, List.find?_nil]
  simp [delta, h, hnone]

/-- The difference of what was read and one document more. -/
theorem delta_new (h : desired.rows = original.rows.map Item.document ++ [document])
    (hnew : original.find? (key document) = none) :
    delta original desired = [.put ⟨1, document⟩ .absent] := by
  have hkeep : (original.rows.filter fun item => desired.find? (key item.document) = none) = [] := by
    rw [List.filter_eq_nil_iff]
    intro item hitem hnone
    have hwanted : item.document ∈ desired.rows :=
      h ▸ List.mem_append_left _ (List.mem_map_of_mem hitem)
    rw [Table.find?_key hwanted] at hnone
    exact absurd hnone nofun
  have hput : (desired.rows.filter fun document => !unchanged original document) = [document] := by
    have hold : (original.rows.map Item.document).filter (fun document => !unchanged original document) =
        [] := by
      rw [List.filter_eq_nil_iff]
      intro read hread hchanged
      obtain ⟨item, hitem, rfl⟩ := List.mem_map.mp hread
      have hfound : original.find? (key item.document) = some item := Table.find?_key hitem
      simp [unchanged, hfound] at hchanged
    rw [h, List.filter_append, hold]
    simp [unchanged, hnew]
  rw [delta, hkeep, hput]
  simp [putAction, hnew]

/-- What a committed difference has done to an item. -/
inductive Fate (original : Store key) (desired : Table key) (s s' : Store key) (k : K) : Prop
  /-- It was not as wanted, and is now. An item that was not read was not there. -/
  | written (document : D) (revision : Nat) (hdesired : desired.find? k = some document)
      (hchanged : (original.find? k).map Item.document ≠ some document)
      (hbefore : original.find? k = none → s.find? k = none)
      (hafter : s'.find? k = some ⟨revision, document⟩)
  | deleted (horiginal : (original.find? k).isSome) (hdesired : desired.find? k = none)
      (hafter : s'.find? k = none)
  /-- It was read as it is wanted, or neither read nor wanted. -/
  | kept (hsame : desired.find? k = (original.find? k).map Item.document)
      (hafter : s'.find? k = s.find? k)

theorem unchanged_iff (hkey : key document = k) : unchanged original document = true ↔
    (original.find? k).map Item.document = some document := by
  rw [unchanged, hkey, Option.any_eq_true, Option.map_eq_some_iff]
  simp only [decide_eq_true_eq]

/-- A committed transaction that holds a difference, and other actions on other items. -/
theorem Committed.fate {s s' : Store key} {others : List (Action D K)}
    (h : Committed (delta original desired ++ others) s s')
    (hothers : ∀ a ∈ others, a.target key ≠ k) : Fate original desired s s' k := by
  have hkept (hnone : ∀ a ∈ delta original desired, a.target key ≠ k) : s'.find? k = s.find? k := by
    refine h.find?_of_forall fun a ha => ?_
    rcases List.mem_append.mp ha with hdelta | hother
    · exact hnone a hdelta
    · exact hothers a hother
  cases hdesired : desired.find? k with
  | some document =>
    obtain ⟨hmem, hkey⟩ := Table.find?_eq_some_iff.mp hdesired
    by_cases hchanged : unchanged original document = true
    · have hsame := (unchanged_iff hkey).mp hchanged
      refine .kept (hdesired.trans hsame.symm) (hkept fun a ha htarget => ?_)
      rcases mem_delta.mp ha with ⟨document', hmem', hchanged', rfl⟩ | ⟨item, _, hnone, rfl⟩
      · rw [target_putAction] at htarget
        rw [Table.eq_of_key_eq hmem' hmem (htarget.trans hkey.symm), hchanged] at hchanged'
        exact nomatch hchanged'
      · rw [target_deleteAction] at htarget
        rw [htarget, hdesired] at hnone
        exact nomatch hnone
    · have hput : putAction original document ∈ delta original desired ++ others :=
        List.mem_append_left _ (mem_delta.mpr (.inl ⟨document, hmem, by simpa using hchanged, rfl⟩))
      have hafter := h.find?_target hput
      have hallowed := h.allowed _ hput
      rw [target_putAction, hkey] at hafter hallowed
      obtain ⟨revision, hleaves⟩ : ∃ revision,
          (putAction original document).leaves = some ⟨revision, document⟩ := leaves_putAction
      refine .written document revision hdesired (fun hsame => ?_) ?_ (hafter.trans hleaves)
      · exact hchanged ((unchanged_iff hkey).mpr hsame)
      · intro hnone
        rw [putAction, hkey, hnone] at hallowed
        exact Guard.absent_allows.mp hallowed
  | none =>
    cases horiginal : original.find? k with
    | some item =>
      have hkey := Store.key_of_find? horiginal
      have hdelete : deleteAction key item ∈ delta original desired ++ others :=
        List.mem_append_left _ (mem_delta.mpr
          (.inr ⟨item, Table.mem_of_find? horiginal, by rw [hkey]; exact hdesired, rfl⟩))
      have hafter := h.find?_target hdelete
      rw [target_deleteAction, hkey] at hafter
      exact .deleted (by rw [horiginal]; rfl) hdesired hafter
    | none =>
      refine .kept (by rw [hdesired, horiginal]; rfl) (hkept fun a ha htarget => ?_)
      rcases mem_delta.mp ha with ⟨document, hmem, -, rfl⟩ | ⟨item, hitem, -, rfl⟩
      · rw [target_putAction] at htarget
        rw [← htarget, Table.find?_key hmem] at hdesired
        exact nomatch hdesired
      · rw [target_deleteAction] at htarget
        have hfound : original.find? (key item.document) = some item := Table.find?_key hitem
        rw [htarget, horiginal] at hfound
        exact nomatch hfound

/-- An item that a committed difference deletes was stored as often written as it was read. -/
theorem Committed.revision_of_deleted {s s' : Store key} {others : List (Action D K)}
    (h : Committed (delta original desired ++ others) s s') (horiginal : original.find? k = some item)
    (hdesired : desired.find? k = none) :
    ∃ stored, s.find? k = some stored ∧ stored.revision = item.revision := by
  obtain rfl := Store.key_of_find? horiginal
  have hdelete : deleteAction key item ∈ delta original desired ++ others :=
    List.mem_append_left _ (mem_delta.mpr (.inr ⟨item, Table.mem_of_find? horiginal, hdesired, rfl⟩))
  exact Guard.revision_allows.mp (h.allowed _ hdelete)

end Delta

/-! ## Items that are only written over -/

section Follows

variable {key : D → K} [DecidableEq K] {s s' : Store key} {original : Store key} {desired : Table key}
  {item read : Item D} {document : D} {k : K} {others : List (Action D K)}

/-- The item is stored, or one that was written over it. -/
def Follows (s : Store key) (item : Item D) : Prop :=
  ∃ stored, s.find? (key item.document) = some stored ∧
    (stored = item ∨ item.revision < stored.revision)

theorem follows_of_find? (h : s.find? k = some item) : Follows s item := by
  obtain rfl := Store.key_of_find? h
  exact ⟨item, h, .inl rfl⟩

/-- What was read is what is stored, if it was not written over since. -/
theorem Follows.stored (h : Follows s item) {stored : Item D}
    (hstored : s.find? (key item.document) = some stored) (hsame : stored.revision = item.revision) :
    stored = item := by
  obtain ⟨found, hfound, hitem | hlater⟩ := h
  · rw [hstored] at hfound
    rw [Option.some.inj hfound, hitem]
  · rw [hstored] at hfound
    rw [← Option.some.inj hfound, hsame] at hlater
    exact absurd hlater (Nat.lt_irrefl _)

variable [DecidableEq D]

/-- An item that a committed difference writes over is stored as it was read. -/
theorem Committed.stored_of_written (h : Committed (delta original desired ++ others) s s')
    (horiginal : original.find? k = some item) (hdesired : desired.find? k = some document)
    (hchanged : item.document ≠ document) (hitem : Follows s item) : s.find? k = some item := by
  obtain rfl := Store.key_of_find? horiginal
  obtain ⟨hmem, hkey⟩ := Table.find?_eq_some_iff.mp hdesired
  have hnew : unchanged original document = false := by
    rw [Bool.eq_false_iff]
    intro hsame
    rw [unchanged_iff hkey, horiginal] at hsame
    exact hchanged (Option.some.inj hsame)
  have hput : putAction original document ∈ delta original desired ++ others :=
    List.mem_append_left _ (mem_delta.mpr (.inl ⟨document, hmem, hnew, rfl⟩))
  have hallowed := h.allowed _ hput
  rw [target_putAction, hkey, putAction, hkey, horiginal] at hallowed
  obtain ⟨stored, hstored, hsame⟩ := Guard.revision_allows.mp hallowed
  rw [hstored, hitem.stored hstored hsame]

/-- A difference that deletes nothing writes over what it finds. -/
theorem Follows.committed (hread : Follows s read)
    (h : Committed (delta original desired ++ others) s s')
    (hkeeps : ∀ item ∈ original.rows, (desired.find? (key item.document)).isSome)
    (hothers : ∀ a ∈ others, a.target key ≠ key read.document) : Follows s' read := by
  obtain ⟨stored, hstored, hlater⟩ := hread
  by_cases hnone : ∀ a ∈ delta original desired ++ others, a.target key ≠ key read.document
  · exact ⟨stored, (h.find?_of_forall hnone).trans hstored, hlater⟩
  · push Not at hnone
    obtain ⟨a, ha, htarget⟩ := hnone
    have hafter := h.find?_target ha
    have hallowed := h.allowed a ha
    rw [htarget] at hafter hallowed
    rw [hstored] at hallowed
    rcases List.mem_append.mp ha with hdelta | hother
    · rcases mem_delta.mp hdelta with ⟨document, -, -, rfl⟩ | ⟨item, hitem, hgone, -⟩
      · unfold putAction at hafter hallowed
        split at hallowed
        · exact nomatch Guard.absent_allows.mp hallowed
        · next item hfound =>
          rw [hfound] at hafter
          obtain ⟨found, hsame, hrevision⟩ := Guard.revision_allows.mp hallowed
          obtain rfl := Option.some.inj hsame
          refine ⟨_, hafter, .inr ?_⟩
          show read.revision < item.revision + 1
          rcases hlater with rfl | hlater
          · omega
          · omega
      · have hwanted := hkeeps item hitem
        rw [hgone] at hwanted
        exact nomatch hwanted
    · exact absurd htarget (hothers a hother)

end Follows

end Atomic
