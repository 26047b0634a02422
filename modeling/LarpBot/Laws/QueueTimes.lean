import Mathlib
import LarpBot.Application.OrderedMutations
import LarpBot.Adapters.YdbRegistrations
import LarpBot.Laws.RowChanges

/-!
# The range of the queue instants

A sift moves the waiting rows of a game by the whole spread of its queue, and the next player queues
behind them, so the spread doubles from sift to sift. `datetime` ends with the year 9999, where a sum
raises `OverflowError`, and the timestamps of YDB end in 2106, where a query fails. How far a queue may
reach is bounded by the clocks and by the number of sifts (`stays_within_of_few_sifts`), and a queue
that doubles does reach so far (`siftRounds_overflow`).
-/

namespace LarpBot

open Atomic

/-- `datetime.min` -/
def datetimeMin : Time := -62135596800000000

/-- What a call may do to the length of a queue. -/
inductive Growth
  | none
  | place
  | sift
deriving DecidableEq

namespace Growth

/-- How far behind the start of the clocks a queue may reach after a call, if it reached `r`. -/
def reach (r : Time) : Growth → Time
  | .none => r
  | .place => r + 1
  | .sift => 2 * r + 1

theorem le_reach {r : Time} (hr : 0 ≤ r) (growth : Growth) : r ≤ growth.reach r := by
  cases growth with
  | none => exact le_rfl
  | place => exact Int.le_add_of_nonneg_right Int.one_nonneg
  | sift =>
    have hdouble (r : Int) (hr : 0 ≤ r) : r ≤ 2 * r + 1 := by omega
    exact hdouble r hr

end Growth

namespace RegistrationCall

def growth : RegistrationCall → Growth
  | enlist _ _ | updateAnswer _ _ _ _ => .place
  | siftWaitingToEnd _ => .sift
  | _ => .none

/-- The calls that are not given an instant to store. -/
def Queues : RegistrationCall → Prop
  | importMissing _ | swapQueuePositions _ _ => False
  | _ => True

/-- No sum that the method forms in this state is above `high`. -/
def fits (high : Time) (c : RegistrationCall) (now : Time) (t : Registrations) : Bool :=
  (c.sums now t).all (· ≤ high)

end RegistrationCall

/-! ## What a call does to the range -/

/-- The stored instants that a row may queue by. -/
def Registration.times (row : Registration) : List Time :=
  row.createdAt :: row.answerQueueAt.toList

theorem queueTime_mem_times (row : Registration) : queueTime row ∈ row.times := by
  unfold queueTime Registration.times
  cases row.answerQueueAt with
  | none => exact List.mem_cons_self
  | some queueAt => exact List.mem_cons_of_mem _ (by simp)

theorem siftedTime_mem_times (row : Registration) : Registrations.siftedTime row ∈ row.times := by
  unfold Registrations.siftedTime
  split
  · exact queueTime_mem_times row
  · exact List.mem_cons_self

/-- All of the instants are between two others. -/
def TimesIn (low high : Time) (t : Registrations) : Prop :=
  ∀ row ∈ t.rows, ∀ time ∈ row.times, low ≤ time ∧ time ≤ high

theorem TimesIn.mono {low high high' : Time} {t : Registrations} (h : TimesIn low high t)
    (hle : high ≤ high') : TimesIn low high' t :=
  fun row hrow time htime => ⟨(h row hrow time htime).1, (h row hrow time htime).2.trans hle⟩

namespace RegistrationCall

variable {c : RegistrationCall} {now low high high' : Time} {t t' : Registrations}
  {e : EventId} {keys : List ParticipantKey} {op : OperationId}
  {f : Registration → Registration} {row row' : Registration}

theorem Stamps.times (hc : Stamps c e keys op f) (row : Registration) :
    (stamped op now f row).times = row.times := by
  cases hc <;> rfl

/-- The latest place of the rows of an event. -/
theorem latest_le (ht : TimesIn low high t) {p : Registration → Bool} {latest : Time}
    (h : t.latest e p = some latest) : latest ≤ high := by
  have hmem := (List.max?_eq_some_iff.mp h).1
  obtain ⟨row, hrow, rfl⟩ := List.mem_map.mp hmem
  have hstored : row ∈ t.rows := (List.mem_filter.mp (List.mem_filter.mp hrow).1).1
  exact (ht row hstored _ (queueTime_mem_times row)).2

theorem enlistTime_mem (hnow : low ≤ now ∧ now ≤ high)
    (hfits : ((t.latest e fun _ => true).map (· + microsecond)).toList.all (· ≤ high) = true) :
    low ≤ t.enlistTime now e ∧ t.enlistTime now e ≤ high := by
  unfold Registrations.enlistTime
  cases hlatest : t.latest e fun _ => true with
  | none => exact hnow
  | some latest =>
    rw [hlatest] at hfits
    have hsum : latest + microsecond ≤ high := by simpa using hfits
    exact ⟨hnow.1.trans (le_max_left _ _), max_le hnow.2 hsum⟩

theorem times_siftRow {shift time : Time} (htime : time ∈ (Registrations.siftRow shift row).times) :
    time ∈ row.times ∨ time = Registrations.siftedTime row + shift := by
  unfold Registrations.siftRow at htime
  unfold Registrations.siftedTime
  split at htime
  · next hanswer =>
    rw [if_pos hanswer]
    rcases List.mem_cons.mp htime with rfl | hqueue
    · exact .inl List.mem_cons_self
    · exact .inr (by simpa using hqueue)
  · next hanswer =>
    rw [if_neg hanswer]
    rcases List.mem_cons.mp htime with rfl | hqueue
    · exact .inr rfl
    · exact .inl (List.mem_cons_of_mem _ hqueue)

theorem times_rewrite {a : Registrations.EnlistArguments} {queueTime time : Time}
    (htime : time ∈ (a.rewrite now queueTime row).times) : time ∈ row.times ∨ time = queueTime := by
  rcases List.mem_cons.mp htime with rfl | hqueue
  · show (if isActive row then row.createdAt else queueTime) ∈ row.times ∨
      (if isActive row then row.createdAt else queueTime) = queueTime
    split
    · exact .inl List.mem_cons_self
    · exact .inr rfl
  · right
    have hanswer : (if a.answerId.isSome then some queueTime else none) = some time :=
      Option.mem_toList.mp hqueue
    split at hanswer
    · exact (Option.some.inj hanswer).symm
    · exact nomatch hanswer

theorem times_newRow {a : Registrations.EnlistArguments} {queueTime time : Time}
    (htime : time ∈ (a.newRow e now queueTime).times) : time = queueTime := by
  rcases List.mem_cons.mp htime with rfl | hqueue
  · rfl
  · have hanswer : (if a.answerId.isSome then some queueTime else none) = some time :=
      Option.mem_toList.mp hqueue
    split at hanswer
    · exact (Option.some.inj hanswer).symm
    · exact nomatch hanswer

/-- An answer is updated only where its sum fits. -/
theorem updateAnswer_cases {answerId : String}
    (hfits : (RegistrationCall.updateAnswer e op keys answerId).fits high now t = true) :
    (t.updateAnswer now e op keys answerId).2 = t ∨
      (t.latest e (·.answerId = some answerId)).getD now + microsecond ≤ high := by
  unfold fits sums at hfits
  unfold Registrations.updateAnswer
  dsimp only at hfits ⊢
  by_cases hstamped : ((t.named e keys).isEmpty ||
      (t.named e keys).all fun row => row.lastOperationId = op) = true
  · exact .inl (by rw [if_pos hstamped])
  · by_cases hanswered : ((t.named e keys).all fun row => row.answerId = some answerId) = true
    · exact .inl (by rw [if_neg hstamped, if_pos hanswered])
    · right
      rw [Bool.eq_false_iff.mpr hstamped, Bool.eq_false_iff.mpr hanswered] at hfits
      simpa using hfits

/-- A call whose sums fit below `high'` stores no instant above it. -/
theorem timesIn_perform (hc : c.Queues) (hnow : low ≤ now ∧ now ≤ high) (ht : TimesIn low high t)
    (hle : high ≤ high') (hfits : c.fits high' now t = true) :
    TimesIn low high' (c.perform now t).2 := by
  have hnow' : low ≤ now ∧ now ≤ high' := ⟨hnow.1, hnow.2.trans hle⟩
  intro row' hrow' time htime
  rcases mem_perform hrow' with hold | ⟨row, hrow, hchange⟩ | hnew
  · exact ht.mono hle row' hold time htime
  · have hstored : ∀ time ∈ row.times, low ≤ time ∧ time ≤ high' := ht.mono hle row hrow
    cases hchange with
    | stamp hstamp =>
      rw [hstamp.times] at htime
      exact hstored time htime
    | @enlist e a _ hkey hop =>
      rcases times_rewrite htime with hold | rfl
      · exact hstored time hold
      · split
        · exact hnow'
        · next hcancelled =>
          have hfound : t.get e a.participantKey = some row := by
            rw [Registrations.get, ← hkey]
            exact Table.find?_key hrow
          simp only [fits, sums, hfound, Option.all_some, hop, ne_eq, not_false_eq_true, decide_true,
            hcancelled, Bool.not_false, Bool.and_true, if_true] at hfits
          exact enlistTime_mem hnow' hfits
    | @updateAnswer e op keys answerId _ hevent hkey =>
      rcases updateAnswer_cases hfits with hsame | hsum
      · rw [perform, hsame] at hrow'
        exact ht.mono hle _ hrow' time htime
      · rcases List.mem_cons.mp htime with rfl | hqueue
        · exact hstored _ List.mem_cons_self
        · obtain rfl : time = _ := (Option.some.inj (Option.mem_toList.mp hqueue)).symm
          exact ⟨hnow.1.trans (le_max_left _ _), max_le hnow'.2 hsum⟩
    | @sift e _ hevent hwaiting =>
      rcases times_siftRow htime with hold | rfl
      · exact hstored time hold
      · have hmem : row ∈ t.waiting e :=
          List.mem_filter.mpr ⟨hrow, decide_eq_true ⟨hevent, hwaiting⟩⟩
        have hsum := of_decide_eq_true (List.all_eq_true.mp hfits _ (List.mem_map_of_mem hmem))
        have hshift := (Registrations.siftShift_pos t e).le
        exact ⟨(hstored _ (siftedTime_mem_times row)).1.trans (Int.le_add_of_nonneg_right hshift), hsum⟩
    | swap => exact hc.elim
  · cases hnew with
    | importMissing => exact hc.elim
    | @enlist e a hmissing =>
      rw [times_newRow htime]
      simp only [fits, sums, hmissing, Option.all_none, if_true] at hfits
      exact enlistTime_mem hnow' hfits

theorem siftShift_le (ht : TimesIn low high t) (e : EventId)
    (hle : low ≤ high) : t.siftShift e ≤ high - low + 1 := by
  have htimes : ∀ time ∈ ((t.ofEvent e).filter isActive).map queueTime, low ≤ time ∧ time ≤ high := by
    intro time htime
    obtain ⟨row, hrow, rfl⟩ := List.mem_map.mp htime
    exact ht row (List.mem_filter.mp (List.mem_filter.mp hrow).1).1 _ (queueTime_mem_times row)
  unfold Registrations.siftShift
  dsimp only
  generalize ((t.ofEvent e).filter isActive).map queueTime = times at htimes
  cases hmax : times.max? with
  | none =>
    rw [List.max?_eq_none_iff.mp hmax]
    exact Int.add_le_add_right (Int.sub_nonneg_of_le hle) 1
  | some latest =>
    have hmem : latest ∈ times := (List.max?_eq_some_iff.mp hmax).1
    cases hmin : times.min? with
    | none =>
      rw [List.min?_eq_none_iff.mp hmin] at hmem
      exact absurd hmem List.not_mem_nil
    | some earliest =>
      have hearliest := (htimes earliest (List.min?_eq_some_iff.mp hmin).1).1
      exact Int.add_le_add_right (Int.sub_le_sub (htimes latest hmem).2 hearliest) 1

/-- A row of the sift moves by at most the length of the queue. -/
theorem sifted_le {r : Time} (ht : TimesIn low (low + r) t) (hrow : row ∈ t.rows) (hr : 0 ≤ r) :
    Registrations.siftedTime row + t.siftShift e ≤ low + (2 * r + 1) := by
  have htime : Registrations.siftedTime row ≤ low + r := (ht row hrow _ (siftedTime_mem_times row)).2
  have hshift := siftShift_le ht e (Int.le_add_of_nonneg_right hr)
  have hsum (low r : Int) : low + r + (low + r - low + 1) = low + (2 * r + 1) := by omega
  calc Registrations.siftedTime row + t.siftShift e
      ≤ (low + r) + (low + r - low + 1) := Int.add_le_add htime hshift
    _ = low + (2 * r + 1) := hsum low r

/-- The sums of a call fit below what the queue reaches after it. -/
theorem fits_reach {r : Time} (c : RegistrationCall) (hr : 0 ≤ r) (hnow : now ≤ low + r)
    (ht : TimesIn low (low + r) t) : c.fits (low + c.growth.reach r) now t = true := by
  have hnext {time : Time} (htime : time ≤ low + r) : time + microsecond ≤ low + (r + 1) := by
    rw [← Int.add_assoc]
    exact Int.add_le_add_right htime 1
  refine List.all_eq_true.mpr fun sum hsum => decide_eq_true ?_
  cases c with
  | enlist e a =>
    simp only [sums] at hsum
    split at hsum
    · obtain ⟨latest, hlatest, rfl⟩ := Option.map_eq_some_iff.mp (Option.mem_toList.mp hsum)
      exact hnext (latest_le ht hlatest)
    · exact absurd hsum List.not_mem_nil
  | updateAnswer e op keys answerId =>
    simp only [sums] at hsum
    split at hsum
    · exact absurd hsum List.not_mem_nil
    · rw [List.mem_singleton.mp hsum]
      cases hlatest : t.latest e (·.answerId = some answerId) with
      | none => exact hnext hnow
      | some latest => exact hnext (latest_le ht hlatest)
  | siftWaitingToEnd e =>
    obtain ⟨row, hrow, rfl⟩ := List.mem_map.mp hsum
    exact sifted_le ht (List.mem_filter.mp hrow).1 hr
  | _ => exact absurd hsum List.not_mem_nil

theorem fits_mono (hle : high ≤ high') (hfits : c.fits high now t = true) :
    c.fits high' now t = true :=
  List.all_eq_true.mpr fun sum hsum =>
    decide_eq_true ((of_decide_eq_true (List.all_eq_true.mp hfits sum hsum)).trans hle)

end RegistrationCall

/-! ## What a query does to the range -/

namespace YdbRegistrations

variable {now low high : Time} {t t' : Registrations} {op : OperationId}
  {f : Registration → Registration} {row : Registration}

/-- A query that keeps the instants of the rows it touches. -/
theorem timesIn_update {p : Registration → Truth} {hf : ∀ row, (f row).key = row.key}
    (ht : TimesIn low high t) (htimes : ∀ row, (f row).times = row.times) :
    TimesIn low high (t.update p f hf) := by
  intro row' hrow' time htime
  rw [Table.rows_update] at hrow'
  obtain ⟨row, hrow, rfl⟩ := List.mem_map.mp hrow'
  split at htime
  · rw [htimes] at htime
    exact ht row hrow time htime
  · exact ht row hrow time htime

theorem timesIn_delete {p : Registration → Truth} (ht : TimesIn low high t) :
    TimesIn low high (t.delete p) :=
  fun row hrow => ht row (List.mem_filter.mp hrow).1

theorem timesIn_insert (ht : TimesIn low high t)
    (hrow : ∀ time ∈ row.times, low ≤ time ∧ time ≤ high) : TimesIn low high (t.insert row) := by
  intro other hother
  rcases Table.mem_insertNew hother with hmem | ⟨rfl, -⟩
  · obtain ⟨old, hold, rfl⟩ := List.mem_map.mp hmem
    split
    · exact hrow
    · exact ht old hold
  · exact hrow

/-- A query whose instants are timestamps does not fail. -/
theorem stays_of_query {α : Type} {times : List Time} {answer : α} (htimes : times.all isTimestamp)
    (hwritten : TimesIn low high t') :
    (ydbQuery times t answer t').1 ≠ .error .timestamp ∧
      TimesIn low high (ydbQuery times t answer t').2 := by
  rw [ydbQuery_of htimes]
  exact ⟨by simp, hwritten⟩

theorem stays_of_update {α : Type} {p : Registration → Truth} {answer : α}
    (f : Registration → Registration) (hnow : isTimestamp now) (ht : TimesIn low high t')
    (htimes : ∀ row, (f row).times = row.times)
    (hf : ∀ row, (f row).key = row.key := by intro _; rfl) :
    (ydbQuery [now] t answer (t'.update p (stamp now op f) (key_stamp hf))).1 ≠ .error .timestamp ∧
      TimesIn low high (ydbQuery [now] t answer (t'.update p (stamp now op f) (key_stamp hf))).2 :=
  stays_of_query (by rw [List.all_cons, hnow]; rfl)
    (timesIn_update ht fun row => (htimes row : (stamp now op f row).times = row.times))

variable {r : Time} {eventId : EventId}

theorem latest_le (ht : TimesIn low high t) {latest : Time}
    (h : YdbRegistrations.latest t eventId = some latest) : latest ≤ high := by
  obtain ⟨row, hrow, rfl⟩ := List.mem_map.mp (List.max?_eq_some_iff.mp h).1
  exact (ht row (List.mem_filter.mp (List.mem_filter.mp hrow).1).1 _ List.mem_cons_self).2

theorem enlistTime_mem (ht : TimesIn low (low + r) t) (hnow : low ≤ now ∧ now ≤ low + r) :
    low ≤ enlistTime t now eventId ∧ enlistTime t now eventId ≤ low + (r + 1) := by
  have hend : now ≤ low + (r + 1) := by
    rw [← Int.add_assoc]
    exact hnow.2.trans (Int.le_add_of_nonneg_right Int.one_nonneg)
  unfold enlistTime
  cases hlatest : latest t eventId with
  | none => exact ⟨hnow.1, hend⟩
  | some latest =>
    have hle := latest_le ht hlatest
    refine ⟨hnow.1.trans (le_max_left _ _), max_le hend ?_⟩
    rw [← Int.add_assoc]
    exact Int.add_le_add_right hle _

theorem stays_enlist {a : Registrations.EnlistArguments} (hlow : 0 ≤ low)
    (hnow : low ≤ now ∧ now ≤ low + r) (ht : TimesIn low (low + r) t)
    (hroom : low + (r + 1) ≤ timestampMax) :
    (enlist t now eventId a).1 ≠ .error .timestamp ∧
      TimesIn low (low + (r + 1)) (enlist t now eventId a).2 := by
  have hgrown : low + r ≤ low + (r + 1) :=
    Int.add_le_add_left (Int.le_add_of_nonneg_right Int.one_nonneg) low
  have hplace : low ≤ enlistTime t now eventId ∧ enlistTime t now eventId ≤ low + (r + 1) :=
    enlistTime_mem ht hnow
  have hstamp {time : Time} (htime : low ≤ time ∧ time ≤ low + (r + 1)) : isTimestamp time :=
    isTimestamp_iff.mpr ⟨hlow.trans htime.1, htime.2.trans hroom⟩
  have hsave {row : Registration} (hrow : ∀ time ∈ row.times, low ≤ time ∧ time ≤ low + (r + 1))
      (hupdated : row.updatedAt = now) : (save t row).1 ≠ .error .timestamp ∧
        TimesIn low (low + (r + 1)) (save t row).2 := by
    refine stays_of_query ?_ (timesIn_insert (ht.mono hgrown) hrow)
    rw [List.all_cons, List.all_cons, hstamp (hrow _ List.mem_cons_self), hupdated,
      hstamp ⟨hnow.1, hnow.2.trans hgrown⟩]
    rfl
  unfold enlist
  dsimp only
  cases hfound : t.get eventId a.participantKey with
  | none =>
    refine hsave (fun time htime => ?_) rfl
    rw [RegistrationCall.times_newRow htime]
    exact hplace
  | some row =>
    dsimp only
    split
    · exact ⟨by simp, ht.mono hgrown⟩
    · refine hsave (fun time htime => ?_) rfl
      rcases RegistrationCall.times_rewrite htime with hold | rfl
      · exact ht.mono hgrown row (Registrations.mem_of_get hfound) time hold
      · exact hplace

theorem shift_mem {earliest latest low r : Int} (hearly : low ≤ earliest) (hlate : latest ≤ low + r)
    (horder : earliest ≤ latest) :
    0 ≤ latest - earliest + 1 ∧ latest - earliest + 1 ≤ r + 1 := by
  omega

theorem moved_mem {time shift low r : Int} (htime : low ≤ time ∧ time ≤ low + r)
    (hshift : 0 ≤ shift ∧ shift ≤ r + 1) : low ≤ time + shift ∧ time + shift ≤ low + (2 * r + 1) := by
  omega

theorem shift_room {low r max : Int} (hlow : 0 ≤ low) (hr : 0 ≤ r) (hroom : low + (2 * r + 1) ≤ max) :
    r + 1 ≤ max := by
  omega

/-- The spread of the queue moves the waiting rows no further than the queue may reach. -/
theorem stays_siftWaitingToEnd (hlow : 0 ≤ low) (hr : 0 ≤ r) (ht : TimesIn low (low + r) t)
    (hroom : low + (2 * r + 1) ≤ timestampMax) :
    (siftWaitingToEnd t eventId).1 ≠ .error .timestamp ∧
      TimesIn low (low + (2 * r + 1)) (siftWaitingToEnd t eventId).2 := by
  have hgrown : low + r ≤ low + (2 * r + 1) := Int.add_le_add_left (Growth.le_reach hr .sift) low
  have htimes : ∀ time ∈ ((t.ofEvent eventId).filter isActive).map Registration.createdAt,
      low ≤ time ∧ time ≤ low + r := by
    intro time htime
    obtain ⟨row, hrow, rfl⟩ := List.mem_map.mp htime
    exact ht row (List.mem_filter.mp (List.mem_filter.mp hrow).1).1 _ List.mem_cons_self
  unfold siftWaitingToEnd
  generalize ((t.ofEvent eventId).filter isActive).map Registration.createdAt = times at htimes
  dsimp only
  cases hlatest : times.max? with
  | none => exact ⟨by simp, ht.mono hgrown⟩
  | some latest =>
    cases hearliest : times.min? with
    | none => exact ⟨by simp, ht.mono hgrown⟩
    | some earliest =>
      have hlate := htimes latest (List.max?_eq_some_iff.mp hlatest).1
      have hearly := htimes earliest (List.min?_eq_some_iff.mp hearliest).1
      have horder : earliest ≤ latest :=
        (List.min?_eq_some_iff.mp hearliest).2 latest (List.max?_eq_some_iff.mp hlatest).1
      have hshift : 0 ≤ latest - earliest + microsecond ∧ latest - earliest + microsecond ≤ r + 1 :=
        shift_mem hearly.1 hlate.2 horder
      have hmoved {time : Time} (htime : low ≤ time ∧ time ≤ low + r) :
          low ≤ time + (latest - earliest + microsecond) ∧
            time + (latest - earliest + microsecond) ≤ low + (2 * r + 1) :=
        moved_mem htime hshift
      refine stays_of_query ?_ ?_
      · have hroom' := shift_room hlow hr hroom
        rw [List.all_cons, isTimestamp_iff.mpr ⟨hshift.1, hshift.2.trans hroom'⟩, Bool.true_and,
          List.all_eq_true]
        intro time htime
        obtain ⟨row, hrow, rfl⟩ := List.mem_map.mp htime
        have hin := hmoved (ht row (List.mem_filter.mp hrow).1 _ List.mem_cons_self)
        exact isTimestamp_iff.mpr ⟨hlow.trans hin.1, hin.2.trans hroom⟩
      · intro row' hrow' time htime
        rw [Table.rows_update] at hrow'
        obtain ⟨row, hrow, rfl⟩ := List.mem_map.mp hrow'
        split at htime
        · rcases List.mem_cons.mp htime with rfl | hanswer
          · exact hmoved (ht row hrow _ List.mem_cons_self)
          · exact ht.mono hgrown row hrow time (List.mem_cons_of_mem _ hanswer)
        · exact ht.mono hgrown row hrow time htime

end YdbRegistrations

/-! ## One call on a repository -/

/-- What a call on a repository raises, and the rows that it leaves. -/
abbrev Repository (M : Type) := M → Time → Registrations → Option Fault × Registrations

/-- `MemoryRegistrationRepository`, which keeps the rows of a call that raises. -/
def memoryRepository : Repository RegistrationCall := fun c now t =>
  match c.performWithin now t with
  | .ok (_, t') => (none, t')
  | .error fault => (some fault, t)

/-- `YdbRegistrationRepository` -/
def ydbRepository : Repository RegistrationQuery := fun m now t =>
  let (answer, t') := RegistrationQuery.ydb m now t
  (match answer with
    | .ok _ => none
    | .error fault => some fault, t')

namespace RegistrationQuery

def growth : RegistrationQuery → Growth
  | of c _ => c.growth
  | _ => .none

/-- The queries that are not given an instant. -/
def Queues : RegistrationQuery → Prop
  | of c _ => c.Queues
  | listPageForEvent _ _ => False
  | removeMany _ _ => True

end RegistrationQuery

variable {now low r : Time} {t : Registrations}

/-- What the methods raise besides is no `OverflowError`. -/
theorem RegistrationCall.raised_ne_overflow (c : RegistrationCall)
    (hfits : (c.sums now t).all (· ≤ datetimeMax) = true) :
    c.raised (c.perform now t).1 ≠ some .overflowError := by
  have hstamp {e : EventId} {key : ParticipantKey} {op : OperationId} {f : Registration → Registration}
      {hf : ∀ row, (f row).key = row.key} :
      EventCall.raised.failure (t.stampExisting now e key op f hf).1 ≠ some .overflowError := by
    unfold Registrations.stampExisting
    split <;> simp [EventCall.raised.failure, EventCall.raised.failure]
  cases c with
  | confirm e op key wish replaced replacedKey =>
    show EventCall.raised.failure (t.confirm now e op key wish replaced replacedKey).1 ≠ _
    unfold Registrations.confirm
    split
    · simp [EventCall.raised.failure]
    · split
      · simp [EventCall.raised.failure]
      · split <;> simp [EventCall.raised.failure]
  | confirmLinked e op keys wish replaced replacedKeys =>
    show EventCall.raised.failure (t.confirmLinked now e op keys wish replaced replacedKeys).1 ≠ _
    unfold Registrations.confirmLinked
    split
    · simp [EventCall.raised.failure]
    · split <;> simp [EventCall.raised.failure]
  | updateCharacterWish | updateCoPlayerWish | cancel => exact hstamp
  | siftWaitingToEnd e =>
    show EventCall.raised.failure (t.siftWaitingToEnd e).1 ≠ _
    have hall : ((t.waiting e).all fun row =>
        Registrations.siftedTime row + t.siftShift e ≤ datetimeMax) = true := by
      rw [RegistrationCall.sums, List.all_map] at hfits
      exact hfits
    rw [Registrations.siftWaitingToEnd, if_pos hall]
    simp [EventCall.raised.failure]
  | _ => simp [RegistrationCall.raised]

/-- A call on the memory repository whose queue cannot reach the end of `datetime` does not raise
`OverflowError`, and moves no place further than the queue may reach. -/
theorem memoryRepository_stays {c : RegistrationCall} (hc : c.Queues) (hr : 0 ≤ r)
    (hnow : low ≤ now ∧ now ≤ low + r) (ht : TimesIn low (low + r) t)
    (hroom : low + c.growth.reach r ≤ datetimeMax) :
    (memoryRepository c now t).1 ≠ some .overflowError ∧
      TimesIn low (low + c.growth.reach r) (memoryRepository c now t).2 := by
  have hgrown : low + r ≤ low + c.growth.reach r := Int.add_le_add_left (Growth.le_reach hr _) low
  have hreach := RegistrationCall.fits_reach c hr hnow.2 ht
  have hfits : (c.sums now t).all (· ≤ datetimeMax) = true := RegistrationCall.fits_mono hroom hreach
  have hafter := RegistrationCall.timesIn_perform hc hnow ht hgrown hreach
  unfold memoryRepository RegistrationCall.performWithin
  rw [if_pos hfits]
  cases hraised : c.raised (c.perform now t).1 with
  | none => exact ⟨by simp, hafter⟩
  | some fault =>
    have hother := c.raised_ne_overflow hfits
    rw [hraised] at hother
    exact ⟨hother, ht.mono hgrown⟩

/-- The same of YDB and its timestamps. -/
theorem ydbRepository_stays {m : RegistrationQuery} (hm : m.Queues) (hlow : 0 ≤ low) (hr : 0 ≤ r)
    (hnow : low ≤ now ∧ now ≤ low + r) (ht : TimesIn low (low + r) t)
    (hroom : low + m.growth.reach r ≤ timestampMax) :
    (ydbRepository m now t).1 ≠ some .timestamp ∧
      TimesIn low (low + m.growth.reach r) (ydbRepository m now t).2 := by
  have hgrown : low + r ≤ low + m.growth.reach r := Int.add_le_add_left (Growth.le_reach hr _) low
  have hstamp : isTimestamp now :=
    isTimestamp_iff.mpr ⟨hlow.trans hnow.1, hnow.2.trans (hgrown.trans hroom)⟩
  suffices (RegistrationQuery.ydb m now t).1 ≠ .error .timestamp ∧
      TimesIn low (low + m.growth.reach r) (RegistrationQuery.ydb m now t).2 by
    refine ⟨fun hraised => this.1 ?_, this.2⟩
    unfold ydbRepository at hraised
    dsimp only at hraised
    split at hraised
    · cases hraised
    · next hanswer => rw [hanswer, Option.some.inj hraised]
  cases m with
  | listPageForEvent => exact hm.elim
  | removeMany e keys =>
    show (YdbRegistrations.removeMany t e keys).1 ≠ _ ∧ TimesIn _ _ (YdbRegistrations.removeMany t e keys).2
    unfold YdbRegistrations.removeMany
    split
    · exact ⟨by simp, ht⟩
    · exact ⟨by simp, YdbRegistrations.timesIn_delete ht⟩
  | of c h =>
    cases c with
    | get => exact ⟨by simp [RegistrationQuery.ydb], ht⟩
    | listForEvent => exact ⟨by simp [RegistrationQuery.ydb], ht⟩
    | findByTelegramProfile => exact ⟨by simp [RegistrationQuery.ydb], ht⟩
    | importMissing => exact hm.elim
    | enlist e a => exact YdbRegistrations.stays_enlist hlow hnow ht hroom
    | updateAnswer => exact h.elim
    | updateProfile e op key a => exact YdbRegistrations.stays_of_update a.rewrite hstamp ht fun _ => rfl
    | confirm e op key wish replaced replacedKey =>
      show (YdbRegistrations.confirm t now e op key wish replaced replacedKey).1 ≠ _ ∧
        TimesIn _ _ (YdbRegistrations.confirm t now e op key wish replaced replacedKey).2
      unfold YdbRegistrations.confirm
      split
      · exact ⟨by simp, ht⟩
      · split
        · exact ⟨by simp, ht⟩
        · refine YdbRegistrations.stays_of_update (Registrations.confirmRow wish) hstamp ?_ fun _ => rfl
          split
          · exact YdbRegistrations.timesIn_delete ht
          · exact ht
    | confirmLinked e op keys wish replaced replacedKeys =>
      show (YdbRegistrations.confirmLinked t now e op keys wish replaced replacedKeys).1 ≠ _ ∧
        TimesIn _ _ (YdbRegistrations.confirmLinked t now e op keys wish replaced replacedKeys).2
      unfold YdbRegistrations.confirmLinked
      split
      · exact ⟨by simp, ht⟩
      · split
        · exact ⟨by simp, ht⟩
        · refine YdbRegistrations.stays_of_update (Registrations.confirmRow wish) hstamp ?_ fun _ => rfl
          split
          · exact ht
          · exact YdbRegistrations.timesIn_update ht fun _ => rfl
    | updateCharacterWish e op key wish =>
      exact YdbRegistrations.stays_of_update (fun row => { row with characterWish := wish }) hstamp ht fun _ => rfl
    | updateLinkedCharacterWish e op key wish =>
      exact YdbRegistrations.stays_of_update (fun row => { row with characterWish := wish }) hstamp ht fun _ => rfl
    | updateCoPlayerWish e op key wish =>
      exact YdbRegistrations.stays_of_update (fun row => { row with wishPlay := wish }) hstamp ht fun _ => rfl
    | updateLinkedCoPlayerWish e op key wish =>
      exact YdbRegistrations.stays_of_update (fun row => { row with wishPlay := wish }) hstamp ht fun _ => rfl
    | cancel =>
      exact YdbRegistrations.stays_of_update Registrations.cancelRow hstamp ht fun _ => rfl
    | cancelLinked =>
      exact YdbRegistrations.stays_of_update Registrations.cancelRow hstamp ht fun _ => rfl
    | siftWaitingToEnd e => exact YdbRegistrations.stays_siftWaitingToEnd hlow hr ht hroom
    | swapQueuePositions => exact hm.elim
    | remove => exact ⟨by simp [RegistrationQuery.ydb, YdbRegistrations.remove], YdbRegistrations.timesIn_delete ht⟩
    | deleteForEvent =>
      exact ⟨by simp [RegistrationQuery.ydb, YdbRegistrations.deleteForEvent], YdbRegistrations.timesIn_delete ht⟩

/-! ## Runs -/

section Runs

variable {M : Type} {repository : Repository M} {overflow : Fault} {low high : Time}

/-- The calls are made one after another, each at the instant of its clock: the places are never out of
the range, and no call fails on an instant that is. -/
def StayWithin (repository : Repository M) (overflow : Fault) (low high : Time) :
    List (M × Time) → Registrations → Prop
  | [], t => TimesIn low high t
  | (m, now) :: calls, t => TimesIn low high t ∧ (repository m now t).1 ≠ some overflow ∧
      StayWithin repository overflow low high calls (repository m now t).2

/-- How many of the calls take a new place, -/
def places (growth : M → Growth) (calls : List (M × Time)) : Nat :=
  calls.countP fun call => growth call.1 = .place

/-- and how many are sifts. -/
def sifts (growth : M → Growth) (calls : List (M × Time)) : Nat :=
  calls.countP fun call => growth call.1 = .sift

/-- How far a queue may reach after all of the calls. -/
def reachAfter (growth : M → Growth) (calls : List (M × Time)) (r : Time) : Time :=
  calls.foldl (fun r call => (growth call.1).reach r) r

theorem le_reachAfter {growth : M → Growth} {calls : List (M × Time)} {r : Time} (hr : 0 ≤ r) :
    r ≤ reachAfter growth calls r := by
  induction calls generalizing r with
  | nil => exact le_rfl
  | cons call calls ih =>
    have hstep := (growth call.1).le_reach hr
    exact hstep.trans (ih (hr.trans hstep))

/-- A queue doubles with each sift. -/
theorem reachAfter_lt {growth : M → Growth} {calls : List (M × Time)} {r : Int} (hr : 0 ≤ r) :
    (reachAfter growth calls r : Int) < (r + 1 + places growth calls) * 2 ^ sifts growth calls := by
  induction calls generalizing r with
  | nil =>
    simp only [reachAfter, List.foldl_nil, places, sifts, List.countP_nil, Nat.cast_zero, add_zero,
      pow_zero, mul_one]
    exact lt_add_one r
  | cons call calls ih =>
    have hstep := ih (hr.trans ((growth call.1).le_reach hr))
    refine lt_of_lt_of_le hstep ?_
    simp only [places, sifts, List.countP_cons, decide_eq_true_eq]
    cases growth call.1 with
    | none => simp only [reduceCtorEq, if_false, Growth.reach, add_zero, le_refl]
    | place =>
      simp only [reduceCtorEq, if_true, if_false, Growth.reach, add_zero, Nat.cast_add, Nat.cast_one]
      refine Int.mul_le_mul_of_nonneg_right ?_ (Int.pow_nonneg (by decide))
      omega
    | sift =>
      simp only [reduceCtorEq, if_true, if_false, Growth.reach, add_zero]
      have hpower : (2 : Int) ^ (sifts growth calls + 1) = 2 * 2 ^ sifts growth calls := by
        rw [pow_succ, mul_comm]
      have hplaces : (0 : Int) ≤ places growth calls := Int.natCast_nonneg _
      unfold sifts at hpower
      unfold places at hplaces
      rw [hpower, ← mul_assoc]
      refine Int.mul_le_mul_of_nonneg_right ?_ (Int.pow_nonneg (by decide))
      linarith

/-- A run whose clocks start at `low`, if no call leaves the reach of its queue, stays within the range
that the whole run may reach. -/
theorem stayWithin_of_reach {growth : M → Growth} {legal : M → Prop} {calls : List (M × Time)}
    {t : Registrations} {start r : Time} (hstart : low ≤ start) (hr : 0 ≤ r)
    (hstep : ∀ m now r t, legal m → 0 ≤ r → start ≤ now ∧ now ≤ start + r → TimesIn start (start + r) t →
      start + (growth m).reach r ≤ high → (repository m now t).1 ≠ some overflow ∧
        TimesIn start (start + (growth m).reach r) (repository m now t).2)
    (hcalls : ∀ call ∈ calls, legal call.1 ∧ start ≤ call.2 ∧ call.2 ≤ start + r)
    (ht : TimesIn start (start + r) t) (hroom : start + reachAfter growth calls r ≤ high) :
    StayWithin repository overflow low high calls t := by
  have hin {r : Time} {t : Registrations} (ht : TimesIn start (start + r) t) (hle : start + r ≤ high) :
      TimesIn low high t :=
    fun row hrow time htime => ⟨hstart.trans (ht row hrow time htime).1,
      (ht row hrow time htime).2.trans hle⟩
  induction calls generalizing t r with
  | nil => exact hin ht hroom
  | cons call calls ih =>
    obtain ⟨m, now⟩ := call
    obtain ⟨hlegal, hclock⟩ := hcalls (m, now) List.mem_cons_self
    have hgrown := (growth m).le_reach hr
    have hnext : start + (growth m).reach r ≤ high :=
      (Int.add_le_add_left (le_reachAfter (hr.trans hgrown)) start).trans hroom
    obtain ⟨hraised, hafter⟩ := hstep m now r t hlegal hr hclock ht hnext
    refine ⟨hin ht ((Int.add_le_add_left hgrown start).trans hnext), hraised, ?_⟩
    refine ih (hr.trans hgrown) (fun call hcall => ?_) hafter hroom
    obtain ⟨hlegal, hfrom, hto⟩ := hcalls call (List.mem_cons_of_mem _ hcall)
    exact ⟨hlegal, hfrom, hto.trans (Int.add_le_add_left hgrown start)⟩

theorem reach_room {growth : M → Growth} {calls : List (M × Time)} {start r high : Int} (hr : 0 ≤ r)
    (hfew : start + (r + 1 + places growth calls) * 2 ^ sifts growth calls ≤ high + 1) :
    start + reachAfter growth calls r ≤ high := by
  have hreach : (reachAfter growth calls r : Int) < (r + 1 + places growth calls) * 2 ^ sifts growth calls :=
    reachAfter_lt hr
  have hsum (start reach bound high : Int) (h : reach < bound) (hmax : start + bound ≤ high + 1) :
      start + reach ≤ high := by omega
  exact hsum start _ _ _ hreach hfew

/-- The rows after the calls. -/
def rowsAfter (repository : Repository M) (calls : List (M × Time)) (t : Registrations) : Registrations :=
  calls.foldl (fun t call => (repository call.1 call.2 t).2) t

/-- The last call of a run, too, does not fail. -/
theorem StayWithin.last {calls : List (M × Time)} {t : Registrations} {m : M} {now : Time}
    (h : StayWithin repository overflow low high (calls ++ [(m, now)]) t) :
    (repository m now (rowsAfter repository calls t)).1 ≠ some overflow := by
  induction calls generalizing t with
  | nil => exact h.2.1
  | cons call calls ih => exact ih h.2.2

end Runs

/-- In every run of calls whose clocks start at `low` and span `r`, from rows whose places are among
these instants, the places stay in the range of the repository and no call fails on one that does not, if
the end of the range is not closer to `low` than so many new places and sifts may reach: on `datetime`,
where a sum raises `OverflowError`, and on YDB, where a query fails. -/
theorem stays_within_of_few_sifts {low r : Int} (hr : 0 ≤ r) :
    (∀ (calls : List (RegistrationCall × Time)) (t : Registrations), datetimeMin ≤ low →
      (∀ call ∈ calls, call.1.Queues ∧ low ≤ call.2 ∧ call.2 ≤ low + r) → TimesIn low (low + r) t →
      low + (r + 1 + places RegistrationCall.growth calls) * 2 ^ sifts RegistrationCall.growth calls ≤
        datetimeMax + 1 →
      StayWithin memoryRepository .overflowError datetimeMin datetimeMax calls t) ∧
    ∀ (calls : List (RegistrationQuery × Time)) (t : Registrations), 0 ≤ low →
      (∀ call ∈ calls, call.1.Queues ∧ low ≤ call.2 ∧ call.2 ≤ low + r) → TimesIn low (low + r) t →
      low + (r + 1 + places RegistrationQuery.growth calls) * 2 ^ sifts RegistrationQuery.growth calls ≤
        timestampMax + 1 →
      StayWithin ydbRepository .timestamp 0 timestampMax calls t := by
  constructor
  · intro calls t hlow hcalls ht hfew
    exact stayWithin_of_reach hlow hr (fun _ _ _ _ hlegal hr hclock ht hroom =>
      memoryRepository_stays hlegal hr hclock ht hroom) hcalls ht (reach_room hr hfew)
  · intro calls t hlow hcalls ht hfew
    exact stayWithin_of_reach hlow hr (fun _ _ _ _ hlegal hr hclock ht hroom =>
      ydbRepository_stays hlegal hlow hr hclock ht hroom) hcalls ht (reach_room hr hfew)

/-! ### A confirmation and a sift, again and again -/

section Samples

def firstOfJanuary : Time := 1735689600000000

def oneDay : Time := 86400000000

def newcomer (n : Nat) : Registrations.EnlistArguments where
  operationId := s!"enlist:{n}"
  participantKey := s!"telegram:{n}"
  displayName := "Игрок"
  wishPlay := "нет"

def signUp (n : Nat) (now : Time) : RegistrationQuery × Time :=
  (.of (.enlist "game" (newcomer n)) rfl, now)

def makeSure (n : Nat) (now : Time) : RegistrationQuery × Time :=
  (.of (.confirm "game" s!"confirm:{n}" s!"telegram:{n}" "" none none) trivial, now)

def sift (now : Time) : RegistrationQuery × Time :=
  (.of (.siftWaitingToEnd "game") trivial, now)

/-- A player signs up and confirms, and the waiting rows are sifted. -/
def siftRound (n : Nat) : List (RegistrationQuery × Time) :=
  [signUp n (firstOfJanuary + oneDay), makeSure n (firstOfJanuary + oneDay),
    sift (firstOfJanuary + oneDay)]

/-- One player confirms, another signs up a day later and waits, and more players come. -/
def siftRounds (n : Nat) : List (RegistrationQuery × Time) :=
  [signUp 0 firstOfJanuary, makeSure 0 firstOfJanuary, signUp 1 (firstOfJanuary + oneDay)] ++
    (List.range n).flatMap fun k => siftRound (k + 2)

/-- The same calls on the memory repository. -/
def calls (queries : List (RegistrationQuery × Time)) : List (RegistrationCall × Time) :=
  queries.filterMap fun
    | (.of c _, now) => some (c, now)
    | _ => none

/-- Each sift of the calls is one that the command makes: it moves a row. -/
def siftsMove : List (RegistrationCall × Time) → Registrations → Bool
  | [], _ => true
  | (c, now) :: rest, t =>
    (match c with
      | .siftWaitingToEnd e => siftChanges (activeQueue (t.listForEvent e))
      | _ => true) && siftsMove rest (memoryRepository c now t).2

theorem siftRounds_ordinary (n : Nat) : ∀ call ∈ siftRounds n,
    call.1.Queues ∧ firstOfJanuary ≤ call.2 ∧ call.2 ≤ firstOfJanuary + oneDay := by
  have hday : firstOfJanuary ≤ firstOfJanuary + oneDay := by decide
  intro call hcall
  rcases List.mem_append.mp hcall with hfirst | hround
  · simp only [List.mem_cons, List.not_mem_nil, or_false] at hfirst
    rcases hfirst with rfl | rfl | rfl
    · exact ⟨trivial, le_rfl, hday⟩
    · exact ⟨trivial, le_rfl, hday⟩
    · exact ⟨trivial, hday, le_rfl⟩
  · obtain ⟨k, -, hcall⟩ := List.mem_flatMap.mp hround
    simp only [siftRound, List.mem_cons, List.not_mem_nil, or_false] at hcall
    rcases hcall with rfl | rfl | rfl <;> exact ⟨trivial, hday, le_rfl⟩

theorem calls_ordinary (n : Nat) : ∀ call ∈ calls (siftRounds n),
    call.1.Queues ∧ firstOfJanuary ≤ call.2 ∧ call.2 ≤ firstOfJanuary + oneDay := by
  intro call hcall
  obtain ⟨⟨query, now⟩, hquery, hsome⟩ := List.mem_filterMap.mp hcall
  have hordinary := siftRounds_ordinary n _ hquery
  cases query with
  | of c h =>
    obtain rfl := Option.some.inj hsome
    exact hordinary
  | listPageForEvent | removeMany => exact absurd hsome.symm (Option.some_ne_none call)

/-- Twenty-one rounds are within `datetime`, and fourteen within the timestamps of YDB. -/
theorem siftRounds_stay :
    (StayWithin memoryRepository .overflowError datetimeMin datetimeMax (calls (siftRounds 21)) Table.empty ∧
      siftsMove (calls (siftRounds 21)) Table.empty = true) ∧
    StayWithin ydbRepository .timestamp 0 timestampMax (siftRounds 14) Table.empty := by
  have hboth := @stays_within_of_few_sifts firstOfJanuary oneDay (by decide)
  have hempty : TimesIn firstOfJanuary (firstOfJanuary + oneDay) Table.empty :=
    fun row hrow => absurd hrow List.not_mem_nil
  exact ⟨⟨hboth.1 _ _ (by decide) (calls_ordinary 21) hempty (by decide +kernel), by decide +kernel⟩,
    hboth.2 _ _ (by decide) (siftRounds_ordinary 14) hempty (by decide +kernel)⟩

/-- The sift of the next round raises. -/
theorem siftRounds_overflow :
    (siftsMove (calls (siftRounds 22)) Table.empty = true ∧
      ¬ StayWithin memoryRepository .overflowError datetimeMin datetimeMax (calls (siftRounds 22))
        Table.empty) ∧
    ¬ StayWithin ydbRepository .timestamp 0 timestampMax (siftRounds 15) Table.empty := by
  refine ⟨⟨by decide +kernel, fun hstay => ?_⟩, fun hstay => ?_⟩
  · have hsplit : calls (siftRounds 22) = (calls (siftRounds 22)).dropLast ++
        [(.siftWaitingToEnd "game", firstOfJanuary + oneDay)] := rfl
    rw [hsplit] at hstay
    have hraised : (memoryRepository (.siftWaitingToEnd "game") (firstOfJanuary + oneDay)
        (rowsAfter memoryRepository (calls (siftRounds 22)).dropLast Table.empty)).1 =
          some .overflowError := by
      decide +kernel
    exact hstay.last hraised
  · have hsplit : siftRounds 15 = (siftRounds 15).dropLast ++ [sift (firstOfJanuary + oneDay)] := rfl
    rw [hsplit] at hstay
    have hraised : (ydbRepository (sift (firstOfJanuary + oneDay)).1 (firstOfJanuary + oneDay)
        (rowsAfter ydbRepository (siftRounds 15).dropLast Table.empty)).1 = some .timestamp := by
      decide +kernel
    exact hstay.last hraised

end Samples

end LarpBot
