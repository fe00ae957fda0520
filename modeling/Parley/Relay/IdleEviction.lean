/-
Eviction of idle entries cannot be observed.

The bounded limiter runs beside one that keeps every entry forever.  Address by
address, a tracked entry has a bucket like the kept one, and an entry that was
evicted had a bucket like a full one, provided that a bucket refills within the
idle time.
-/

import Mathlib.Tactic.NormNum.Inv
import Parley.Relay.RateLimit

namespace Parley.Relay

open Library
open Wire (Bytes)

def standing (burst : Nat) (entry : Option IPEntry) : Bucket ℚ :=
  match entry with
  | some e => e.lim
  | none => Bucket.full burst

variable {calls : List Attempt} {call : Attempt}

namespace IPLimiter

def making (l : IPLimiter) (call : Attempt) : GoMap Bytes IPEntry :=
  match l.m.lookup (clientIP call.remoteAddr) with
  | some _ => l.m
  | none => l.relieved call

theorem allow_eq (l : IPLimiter) (call : Attempt) :
    l.allow call = l.charge (l.making call) (clientIP call.remoteAddr)
      (standing l.burst (l.m.lookup (clientIP call.remoteAddr))) call.now := by
  unfold making
  cases found : l.m.lookup (clientIP call.remoteAddr) with
  | none => exact allow_new found
  | some e => exact allow_tracked found

theorem allowForever_eq (l : IPLimiter) (call : Attempt) :
    l.allowForever call = l.charge l.m (clientIP call.remoteAddr)
      (standing l.burst (l.m.lookup (clientIP call.remoteAddr))) call.now := by
  unfold allowForever
  cases found : l.m.lookup (clientIP call.remoteAddr) <;> simp only [found, standing]

def Relievable (l : IPLimiter) (call : Attempt) : Prop :=
  l.m.lookup (clientIP call.remoteAddr) = none → ipLimiterCap ≤ l.m.keys.length →
    ∃ e ∈ l.m.entries, idleAt call.now e = true

theorem lookup_making {l : IPLimiter} (relievable : l.Relievable call) (key : Bytes) :
    (l.making call).lookup key = l.m.lookup key ∨
      (l.making call).lookup key =
        (l.m.lookup key).filter (fun e => !idleAt call.now ⟨key, e⟩) := by
  unfold making
  cases absent : l.m.lookup (clientIP call.remoteAddr) with
  | some e => exact Or.inl rfl
  | none =>
      simp only [relieved]
      split
      · rename_i isFull
        exact Or.inr (lookup_evictLocked_of_idle call.order (relievable absent isFull) key)
      · exact Or.inl rfl

end IPLimiter

/-- The entry of an address beside the one that is kept forever. -/
inductive Stands (limit : ℚ) (burst : Nat) (since : ℚ) : Option IPEntry → Option IPEntry → Prop
  | new : Stands limit burst since none none
  | dropped {kept : IPEntry} (sound : kept.lim.Sound kept.seen) (past : kept.seen ≤ since)
      (alike : Bucket.Alike limit burst since (Bucket.full burst) kept.lim) :
      Stands limit burst since none (some kept)
  | tracked {e kept : IPEntry} (sound : kept.lim.Sound kept.seen) (past : kept.seen ≤ since)
      (same : e.seen = kept.seen) (alike : Bucket.Alike limit burst since e.lim kept.lim) :
      Stands limit burst since (some e) (some kept)

namespace Stands

variable {limit since now : ℚ} {burst : Nat} {entry kept : Option IPEntry}

theorem mono (stands : Stands limit burst since entry kept) (later : since ≤ now) :
    Stands limit burst now entry kept := by
  cases stands with
  | new => exact .new
  | dropped sound past alike => exact .dropped sound (past.trans later) (alike.mono later)
  | tracked sound past same alike =>
      exact .tracked sound (past.trans later) same (alike.mono later)

theorem filter_idle (positive : 0 < limit) (refills : burst ≤ limit * ipIdleTTL) {key : Bytes}
    (stands : Stands limit burst now entry kept) :
    Stands limit burst now (entry.filter (fun e => !idleAt now ⟨key, e⟩)) kept := by
  cases stands with
  | new => exact .new
  | dropped sound past alike => exact .dropped sound past alike
  | @tracked e kept sound past same alike =>
      rw [Option.filter_some]
      cases idle : idleAt now ⟨key, e⟩ with
      | false => exact .tracked sound past same alike
      | true =>
          have isIdle : now - e.seen ≥ ipIdleTTL := of_decide_eq_true idle
          have left : kept.seen + ipIdleTTL ≤ now := by
            rw [← same]
            linarith
          have passed : 0 ≤ ipIdleTTL := by
            unfold ipIdleTTL
            norm_num
          exact .dropped sound past (sound.alike_full positive refills left passed).symm

theorem alike (stands : Stands limit burst since entry kept) :
    Bucket.Alike limit burst since (standing burst entry) (standing burst kept) := by
  cases stands with
  | new => exact Bucket.Alike.refl since _
  | dropped _ _ alike => exact alike
  | tracked _ _ _ alike => exact alike

theorem sound_allow (positive : 0 < limit) (holds : 0 < burst)
    (stands : Stands limit burst now entry kept) :
    (((standing burst kept).allow limit burst now).1).Sound now := by
  have one : (1 : ℚ) ≤ burst := Nat.one_le_cast.mpr holds
  cases stands with
  | new => exact Bucket.sound_full_allow positive one now
  | dropped sound past _ => exact sound.allow past
  | tracked sound past _ _ => exact sound.allow past

theorem charged (positive : 0 < limit) (holds : 0 < burst)
    (stands : Stands limit burst now entry kept) :
    Stands limit burst now
      (some { lim := ((standing burst entry).allow limit burst now).1, seen := now })
      (some { lim := ((standing burst kept).allow limit burst now).1, seen := now }) :=
  .tracked (stands.sound_allow positive holds) (le_refl now) rfl
    (stands.alike.allow (le_refl now)).2

end Stands

/-- The bounded limiter beside the one that keeps every entry. -/
structure Covers (limit : ℚ) (burst : Nat) (since : ℚ) (l forever : IPLimiter) : Prop where
  bounded : l.limit = limit ∧ l.burst = burst
  unbounded : forever.limit = limit ∧ forever.burst = burst
  stands : ∀ key, Stands limit burst since (l.m.lookup key) (forever.m.lookup key)

namespace Covers

variable {limit since : ℚ} {burst : Nat} {l forever : IPLimiter}

theorem start (limit since : ℚ) (burst : Nat) :
    Covers limit burst since (newIPLimiter limit burst) (newIPLimiter limit burst) :=
  ⟨⟨rfl, rfl⟩, ⟨rfl, rfl⟩, fun _ => .new⟩

theorem allow (covers : Covers limit burst since l forever) (positive : 0 < limit)
    (holds : 0 < burst) (refills : burst ≤ limit * ipIdleTTL) (later : since ≤ call.now)
    (relievable : l.Relievable call) :
    (l.allow call).2 = (forever.allowForever call).2 ∧
      Covers limit burst call.now (l.allow call).1 (forever.allowForever call).1 := by
  have stands : ∀ key, Stands limit burst call.now (l.m.lookup key) (forever.m.lookup key) :=
    fun key => (covers.stands key).mono later
  have called := stands (clientIP call.remoteAddr)
  obtain ⟨rfl, rfl⟩ := covers.bounded
  obtain ⟨sameLimit, sameBurst⟩ := covers.unbounded
  rw [l.allow_eq, forever.allowForever_eq]
  unfold IPLimiter.charge
  rw [sameLimit, sameBurst]
  refine ⟨(called.alike.allow (le_refl _)).1, ⟨rfl, rfl⟩, ⟨rfl, rfl⟩, fun key => ?_⟩
  by_cases same : key = clientIP call.remoteAddr
  · subst same
    simp only [AList.lookup_insert]
    exact called.charged positive holds
  · simp only [AList.lookup_insert_ne same]
    rcases IPLimiter.lookup_making relievable key with unchanged | filtered
    · rw [unchanged]
      exact stands key
    · rw [filtered]
      exact (stands key).filter_idle positive refills

theorem attempts (covers : Covers limit burst since l forever) (positive : 0 < limit)
    (holds : 0 < burst) (refills : burst ≤ limit * ipIdleTTL)
    (ordered : calls.Pairwise (fun early late => early.now ≤ late.now))
    (later : ∀ call ∈ calls, since ≤ call.now)
    (relievable : Along (fun l call => some (l.allow call).1) IPLimiter.Relievable l calls) :
    (IPLimiter.attempts IPLimiter.allow l calls).2 =
      (IPLimiter.attempts IPLimiter.allowForever forever calls).2 := by
  induction calls generalizing since l forever with
  | nil => rfl
  | cons call rest ih =>
      obtain ⟨before, ordered⟩ := List.pairwise_cons.mp ordered
      obtain ⟨same, next⟩ := covers.allow positive holds refills
        (later call List.mem_cons_self) relievable.1
      have tail := ih next ordered before (relievable.2 _ rfl)
      simp only [IPLimiter.attempts, same, tail]

end Covers

/-! ### A bucket that refills slowly -/

theorem attempts_result (one : IPLimiter → Attempt → IPLimiter × Bool) (l : IPLimiter)
    (early : List Attempt) (call : Attempt) :
    (IPLimiter.attempts one l (early ++ [call])).2.getLast? =
      some (one (IPLimiter.attempts one l early).1 call).2 := by
  rw [attempts_append]
  exact List.getLast?_concat

theorem attempts_forever {ip : Bytes} (others : ∀ call ∈ calls, clientIP call.remoteAddr ≠ ip)
    (l : IPLimiter) :
    let later := (IPLimiter.attempts IPLimiter.allowForever l calls).1
    later.limit = l.limit ∧ later.burst = l.burst ∧ later.m.lookup ip = l.m.lookup ip := by
  induction calls generalizing l with
  | nil => exact ⟨rfl, rfl, rfl⟩
  | cons call rest ih =>
      simp only [IPLimiter.attempts, l.allowForever_eq]
      obtain ⟨limit, burst, lookup⟩ := ih
        (fun other present => others other (List.mem_cons_of_mem _ present))
        (l.charge l.m (clientIP call.remoteAddr)
          (standing l.burst (l.m.lookup (clientIP call.remoteAddr))) call.now).1
      refine ⟨limit, burst, lookup.trans ?_⟩
      exact AList.lookup_insert_ne (others call List.mem_cons_self).symm

theorem run_allow (l : IPLimiter) (calls : List Attempt) :
    run (fun l call => some (l.allow call).1) l calls =
      some (IPLimiter.attempts IPLimiter.allow l calls).1 := by
  induction calls generalizing l with
  | nil => rfl
  | cons call rest ih => exact ih (l.allow call).1

theorem IPLimiter.keys_length_allow (l : IPLimiter) (call : Attempt) :
    (l.allow call).1.m.keys.length ≤ l.m.keys.length + 1 := by
  have within : ∀ key, key ∈ l.making call → key ∈ l.m := by
    intro key member
    unfold making at member
    split at member
    · exact member
    · exact mem_of_mem_relieved member
  rw [l.allow_eq]
  exact (keys_length_insert_le _ _ _).trans (Nat.succ_le_succ (keys_length_le within))

theorem along_of_room {l : IPLimiter} (room : l.m.keys.length + calls.length ≤ ipLimiterCap) :
    Along (fun l call => some (l.allow call).1) IPLimiter.Relievable l calls := by
  induction calls generalizing l with
  | nil => trivial
  | cons call rest ih =>
      rw [List.length_cons] at room
      refine ⟨fun _ isFull => absurd isFull (by omega), fun next stepped => ?_⟩
      cases stepped
      have grown := l.keys_length_allow call
      exact ih (by omega)

theorem arrivals_length (first : Nat) (now : ℚ) (count : Nat) :
    (arrivals first now count).length = count := by
  induction count generalizing first with
  | zero => rfl
  | succ count ih => exact congrArg Nat.succ (ih (first + 1))

/-- A client, and `count` others at the same time. -/
def crowd (count : Nat) : List Attempt :=
  { remoteAddr := ascii "A", now := 0, order := MapOrder.listed } :: arrivals 0 0 count

def newcomer (count : Nat) : Attempt :=
  { remoteAddr := formatNat count
    now := ipIdleTTL
    order := MapOrder.listed }

def returning : Attempt :=
  { remoteAddr := ascii "A"
    now := ipIdleTTL
    order := MapOrder.listed }

theorem letter_ne_formatNat (number : Nat) : ascii "A" ≠ formatNat number := by
  intro same
  have member : (65 : UInt8) ∈ formatNat number := by
    rw [← same]
    decide
  have range := formatNat_range member
  revert range
  decide

section

variable (limit : ℚ) (burst : Nat) {count : Nat}

theorem crowded_crowd (room : 1 + count ≤ ipLimiterCap) :
    Crowded (afterFirst limit burst (ascii "A") 0)
      (IPLimiter.attempts IPLimiter.allow (newIPLimiter limit burst) (crowd count)).1 0 count 0 := by
  have first : ((newIPLimiter limit burst).allow
      { remoteAddr := ascii "A", now := 0, order := MapOrder.listed }).1 =
        afterFirst limit burst (ascii "A") 0 :=
    allow_first limit burst _
  simp only [crowd, IPLimiter.attempts, first]
  refine crowded_arrivals 0 count ?_ (fun number _ => ?_)
  · rw [afterFirst_size]
    exact room
  · exact afterFirst_other limit burst 0 (letter_ne_formatNat number).symm

theorem forgotten (isFull : 1 + count = ipLimiterCap) :
    let filled := (IPLimiter.attempts IPLimiter.allow (newIPLimiter limit burst) (crowd count)).1
    filled.Relievable (newcomer count) ∧
      (filled.allow (newcomer count)).1.m.keys.length = 1 ∧
      (filled.allow (newcomer count)).1.m.lookup (ascii "A") = none ∧
      (filled.allow (newcomer count)).1.limit = limit ∧
      (filled.allow (newcomer count)).1.burst = burst := by
  have fills := crowded_crowd limit burst isFull.le
  revert fills
  generalize (IPLimiter.attempts IPLimiter.allow (newIPLimiter limit burst) (crowd count)).1 =
    filled
  intro fills
  have idle : ∀ e ∈ filled.m.entries, idleAt ipIdleTTL e = true := by
    intro e present
    refine decide_eq_true ?_
    rcases fills.entries present with ⟨_, seen⟩ | seen
    · rw [seen, sub_zero]
    · rw [seen, sub_zero]
  have known : filled.m.lookup (ascii "A") = _ :=
    (fills.others _ letter_ne_formatNat).trans (afterFirst_self limit burst _ 0)
  have someIdle : ∃ e ∈ filled.m.entries, idleAt ipIdleTTL e = true :=
    ⟨_, AList.mem_lookup_iff.mp known, idle _ (AList.mem_lookup_iff.mp known)⟩
  have size : filled.m.keys.length = ipLimiterCap := fills.size.trans (by
    rw [afterFirst_size, isFull])
  have emptied : ∀ key, (filled.relieved (newcomer count)).lookup key = none := by
    intro key
    rw [IPLimiter.relieved, if_pos (le_of_eq size.symm)]
    refine (lookup_evictLocked_of_idle _ someIdle key).trans ?_
    refine Option.filter_eq_none_iff.mpr (fun e found => ?_)
    rw [idle ⟨key, e⟩ (AList.mem_lookup_iff.mp found)]
    decide
  have absent : filled.m.lookup (clientIP (newcomer count).remoteAddr) = none := by
    rw [newcomer, clientIP_formatNat]
    exact fills.beyond count (Nat.zero_add count).le
  have called := IPLimiter.allow_new absent
  have caller : clientIP (newcomer count).remoteAddr = formatNat count := clientIP_formatNat count
  rw [caller] at called
  have notThere : ∀ key, key ∉ filled.relieved (newcomer count) := fun key member => by
    have isSome := AList.lookup_isSome.mpr member
    rw [emptied key] at isSome
    cases isSome
  have nothing : (filled.relieved (newcomer count)).keys.length ≤
      (∅ : GoMap Bytes IPEntry).keys.length :=
    keys_length_le (fun key member => absurd member (notThere key))
  refine ⟨fun _ _ => someIdle, ?_, ?_, ?_, ?_⟩
  · rw [called]
    exact (keys_length_insert (notThere _) _).trans (congrArg (· + 1) (Nat.le_zero.mp nothing))
  · rw [called]
    exact (AList.lookup_insert_ne (letter_ne_formatNat count)).trans (emptied _)
  · rw [called]
    exact fills.limit
  · rw [called]
    exact fills.burst

theorem remembered (limit : ℚ) (burst count : Nat) :
    let later := (IPLimiter.attempts IPLimiter.allowForever (newIPLimiter limit burst)
      (crowd count ++ [newcomer count])).1
    later.limit = limit ∧ later.burst = burst ∧
      later.m.lookup (ascii "A") =
        some { lim := ((Bucket.full (burst : ℚ)).allow limit burst 0).1, seen := 0 } := by
  have others : ∀ call ∈ arrivals 0 0 count ++ [newcomer count],
      clientIP call.remoteAddr ≠ ascii "A" := by
    intro call member
    obtain ⟨number, named⟩ : ∃ number, call.remoteAddr = formatNat number := by
      rcases List.mem_append.mp member with arrived | last
      · exact (mem_arrivals arrived).2
      · exact ⟨count, congrArg Attempt.remoteAddr (List.mem_singleton.mp last)⟩
    rw [named, clientIP_formatNat]
    exact (letter_ne_formatNat number).symm
  obtain ⟨sameLimit, sameBurst, same⟩ :=
    attempts_forever others (afterFirst limit burst (ascii "A") 0)
  exact ⟨sameLimit, sameBurst, same.trans (afterFirst_self limit burst _ 0)⟩

theorem crowd_ordered (count : Nat) :
    (crowd count ++ [newcomer count, returning]).Pairwise
      (fun early late => early.now ≤ late.now) := by
  have early : ∀ call ∈ crowd count, call.now = 0 := by
    intro call member
    rcases List.mem_cons.mp member with rfl | arrived
    · rfl
    · exact (mem_arrivals arrived).1
  have late : ∀ call ∈ [newcomer count, returning], call.now = ipIdleTTL :=
    List.forall_mem_cons.mpr ⟨rfl, List.forall_mem_singleton.mpr rfl⟩
  refine List.pairwise_append.mpr ⟨?_, ?_, fun first inCrowd second after => ?_⟩
  · refine List.pairwise_of_forall_mem_list (fun first inCrowd second also => ?_)
    rw [early first inCrowd, early second also]
  · refine List.pairwise_of_forall_mem_list (fun first after second also => ?_)
    rw [late first after, late second also]
  · rw [early first inCrowd, late second after]
    norm_num [ipIdleTTL]

theorem crowd_relievable (limit : ℚ) (burst : Nat) (isFull : 1 + count = ipLimiterCap) :
    Along (fun l call => some (l.allow call).1) IPLimiter.Relievable (newIPLimiter limit burst)
      (crowd count ++ [newcomer count, returning]) := by
  refine Along.append (along_of_room ?_) (fun filled reached => ?_)
  · have size : (newIPLimiter limit burst).m.keys.length = 0 := rfl
    rw [size, crowd, List.length_cons, arrivals_length]
    omega
  · rw [run_allow] at reached
    cases reached
    obtain ⟨relievable, small, _⟩ := forgotten limit burst isFull
    refine ⟨relievable, fun next stepped => along_of_room ?_⟩
    cases stepped
    rw [small]
    decide

end

/-- If a bucket refills within the idle time, then calls at non-decreasing times have
the results they would have if every entry was kept forever. -/
theorem eviction_unobservable (limit : ℚ) (burst : Nat) (calls : List Attempt)
    (positive : 0 < limit) (holds : 0 < burst) (refills : burst ≤ limit * ipIdleTTL)
    (ordered : calls.Pairwise (fun early late => early.now ≤ late.now))
    (relievable : Along (fun l call => some (l.allow call).1) IPLimiter.Relievable
      (newIPLimiter limit burst) calls) :
    (IPLimiter.attempts IPLimiter.allow (newIPLimiter limit burst) calls).2 =
      (IPLimiter.attempts IPLimiter.allowForever (newIPLimiter limit burst) calls).2 := by
  cases calls with
  | nil => rfl
  | cons call rest =>
      refine (Covers.start limit call.now burst).attempts positive holds refills ordered ?_
        relievable
      intro other member
      rcases List.mem_cons.mp member with rfl | later
      · exact le_refl _
      · exact (List.pairwise_cons.mp ordered).1 other later

/-- The default rate and burst: the newcomer makes the full map drop every client, and
the one that returns is treated as if it had been kept. -/
theorem eviction_unobservable_crowd :
    (IPLimiter.attempts IPLimiter.allow (newIPLimiter (1 / 12) 5)
        (crowd 16383)).1.m.keys.length = ipLimiterCap ∧
      (IPLimiter.attempts IPLimiter.allow (newIPLimiter (1 / 12) 5)
        (crowd 16383 ++ [newcomer 16383])).1.m.keys.length = 1 ∧
      (IPLimiter.attempts IPLimiter.allow (newIPLimiter (1 / 12) 5)
          (crowd 16383 ++ [newcomer 16383, returning])).2 =
        (IPLimiter.attempts IPLimiter.allowForever (newIPLimiter (1 / 12) 5)
          (crowd 16383 ++ [newcomer 16383, returning])).2 := by
  refine ⟨?_, ?_, ?_⟩
  · rw [(crowded_crowd (1 / 12) 5 (Nat.le_refl (1 + 16383))).size, afterFirst_size]
    rfl
  · rw [attempts_snoc]
    exact (forgotten (1 / 12) 5 rfl).2.1
  · exact eviction_unobservable (1 / 12) 5 _ (by norm_num) (by decide) (by norm_num [ipIdleTTL])
      (crowd_ordered 16383) (crowd_relievable _ _ rfl)

/-- One token an hour: the bucket of a client is empty at first, evicted after the
idle time, and full when the client returns. -/
theorem slow_bucket_forgiven :
    ¬∀ (limit : ℚ) (burst : Nat) (calls : List Attempt), 0 < limit → 0 < burst →
      calls.Pairwise (fun early late => early.now ≤ late.now) →
      Along (fun l call => some (l.allow call).1) IPLimiter.Relievable
        (newIPLimiter limit burst) calls →
      (IPLimiter.attempts IPLimiter.allow (newIPLimiter limit burst) calls).2 =
        (IPLimiter.attempts IPLimiter.allowForever (newIPLimiter limit burst) calls).2 := by
  intro claimed
  obtain ⟨count, isFull⟩ : ∃ count, 1 + count = ipLimiterCap := ⟨16383, rfl⟩
  have same := claimed (1 / 3600) 1 (crowd count ++ [newcomer count, returning]) (by norm_num)
    (by decide) (crowd_ordered count) (crowd_relievable _ _ isFull)
  have split : crowd count ++ [newcomer count, returning] =
      (crowd count ++ [newcomer count]) ++ [returning] :=
    (List.append_assoc (crowd count) [newcomer count] [returning]).symm
  have last := congrArg List.getLast? same
  rw [split, attempts_result, attempts_result, attempts_snoc] at last
  obtain ⟨_, _, absent, limited, sized⟩ := forgotten (1 / 3600) 1 isFull
  obtain ⟨keptLimit, keptBurst, kept⟩ := remembered (1 / 3600) 1 count
  have caller : clientIP returning.remoteAddr = ascii "A" := by decide
  rw [IPLimiter.allow_eq, IPLimiter.allowForever_eq, caller, absent, kept] at last
  unfold IPLimiter.charge at last
  rw [limited, sized, keptLimit, keptBurst] at last
  have fresh : ((standing 1 none).allow (1 / 3600) ((1 : Nat) : ℚ) ipIdleTTL).2 = true := by
    decide +kernel
  have empty : (((Bucket.full ((1 : Nat) : ℚ)).allow (1 / 3600) ((1 : Nat) : ℚ) 0).1.allow
      (1 / 3600) ((1 : Nat) : ℚ) ipIdleTTL).2 = false := by
    decide +kernel
  exact Bool.noConfusion (fresh.symm.trans ((Option.some.inj last).trans empty))

end Parley.Relay
