/-
The rate limiter of connection attempts.

One token bucket per client address, in a map of bounded size.  A full map is
relieved before an insertion: of every entry that was idle for long enough, or
else of the one seen least recently.  Times are exact numbers of seconds, and the
map is passed over in an order that may differ from call to call.
-/

import Mathlib.Data.Rat.Floor
import Parley.Library.AssocList
import Parley.Library.Run
import Parley.Library.RunningLeast
import Parley.Library.Text
import Parley.Library.TokenBucket
import Parley.Wire

namespace Parley.Relay

open Library
open Wire (Bytes)

def cutLast (separator : UInt8) (text : Bytes) : Option (Bytes × Bytes) :=
  (cut separator text.reverse).map (fun parts => (parts.2.reverse, parts.1.reverse))

/-- The host of `net.SplitHostPort`; an error is absent.  The port follows the last
colon, and brackets stand around a host with colons. -/
def splitHostPort (hostport : Bytes) : Option Bytes :=
  (cutLast 58 hostport).bind (fun last =>
    if hostport.head? = some 91 then
      (cut 93 hostport).bind (fun bracket =>
        if last.1 = bracket.1 ++ [93] ∧ 91 ∉ hostport.tail ∧ 93 ∉ bracket.2 then
          some bracket.1.tail
        else none)
    else if 58 ∈ last.1 ∨ 91 ∈ hostport ∨ 93 ∈ hostport then none
    else some last.1)

def clientIP (remoteAddr : Bytes) : Bytes :=
  (splitHostPort remoteAddr).getD remoteAddr

structure IPEntry where
  lim : Bucket ℚ
  seen : ℚ

abbrev Tracked : Type := (_ : Bytes) × IPEntry

structure IPLimiter where
  m : GoMap Bytes IPEntry
  limit : ℚ
  burst : Nat

def ipLimiterCap : Nat := 16384

def ipIdleTTL : ℚ := 120

structure MapOrder (α : Type) where
  arrange : List α → List α
  perm : ∀ items, (arrange items).Perm items

def newIPLimiter (limit : ℚ) (burst : Nat) : IPLimiter :=
  { m := ∅
    limit := limit
    burst := burst }

def idleAt (now : ℚ) (e : Tracked) : Bool :=
  now - e.2.seen ≥ ipIdleTTL

/-- The variables of the loop; the key is empty while no entry was kept. -/
structure Eviction where
  m : GoMap Bytes IPEntry
  oldestKey : Bytes
  oldestSeen : ℚ
  freed : Bool

def Eviction.start (m : GoMap Bytes IPEntry) : Eviction :=
  { m := m
    oldestKey := []
    oldestSeen := 0
    freed := false }

def evictTurn (now : ℚ) (s : Eviction) (e : Tracked) : Eviction :=
  if idleAt now e then
    { s with
      m := s.m.erase e.1
      freed := true }
  else if s.oldestKey = [] ∨ e.2.seen < s.oldestSeen then
    { s with
      oldestKey := e.1
      oldestSeen := e.2.seen }
  else s

def evictLocked (m : GoMap Bytes IPEntry) (order : MapOrder Tracked) (now : ℚ) :
    GoMap Bytes IPEntry :=
  let s := (order.arrange m.entries).foldl (evictTurn now) (Eviction.start m)
  if s.freed = false ∧ s.oldestKey ≠ [] then s.m.erase s.oldestKey else s.m

structure Attempt where
  remoteAddr : Bytes
  now : ℚ
  order : MapOrder Tracked

namespace IPLimiter

/-- A call charged to a bucket, which is then the entry of the address. -/
def charge (l : IPLimiter) (m : GoMap Bytes IPEntry) (ip : Bytes) (lim : Bucket ℚ) (now : ℚ) :
    IPLimiter × Bool :=
  let result := lim.allow l.limit l.burst now
  ({ l with m := m.insert ip { lim := result.1, seen := now } }, result.2)

def relieved (l : IPLimiter) (call : Attempt) : GoMap Bytes IPEntry :=
  if l.m.keys.length ≥ ipLimiterCap then evictLocked l.m call.order call.now else l.m

def allow (l : IPLimiter) (call : Attempt) : IPLimiter × Bool :=
  let ip := clientIP call.remoteAddr
  match l.m.lookup ip with
  | some e => l.charge l.m ip e.lim call.now
  | none => l.charge (l.relieved call) ip (Bucket.full l.burst) call.now

def allowForever (l : IPLimiter) (call : Attempt) : IPLimiter × Bool :=
  let ip := clientIP call.remoteAddr
  match l.m.lookup ip with
  | some e => l.charge l.m ip e.lim call.now
  | none => l.charge l.m ip (Bucket.full l.burst) call.now

def attempts (one : IPLimiter → Attempt → IPLimiter × Bool) (l : IPLimiter) :
    List Attempt → IPLimiter × List Bool
  | [] => (l, [])
  | call :: rest =>
      let first := one l call
      let later := attempts one first.1 rest
      (later.1, first.2 :: later.2)

end IPLimiter

def eraseTracked (m : GoMap Bytes IPEntry) (e : Tracked) : GoMap Bytes IPEntry :=
  m.erase e.1

theorem foldl_evictTurn_m (now : ℚ) (entries : List Tracked) (s : Eviction) :
    (entries.foldl (evictTurn now) s).m = (entries.filter (idleAt now)).foldl eraseTracked s.m ∧
      (entries.foldl (evictTurn now) s).freed = (s.freed || entries.any (idleAt now)) := by
  induction entries generalizing s with
  | nil => exact ⟨rfl, (Bool.or_false _).symm⟩
  | cons e rest ih =>
      rw [List.foldl_cons]
      obtain ⟨erased, freed⟩ := ih (evictTurn now s e)
      rw [erased, freed, List.any_cons]
      by_cases idle : idleAt now e = true
      · rw [List.filter_cons_of_pos idle]
        simp only [evictTurn, idle, if_true, Bool.true_or, Bool.or_true, List.foldl_cons]
        exact ⟨rfl, trivial⟩
      · rw [List.filter_cons_of_neg idle]
        rw [Bool.not_eq_true] at idle
        simp only [evictTurn, idle, Bool.false_eq_true, if_false, Bool.false_or]
        split <;> exact ⟨rfl, rfl⟩

theorem foldl_evictTurn_start (now : ℚ) (entries : List Tracked) (m : GoMap Bytes IPEntry) :
    (entries.foldl (evictTurn now) (Eviction.start m)).m =
        (entries.filter (idleAt now)).foldl eraseTracked m ∧
      (entries.foldl (evictTurn now) (Eviction.start m)).freed = entries.any (idleAt now) := by
  obtain ⟨erased, freed⟩ := foldl_evictTurn_m now entries (Eviction.start m)
  exact ⟨erased, freed.trans (Bool.false_or _)⟩

def seenBefore (e other : Tracked) : Prop :=
  e.2.seen < other.2.seen

instance : DecidableRel seenBefore := fun e other =>
  inferInstanceAs (Decidable (e.2.seen < other.2.seen))

def oldest (best : Option Tracked) : Bytes × ℚ :=
  match best with
  | none => ([], 0)
  | some e => (e.1, e.2.seen)

theorem kept_seenBefore (entries : List Tracked) :
    Kept seenBefore entries (entries.foldl (keepLeast seenBefore) none) := by
  have irrefl : ∀ e, ¬seenBefore e e := fun e => lt_irrefl e.2.seen
  have trans : ∀ a b c, seenBefore a b → seenBefore b c → seenBefore a c :=
    fun _ _ _ earlier later => lt_trans earlier later
  exact kept_foldl irrefl trans entries

variable {l : IPLimiter} {key : Bytes} {best : Option Tracked} {number count : Nat} {e : Tracked}

theorem oldest_keepLeast (named : ∀ e ∈ best, e.1 ≠ []) (e : Tracked) :
    oldest (keepLeast seenBefore best e) =
      if (oldest best).1 = [] ∨ e.2.seen < (oldest best).2 then (e.1, e.2.seen)
      else oldest best := by
  cases best with
  | none => rfl
  | some kept =>
      have notEmpty : ¬(oldest (some kept)).1 = [] := named kept rfl
      by_cases earlier : e.2.seen < kept.2.seen
      · have before : seenBefore e kept := earlier
        simp only [keepLeast, if_pos before]
        exact (if_pos (Or.inr earlier)).symm
      · have notBefore : ¬seenBefore e kept := earlier
        simp only [keepLeast, if_neg notBefore]
        exact (if_neg (not_or.mpr ⟨notEmpty, earlier⟩)).symm

theorem named_keepLeast (named : ∀ e ∈ best, e.1 ≠ []) (notEmpty : e.1 ≠ []) :
    ∀ kept ∈ keepLeast seenBefore best e, kept.1 ≠ [] := by
  intro kept member
  cases best with
  | none => exact Option.some.inj member ▸ notEmpty
  | some least =>
      simp only [keepLeast] at member
      split at member
      · exact Option.some.inj member ▸ notEmpty
      · exact Option.some.inj member ▸ named least rfl

theorem foldl_evictTurn_oldest {now : ℚ} {entries : List Tracked}
    (named : ∀ e ∈ entries, e.1 ≠ []) (active : ∀ e ∈ entries, idleAt now e = false)
    {best : Option Tracked} (bestNamed : ∀ e ∈ best, e.1 ≠ []) {s : Eviction}
    (holding : (s.oldestKey, s.oldestSeen) = oldest best) :
    ((entries.foldl (evictTurn now) s).oldestKey, (entries.foldl (evictTurn now) s).oldestSeen) =
      oldest (entries.foldl (keepLeast seenBefore) best) := by
  induction entries generalizing best s with
  | nil => exact holding
  | cons e rest ih =>
      refine ih (fun other present => named other (List.mem_cons_of_mem _ present))
        (fun other present => active other (List.mem_cons_of_mem _ present))
        (named_keepLeast bestNamed (named e List.mem_cons_self)) ?_
      rw [oldest_keepLeast bestNamed, ← holding]
      simp only [evictTurn, active e List.mem_cons_self, Bool.false_eq_true, if_false]
      split <;> rfl

theorem lookup_foldl_eraseTracked (m : GoMap Bytes IPEntry) (entries : List Tracked) (key : Bytes) :
    (entries.foldl eraseTracked m).lookup key =
      if key ∈ entries.map Sigma.fst then none else m.lookup key := by
  induction entries generalizing m with
  | nil => rfl
  | cons e rest ih =>
      rw [List.foldl_cons, ih, List.map_cons]
      by_cases later : key ∈ rest.map Sigma.fst
      · rw [if_pos later, if_pos (List.mem_cons_of_mem _ later)]
      · rw [if_neg later]
        unfold eraseTracked
        by_cases here : key = e.1
        · rw [if_pos (here ▸ List.mem_cons_self), here, AList.lookup_erase]
        · rw [if_neg (fun member => (List.mem_cons.mp member).elim here later),
            AList.lookup_erase_ne here]

section

variable {m : GoMap Bytes IPEntry} {now : ℚ} (order : MapOrder Tracked)

theorem lookup_evictLocked_of_idle (idle : ∃ e ∈ m.entries, idleAt now e = true) (key : Bytes) :
    (evictLocked m order now).lookup key =
      (m.lookup key).filter (fun e => !idleAt now ⟨key, e⟩) := by
  have arranged := order.perm m.entries
  obtain ⟨erased, freed⟩ := foldl_evictTurn_start now (order.arrange m.entries) m
  have frees : (order.arrange m.entries).any (idleAt now) = true := by
    obtain ⟨e, present, isIdle⟩ := idle
    exact List.any_eq_true.mpr ⟨e, arranged.mem_iff.mpr present, isIdle⟩
  rw [frees] at freed
  unfold evictLocked
  simp only [freed, Bool.true_eq_false, false_and, if_false]
  rw [erased, lookup_foldl_eraseTracked]
  have listed : key ∈ ((order.arrange m.entries).filter (idleAt now)).map Sigma.fst ↔
      ∃ e, m.lookup key = some e ∧ idleAt now ⟨key, e⟩ = true := by
    constructor
    · intro member
      obtain ⟨e, present, rfl⟩ := List.mem_map.mp member
      obtain ⟨inOrder, isIdle⟩ := List.mem_filter.mp present
      exact ⟨e.2, AList.mem_lookup_iff.mpr (arranged.mem_iff.mp inOrder), isIdle⟩
    · rintro ⟨e, found, isIdle⟩
      have present := arranged.mem_iff.mpr (AList.mem_lookup_iff.mp found)
      exact List.mem_map.mpr ⟨⟨key, e⟩, List.mem_filter.mpr ⟨present, isIdle⟩, rfl⟩
  cases found : m.lookup key with
  | none =>
      rw [Option.filter_none]
      split <;> rfl
  | some e =>
      rw [Option.filter_some]
      by_cases isIdle : idleAt now ⟨key, e⟩ = true
      · rw [if_pos (listed.mpr ⟨e, found, isIdle⟩), isIdle]
        rfl
      · rw [if_neg, Bool.eq_false_iff.mpr isIdle]
        · rfl
        · intro member
          obtain ⟨other, same, otherIdle⟩ := listed.mp member
          rw [found] at same
          exact isIdle (Option.some.inj same ▸ otherIdle)

theorem evictLocked_of_active (active : ∀ e ∈ m.entries, idleAt now e = false)
    (named : ∀ e ∈ m.entries, e.1 ≠ []) (some_ : m.entries ≠ []) :
    ∃ e ∈ m.entries, (∀ other ∈ m.entries, e.2.seen ≤ other.2.seen) ∧
      evictLocked m order now = m.erase e.1 := by
  have arranged := order.perm m.entries
  have activeToo : ∀ e ∈ order.arrange m.entries, idleAt now e = false := fun e present =>
    active e (arranged.mem_iff.mp present)
  have namedToo : ∀ e ∈ order.arrange m.entries, e.1 ≠ [] := fun e present =>
    named e (arranged.mem_iff.mp present)
  obtain ⟨erased, freed⟩ := foldl_evictTurn_start now (order.arrange m.entries) m
  have loop := @foldl_evictTurn_oldest now _ namedToo activeToo none (fun _ none_ => by cases none_)
    (Eviction.start m) rfl
  have nothingIdle : (order.arrange m.entries).filter (idleAt now) = [] :=
    List.filter_eq_nil_iff.mpr (fun e present => by rw [activeToo e present]; decide)
  have noneIdle : (order.arrange m.entries).any (idleAt now) = false :=
    List.any_eq_false.mpr (fun e present => by rw [activeToo e present]; decide)
  rw [nothingIdle] at erased
  rw [noneIdle] at freed
  have kept := kept_seenBefore (order.arrange m.entries)
  cases best : (order.arrange m.entries).foldl (keepLeast seenBefore) none with
  | none =>
      rw [best] at kept
      have nothing : order.arrange m.entries = [] := kept
      rw [nothing] at arranged
      exact absurd arranged.nil_eq.symm some_
  | some e =>
      rw [best] at kept loop
      have least : Least seenBefore (order.arrange m.entries) e := kept
      have present := arranged.mem_iff.mp least.mem
      refine ⟨e, present, fun other otherIn => ?_, ?_⟩
      · exact not_lt.mp (least.first other (arranged.mem_iff.mpr otherIn))
      · have key : ((order.arrange m.entries).foldl (evictTurn now)
            (Eviction.start m)).oldestKey = e.1 :=
          congrArg Prod.fst loop
        unfold evictLocked
        simp only [freed, true_and, key, erased, List.foldl_nil]
        exact if_pos (named e present)

theorem keys_length_evictLocked (named : ∀ e ∈ m.entries, e.1 ≠ []) (some_ : m.entries ≠ []) :
    (evictLocked m order now).keys.length < m.keys.length := by
  by_cases idle : ∃ e ∈ m.entries, idleAt now e = true
  · obtain ⟨e, present, isIdle⟩ := idle
    have found : m.lookup e.1 = some e.2 := AList.mem_lookup_iff.mpr present
    have within : ∀ key, key ∈ evictLocked m order now → key ∈ m.erase e.1 := by
      intro key member
      obtain ⟨kept, isKept⟩ := Option.isSome_iff_exists.mp (AList.lookup_isSome.mpr member)
      rw [lookup_evictLocked_of_idle order ⟨e, present, isIdle⟩] at isKept
      obtain ⟨inMap, notIdle⟩ := Option.filter_eq_some_iff.mp isKept
      refine AList.mem_erase.mpr ⟨?_, mem_of_lookup inMap⟩
      rintro rfl
      rw [found] at inMap
      cases inMap
      rw [isIdle] at notIdle
      cases notIdle
    have fewer := keys_length_le within
    have less := keys_length_erase found
    omega
  · have active : ∀ e ∈ m.entries, idleAt now e = false := fun e present =>
      Bool.eq_false_iff.mpr (fun isIdle => idle ⟨e, present, isIdle⟩)
    obtain ⟨e, present, _, evicted⟩ := evictLocked_of_active order active named some_
    have less := keys_length_erase (AList.mem_lookup_iff.mpr present)
    rw [evicted]
    omega

theorem mem_of_mem_evictLocked (member : key ∈ evictLocked m order now) :
    key ∈ m := by
  obtain ⟨erased, _⟩ := foldl_evictTurn_start now (order.arrange m.entries) m
  have ofLoop : key ∈ ((order.arrange m.entries).foldl (evictTurn now)
      (Eviction.start m)).m → key ∈ m := by
    intro kept
    have isSome := AList.lookup_isSome.mpr kept
    rw [erased, lookup_foldl_eraseTracked] at isSome
    split at isSome
    · cases isSome
    · exact AList.lookup_isSome.mp isSome
  unfold evictLocked at member
  simp only at member
  split at member
  · exact ofLoop (AList.mem_erase.mp member).2
  · exact ofLoop member

end

namespace IPLimiter

variable {call : Attempt}

theorem mem_of_mem_relieved (member : key ∈ l.relieved call) : key ∈ l.m := by
  unfold relieved at member
  split at member
  · exact mem_of_mem_evictLocked call.order member
  · exact member

theorem allow_tracked {e : IPEntry} (found : l.m.lookup (clientIP call.remoteAddr) = some e) :
    l.allow call = l.charge l.m (clientIP call.remoteAddr) e.lim call.now := by
  unfold allow
  simp only [found]

theorem allow_new {l : IPLimiter} {call : Attempt}
    (absent : l.m.lookup (clientIP call.remoteAddr) = none) :
    l.allow call =
      l.charge (l.relieved call) (clientIP call.remoteAddr) (Bucket.full l.burst) call.now := by
  unfold allow
  simp only [absent]

/-- The map is within its bound and has no empty key. -/
structure Bounded (l : IPLimiter) : Prop where
  size : l.m.keys.length ≤ ipLimiterCap
  named : [] ∉ l.m

theorem Bounded.relieved (bounded : l.Bounded) (call : Attempt) :
    (l.relieved call).keys.length < ipLimiterCap := by
  unfold IPLimiter.relieved
  split
  · rename_i isFull
    refine lt_of_lt_of_le (keys_length_evictLocked call.order (fun e present empty => ?_) ?_)
      bounded.size
    · exact bounded.named (empty ▸ List.mem_map_of_mem present)
    · intro nothing
      have none_ : l.m.keys.length = 0 := by
        simp only [AList.keys, nothing]
        rfl
      rw [none_] at isFull
      exact absurd isFull (by decide)
  · rename_i room
    exact lt_of_not_ge room

theorem Bounded.allow (bounded : l.Bounded) (named : clientIP call.remoteAddr ≠ []) :
    (l.allow call).1.Bounded := by
  cases found : l.m.lookup (clientIP call.remoteAddr) with
  | some e =>
      rw [allow_tracked found]
      have tracked := mem_of_lookup found
      refine ⟨(keys_length_le (fun key member => ?_)).trans bounded.size, fun member => ?_⟩
      · rcases (AList.mem_insert _).mp member with same | there
        · exact same ▸ tracked
        · exact there
      · rcases (AList.mem_insert _).mp member with same | there
        · exact named same.symm
        · exact bounded.named there
  | none =>
      rw [allow_new found]
      have absent : clientIP call.remoteAddr ∉ l.relieved call := fun member => by
        have isSome := AList.lookup_isSome.mpr (mem_of_mem_relieved member)
        rw [found] at isSome
        cases isSome
      refine ⟨?_, fun member => ?_⟩
      · exact (keys_length_insert absent _).trans_le (bounded.relieved call)
      · rcases (AList.mem_insert _).mp member with same | there
        · exact named same.symm
        · exact bounded.named (mem_of_mem_relieved there)

theorem Bounded.attempts (bounded : l.Bounded) {calls : List Attempt}
    (named : ∀ call ∈ calls, clientIP call.remoteAddr ≠ []) :
    (IPLimiter.attempts IPLimiter.allow l calls).1.Bounded := by
  induction calls generalizing l with
  | nil => exact bounded
  | cons call rest ih =>
      exact ih (bounded.allow (named call List.mem_cons_self))
        (fun other present => named other (List.mem_cons_of_mem _ present))

theorem bounded_new (limit : ℚ) (burst : Nat) : (newIPLimiter limit burst).Bounded :=
  ⟨Nat.zero_le _, AList.notMem_empty _⟩

end IPLimiter

def MapOrder.listed {α : Type} : MapOrder α :=
  { arrange := fun items => items
    perm := List.Perm.refl }

/-- Attempts from `count` clients that are named by numbers. -/
def arrivals (first : Nat) (now : ℚ) : Nat → List Attempt
  | 0 => []
  | count + 1 =>
      { remoteAddr := formatNat first
        now := now
        order := MapOrder.listed } :: arrivals (first + 1) now count

theorem mem_arrivals {first count : Nat} {now : ℚ} (member : call ∈ arrivals first now count) :
    call.now = now ∧ ∃ number, call.remoteAddr = formatNat number := by
  induction count generalizing first with
  | zero => cases member
  | succ count ih =>
      rcases List.mem_cons.mp member with rfl | later
      · exact ⟨rfl, first, rfl⟩
      · exact ih later

theorem formatNat_range {byte : UInt8} (member : byte ∈ formatNat number) :
    48 ≤ byte.toNat ∧ byte.toNat ≤ 57 :=
  digitBytes_range _ _ byte member

theorem clientIP_of_plain {remoteAddr : Bytes} (plain : 58 ∉ remoteAddr) :
    clientIP remoteAddr = remoteAddr := by
  have absent : 58 ∉ remoteAddr.reverse := fun member => plain (List.mem_reverse.mp member)
  unfold clientIP splitHostPort cutLast
  rw [cut_of_notMem absent]
  rfl

theorem clientIP_formatNat (number : Nat) : clientIP (formatNat number) = formatNat number := by
  refine clientIP_of_plain (fun member => ?_)
  have range := formatNat_range member
  revert range
  decide

theorem attempts_append (one : IPLimiter → Attempt → IPLimiter × Bool) (l : IPLimiter)
    (early late : List Attempt) :
    IPLimiter.attempts one l (early ++ late) =
      ((IPLimiter.attempts one (IPLimiter.attempts one l early).1 late).1,
        (IPLimiter.attempts one l early).2 ++
          (IPLimiter.attempts one (IPLimiter.attempts one l early).1 late).2) := by
  induction early generalizing l with
  | nil => rfl
  | cons call rest ih =>
      simp only [List.cons_append, IPLimiter.attempts, ih]

theorem attempts_snoc (one : IPLimiter → Attempt → IPLimiter × Bool) (l : IPLimiter)
    (early : List Attempt) (call : Attempt) :
    (IPLimiter.attempts one l (early ++ [call])).1 =
      (one (IPLimiter.attempts one l early).1 call).1 := by
  rw [attempts_append]
  rfl

/-- What the arrivals of new clients leave, while there is room for them. -/
structure Crowded (l filled : IPLimiter) (first count : Nat) (now : ℚ) : Prop where
  limit : filled.limit = l.limit
  burst : filled.burst = l.burst
  size : filled.m.keys.length = l.m.keys.length + count
  others : ∀ key, (∀ number, key ≠ formatNat number) → filled.m.lookup key = l.m.lookup key
  arrived : ∀ key e, filled.m.lookup key = some e → l.m.lookup key = some e ∨ e.seen = now
  beyond : ∀ number, first + count ≤ number → filled.m.lookup (formatNat number) = none

theorem allow_arrival (now : ℚ) (room : l.m.keys.length < ipLimiterCap)
    (absent : l.m.lookup (formatNat number) = none) :
    l.allow { remoteAddr := formatNat number, now := now, order := MapOrder.listed } =
      l.charge l.m (formatNat number) (Bucket.full l.burst) now := by
  have kept : l.relieved
      { remoteAddr := formatNat number, now := now, order := MapOrder.listed } = l.m :=
    if_neg (Nat.not_le_of_lt room)
  have called := @IPLimiter.allow_new l
    { remoteAddr := formatNat number, now := now, order := MapOrder.listed }
    (by rw [clientIP_formatNat]; exact absent)
  rw [clientIP_formatNat, kept] at called
  exact called

theorem crowded_arrivals (now : ℚ) (count : Nat) {l : IPLimiter} {first : Nat}
    (room : l.m.keys.length + count ≤ ipLimiterCap)
    (absent : ∀ number, first ≤ number → l.m.lookup (formatNat number) = none) :
    Crowded l (IPLimiter.attempts IPLimiter.allow l (arrivals first now count)).1 first count now := by
  induction count generalizing l first with
  | zero => exact ⟨rfl, rfl, rfl, fun _ _ => rfl, fun _ _ found => Or.inl found, absent⟩
  | succ count ih =>
      have new := absent first (le_refl first)
      have notMem : formatNat first ∉ l.m := fun member => by
        have isSome := AList.lookup_isSome.mpr member
        rw [new] at isSome
        cases isSome
      simp only [arrivals, IPLimiter.attempts, allow_arrival now (by omega) new]
      have size : (l.charge l.m (formatNat first) (Bucket.full l.burst) now).1.m.keys.length =
          l.m.keys.length + 1 := keys_length_insert notMem _
      have later : ∀ number, first + 1 ≤ number →
          (l.charge l.m (formatNat first) (Bucket.full l.burst) now).1.m.lookup
            (formatNat number) = none := by
        intro number beyond
        have differ : formatNat number ≠ formatNat first := fun same => by
          have equal := formatNat_injective same
          omega
        exact (AList.lookup_insert_ne differ).trans (absent number (by omega))
      have filled := ih (by omega) later
      refine
        { filled with
          size := by
            rw [filled.size, size]
            omega
          others := fun key plain => ?_
          arrived := fun key e found => ?_
          beyond := fun number far => filled.beyond number (by omega) }
      · exact (filled.others key plain).trans (AList.lookup_insert_ne (plain first))
      · rcases filled.arrived key e found with before | here
        · by_cases same : key = formatNat first
          · subst same
            refine Or.inr ?_
            have inserted := (AList.lookup_insert _).symm.trans before
            exact (congrArg IPEntry.seen (Option.some.inj inserted)).symm
          · exact Or.inl ((AList.lookup_insert_ne same).symm.trans before)
        · exact Or.inr here

/-- As long as no client has the empty address, the map stays within its bound. -/
theorem tracking_bounded (limit : ℚ) (burst : Nat) (calls : List Attempt)
    (named : ∀ call ∈ calls, clientIP call.remoteAddr ≠ []) :
    (IPLimiter.attempts IPLimiter.allow (newIPLimiter limit burst) calls).1.m.keys.length ≤
      ipLimiterCap :=
  ((IPLimiter.bounded_new limit burst).attempts named).size

/-- One client more than the map has room for, so that the last arrival evicts one. -/
theorem tracking_bounded_full :
    (IPLimiter.attempts IPLimiter.allow (newIPLimiter (1 / 12) 5)
        (arrivals 0 0 ipLimiterCap)).1.m.keys.length = ipLimiterCap ∧
      (IPLimiter.attempts IPLimiter.allow (newIPLimiter (1 / 12) 5)
        (arrivals 0 0 (ipLimiterCap + 1))).1.m.keys.length ≤ ipLimiterCap := by
  refine ⟨?_, tracking_bounded (1 / 12) 5 _ (fun call member => ?_)⟩
  · have fills := @crowded_arrivals 0 ipLimiterCap (newIPLimiter (1 / 12) 5) 0
      (Nat.zero_add ipLimiterCap).le (fun _ _ => AList.lookup_empty _)
    exact fills.size.trans (Nat.zero_add ipLimiterCap)
  · obtain ⟨number, numbered⟩ := (mem_arrivals member).2
    rw [numbered, clientIP_formatNat]
    exact digitBytes_ne_nil number number

/-! ### A client with the empty address -/

def MapOrder.emptyLast : MapOrder Tracked :=
  { arrange := fun entries =>
      entries.filter (fun e => e.1 ≠ []) ++ entries.filter (fun e => !decide (e.1 ≠ []))
    perm := fun entries => List.filter_append_perm (fun e => decide (e.1 ≠ [])) entries }

theorem foldl_evictTurn_empty {now : ℚ} {entries : List Tracked} (some_ : entries ≠ [])
    (active : ∀ e ∈ entries, idleAt now e = false) (empty : ∀ e ∈ entries, e.1 = [])
    {s : Eviction} (least : ∀ e ∈ entries, s.oldestKey = [] ∨ e.2.seen < s.oldestSeen) :
    (entries.foldl (evictTurn now) s).oldestKey = [] := by
  induction entries generalizing s with
  | nil => exact absurd rfl some_
  | cons e rest ih =>
      have taken : (evictTurn now s e).oldestKey = [] := by
        simp only [evictTurn, active e List.mem_cons_self, Bool.false_eq_true, if_false,
          if_pos (least e List.mem_cons_self), empty e List.mem_cons_self]
      rw [List.foldl_cons]
      by_cases last : rest = []
      · rw [last]
        exact taken
      · exact ih last (fun other present => active other (List.mem_cons_of_mem _ present))
          (fun other present => empty other (List.mem_cons_of_mem _ present))
          (fun _ _ => Or.inl taken)

theorem evictLocked_emptyLast {m : GoMap Bytes IPEntry} {now : ℚ} {first : IPEntry}
    (active : ∀ e ∈ m.entries, idleAt now e = false) (found : m.lookup [] = some first)
    (least : ∀ e ∈ m.entries, e.1 ≠ [] → first.seen < e.2.seen) :
    evictLocked m MapOrder.emptyLast now = m := by
  have unnamed : ∀ e ∈ m.entries.filter (fun e => !decide (e.1 ≠ [])), e = ⟨[], first⟩ := by
    rintro ⟨key, e⟩ present
    obtain ⟨inMap, isEmpty⟩ := List.mem_filter.mp present
    have noKey : key = [] := by
      simpa using isEmpty
    subst noKey
    have same := (AList.mem_lookup_iff.mpr inMap).symm.trans found
    rw [Option.some.inj same]
  have some_ : m.entries.filter (fun e => !decide (e.1 ≠ [])) ≠ [] :=
    List.ne_nil_of_mem (List.mem_filter.mpr ⟨AList.mem_lookup_iff.mp found, rfl⟩)
  have activeAll : ∀ e ∈ MapOrder.emptyLast.arrange m.entries, idleAt now e = false :=
    fun e present => active e ((MapOrder.emptyLast.perm m.entries).mem_iff.mp present)
  obtain ⟨erased, freed⟩ := foldl_evictTurn_start now (MapOrder.emptyLast.arrange m.entries) m
  have nothingIdle : (MapOrder.emptyLast.arrange m.entries).filter (idleAt now) = [] :=
    List.filter_eq_nil_iff.mpr (fun e present => by rw [activeAll e present]; decide)
  have key : ((MapOrder.emptyLast.arrange m.entries).foldl (evictTurn now)
      (Eviction.start m)).oldestKey = [] := by
    have loop := @foldl_evictTurn_oldest now (m.entries.filter (fun e => decide (e.1 ≠ [])))
      (fun e present => of_decide_eq_true (List.mem_filter.mp present).2)
      (fun e present => active e (List.mem_filter.mp present).1) none
      (fun _ none_ => by cases none_)
      (Eviction.start m) rfl
    have kept := kept_seenBefore (m.entries.filter (fun e => decide (e.1 ≠ [])))
    refine (congrArg Eviction.oldestKey List.foldl_append).trans (foldl_evictTurn_empty some_
      (fun e present => active e (List.mem_filter.mp present).1)
      (fun e present => by rw [unnamed e present]) (fun e present => ?_))
    rw [unnamed e present]
    cases best : (m.entries.filter (fun e => decide (e.1 ≠ []))).foldl (keepLeast seenBefore)
        none with
    | none =>
        rw [best] at loop
        exact Or.inl (congrArg Prod.fst loop)
    | some other =>
        rw [best] at loop kept
        have isLeast : Least seenBefore (m.entries.filter (fun e => decide (e.1 ≠ []))) other := kept
        obtain ⟨inMap, isNamed⟩ := List.mem_filter.mp isLeast.mem
        have seen : (oldest (some other)).2 = other.2.seen := rfl
        exact Or.inr (lt_of_lt_of_eq (least other inMap (of_decide_eq_true isNamed))
          (seen.symm.trans (congrArg Prod.snd loop).symm))
  rw [nothingIdle] at erased
  unfold evictLocked
  simp only [key, ne_eq, not_true_eq_false, and_false, if_false]
  exact erased

def afterFirst (limit : ℚ) (burst : Nat) (ip : Bytes) (now : ℚ) : IPLimiter :=
  ((newIPLimiter limit burst).charge ∅ ip (Bucket.full burst) now).1

theorem allow_first (limit : ℚ) (burst : Nat) (call : Attempt) :
    ((newIPLimiter limit burst).allow call).1 =
      afterFirst limit burst (clientIP call.remoteAddr) call.now := by
  rw [IPLimiter.allow_new (AList.lookup_empty _)]
  rfl

theorem afterFirst_size (limit : ℚ) (burst : Nat) (ip : Bytes) (now : ℚ) :
    (afterFirst limit burst ip now).m.keys.length = 1 :=
  keys_length_insert (AList.notMem_empty _) _

theorem afterFirst_other (limit : ℚ) (burst : Nat) {ip : Bytes} (now : ℚ) (differ : key ≠ ip) :
    (afterFirst limit burst ip now).m.lookup key = none :=
  (AList.lookup_insert_ne differ).trans (AList.lookup_empty key)

theorem afterFirst_self (limit : ℚ) (burst : Nat) (ip : Bytes) (now : ℚ) :
    (afterFirst limit burst ip now).m.lookup ip =
      some { lim := ((Bucket.full (burst : ℚ)).allow limit burst now).1, seen := now } :=
  AList.lookup_insert _

theorem Crowded.entries {limit : ℚ} {burst first : Nat} {ip : Bytes} {early now : ℚ}
    {filled : IPLimiter} (fills : Crowded (afterFirst limit burst ip early) filled first count now)
    (present : e ∈ filled.m.entries) :
    e.1 = ip ∧ e.2.seen = early ∨ e.2.seen = now := by
  rcases fills.arrived e.1 e.2 (AList.mem_lookup_iff.mpr present) with before | here
  · by_cases same : e.1 = ip
    · rw [same, afterFirst_self] at before
      exact Or.inl ⟨same, (congrArg IPEntry.seen (Option.some.inj before)).symm⟩
    · rw [afterFirst_other limit burst early same] at before
      cases before
  · exact Or.inr here

/-- A client without an address, `count` others, and one more. -/
def nameless (count : Nat) : List Attempt :=
  { remoteAddr := [], now := 0, order := MapOrder.listed } ::
    (arrivals 0 1 count ++
      [{ remoteAddr := formatNat count, now := 1, order := MapOrder.emptyLast }])

theorem nameless_size (isFull : 1 + count = ipLimiterCap) :
    (IPLimiter.attempts IPLimiter.allow (newIPLimiter 1 1) (nameless count)).1.m.keys.length =
      ipLimiterCap + 1 := by
  have noNumber : ∀ number, [] ≠ formatNat number := fun number =>
    (digitBytes_ne_nil number number).symm
  have fills := @crowded_arrivals 1 count (afterFirst 1 1 [] 0) 0
    (by rw [afterFirst_size, isFull]) (fun number _ => afterFirst_other 1 1 0 (noNumber number).symm)
  have ends : (IPLimiter.attempts IPLimiter.allow (newIPLimiter 1 1) (nameless count)).1 =
      ((IPLimiter.attempts IPLimiter.allow (afterFirst 1 1 [] 0) (arrivals 0 1 count)).1.allow
        { remoteAddr := formatNat count, now := 1, order := MapOrder.emptyLast }).1 := by
    rw [← attempts_snoc]
    exact congrArg (fun l => (IPLimiter.attempts IPLimiter.allow l _).1) (allow_first 1 1 _)
  rw [ends]
  revert fills
  generalize (IPLimiter.attempts IPLimiter.allow (afterFirst 1 1 [] 0) (arrivals 0 1 count)).1 =
    filled
  intro fills
  have active : ∀ e ∈ filled.m.entries, idleAt 1 e = false := by
    intro e present
    refine decide_eq_false ?_
    rcases fills.entries present with ⟨_, seen⟩ | seen
    · rw [seen]
      norm_num [ipIdleTTL]
    · rw [seen]
      norm_num [ipIdleTTL]
  have least : ∀ e ∈ filled.m.entries, e.1 ≠ [] → 0 < e.2.seen := by
    intro e present isNamed
    rcases fills.entries present with ⟨isEmpty, _⟩ | seen
    · exact absurd isEmpty isNamed
    · rw [seen]
      norm_num
  have kept := evictLocked_emptyLast active
    ((fills.others [] noNumber).trans (afterFirst_self 1 1 [] 0)) least
  have size : filled.m.keys.length = ipLimiterCap := fills.size.trans (by
    rw [afterFirst_size, isFull])
  have absent := fills.beyond count (Nat.zero_add count).le
  have notMem : formatNat count ∉ filled.m := fun member => by
    have isSome := AList.lookup_isSome.mpr member
    rw [absent] at isSome
    cases isSome
  have called := @IPLimiter.allow_new filled
    { remoteAddr := formatNat count, now := 1, order := MapOrder.emptyLast }
    (by rw [clientIP_formatNat]; exact absent)
  rw [IPLimiter.relieved, if_pos (le_of_eq size.symm), kept, clientIP_formatNat] at called
  rw [called]
  exact (keys_length_insert notMem _).trans (by rw [size])

/-- A client without an address, then as many others as there is room for, and one
more. -/
theorem nameless_client_exceeds_bound :
    ¬∀ (limit : ℚ) (burst : Nat) (calls : List Attempt),
      (IPLimiter.attempts IPLimiter.allow (newIPLimiter limit burst) calls).1.m.keys.length ≤
        ipLimiterCap := by
  intro claimed
  have bound := claimed 1 1 (nameless 16383)
  rw [nameless_size rfl] at bound
  exact absurd bound (Nat.not_succ_le_self ipLimiterCap)

end Parley.Relay
