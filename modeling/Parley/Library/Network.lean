/-
A relayed network of first-in first-out pipes.

Each member has an outbox, the pipe from it to the relay, and an inbox, what the
relay has put in order for it.  The relay takes one post at a time from an
outbox and appends to the inboxes what `carry` makes of it for each receiver.
Notices of the relay are filed under the member they are about.  `stream` is
everything under way from one member to another; routing does not change it.
-/

import Mathlib.Data.List.Basic
import Mathlib.Logic.Function.Basic

namespace Parley.Library

structure Network (Id Post Msg : Type) where
  members : List Id
  outbox : Id → List Post
  inbox : Id → List (Id × Msg)

namespace Network

variable {Id Post Msg : Type} [DecidableEq Id]

def single (id : Id) : Network Id Post Msg :=
  { members := [id]
    outbox := fun _ => []
    inbox := fun _ => [] }

def post (net : Network Id Post Msg) (sender : Id) (posts : List Post) : Network Id Post Msg :=
  { net with outbox := Function.update net.outbox sender (net.outbox sender ++ posts) }

def route (carry : Id → Post → Id → Option Msg) (net : Network Id Post Msg) (sender : Id) :
    Option (Network Id Post Msg) :=
  match net.outbox sender with
  | [] => none
  | first :: rest =>
      some
        { net with
          outbox := Function.update net.outbox sender rest
          inbox := fun receiver =>
            if receiver ∈ net.members then
              net.inbox receiver ++
                ((carry sender first receiver).map (fun msg => (sender, msg))).toList
            else net.inbox receiver }

def take (net : Network Id Post Msg) (receiver sender : Id) :
    Option (Msg × Network Id Post Msg) :=
  ((net.inbox receiver).find? (fun entry => decide (entry.1 = sender))).map (fun entry =>
    (entry.2,
      { net with
        inbox := Function.update net.inbox receiver
          ((net.inbox receiver).eraseP (fun entry => decide (entry.1 = sender))) }))

def oldest (net : Network Id Post Msg) (receiver : Id) : Option Id :=
  (net.inbox receiver).head?.map Prod.fst

def shift (net : Network Id Post Msg) (receiver : Id) :
    Option ((Id × Msg) × Network Id Post Msg) :=
  match net.inbox receiver with
  | [] => none
  | first :: rest =>
      some (first, { net with inbox := Function.update net.inbox receiver rest })

def announce (net : Network Id Post Msg) (subject : Id) (notice : Msg) :
    Network Id Post Msg :=
  { net with
    inbox := fun receiver =>
      if receiver ∈ net.members then net.inbox receiver ++ [(subject, notice)]
      else net.inbox receiver }

def join (net : Network Id Post Msg) (id : Id) (notice : Msg) : Network Id Post Msg :=
  { net.announce id notice with members := net.members ++ [id] }

def leave (net : Network Id Post Msg) (id : Id) (notice : Msg) : Option (Network Id Post Msg) :=
  if (net.outbox id).isEmpty then
    let staying := { net with members := net.members.filter (fun other => other ≠ id) }
    some (staying.announce id notice)
  else none

def fromSender (sender : Id) (box : List (Id × Msg)) : List Msg :=
  box.filterMap (fun entry => if entry.1 = sender then some entry.2 else none)

def stream (carry : Id → Post → Id → Option Msg) (net : Network Id Post Msg)
    (sender receiver : Id) : List Msg :=
  fromSender sender (net.inbox receiver) ++
    (net.outbox sender).filterMap (fun posted => carry sender posted receiver)

variable {carry : Id → Post → Id → Option Msg}

@[simp] theorem fromSender_append (sender : Id) (first second : List (Id × Msg)) :
    fromSender sender (first ++ second) = fromSender sender first ++ fromSender sender second :=
  List.filterMap_append

theorem fromSender_singleton (sender other : Id) (msg : Msg) :
    fromSender sender [(other, msg)] = if other = sender then [msg] else [] := by
  unfold fromSender
  split <;> simp [*]

theorem stream_post_self (net : Network Id Post Msg) (sender receiver : Id) (posts : List Post) :
    (net.post sender posts).stream carry sender receiver =
      net.stream carry sender receiver ++
        posts.filterMap (fun posted => carry sender posted receiver) := by
  simp only [stream, post, Function.update_self, List.filterMap_append, List.append_assoc]

variable {sender receiver other id : Id} {notice msg : Msg} {entry : Id × Msg}
  {net next : Network Id Post Msg}

theorem stream_post_of_ne (net : Network Id Post Msg) (differ : other ≠ sender) (receiver : Id)
    (posts : List Post) :
    (net.post sender posts).stream carry other receiver = net.stream carry other receiver := by
  simp only [stream, post, Function.update_of_ne differ]

theorem stream_route (routed : net.route carry sender = some next) (other : Id)
    (member : receiver ∈ net.members) :
    next.stream carry other receiver = net.stream carry other receiver := by
  unfold route at routed
  split at routed
  · cases routed
  · rename_i first rest pending
    cases routed
    simp only [stream, if_pos member, fromSender_append]
    by_cases same : other = sender
    · subst same
      rw [Function.update_self, pending, List.filterMap_cons]
      cases carry other first receiver with
      | none => simp [fromSender]
      | some msg => simp [fromSender]
    · rw [Function.update_of_ne same]
      cases carry sender first receiver with
      | none => simp [fromSender]
      | some msg => simp [fromSender, Ne.symm same]

theorem members_route (routed : net.route carry sender = some next) :
    next.members = net.members := by
  unfold route at routed
  split at routed
  · cases routed
  · cases routed
    rfl

theorem fromSender_of_find? (sender : Id) (box : List (Id × Msg)) (entry : Id × Msg)
    (found : box.find? (fun entry => decide (entry.1 = sender)) = some entry) :
    fromSender sender box =
      entry.2 :: fromSender sender (box.eraseP (fun entry => decide (entry.1 = sender))) := by
  induction box with
  | nil => cases found
  | cons first rest ih =>
      by_cases here : first.1 = sender
      · rw [List.find?_cons_of_pos (by simpa using here)] at found
        rw [List.eraseP_cons_of_pos (by simpa using here)]
        cases found
        simp [fromSender, here]
      · rw [List.find?_cons_of_neg (by simpa using here)] at found
        rw [List.eraseP_cons_of_neg (by simpa using here)]
        have later := ih found
        simpa [fromSender, here] using later

theorem fromSender_eraseP_of_ne (differ : other ≠ sender) (box : List (Id × Msg)) :
    fromSender other (box.eraseP (fun entry => decide (entry.1 = sender))) =
      fromSender other box := by
  induction box with
  | nil => rfl
  | cons first rest ih =>
      by_cases here : first.1 = sender
      · rw [List.eraseP_cons_of_pos (by simpa using here)]
        have notOther : first.1 ≠ other := fun same => differ (same.symm.trans here)
        simp [fromSender, notOther]
      · rw [List.eraseP_cons_of_neg (by simpa using here)]
        simp only [fromSender, List.filterMap_cons] at ih ⊢
        rw [ih]

theorem stream_take (taken : net.take receiver sender = some (msg, next)) :
    net.stream carry sender receiver = msg :: next.stream carry sender receiver := by
  obtain ⟨entry, found, same⟩ := Option.map_eq_some_iff.mp taken
  cases same
  simp only [stream, Function.update_self]
  rw [fromSender_of_find? sender (net.inbox receiver) entry found, List.cons_append]

theorem stream_take_of_ne (taken : net.take receiver sender = some (msg, next)) {other' : Id}
    (differ : other' ≠ receiver ∨ other ≠ sender) :
    next.stream carry other other' = net.stream carry other other' := by
  obtain ⟨entry, _, same⟩ := Option.map_eq_some_iff.mp taken
  cases same
  simp only [stream]
  by_cases here : other' = receiver
  · subst here
    have notSender : other ≠ sender := differ.resolve_left (fun ne => ne rfl)
    rw [Function.update_self, fromSender_eraseP_of_ne notSender]
  · rw [Function.update_of_ne here]

theorem members_take (taken : net.take receiver sender = some (msg, next)) :
    next.members = net.members := by
  obtain ⟨entry, _, same⟩ := Option.map_eq_some_iff.mp taken
  cases same
  rfl

theorem outbox_take (taken : net.take receiver sender = some (msg, next)) :
    next.outbox = net.outbox := by
  obtain ⟨entry, _, same⟩ := Option.map_eq_some_iff.mp taken
  cases same
  rfl

theorem entry_of_take (taken : net.take receiver sender = some (msg, next)) :
    (sender, msg) ∈ net.inbox receiver := by
  obtain ⟨entry, found, same⟩ := Option.map_eq_some_iff.mp taken
  have ofSender : entry.1 = sender := by simpa using List.find?_some found
  cases same
  rw [← ofSender]
  exact List.mem_of_find?_eq_some found

theorem mem_inbox_of_take (taken : net.take receiver sender = some (msg, next))
    (member : entry ∈ next.inbox other) :
    entry ∈ net.inbox other := by
  obtain ⟨first, _, same⟩ := Option.map_eq_some_iff.mp taken
  cases same
  by_cases here : other = receiver
  · subst here
    simp only [Function.update_self] at member
    exact List.mem_of_mem_eraseP member
  · simpa only [Function.update_of_ne here] using member

variable {posts : List Post} {p : Msg → Bool} {posted : Post} {subject : Id}

theorem mem_outbox_post (member : posted ∈ (net.post sender posts).outbox other) :
    posted ∈ net.outbox other ∨ other = sender ∧ posted ∈ posts := by
  by_cases same : other = sender
  · subst same
    simp only [post, Function.update_self, List.mem_append] at member
    exact member.imp_right (fun new => ⟨rfl, new⟩)
  · simp only [post, Function.update_of_ne same] at member
    exact Or.inl member

theorem mem_inbox_announce (member : entry ∈ (net.announce subject notice).inbox receiver) :
    entry ∈ net.inbox receiver ∨ receiver ∈ net.members ∧ entry = (subject, notice) := by
  simp only [announce] at member
  split at member
  · rename_i present
    exact (List.mem_append.mp member).imp_right (fun new => ⟨present, List.mem_singleton.mp new⟩)
  · exact Or.inl member

theorem stream_announce_self {subject : Id} (drained : net.outbox subject = []) (notice : Msg)
    {receiver : Id} (member : receiver ∈ net.members) :
    (net.announce subject notice).stream carry subject receiver =
      net.stream carry subject receiver ++ [notice] := by
  simp only [stream, announce, if_pos member, fromSender_append, drained, List.filterMap_nil,
    List.append_nil, fromSender_singleton, if_true]

theorem stream_announce_of_ne (net : Network Id Post Msg) (differ : other ≠ subject) (notice : Msg)
    (receiver : Id) :
    (net.announce subject notice).stream carry other receiver =
      net.stream carry other receiver := by
  simp only [stream, announce]
  split
  · simp [fromSender, Ne.symm differ]
  · rfl

theorem mem_leave (left : net.leave id notice = some next) :
    other ∈ next.members ↔ other ∈ net.members ∧ other ≠ id := by
  unfold leave at left
  split at left
  · cases left
    simp [announce]
  · cases left

theorem inbox_leave (left : net.leave id notice = some next) (stays : receiver ∈ next.members) :
    next.inbox receiver = net.inbox receiver ++ [(id, notice)] := by
  unfold leave at left
  split at left
  · cases left
    exact if_pos stays
  · cases left

theorem outbox_leave (left : net.leave id notice = some next) :
    next.outbox = net.outbox ∧ net.outbox id = [] := by
  unfold leave at left
  split at left
  · rename_i empty
    cases left
    exact ⟨rfl, List.isEmpty_iff.mp empty⟩
  · cases left

theorem stream_leave_self (left : net.leave id notice = some next)
    (stays : receiver ∈ next.members) :
    next.stream carry id receiver = net.stream carry id receiver ++ [notice] := by
  unfold leave at left
  split at left
  · rename_i drained
    cases left
    exact @stream_announce_self Id Post Msg _ carry
      { net with members := net.members.filter (fun other => other ≠ id) } id
      (List.isEmpty_iff.mp drained) notice receiver stays
  · cases left

theorem stream_leave_of_ne (left : net.leave id notice = some next) (differ : sender ≠ id)
    (receiver : Id) :
    next.stream carry sender receiver = net.stream carry sender receiver := by
  unfold leave at left
  split at left
  · cases left
    exact stream_announce_of_ne
      { net with members := net.members.filter (fun other => other ≠ id) } differ notice receiver
  · cases left

/-- What a receiver finds if one sender's posts are routed before all others. -/
def ahead (carry : Id → Post → Id → Option Msg) (net : Network Id Post Msg)
    (sender receiver : Id) : List (Id × Msg) :=
  net.inbox receiver ++
    (net.outbox sender).filterMap (fun posted =>
      (carry sender posted receiver).map (fun msg => (sender, msg)))

theorem ahead_post_self (net : Network Id Post Msg) (sender receiver : Id) (posts : List Post) :
    (net.post sender posts).ahead carry sender receiver =
      net.ahead carry sender receiver ++
        posts.filterMap (fun posted =>
          (carry sender posted receiver).map (fun msg => (sender, msg))) := by
  simp only [ahead, post, Function.update_self, List.filterMap_append, List.append_assoc]

theorem ahead_post_of_ne (net : Network Id Post Msg) (differ : other ≠ sender) (receiver : Id)
    (posts : List Post) :
    (net.post sender posts).ahead carry other receiver = net.ahead carry other receiver := by
  simp only [ahead, post, Function.update_of_ne differ]

theorem route_cases (routed : net.route carry sender = some next) :
    ∃ first rest, net.outbox sender = first :: rest ∧
      next.outbox = Function.update net.outbox sender rest ∧
      ∀ receiver ∈ net.members, next.inbox receiver = net.inbox receiver ++
        ((carry sender first receiver).map (fun msg => (sender, msg))).toList := by
  unfold route at routed
  split at routed
  · cases routed
  · rename_i first rest pending
    cases routed
    exact ⟨first, rest, pending, rfl, fun receiver member => if_pos member⟩

/-- After routing the boxes hold what they held before, and what the routed post
is to each receiver. -/
theorem route_contents (routed : net.route carry sender = some next) :
    ∃ first ∈ net.outbox sender,
      (∀ id ∉ net.members, next.inbox id = net.inbox id) ∧
      (∀ other, ∀ posted ∈ next.outbox other, posted ∈ net.outbox other) ∧
      ∀ receiver, ∀ entry ∈ next.inbox receiver, entry ∈ net.inbox receiver ∨
        entry.1 = sender ∧ carry sender first receiver = some entry.2 := by
  unfold route at routed
  split at routed
  · cases routed
  · rename_i first rest pending
    cases routed
    refine ⟨first, pending ▸ List.mem_cons_self, fun id absent => if_neg absent,
      fun other posted member => ?_, fun receiver entry member => ?_⟩
    · by_cases same : other = sender
      · subst same
        simp only [Function.update_self] at member
        exact pending ▸ List.mem_cons_of_mem first member
      · simpa only [Function.update_of_ne same] using member
    · simp only at member
      split at member
      · rcases List.mem_append.mp member with old | new
        · exact Or.inl old
        · obtain ⟨msg, carried, rfl⟩ := Option.map_eq_some_iff.mp (Option.mem_toList.mp new)
          exact Or.inr ⟨rfl, carried⟩
      · exact Or.inl member

theorem ahead_route_self (routed : net.route carry sender = some next)
    (member : receiver ∈ net.members) :
    next.ahead carry sender receiver = net.ahead carry sender receiver := by
  obtain ⟨first, rest, pending, outbox, inbox⟩ := route_cases routed
  rw [ahead, ahead, inbox receiver member, outbox, Function.update_self, pending,
    List.filterMap_cons, List.append_assoc]
  cases carry sender first receiver <;> rfl

theorem shift_cases (shifted : net.shift receiver = some (entry, next)) :
    ∃ rest, net.inbox receiver = entry :: rest ∧
      next = { net with inbox := Function.update net.inbox receiver rest } := by
  unfold shift at shifted
  split at shifted
  · cases shifted
  · rename_i first rest pending
    cases shifted
    exact ⟨rest, pending, rfl⟩

theorem take_of_shift (shifted : net.shift receiver = some (entry, next)) :
    net.take receiver entry.1 = some (entry.2, next) := by
  obtain ⟨rest, pending, rfl⟩ := shift_cases shifted
  simp only [take, pending, List.find?_cons, decide_true, Option.map_some, List.eraseP_cons,
    cond_true]

theorem inbox_of_take_oldest (taken : net.take receiver sender = some (msg, next))
    (oldest : net.oldest receiver = some sender) :
    net.inbox receiver = (sender, msg) :: next.inbox receiver := by
  obtain ⟨entry, found, same⟩ := Option.map_eq_some_iff.mp taken
  cases same
  obtain ⟨first, isFirst, isSender⟩ := Option.map_eq_some_iff.mp oldest
  cases pending : net.inbox receiver with
  | nil =>
      rw [pending] at isFirst
      cases isFirst
  | cons head rest =>
      rw [pending] at isFirst found
      cases isFirst
      rw [List.find?_cons_of_pos (by simpa using isSender)] at found
      cases found
      simp only [Function.update_self]
      rw [List.eraseP_cons_of_pos (by simpa using isSender), ← isSender]

theorem countP_stream_route_le (routed : net.route carry sender = some next) (p : Msg → Bool)
    (other receiver : Id) :
    (next.stream carry other receiver).countP p ≤ (net.stream carry other receiver).countP p := by
  by_cases member : receiver ∈ net.members
  · exact Nat.le_of_eq (by rw [stream_route routed other member])
  · unfold route at routed
    split at routed
    · cases routed
    · rename_i first rest pending
      cases routed
      simp only [stream, if_neg member]
      refine List.Sublist.countP_le (List.Sublist.append (List.Sublist.refl _) ?_)
      by_cases same : other = sender
      · subst same
        rw [Function.update_self, pending]
        exact (List.sublist_cons_self first rest).filterMap _
      · rw [Function.update_of_ne same]

theorem countP_stream_announce (net : Network Id Post Msg) (uncounted : p notice = false)
    (subject other receiver : Id) :
    ((net.announce subject notice).stream carry other receiver).countP p =
      (net.stream carry other receiver).countP p := by
  simp only [stream, announce, List.countP_append]
  split
  · rw [fromSender_append, List.countP_append, fromSender_singleton]
    split
    · rw [List.countP_singleton, uncounted, if_neg Bool.false_ne_true, Nat.add_zero]
    · rw [List.countP_nil, Nat.add_zero]
  · rfl

theorem countP_stream_leave (left : net.leave id notice = some next) (uncounted : p notice = false)
    (other receiver : Id) :
    (next.stream carry other receiver).countP p = (net.stream carry other receiver).countP p := by
  unfold leave at left
  split at left
  · cases left
    exact countP_stream_announce
      { net with members := net.members.filter (fun other => other ≠ id) } uncounted id other
      receiver
  · cases left

/-! ### What boxes may hold -/

/-- Who has ever been a member, and that all that is under way is in order.  Who
is not a member has nothing in its outbox. -/
structure Filed (used : List Id) (postOk : Id → Post → Prop) (msgOk : Id → Id → Msg → Prop)
    (net : Network Id Post Msg) : Prop where
  known : ∀ id ∈ net.members, id ∈ used
  fresh : ∀ id ∉ used, net.inbox id = []
  drained : ∀ id ∉ net.members, net.outbox id = []
  senders : ∀ receiver, ∀ entry ∈ net.inbox receiver, entry.1 ∈ used
  posts : ∀ sender, ∀ posted ∈ net.outbox sender, postOk sender posted
  entries : ∀ receiver, ∀ entry ∈ net.inbox receiver, msgOk entry.1 receiver entry.2

section

variable {used : List Id} {postOk postOk' : Id → Post → Prop} {msgOk msgOk' : Id → Id → Msg → Prop}

omit [DecidableEq Id] in
theorem single_filed (id : Id) : (single id : Network Id Post Msg).Filed [id] postOk msgOk :=
  { known := fun _ member => member
    fresh := fun _ _ => rfl
    drained := fun _ _ => rfl
    senders := fun _ _ member => absurd member List.not_mem_nil
    posts := fun _ _ member => absurd member List.not_mem_nil
    entries := fun _ _ member => absurd member List.not_mem_nil }

omit [DecidableEq Id] in
theorem Filed.mono (filed : net.Filed used postOk msgOk)
    (posts : ∀ sender posted, postOk sender posted → postOk' sender posted)
    (entries : ∀ sender receiver msg, msgOk sender receiver msg → msgOk' sender receiver msg) :
    net.Filed used postOk' msgOk' :=
  { filed with
    posts := fun sender posted member => posts sender posted (filed.posts sender posted member)
    entries := fun receiver entry member =>
      entries entry.1 receiver entry.2 (filed.entries receiver entry member) }

theorem Filed.member_of_post (filed : net.Filed used postOk msgOk)
    (present : posted ∈ net.outbox sender) : sender ∈ net.members := by
  by_contra absent
  rw [filed.drained sender absent] at present
  cases present

theorem Filed.of_stream (filed : net.Filed used postOk msgOk)
    (carried : ∀ sender receiver posted msg, postOk sender posted →
      carry sender posted receiver = some msg → msgOk sender receiver msg)
    (member : msg ∈ net.stream carry sender receiver) :
    msgOk sender receiver msg := by
  rcases List.mem_append.mp member with arrived | posted
  · obtain ⟨entry, present, same⟩ := List.mem_filterMap.mp arrived
    split at same
    · rename_i fromSender
      have ok := filed.entries receiver entry present
      rw [fromSender, Option.some.inj same] at ok
      exact ok
    · cases same
  · obtain ⟨post, present, isCarried⟩ := List.mem_filterMap.mp posted
    exact carried sender receiver post msg (filed.posts sender post present) isCarried

theorem Filed.route (filed : net.Filed used postOk msgOk)
    (carried : ∀ sender receiver posted msg, postOk sender posted →
      carry sender posted receiver = some msg → msgOk sender receiver msg)
    (routed : net.route carry sender = some next) : next.Filed used postOk msgOk := by
  obtain ⟨first, present, aside, outbox, added⟩ := route_contents routed
  have members := members_route routed
  have sends := filed.member_of_post present
  refine
    { known := fun id member => filed.known id (members ▸ member)
      fresh := fun id unused => ?_
      drained := fun id absent => List.eq_nil_iff_forall_not_mem.mpr (fun posted member => ?_)
      senders := fun receiver entry member => ?_
      posts := fun other posted member => filed.posts other posted (outbox other posted member)
      entries := fun receiver entry member => ?_ }
  · rw [aside id (fun member => unused (filed.known id member))]
    exact filed.fresh id unused
  · exact absurd (filed.member_of_post (outbox id posted member)) (members ▸ absent)
  · rcases added receiver entry member with old | ⟨same, _⟩
    · exact filed.senders receiver entry old
    · exact same ▸ filed.known sender sends
  · rcases added receiver entry member with old | ⟨same, isCarried⟩
    · exact filed.entries receiver entry old
    · rw [same]
      exact carried sender receiver first entry.2 (filed.posts sender first present) isCarried

theorem Filed.take (filed : net.Filed used postOk msgOk)
    (taken : net.take receiver sender = some (msg, next)) : next.Filed used postOk msgOk := by
  have sameMembers := members_take taken
  have sameOutbox := outbox_take taken
  refine
    { known := fun id member => filed.known id (sameMembers ▸ member)
      fresh := fun id unused => List.eq_nil_iff_forall_not_mem.mpr (fun entry member => ?_)
      drained := fun id absent => sameOutbox ▸ filed.drained id (sameMembers ▸ absent)
      senders := fun other entry member =>
        filed.senders other entry (mem_inbox_of_take taken member)
      posts := fun other posted member => filed.posts other posted (sameOutbox ▸ member)
      entries := fun other entry member =>
        filed.entries other entry (mem_inbox_of_take taken member) }
  have old := mem_inbox_of_take taken member
  rw [filed.fresh id unused] at old
  cases old

theorem Filed.post (filed : net.Filed used postOk msgOk) (member : sender ∈ net.members)
    (posted : ∀ post ∈ posts, postOk sender post) :
    (net.post sender posts).Filed used postOk msgOk := by
  refine
    { filed with
      drained := fun id absent => ?_
      posts := fun other post present => ?_ }
  · have notSender : id ≠ sender := fun same => absent (same ▸ member)
    simp only [Network.post, Function.update_of_ne notSender]
    exact filed.drained id absent
  · rcases mem_outbox_post present with old | ⟨rfl, new⟩
    · exact filed.posts other post old
    · exact posted post new

theorem Filed.join (filed : net.Filed used postOk msgOk)
    (noticeOk : ∀ receiver ∈ net.members, msgOk id receiver notice) :
    (net.join id notice).Filed (used ++ [id]) postOk msgOk := by
  have notMember : ∀ {other}, other ∉ used ++ [id] → other ∉ net.members := fun absent member =>
    absent (List.mem_append_left [id] (filed.known _ member))
  refine
    { known := fun other member => ?_
      fresh := fun other absent => ?_
      drained := fun other absent => filed.drained other (fun member =>
        absent (List.mem_append_left [id] member))
      senders := fun receiver entry member => ?_
      posts := filed.posts
      entries := fun receiver entry member => ?_ }
  · rcases List.mem_append.mp member with old | new
    · exact List.mem_append_left [id] (filed.known other old)
    · exact List.mem_append_right used new
  · simp only [Network.join, announce, if_neg (notMember absent)]
    exact filed.fresh other (fun known => absent (List.mem_append_left [id] known))
  · rcases mem_inbox_announce member with old | ⟨_, rfl⟩
    · exact List.mem_append_left [id] (filed.senders receiver entry old)
    · exact List.mem_append_right used (List.mem_singleton_self id)
  · rcases mem_inbox_announce member with old | ⟨present, rfl⟩
    · exact filed.entries receiver entry old
    · exact noticeOk receiver present

theorem Filed.leave (filed : net.Filed used postOk msgOk) (left : net.leave id notice = some next)
    (member : id ∈ net.members) (noticeOk : ∀ receiver, receiver ≠ id → msgOk id receiver notice) :
    next.Filed used postOk msgOk := by
  unfold Network.leave at left
  split at left
  · rename_i empty
    cases left
    refine
      { known := fun other stays => filed.known other (List.mem_of_mem_filter stays)
        fresh := fun other unused => ?_
        drained := fun other absent => ?_
        senders := fun receiver entry present => ?_
        posts := filed.posts
        entries := fun receiver entry present => ?_ }
    · have absent : other ∉ net.members.filter (fun other => other ≠ id) := fun stays =>
        unused (filed.known other (List.mem_of_mem_filter stays))
      simp only [announce, if_neg absent]
      exact filed.fresh other unused
    · by_cases same : other = id
      · subst same
        exact List.isEmpty_iff.mp empty
      · exact filed.drained other (fun stays =>
          absent (List.mem_filter.mpr ⟨stays, decide_eq_true same⟩))
    · rcases mem_inbox_announce present with old | ⟨_, rfl⟩
      · exact filed.senders receiver entry old
      · exact filed.known id member
    · rcases mem_inbox_announce present with old | ⟨stays, rfl⟩
      · exact filed.entries receiver entry old
      · exact noticeOk receiver (of_decide_eq_true (List.mem_filter.mp stays).2)
  · cases left

theorem Filed.stream_to_unused (filed : net.Filed used postOk msgOk) (unused : receiver ∉ used)
    (sender : Id) :
    net.stream carry sender receiver =
      (net.outbox sender).filterMap (fun posted => carry sender posted receiver) := by
  simp only [stream, filed.fresh receiver unused, fromSender, List.filterMap_nil, List.nil_append]

end

end Network

end Parley.Library
