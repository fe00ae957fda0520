/-
Replication of the roster under a fixed host.

An end other than the host holds what was last announced to it, and what it wrote
over that itself.  The copies agree once nothing is under way, unless such a write
could not be reported.
-/

import Parley.Service.Leadership

namespace Parley.Service

open Library Session
open Wire (Bytes ParticipantID)

namespace Replicas

section

variable {s next : Replicas} {host : ParticipantID}

/-- The host was the host from the start.  Everybody in its roster is there, or it
has yet to handle the departure. -/
structure Fixed (host : ParticipantID) (s : Replicas) : Prop where
  led : s.Led host
  isHost : (s.ctls host).ctx.host = true
  hostID : ∀ id ∈ s.net.members, (s.ctls id).ctx.hostID = host
  roster : ∀ id ∈ (s.ctls host).roster,
    id ∈ s.net.members ∨ ∃ entry ∈ s.net.inbox host, entry.2 = .left id

theorem Fixed.hostID_moves (fixed : s.Fixed host) {action : ReplicaAction}
    (moves : s.Moves action next) :
    ∀ id ∈ next.net.members, (next.ctls id).ctx.hostID = host := by
  -- the end whose handler runs, and the others
  have written : ∀ {base : Replicas} {writer : ParticipantID} {result : Ctl × List Outgoing},
      base.ctls = s.ctls → result.1.ctx.hostID = host →
      ∀ id, id ∈ s.net.members ∨ id = writer →
        ((base.write writer result).ctls id).ctx.hostID = host := by
    intro base writer result sameCtls isHost id member
    by_cases same : id = writer
    · simp only [write, same, Function.update_self]
      exact isHost
    · simp only [write, Function.update_of_ne same, sameCtls]
      exact fixed.hostID id (member.resolve_right same)
  cases moves with
  | enter id keyer unused present isHost =>
      intro other member
      have same := fixed.led.host_of_flag present isHost
      exact written rfl same other ((List.mem_append.mp member).imp_right List.mem_singleton.mp)
  | keyed keyer id role present known unheard =>
      refine fun other member => written rfl ?_ other (Or.inl member)
      rw [Ctl.ctx_memberKeyed]
      exact fixed.hostID keyer present
  | leave id present net left =>
      exact fun other member => fixed.hostID other ((Network.mem_leave left).mp member).1
  | route sender net routed =>
      exact fun other member => fixed.hostID other (Network.members_route routed ▸ member)
  | handle receiver present entry net shifted =>
      have taken := Network.take_of_shift shifted
      refine fun other member => written rfl ?_ other (Or.inl (Network.members_take taken ▸ member))
      have hostID := fixed.hostID receiver present
      rw [Ctl.ctx_handleNotice s.successor entry.1 (fun isLeft => ?_), hostID]
      rw [hostID] at isLeft
      exact fixed.led.tidy.gone receiver present entry (Network.entry_of_take taken) host isLeft
        fixed.led.present
  | command id cmd present =>
      refine fun other member => written rfl ?_ other (Or.inl member)
      rw [Ctl.ctx_execute]
      exact fixed.hostID id present

theorem Fixed.roster_moves (fixed : s.Fixed host) {action : ReplicaAction}
    (moves : s.Moves action next) (stays : action ≠ .leave host) :
    ∀ id ∈ (next.ctls host).roster,
      id ∈ next.net.members ∨ ∃ entry ∈ next.net.inbox host, entry.2 = .left id := by
  have present := fixed.led.present
  cases moves with
  | enter id keyer unused _ _ =>
      have notHost : host ≠ id := fun same =>
        unused (same ▸ fixed.led.tidy.filed.known host present)
      intro other member
      simp only [write, Function.update_of_ne notHost] at member
      refine (fixed.roster other member).imp (List.mem_append_left [id]) ?_
      rintro ⟨entry, there, isLeft⟩
      have inbox : (s.welcome id).net.inbox host = s.net.inbox host ++ [(id, .joined id)] :=
        if_pos present
      refine ⟨entry, ?_, isLeft⟩
      simp only [write, Network.post, inbox]
      exact List.mem_append_left _ there
  | keyed keyer id role keyerPresent known unheard =>
      cases flag : (s.ctls keyer).ctx.host with
      | false =>
          rw [Ctl.memberKeyed_of_member flag, write_idle]
          exact fixed.roster
      | true =>
          have same := fixed.led.host_of_flag keyerPresent flag
          subst same
          intro other member
          simp only [write, Function.update_self, Ctl.memberKeyed, if_pos flag] at member
          rcases (AList.mem_insert _).mp member with rfl | old
          · rcases Bool.or_eq_true_iff.mp unheard with isMember | pending
            · exact Or.inl (of_decide_eq_true isMember)
            · obtain ⟨entry, there, isLeft⟩ := List.any_eq_true.mp pending
              refine Or.inr ⟨entry, there, ?_⟩
              cases notice : entry.2 with
              | left id =>
                  rw [notice] at isLeft
                  exact congrArg Notice.left (of_decide_eq_true isLeft)
              | joined id => rw [notice] at isLeft; cases isLeft
              | memo msg pruned => rw [notice] at isLeft; cases isLeft
          · exact fixed.roster other old
  | leave id _ net left =>
      have hostStays : host ∈ net.members :=
        (Network.mem_leave left).mpr ⟨present, fun same => stays (same ▸ rfl)⟩
      have inbox : net.inbox host = s.net.inbox host ++ [(id, .left id)] :=
        Network.inbox_leave left hostStays
      intro other member
      simp only [inbox]
      by_cases itself : other = id
      · exact Or.inr ⟨(id, .left id), List.mem_append_right _ (List.mem_singleton_self _),
          itself ▸ rfl⟩
      · refine (fixed.roster other member).imp
          (fun wasThere => (Network.mem_leave left).mpr ⟨wasThere, itself⟩) ?_
        rintro ⟨entry, there, isLeft⟩
        exact ⟨entry, List.mem_append_left _ there, isLeft⟩
  | route sender net routed =>
      obtain ⟨first, rest, _, _, inbox⟩ := Network.route_cases routed
      intro other member
      simp only [Network.members_route routed, inbox host present]
      refine (fixed.roster other member).imp_right ?_
      rintro ⟨entry, there, isLeft⟩
      exact ⟨entry, List.mem_append_left _ there, isLeft⟩
  | handle receiver receiverPresent entry net shifted =>
      have members := Network.members_take (Network.take_of_shift shifted)
      have known := fixed.led.tidy.known_of_shift shifted
      have self := fixed.led.tidy.self receiver receiverPresent
      have proper := fixed.led.tidy.proper receiver receiverPresent
      obtain ⟨rest, pending, isNet⟩ := Network.shift_cases shifted
      intro other member
      simp only [write, Network.post, members]
      by_cases same : host = receiver
      · subst same
        simp only [write, Function.update_self] at member
        obtain ⟨old, notLeft⟩ := Ctl.roster_handleNotice_of_host s.successor proper fixed.isHost
          (self.symm ▸ known.other) known.about member
        refine (fixed.roster other old).imp_right ?_
        rintro ⟨item, there, isLeft⟩
        refine ⟨item, ?_, isLeft⟩
        simp only [isNet, Function.update_self]
        rw [pending] at there
        exact (List.mem_cons.mp there).resolve_left (fun isEntry => notLeft (isEntry ▸ isLeft))
      · simp only [write, Function.update_of_ne same] at member
        simp only [isNet, Function.update_of_ne same]
        exact fixed.roster other member
  | command id cmd _ =>
      intro other member
      have unchanged : ((s.write id ((s.ctls id).execute cmd)).ctls host).roster =
          (s.ctls host).roster := by
        by_cases same : host = id
        · simp only [write, same, Function.update_self, Ctl.roster_execute]
        · simp only [write, Function.update_of_ne same]
      exact fixed.roster other (unchanged ▸ member)

theorem Fixed.moves (fixed : s.Fixed host) {action : ReplicaAction}
    (moves : s.Moves action next) (stays : action ≠ .leave host)
    (commander : ∀ id cmd, action = .command id cmd → id ∈ s.net.members) : next.Fixed host := by
  have hostID := fixed.hostID_moves moves
  have led := fixed.led.moves moves stays (fun id cmd isCommand => by
    rw [fixed.hostID id (commander id cmd isCommand)]
    exact fixed.led.present)
  refine
    { led := led
      isHost := (led.tidy.proper host led.present).mpr ?_
      hostID := hostID
      roster := fixed.roster_moves moves stays }
  rw [hostID host led.present, led.tidy.self host led.present]

end

end Replicas

end Parley.Service
