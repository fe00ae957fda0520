/-
The eviction loop ends.

Removing one participant can overflow others, which are then removed in turn.
A client is marked at most once, so the list of pending removals and the clients
not yet marked together bound the number of iterations.
-/

import Parley.Library.AssocList
import Parley.Relay.Hub

namespace Parley.Relay

open Wire Library

def unmarked (entry : Sigma (fun _ : ParticipantID => Client)) : Bool :=
  !entry.2.evicting

def evictionWork (h : Hub) : Nat :=
  h.evict.length + 2 * h.clients.entries.countP unmarked

theorem queue_evictionWork (h : Hub) (id : ParticipantID) (body : Body) (frame : Bytes) :
    evictionWork (queue h id body frame).1 ≤ evictionWork h := by
  unfold queue
  split
  · exact Nat.le_refl _
  · rename_i c found
    split
    · exact Nat.le_refl _
    · rename_i fresh
      have unmarkedNow : unmarked ⟨id, c⟩ = true := by
        simpa [unmarked] using fresh
      split
      · have count := countP_insert h.clients id c { c with out := c.out ++ [frame] } found unmarked
        have unmarkedLater : unmarked ⟨id, { c with out := c.out ++ [frame] }⟩ = true :=
          unmarkedNow
        rw [if_pos unmarkedNow, if_pos unmarkedLater] at count
        simp only [evictionWork]
        omega
      · have count := countP_insert h.clients id c { c with evicting := true } found unmarked
        have markedLater : ¬unmarked ⟨id, { c with evicting := true }⟩ = true := by
          simp [unmarked]
        rw [if_pos unmarkedNow, if_neg markedLater] at count
        simp only [evictionWork, List.length_append, List.length_singleton]
        omega

theorem fanOut_evictionWork (body : Body) (frame : Bytes) (except : ParticipantID)
    (keys : List ParticipantID) (h : Hub) :
    evictionWork (fanOut body frame except keys h).1 ≤ evictionWork h := by
  induction keys generalizing h with
  | nil => exact Nat.le_refl _
  | cons id rest ih =>
      unfold fanOut
      split
      · exact ih h
      · exact Nat.le_trans (ih _) (queue_evictionWork h id body frame)

theorem removeParticipant_evictionWork (codec : Codec)
    (visit : List ParticipantID → List ParticipantID) (h : Hub) (id : ParticipantID) :
    evictionWork (removeParticipant codec visit h id).1 ≤ evictionWork h := by
  have erased : evictionWork { h with clients := h.clients.erase id } ≤ evictionWork h := by
    have count := countP_erase_le h.clients id unmarked
    simp only [evictionWork]
    omega
  unfold removeParticipant
  split
  · exact Nat.le_refl _
  · dsimp only
    split
    · exact erased
    · unfold broadcastFrame
      split
      · exact erased
      · exact Nat.le_trans (fanOut_evictionWork _ _ _ _ _) erased

theorem drainEvictions_isSome (codec : Codec) (order : Order) (fuel loop : Nat) (h : Hub)
    (enough : evictionWork h ≤ fuel) :
    (drainEvictions codec order fuel loop h).isSome = true := by
  induction fuel generalizing loop h with
  | zero =>
      have empty : h.evict = [] := by
        apply List.eq_nil_of_length_eq_zero
        unfold evictionWork at enough
        omega
      unfold drainEvictions
      split
      · rfl
      · rename_i pending
        rw [empty] at pending
        cases pending
  | succ fuel ih =>
      unfold drainEvictions
      split
      · rfl
      · rename_i id rest pending
        dsimp only
        split
        · rfl
        · rw [Option.isSome_map]
          apply ih
          have removal := removeParticipant_evictionWork codec (order.visit loop)
            { h with evict := rest } id
          have taken : evictionWork { h with evict := rest } + 1 = evictionWork h := by
            simp only [evictionWork, pending, List.length_cons]
            omega
          omega

theorem evictionWork_le_drainFuel (h : Hub) : evictionWork h ≤ drainFuel h := by
  have count := List.countP_le_length (p := unmarked) (l := h.clients.entries)
  have size : h.clients.keys.length = h.clients.entries.length := List.length_map ..
  simp only [evictionWork, drainFuel]
  omega

theorem handle_isSome (codec : Codec) (order : Order) (h : Hub) (cmd : Cmd) :
    (handle codec order h cmd).isSome = true := by
  unfold handle
  dsimp only
  split
  · rfl
  · rw [Option.isSome_map]
    exact drainEvictions_isSome codec order _ 2 _ (evictionWork_le_drainFuel _)

end Parley.Relay
