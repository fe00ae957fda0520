/-
Keys after a migration.

A host leaves and every survivor elects the same end.  If that end becomes the
host before its read goroutine takes up the first flights, and has rotated the
key before it stores a pairwise key, then all survivors end with its key.
-/

import Parley.Service.Departed
import Parley.Service.Rekeying

namespace Parley.Service.Migration

open Crypto Library Session
open Wire (Bytes ParticipantID SessionID)

variable {prim : Primitives} {d : Departure} {w next : World prim}

/-- The elected end leads, every other end follows, and nothing else that is not
plain is under way. -/
structure Handing (d : Departure) (w : World prim) : Prop where
  gone : d.host ∉ w.net.members
  present : d.successor ∈ w.net.members
  steady : Steady d d.successor (view (w.nodes d.successor))
  leading : Leading d (view (w.nodes d.successor)) (line w d.host d.successor)
  survivors : ∀ x ∈ w.net.members, x ≠ d.successor →
    Survivor d x (view (w.nodes x)) (view (w.nodes d.successor)) (line w d.host x)
      (line w x d.successor) (line w d.successor x)
  silent : ∀ sender receiver, receiver ∈ w.net.members → sender ≠ d.host →
    (receiver = d.successor → sender = d.successor ∨ sender ∉ w.net.members) →
    (sender = d.successor → receiver = d.successor) → line w sender receiver = []

theorem Handing.congr (handing : Handing d w) (members : next.net.members = w.net.members)
    (views : ∀ p ∈ w.net.members, view (next.nodes p) = view (w.nodes p))
    (lines : ∀ sender, ∀ receiver ∈ w.net.members,
      line next sender receiver = line w sender receiver) : Handing d next := by
  obtain ⟨gone, present, steady, leading, survivors, silent⟩ := handing
  refine ⟨members ▸ gone, members ▸ present, ?_, ?_, ?_, ?_⟩
  · rw [views _ present]
    exact steady
  · rw [views _ present, lines _ _ present]
    exact leading
  · intro x member other
    rw [members] at member
    rw [views _ present, views x member, lines _ _ present, lines _ _ member, lines _ _ member]
    exact survivors x member other
  · intro sender receiver member
    rw [members] at member ⊢
    rw [lines _ _ member]
    exact silent sender receiver member

variable {posts : List (Sent prim Body)} {x id : ParticipantID} {node : Node prim}

theorem line_acted (acted : w.Acted next x node posts) (y : ParticipantID) :
    line next x y = line w x y ++
      weighty plainFrame (posts.filterMap (fun posted => carry x posted y)) := by
  rw [line, acted.streamSelf, weighty_append]
  rfl

theorem line_acted_of_ne {sender : ParticipantID} (acted : w.Acted next x node posts)
    (differ : sender ≠ x) (y : ParticipantID) : line next sender y = line w sender y := by
  rw [line, acted.streamOther sender differ]
  rfl

theorem members_acted (acted : w.Acted next x node posts) : next.net.members = w.net.members := by
  rw [acted.net]
  rfl

theorem Handing.plain (handing : Handing d w) (acted : w.Acted next x node posts)
    (same : Plain (w.nodes x) node posts) : Handing d next := by
  refine handing.congr (members_acted acted) (fun p _ => ?_) (fun sender receiver _ => ?_)
  · by_cases here : p = x
    · rw [here, acted.node]
      exact same.view
    · rw [acted.others p here]
  · by_cases here : sender = x
    · rw [here, line_acted acted, weighty_carry_of_plain x receiver same.posts, List.append_nil]
    · exact line_acted_of_ne acted here receiver

theorem Handing.successor_acts
    (handing : Handing d w) (acted : w.Acted next d.successor node posts)
    (steady : Steady d d.successor (view node))
    (leading : Leading d (view node) (line w d.host d.successor))
    (conveys : Conveys d (view (w.nodes d.successor)) (view node) (fun x =>
      weighty plainFrame (posts.filterMap (fun posted => carry d.successor posted x))))
    (nothing : weighty plainFrame (posts.filterMap (fun posted =>
      carry d.successor posted d.successor)) = []) : Handing d next := by
  have members := members_acted acted
  have hostLine := line_acted_of_ne acted (Ne.symm d.stays)
  refine ⟨members ▸ handing.gone, members ▸ handing.present, ?_, ?_, ?_, ?_⟩
  · rw [acted.node]
    exact steady
  · rw [acted.node, hostLine]
    exact leading
  · intro x member other
    rw [members] at member
    obtain ⟨still, role, following⟩ := handing.survivors x member other
    rw [acted.node, acted.others x other, hostLine, line_acted_of_ne acted other,
      line_acted acted]
    exact ⟨still, role, conveys x other following⟩
  · intro sender receiver member notHost toSuccessor fromSuccessor
    rw [members] at member toSuccessor
    have before := handing.silent sender receiver member notHost toSuccessor fromSuccessor
    by_cases here : sender = d.successor
    · subst here
      rw [fromSuccessor rfl] at before ⊢
      rw [line_acted acted, before, nothing]
      rfl
    · rw [line_acted_of_ne acted here]
      exact before

theorem Handing.survivor_acts
    (handing : Handing d w) (other : x ≠ d.successor)
    (acted : w.Acted next x node posts) (member : x ∈ w.net.members)
    (survivor : Survivor d x (view node) (view (w.nodes d.successor)) (line w d.host x)
      (line w x d.successor ++
        weighty plainFrame (posts.filterMap (fun posted => carry x posted d.successor)))
      (line w d.successor x))
    (nothing : ∀ y, y ≠ d.successor →
      weighty plainFrame (posts.filterMap (fun posted => carry x posted y)) = []) :
    Handing d next := by
  have members := members_acted acted
  have notHost : d.host ≠ x := fun same => handing.gone (same.symm ▸ member)
  have hostLine := line_acted_of_ne acted notHost
  have successorLine := line_acted_of_ne acted (Ne.symm other)
  refine ⟨members ▸ handing.gone, members ▸ handing.present, ?_, ?_, ?_, ?_⟩
  · rw [acted.others _ (Ne.symm other)]
    exact handing.steady
  · rw [acted.others _ (Ne.symm other), hostLine]
    exact handing.leading
  · intro y present different
    rw [members] at present
    rw [acted.others _ (Ne.symm other), hostLine, successorLine]
    by_cases here : y = x
    · subst here
      rw [acted.node, line_acted acted]
      exact survivor
    · rw [acted.others y here, line_acted_of_ne acted here]
      exact handing.survivors y present different
  · intro sender receiver present notHost toSuccessor fromSuccessor
    rw [members] at present toSuccessor
    have before := handing.silent sender receiver present notHost toSuccessor fromSuccessor
    by_cases here : sender = x
    · subst here
      have away : receiver ≠ d.successor := fun same =>
        (toSuccessor same).elim other (fun absent => absent member)
      rw [line_acted acted, before, nothing receiver away]
      rfl
    · rw [line_acted_of_ne acted here]
      exact before

section

variable {receiver sender : ParticipantID} {frame : Received prim Body} {seed : Bytes}
  {E : Endpoint prim Body} {outputs : List (Output prim Body)}

theorem line_took (took : w.Took next receiver sender frame E outputs)
    (weighs : plainFrame frame = false) :
    line w sender receiver = frame :: line next sender receiver := by
  rw [line, took.stream, weighty_cons weighs]
  rfl

theorem line_took_of_ne (took : w.Took next receiver sender frame E outputs)
    {a b : ParticipantID} (differ : b ≠ receiver ∨ a ≠ sender) : line next a b = line w a b := by
  rw [line, took.streamOther a b differ]
  rfl

theorem Handing.takes_plain (handing : Handing d w)
    (took : w.Took next receiver sender frame E outputs) (plain : plainFrame frame = true)
    (idle : (w.nodes receiver).endpoint.reader = .idle)
    (received : (w.nodes receiver).endpoint.receive frame seed = some (E, outputs)) :
    Handing d next := by
  refine handing.congr took.members (fun p _ => ?_) (fun a b _ => ?_)
  · by_cases here : p = receiver
    · rw [here, took.node, view_of_plainFrame idle received plain]
    · rw [took.others p here]
  · by_cases here : b = receiver ∧ a = sender
    · obtain ⟨rfl, rfl⟩ := here
      rw [line, line, took.stream, weighty_cons_of_plain plain]
    · exact line_took_of_ne took (not_and_or.mp here)

theorem Handing.successor_took (handing : Handing d w)
    (took : w.Took next d.successor sender frame E outputs)
    (weighs : plainFrame frame = false)
    (steady : Steady d d.successor (view ((w.nodes d.successor).settle E outputs)))
    (leading : Leading d (view ((w.nodes d.successor).settle E outputs))
      (line next d.host d.successor))
    (survivors : ∀ x ∈ w.net.members, x ≠ d.successor →
      Following d x (view (w.nodes x)) (view ((w.nodes d.successor).settle E outputs))
        (line w d.host x) (line next x d.successor) (line w d.successor x)) :
    Handing d next := by
  refine ⟨took.members ▸ handing.gone, took.members ▸ handing.present, ?_, ?_, ?_, ?_⟩
  · rw [took.node]
    exact steady
  · rw [took.node]
    exact leading
  · intro x member other
    rw [took.members] at member
    obtain ⟨still, role, _⟩ := handing.survivors x member other
    rw [took.node, took.others x other, line_took_of_ne took (Or.inl other),
      line_took_of_ne took (Or.inl other)]
    exact ⟨still, role, survivors x member other⟩
  · intro a b member notHost toSuccessor fromSuccessor
    rw [took.members] at member toSuccessor
    have before := handing.silent a b member notHost toSuccessor fromSuccessor
    by_cases here : b = d.successor ∧ a = sender
    · obtain ⟨rfl, rfl⟩ := here
      rw [line_took took weighs] at before
      cases before
    · rw [line_took_of_ne took (not_and_or.mp here)]
      exact before

theorem Handing.successor_takes (ideal : prim.Ideal) (handing : Handing d w)
    (took : w.Took next d.successor sender frame E outputs) (weighs : plainFrame frame = false)
    (idle : (w.nodes d.successor).endpoint.reader = .idle)
    (timely : ∀ p, frame = .direct sender (.rekeyPake1 p) →
      (w.nodes d.successor).endpoint.client.isHost = true)
    (received : (w.nodes d.successor).endpoint.receive frame seed = some (E, outputs)) :
    Handing d next := by
  have head := line_took took weighs
  by_cases fromHost : sender = d.host
  · subst fromHost
    have leading := handing.leading
    rw [head] at leading
    obtain ⟨leading, steady, conveys⟩ := leading.takes_host handing.steady idle received
    refine handing.successor_took took weighs steady leading (fun x member other => ?_)
    have notHost : x ≠ d.host := fun same => handing.gone (same ▸ member)
    rw [line_took_of_ne took (Or.inr notHost)]
    have following := conveys x other (handing.survivors x member other).following
    rwa [List.append_nil] at following
  · have other : sender ≠ d.successor := by
      rintro rfl
      have none := handing.silent d.successor d.successor handing.present fromHost
        (fun _ => Or.inl rfl) (fun _ => rfl)
      rw [none] at head
      cases head
    have member : sender ∈ w.net.members := by
      by_contra absent
      have none := handing.silent sender d.successor handing.present fromHost
        (fun _ => Or.inr absent) (fun same => absurd same other)
      rw [none] at head
      cases head
    have following := (handing.survivors sender member other).following
    rw [head] at following
    obtain ⟨first, rfl, left, turned, resting, joiner, noFrame, noFrame', nothing⟩ :=
      following.flight
    obtain ⟨pairwise, flight2, agrees, viewed, leading⟩ := handing.leading.takes_flight ideal
      handing.steady (timely _ rfl) other first idle received
    rw [← line_took_of_ne took (Or.inr (Ne.symm fromHost))] at leading
    refine handing.successor_took took weighs ?_ leading (fun x present different => ?_)
    · rw [viewed]
      exact handing.steady.move rfl
    · rw [viewed]
      by_cases here : x = sender
      · subst here
        rw [noFrame, noFrame', left]
        refine .answered turned .nil ?_ (Or.inl ⟨pairwise, flight2, rfl⟩)
        rw [List.nil_append, owed, if_pos rfl]
        exact .asked resting joiner agrees
      · rw [line_took_of_ne took (Or.inr here)]
        refine (handing.survivors x present different).following.of_served ?_ rfl ?_
        · rw [show (view (w.nodes d.successor)).reader = .idle from idle]
          exact if_neg (Ne.symm here)
        · rintro (⟨pairwise', flight2', serving⟩ | both)
          · rw [show (view (w.nodes d.successor)).reader = .idle from idle] at serving
            cases serving
          · exact Or.inr both

theorem Handing.survivor_takes (handing : Handing d w)
    (took : w.Took next receiver sender frame E outputs) (weighs : plainFrame frame = false)
    (member : receiver ∈ w.net.members) (other : receiver ≠ d.successor)
    (idle : (w.nodes receiver).endpoint.reader = .idle)
    (received : (w.nodes receiver).endpoint.receive frame seed = some (E, outputs)) :
    Handing d next := by
  have head := line_took took weighs
  have survivor := handing.survivors receiver member other
  have taken : Survivor d receiver (view ((w.nodes receiver).settle E outputs))
      (view (w.nodes d.successor)) (line next d.host receiver) (line w receiver d.successor)
      (line next d.successor receiver) := by
    by_cases fromHost : sender = d.host
    · subst fromHost
      rw [head] at survivor
      rw [line_took_of_ne took (Or.inr d.stays)]
      exact survivor.takes_host idle received
    · by_cases fromSuccessor : sender = d.successor
      · subst fromSuccessor
        rw [head] at survivor
        rw [line_took_of_ne took (Or.inr (Ne.symm d.stays))]
        exact survivor.takes_successor idle received
      · have none := handing.silent sender receiver member fromHost
          (fun same => absurd same other) (fun same => absurd same fromSuccessor)
        rw [none] at head
        cases head
  refine ⟨took.members ▸ handing.gone, took.members ▸ handing.present, ?_, ?_, ?_, ?_⟩
  · rw [took.others _ (Ne.symm other)]
    exact handing.steady
  · rw [took.others _ (Ne.symm other), line_took_of_ne took (Or.inl (Ne.symm other))]
    exact handing.leading
  · intro x present different
    rw [took.members] at present
    rw [took.others _ (Ne.symm other), line_took_of_ne took (Or.inl (Ne.symm other))]
    by_cases here : x = receiver
    · subst here
      rw [took.node]
      exact taken
    · rw [took.others x here, line_took_of_ne took (Or.inl here),
        line_took_of_ne took (Or.inl here)]
      exact handing.survivors x present different
  · intro a b present notHost toSuccessor fromSuccessor
    rw [took.members] at present toSuccessor
    have before := handing.silent a b present notHost toSuccessor fromSuccessor
    by_cases here : b = receiver ∧ a = sender
    · obtain ⟨rfl, rfl⟩ := here
      rw [head] at before
      cases before
    · rw [line_took_of_ne took (not_and_or.mp here)]
      exact before

end

def calm : WorldAction → Bool
  | .join _ _ _ _ _ _ => false
  | .leave _ => false
  | _ => true

def elects (host successor : ParticipantID) (w : World prim) : WorldAction → Bool
  | .act id .event =>
      match (w.nodes id).events with
      | .memberLeft left :: _ =>
          left ≠ host ∨ ((w.nodes id).mux.ctl.memberLeft ctlServices left).1.electSuccessor
            (w.nodes id).mux.successor left = successor
      | _ => true
  | _ => true

def isRotation : Task prim → Bool
  | .rotateForMigration => true
  | _ => false

/-- The successor takes a first flight as the host, and stores a pairwise key when
it has rotated the group key. -/
def timely (successor : ParticipantID) (w : World prim) : WorldAction → Bool
  | .deliver receiver sender _ =>
      match (w.stream sender receiver).head? with
      | some (.direct _ (.rekeyPake1 _)) =>
          receiver ≠ successor ∨ (w.nodes receiver).endpoint.client.isHost = true
      | _ => true
  | .act id (.advance _) =>
      match (w.nodes id).endpoint.reader with
      | .readmitting _ _ _ => id ≠ successor ∨ (w.nodes id).todo.any isRotation = false
      | _ => true
  | _ => true

def Handled (host : ParticipantID) (w : World prim) : Prop :=
  ∀ p ∈ w.net.members, (∀ sender ∈ host :: w.net.members, (w.stream sender p).isEmpty = true) ∧
    (w.nodes p).endpoint.reader.isIdle = true ∧ (w.nodes p).todo.isEmpty = true ∧
    (w.nodes p).events.isEmpty = true

instance (host : ParticipantID) (w : World prim) : Decidable (Handled host w) :=
  have (p : ParticipantID) :
      Decidable (∀ sender ∈ host :: w.net.members, (w.stream sender p).isEmpty = true) :=
    List.decidableBAll _ _
  List.decidableBAll _ _

theorem not_rotation_of_timely {outcome : Outcome} {y : ParticipantID} {pairwise : Key}
    {flight2 : Bytes} (inTime : timely id w (.act id (.advance outcome)) = true)
    (reader : (w.nodes id).endpoint.reader = .readmitting y pairwise flight2) :
    .rotateForMigration ∉ (view (w.nodes id)).todo := by
  simp only [timely, reader, ne_eq, not_true_eq_false, false_or, decide_eq_true_eq] at inTime
  intro member
  have pending := (List.mem_filter.mp member).1
  exact Bool.false_ne_true (inTime.symm.trans (List.any_eq_true.mpr ⟨_, pending, rfl⟩))

theorem elects_of_event {event : Event Body} {rest : List (Event Body)}
    (elected : elects d.host d.successor w (.act id .event) = true)
    (isEvents : (w.nodes id).events = event :: rest) (isLeft : event = .memberLeft d.host) :
    ((w.nodes id).mux.ctl.memberLeft ctlServices d.host).1.electSuccessor
      (w.nodes id).mux.successor d.host = d.successor := by
  subst isLeft
  simpa only [elects, isEvents, ne_eq, not_true_eq_false, false_or, decide_eq_true_eq]
    using elected

theorem Handing.acts (ideal : prim.Ideal) (handing : Handing d w) {action : NodeAction}
    (dependable : w.Dependable (.act id action))
    (elected : elects d.host d.successor w (.act id action) = true)
    (inTime : timely d.successor w (.act id action) = true)
    (stepped : w.step (.act id action) = some next) : Handing d next := by
  obtain ⟨member, node, posts, acted, rfl⟩ := World.act_cases stepped
  have settled : w.Acted (w.settle id node posts) id node posts := World.acted_of_settle
  by_cases here : id = d.successor
  · subst here
    have steady := handing.steady
    cases moved_of_step steady.phase steady.calls acted with
    | plain same => exact handing.plain settled same
    | advanced isAdvance advanced =>
        subst isAdvance
        obtain ⟨leading, steady, conveys, nothing⟩ := handing.leading.advances ideal steady
          dependable.2.1 dependable.2.2 (fun _ _ _ reader => not_rotation_of_timely inTime reader)
          advanced
        exact handing.successor_acts settled steady leading conveys nothing
    | noticed isEvent idle isEvents weighs =>
        subst isEvent
        obtain ⟨leading, steady, conveys⟩ := handing.leading.notices steady isEvents weighs
          (elects_of_event elected isEvents)
        exact handing.successor_acts settled steady leading conveys rfl
    | performed isTask isTodo weighs done =>
        subst isTask
        obtain ⟨rfl, leading, steady, conveys⟩ :=
          handing.leading.performs steady isTodo weighs dependable.1 done
        exact handing.successor_acts settled steady leading conveys rfl
  · have survivor := handing.survivors id member here
    cases moved_of_step survivor.steady.phase survivor.steady.calls acted with
    | plain same => exact handing.plain settled same
    | advanced isAdvance advanced =>
        subst isAdvance
        obtain ⟨rfl, survivor⟩ := survivor.advances advanced
        refine handing.survivor_acts here settled member ?_ (fun y _ => rfl)
        exact (List.append_nil (line w id d.successor)).symm ▸ survivor
    | noticed isEvent idle isEvents weighs =>
        subst isEvent
        have survivor := survivor.notices (Ne.symm here) isEvents weighs
          (elects_of_event elected isEvents)
        refine handing.survivor_acts here settled member ?_ (fun y _ => rfl)
        exact (List.append_nil (line w id d.successor)).symm ▸ survivor
    | performed isTask isTodo weighs done =>
        subst isTask
        obtain ⟨survivor, nothing⟩ :=
          survivor.performs (Ne.symm here) isTodo weighs dependable.2.2 done
        exact handing.survivor_acts here settled member survivor nothing

theorem Handing.delivers (ideal : prim.Ideal) (handing : Handing d w)
    {receiver sender : ParticipantID} {seed : Bytes}
    (inTime : timely d.successor w (.deliver receiver sender seed) = true)
    (stepped : w.step (.deliver receiver sender seed) = some next) : Handing d next := by
  obtain ⟨member, frame, E, outputs, received, took⟩ := World.took_of_deliver stepped
  have loop : Reader.inLoop (w.nodes receiver).endpoint.reader = true := by
    by_cases here : receiver = d.successor
    · rw [here]
      exact handing.leading.inLoop
    · exact (handing.survivors receiver member here).following.inLoop
  have idle := idle_of_receive loop received
  cases plain : plainFrame frame with
  | true => exact handing.takes_plain took plain idle received
  | false =>
      by_cases here : receiver = d.successor
      · subst here
        refine handing.successor_takes ideal took plain idle (fun p isFlight => ?_) received
        simpa only [timely, took.stream, List.head?_cons, isFlight, ne_eq, not_true_eq_false,
          false_or, decide_eq_true_eq] using inTime
      · exact handing.survivor_takes took plain member here idle received

def Permitted (d : Departure) (w : World prim) (action : WorldAction) : Prop :=
  calm action = true ∧ w.Dependable action ∧ elects d.host d.successor w action = true ∧
    timely d.successor w action = true

instance (d : Departure) (w : World prim) (action : WorldAction) :
    Decidable (Permitted d w action) :=
  inferInstanceAs (Decidable (_ ∧ _ ∧ _ ∧ _))

theorem Handing.steps (ideal : prim.Ideal) (handing : Handing d w) {action : WorldAction}
    (permitted : Permitted d w action) (stepped : w.step action = some next) :
    Handing d next := by
  obtain ⟨quiet, dependable, elected, inTime⟩ := permitted
  cases action with
  | join id proto phraseC policy observer seed => cases quiet
  | leave id => cases quiet
  | route sender =>
      obtain ⟨net, routed, rfl⟩ := World.route_cases stepped
      refine handing.congr (Network.members_route routed) (fun p _ => rfl)
        (fun a receiver member => ?_)
      exact congrArg (weighty plainFrame) (Network.stream_route routed a member)
  | deliver receiver sender seed => exact handing.delivers ideal inTime stepped
  | act id action => exact handing.acts ideal dependable elected inTime stepped

/-- A session right after its host has left: every member is keyed, follows the
host and has only plain things to do besides the host's last keys and the notice
of its departure. -/
structure Bereft (d : Departure) (w : World prim) : Prop where
  gone : d.host ∉ w.net.members
  present : d.successor ∈ w.net.members
  steady : ∀ p ∈ w.net.members, Steady d p (view (w.nodes p))
  guest : ∀ p ∈ w.net.members, Guest d (view (w.nodes p))
  events : ∀ p ∈ w.net.members, (view (w.nodes p)).events = []
  idle : ∀ p ∈ w.net.members, (w.nodes p).endpoint.reader = .idle
  notice : ∀ p ∈ w.net.members, ∃ early, line w d.host p = early ++ [.participantLeft d.host] ∧
    ∀ frame ∈ early, OldKey d p frame
  silent : ∀ p ∈ w.net.members, ∀ sender, sender ≠ d.host → line w sender p = []

theorem Bereft.led (bereft : Bereft d w) {p : ParticipantID} (member : p ∈ w.net.members) :
    Led d p (view (w.nodes p)) (line w d.host p) := by
  obtain ⟨early, isLine, old⟩ := bereft.notice p member
  rw [isLine]
  exact .unheard (bereft.guest p member) (bereft.events p member) old
    (Or.inl (bereft.idle p member))

theorem Bereft.handing (bereft : Bereft d w) : Handing d w :=
  { bereft with
    steady := bereft.steady _ bereft.present
    leading := .led (bereft.led bereft.present)
    survivors := fun x member other => by
      have notHost : x ≠ d.host := fun same => bereft.gone (same ▸ member)
      refine ⟨bereft.steady x member, (bereft.guest x member).role, ?_⟩
      rw [bereft.silent _ bereft.present x notHost, bereft.silent x member _ d.stays]
      refine .led (bereft.led member) ?_
      rw [show (view (w.nodes d.successor)).reader = .idle from bereft.idle _ bereft.present]
      rfl
    silent := fun sender receiver member notHost _ _ => bereft.silent receiver member sender notHost }

theorem Handing.agrees (handing : Handing d w) (handled : Handled d.host w)
    (member : x ∈ w.net.members) (other : x ≠ d.successor) :
    (w.nodes x).endpoint.client.groupKey = (w.nodes d.successor).endpoint.client.groupKey ∧
      x ∈ (w.nodes d.successor).endpoint.client.pairwise := by
  have still : ∀ p ∈ w.net.members, (view (w.nodes p)).reader = .idle ∧
      (view (w.nodes p)).todo = [] ∧ (view (w.nodes p)).events = [] := by
    intro p present
    obtain ⟨_, idle, todo, events⟩ := handled p present
    refine ⟨Reader.eq_idle_of_isIdle idle, ?_, ?_⟩
    · rw [view, List.isEmpty_iff.mp todo]
      rfl
    · rw [view, List.isEmpty_iff.mp events]
      rfl
  have drained : ∀ p ∈ w.net.members, ∀ sender ∈ d.host :: w.net.members,
      line w sender p = [] := by
    intro p present sender known
    rw [line, List.isEmpty_iff.mp ((handled p present).1 sender known)]
    rfl
  have survivor := handing.survivors x member other
  rw [drained x member _ (List.mem_cons_self ..),
    drained _ handing.present x (List.mem_cons_of_mem _ member),
    drained x member _ (List.mem_cons_of_mem _ handing.present)] at survivor
  exact survivor.following.settled (still x member) (still _ handing.present).1

/-- In every run after a departure in which the successor becomes the host before
it takes a first flight, and rotates before it stores a pairwise key, every
survivor ends with the successor's key and in its pairwise map. -/
theorem survivors_hold_rotated_key (ideal : prim.Ideal) (d : Departure) {w final : World prim}
    {actions : List WorldAction} (bereft : Bereft d w)
    (along : Along World.step (Permitted d) w actions)
    (reached : run World.step w actions = some final) (handled : Handled d.host final) :
    ∀ x ∈ final.net.members, x ≠ d.successor →
      (final.nodes x).endpoint.client.groupKey =
          (final.nodes d.successor).endpoint.client.groupKey ∧
        x ∈ (final.nodes d.successor).endpoint.client.pairwise := by
  have handing : Handing d final := run_invariant
    (fun _ _ _ handing permitted stepped => handing.steps ideal permitted stepped)
    bereft.handing along reached
  exact fun x member other => handing.agrees handled member other

/-! ### A sample departure -/

def sampleDeparture : Departure :=
  { host := 1
    successor := 2
    proto := []
    phraseC := []
    sid := Vector.replicate 16 0
    elected := by decide
    stays := by decide }

def sampleMember (id : ParticipantID) : Node symbolic :=
  { endpoint :=
      { client :=
          { dial [] (Vector.replicate 16 0) [] defaultRolePolicy false with
            self := id
            hostID := 1
            role := roleMember
            keyed := true }
        reader := .idle
        calls := [] }
    events := []
    mux :=
      { Mux.new defaultSuccessorPolicy with
        ctl :=
          { Ctl.new with
            ctx := { self := id, hostID := 1, host := false }
            roster := ((AList.singleton 1 roleHost).insert 2 roleMember).insert 3 roleMember } }
    phase := .running
    todo := []
    departed := [] }

def sampleBereft : World symbolic :=
  { sid := Vector.replicate 16 0
    successor := defaultSuccessorPolicy
    net :=
      { members := [2, 3]
        outbox := fun _ => []
        inbox := fun _ => [(1, .participantLeft 1)] }
    hubHost := 1
    nodes := sampleMember
    used := [1, 2, 3] }

theorem line_sampleBereft (sender receiver : ParticipantID) :
    line sampleBereft sender receiver =
      if sender = 1 then [.participantLeft 1] else [] := by
  by_cases host : sender = 1
  · subst host
    rfl
  · rw [if_neg host, line, World.stream, Network.stream, sampleBereft]
    simp [Network.fromSender, Ne.symm host, weighty]

theorem sampleBereft_bereft : Bereft sampleDeparture sampleBereft :=
  { gone := by decide
    present := by decide
    steady := fun _ _ => ⟨rfl, rfl, rfl, rfl, rfl, rfl, rfl⟩
    guest := fun _ _ => ⟨rfl, (by decide : roleMember ≠ roleHost), rfl, rfl⟩
    events := fun _ _ => rfl
    idle := fun _ _ => rfl
    notice := fun p _ => ⟨[], line_sampleBereft 1 p, fun frame absent => by cases absent⟩
    silent := fun p _ sender notHost => (line_sampleBereft sender p).trans (if_neg notHost) }

def turnsTo (id : ParticipantID) : List WorldAction :=
  [.deliver id 1 [], .act id (.advance (success 0)), .act id .event, .act id (.task (taskDone 0)),
    .act id (.task (taskDone 0)), .act id (.task (taskDone 0)), .act id (.task (taskDone 0)),
    .route id]

def hearsOf (id : ParticipantID) : List WorldAction :=
  [.deliver id 1 [], .act id (.advance (success 0))]

/-- It becomes the host, rotates, announces the roster and claims the session. -/
def takesOver (id : ParticipantID) : List WorldAction :=
  [.act id .event, .act id (.task (taskDone 1)), .act id (.task (taskDone 1)),
    .act id (.task (taskDone 1)), .act id (.task (taskDone 1)), .act id (.task (taskDone 1)),
    .act id (.task (taskDone 1)), .act id (.task (taskDone 1)), .route id, .route id]

/-- The first flight is taken up and answered, and the survivor installs the key. -/
def readmits (id survivor : ParticipantID) : List WorldAction :=
  [.deliver id survivor [], .act id (.advance (success 0)), .act id (.advance (success 0)),
    .act id (.advance (success 0)), .route id, .route id, .deliver survivor id [],
    .deliver survivor id [], .act survivor (.advance (success 0)),
    .act survivor (.advance (success 0)), .deliver survivor id [],
    .act survivor (.advance (success 0))]

def handsOver : List WorldAction :=
  turnsTo 3 ++ hearsOf 2 ++ takesOver 2 ++ readmits 2 3

/-- The theorem applies to a run in which the successor takes over first. -/
theorem survivors_hold_rotated_key_sample :
    ∃ final, run World.step sampleBereft handsOver = some final ∧ 3 ∈ final.net.members ∧
      (final.nodes 3).endpoint.client.groupKey = sampleKey 1 ∧
      (final.nodes 3).endpoint.client.groupKey = (final.nodes 2).endpoint.client.groupKey ∧
      3 ∈ (final.nodes 2).endpoint.client.pairwise := by
  have finished : (run World.step sampleBereft handsOver).any (fun final =>
      decide (3 ∈ final.net.members ∧
        (final.nodes 3).endpoint.client.groupKey = sampleKey 1 ∧ Handled 1 final)) = true := by
    decide +kernel
  have permitted : Along World.step (Permitted sampleDeparture) sampleBereft handsOver := by
    decide +kernel
  obtain ⟨final, reached, facts⟩ := (Option.any_eq_true _ _).mp finished
  obtain ⟨member, isKey, handled⟩ := of_decide_eq_true facts
  exact ⟨final, reached, member, isKey, survivors_hold_rotated_key symbolic_ideal sampleDeparture
    sampleBereft_bereft permitted reached handled 3 member (by decide)⟩

/-- Participants 1, 2 and 3 with equal rosters, and the host leaves. -/
def hostLeaves : List WorldAction :=
  threeTogether ++
    [.deliver 2 1 [], .deliver 2 1 [], .deliver 2 3 [], .deliver 2 1 [], .act 2 .event,
      .act 2 .event, .act 2 .event, .act 2 .event, .leave 1]

/-- The elected end reads the first flight before its mux makes it the host. -/
def readsEarly : List WorldAction :=
  turnsTo 3 ++ hearsOf 2 ++ [.deliver 2 3 []] ++ takesOver 2 ++ [.deliver 3 2 []]

/-- In the relay's own order and with nothing failing, a survivor whose first
flight is read too early never gets the new key. -/
theorem early_flight_lost :
    ¬∀ (prim : Primitives), prim.Ideal → ∀ (proto phraseC : Bytes) (sid : SessionID)
      (policy : RolePolicy) (observer : Bool) (host successor : ParticipantID) (key : Key)
      (before after : List WorldAction) (w final : World prim),
      Along World.step (fun w action => w.Dependable action ∧ w.HubOrdered action)
          (World.start proto phraseC sid policy observer defaultSuccessorPolicy host key :
            World prim) (before ++ after) →
        run World.step (World.start proto phraseC sid policy observer defaultSuccessorPolicy host
          key) before = some w →
        before.getLast? = some (.leave host) →
        (∀ p ∈ w.net.members, (w.nodes p).endpoint.client.keyed = true) →
        (∀ action ∈ after, calm action = true) →
        Along World.step (fun w action => elects host successor w action = true) w after →
        run World.step w after = some final → Handled host final →
        ∀ x ∈ final.net.members, x ≠ successor →
          (final.nodes x).endpoint.client.groupKey =
              (final.nodes successor).endpoint.client.groupKey ∧
            x ∈ (final.nodes successor).endpoint.client.pairwise := by
  intro claimed
  have permitted : Along World.step (fun w action => w.Dependable action ∧ w.HubOrdered action)
      sampleWorld (hostLeaves ++ readsEarly) := by
    decide +kernel
  have left : (run World.step sampleWorld hostLeaves).any (fun w =>
      decide (w.net.members.all (fun p => (w.nodes p).endpoint.client.keyed) = true ∧
        Along World.step (fun w action => elects 1 2 w action = true) w readsEarly ∧
        (run World.step w readsEarly).any (fun final =>
          decide (Handled 1 final ∧ 3 ∈ final.net.members ∧
            3 ∉ (final.nodes 2).endpoint.client.pairwise)) = true)) = true := by
    decide +kernel
  obtain ⟨w, reached, facts⟩ := (Option.any_eq_true _ _).mp left
  obtain ⟨keyed, elected, finished⟩ := of_decide_eq_true facts
  obtain ⟨final, ended, facts⟩ := (Option.any_eq_true _ _).mp finished
  obtain ⟨handled, member, absent⟩ := of_decide_eq_true facts
  have agreed := claimed symbolic symbolic_ideal [] [] (Vector.replicate 16 0) defaultRolePolicy
    false 1 2 (sampleKey 0) hostLeaves readsEarly w final permitted reached rfl
    (List.all_eq_true.mp keyed) (by decide) elected ended handled 3 member (by decide)
  exact absent agreed.2

end Parley.Service.Migration
