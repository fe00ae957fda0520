/-
The control service of a session end and the election of a host.

The state is that of the source without the back pointer to the mux.  Handlers
return the messages they send; the mux seals and writes them.  A screen name is
the list of its runes, and the opaque attributes are raw bytes.

Each roster copy carries a history variable: the participants an authoritative
end has removed from it, handed on with every announce.  No decision reads it.
-/

import Parley.Session.Client

namespace Parley.Service

open Session
open Wire (Bytes ParticipantID)

def ctlID : String := "ctl"

abbrev Name : Type := List Char

structure ServiceInfo where
  id : String
  version : Nat
  deriving DecidableEq, Repr

structure Announce where
  roster : GoMap ParticipantID Role
  names : GoMap ParticipantID Name
  endpoints : GoMap ParticipantID Bytes
  pushKey : Bytes
  services : List ServiceInfo

/-- A decoded ctl body.  `other` has a kind the handler does not know. -/
inductive CtlMsg where
  | announce (a : Announce)
  | snapshotReq
  | snapshot (blobs : GoMap String Bytes)
  | identity (name : Name) (endpoint : Bytes)
  | other

/-- The body of an envelope: of the ctl service, with the sender's history
variable, or of an application's service. -/
inductive Body where
  | ctl (msg : CtlMsg) (pruned : List ParticipantID)
  | app (bytes : Bytes)

def maxNameLen : Nat := 24

/-- `unicode.IsControl`: the category Cc. -/
def isControl (r : Char) : Bool :=
  r.toNat < 0x20 || (0x7f ≤ r.toNat && r.toNat < 0xa0)

/-- `unicode.IsSpace`. -/
def isSpace (r : Char) : Bool :=
  (0x09 ≤ r.toNat && r.toNat ≤ 0x0d) || r.toNat = 0x20 || r.toNat = 0x85 || r.toNat = 0xa0 ||
    r.toNat = 0x1680 || (0x2000 ≤ r.toNat && r.toNat ≤ 0x200a) || r.toNat = 0x2028 ||
    r.toNat = 0x2029 || r.toNat = 0x202f || r.toNat = 0x205f || r.toNat = 0x3000

def trimSpace (s : Name) : Name :=
  ((s.dropWhile isSpace).reverse.dropWhile isSpace).reverse

def sanitizeName (s : Name) : Name :=
  let kept := (trimSpace s).filter (fun r => !isControl r)
  if kept.length > maxNameLen then kept.take maxNameLen else kept

structure Context where
  self : ParticipantID
  hostID : ParticipantID
  host : Bool

structure Ctl where
  ctx : Context
  roster : GoMap ParticipantID Role
  names : GoMap ParticipantID Name
  endpoints : GoMap ParticipantID Bytes
  pushKey : Bytes
  selfName : Name
  selfEndpoint : Bytes
  /-- History: who was removed from this copy of the roster. -/
  pruned : List ParticipantID

inductive Outgoing where
  | broadcast (msg : CtlMsg)
  | sendTo (toID : ParticipantID) (msg : CtlMsg)

namespace Ctl

def new : Ctl :=
  { ctx := { self := 0, hostID := 0, host := false }
    roster := ∅
    names := ∅
    endpoints := ∅
    pushKey := []
    selfName := []
    selfEndpoint := []
    pruned := [] }

def attach (c : Ctl) (ctx : Context) : Ctl :=
  { c with
    ctx := ctx
    roster := if ctx.host then c.roster.insert ctx.self roleHost else c.roster }

def currentOnly {α : Type} [BEq α] (roster : GoMap ParticipantID Role)
    (values : GoMap ParticipantID α) (empty : α) : GoMap ParticipantID α :=
  roster.keys.foldl (fun kept id =>
    match values.lookup id with
    | some value => if value == empty then kept else kept.insert id value
    | none => kept) ∅

def announce (c : Ctl) (services : List ServiceInfo) : Outgoing :=
  .broadcast (.announce
    { roster := c.roster
      names := currentOnly c.roster c.names []
      endpoints := currentOnly c.roster c.endpoints []
      pushKey := c.pushKey
      services := services })

def requestSnapshot (c : Ctl) : Outgoing :=
  .sendTo c.ctx.hostID .snapshotReq

def setName (c : Ctl) (services : List ServiceInfo) (name : Name) : Ctl × List Outgoing :=
  let name := sanitizeName name
  if name = [] then (c, [])
  else
    let c' := { c with
      selfName := name
      names := c.names.insert c.ctx.self name }
    if c.ctx.host then (c', [c'.announce services])
    else (c', [.sendTo c.ctx.hostID (.identity name [])])

def setEndpoint (c : Ctl) (services : List ServiceInfo) (endpoint : Bytes) : Ctl × List Outgoing :=
  let c' := { c with
    selfEndpoint := endpoint
    endpoints := c.endpoints.insert c.ctx.self endpoint }
  if c.ctx.host then (c', [c'.announce services])
  else (c', [.sendTo c.ctx.hostID (.identity [] endpoint)])

def setPushKey (c : Ctl) (services : List ServiceInfo) (key : Bytes) : Ctl × List Outgoing :=
  if c.ctx.host then
    let c' := { c with pushKey := key }
    (c', [c'.announce services])
  else (c, [])

def handleAnnounce (c : Ctl) (fromID : ParticipantID) (a : Announce)
    (pruned : List ParticipantID) : Except String Ctl :=
  if fromID = c.ctx.hostID then
    .ok { c with
      roster := a.roster
      names := a.names
      endpoints := a.endpoints
      pushKey := a.pushKey
      pruned := pruned }
  else .error s!"ctl: announce from non-host {fromID}"

def handleIdentity (c : Ctl) (services : List ServiceInfo) (fromID : ParticipantID) (name : Name)
    (endpoint : Bytes) : Ctl × List Outgoing :=
  if c.ctx.host then
    let c' := { c with
      names := if name = [] then c.names else c.names.insert fromID (sanitizeName name)
      endpoints := if endpoint = [] then c.endpoints else c.endpoints.insert fromID endpoint }
    (c', [c'.announce services])
  else (c, [])

/-- The answer to a snapshot request, with the layered services' blobs. -/
def handleSnapshotReq (c : Ctl) (fromID : ParticipantID) (blobs : GoMap String Bytes) :
    List Outgoing :=
  if c.ctx.host then [.sendTo fromID (.snapshot blobs)] else []

/-- Only the host's snapshot is accepted; ctl itself has nothing to restore. -/
def handleSnapshot (c : Ctl) (fromID : ParticipantID) : Except String Ctl :=
  if fromID = c.ctx.hostID then .ok c
  else .error s!"ctl: snapshot from non-host {fromID}"

def memberKeyed (c : Ctl) (services : List ServiceInfo) (id : ParticipantID) (role : Role) :
    Ctl × List Outgoing :=
  if c.ctx.host then
    let c' := { c with roster := c.roster.insert id role }
    (c', [c'.announce services])
  else (c, [])

def remove (c : Ctl) (id : ParticipantID) : Ctl :=
  { c with
    roster := c.roster.erase id
    names := c.names.erase id
    endpoints := c.endpoints.erase id
    pruned := id :: c.pruned }

def memberLeft (c : Ctl) (services : List ServiceInfo) (id : ParticipantID) :
    Ctl × List Outgoing :=
  if c.ctx.host then
    let c' := c.remove id
    (c', [c'.announce services])
  else (c, [])

def assumeHost (c : Ctl) (services : List ServiceInfo) (leaver : ParticipantID) :
    Ctl × List Outgoing :=
  let removed := c.remove leaver
  let c' := { removed with roster := removed.roster.insert c.ctx.self roleHost }
  (c', [c'.announce services])

end Ctl

abbrev SuccessorPolicy : Type := GoMap ParticipantID Role → ParticipantID

/-- One turn of the loop: the least id so far of a host or member, and of
anybody; 0 is none. -/
def considerCandidate (best : ParticipantID × ParticipantID)
    (candidate : (_ : ParticipantID) × Role) : ParticipantID × ParticipantID :=
  (if (candidate.2 = roleHost ∨ candidate.2 = roleMember) ∧
      (best.1 = 0 ∨ candidate.1 < best.1) then candidate.1 else best.1,
    if best.2 = 0 ∨ candidate.1 < best.2 then candidate.1 else best.2)

def defaultSuccessorPolicy : SuccessorPolicy :=
  fun candidates =>
    let best := candidates.entries.foldl considerCandidate (0, 0)
    if best.1 ≠ 0 then best.1 else best.2

def Ctl.electSuccessor (policy : SuccessorPolicy) (c : Ctl) (leaver : ParticipantID) :
    ParticipantID :=
  let candidates := c.roster.erase leaver
  let s := policy candidates
  if s ∈ candidates then s else 0

theorem Ctl.electSuccessor_mem {policy : SuccessorPolicy} {c : Ctl} {leaver : ParticipantID}
    (elected : c.electSuccessor policy leaver ≠ 0) :
    c.electSuccessor policy leaver ∈ c.roster ∧ c.electSuccessor policy leaver ≠ leaver := by
  by_cases candidate : policy (c.roster.erase leaver) ∈ c.roster.erase leaver
  · have same : c.electSuccessor policy leaver = policy (c.roster.erase leaver) := if_pos candidate
    rw [same]
    exact ⟨(AList.mem_erase.mp candidate).2, (AList.mem_erase.mp candidate).1⟩
  · exact absurd (if_neg candidate) elected

end Parley.Service
