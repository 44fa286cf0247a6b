/-
Mailboxes: what the coordinator has sent to a session waits here until
the session's peer takes it out. A mailbox has room for so many pushes;
one that is full, or that nobody reads any more, is given up rather than
waited for, and nothing is put into it after that.
-/
import LabLease.Lease.Event
import LabLease.Session
import LabLease.Table

namespace LabLease.Coordinator

structure Mailbox where
  capacity : Nat
  /-- What waits to be taken out, oldest first. -/
  waiting : List Push := []
  /-- Whether the coordinator still puts pushes into it. -/
  attached : Bool := true
  /-- Whether its peer still takes pushes out. -/
  watched : Bool := true
deriving DecidableEq

/-- The mailboxes of the sessions, and who follows the events. -/
structure Mailboxes where
  boxes : Table SessionId Mailbox
  subscribed : Table SessionId Unit
  /-- Events that were sent, each counted once per subscriber. -/
  eventsSent : Nat
  /-- Mailboxes that were given up because they were full. -/
  dropped : Nat
deriving DecidableEq

namespace Mailboxes

def empty : Mailboxes := ⟨.empty, .empty, 0, 0⟩

-- ============================================================== queries

/-- The mailbox of a session, while pushes can be put into it. -/
def attached? (m : Mailboxes) (session : SessionId) : Option Mailbox :=
  (m.boxes.get? session).filter (·.attached)

def hasBox (m : Mailboxes) (session : SessionId) : Bool :=
  (m.attached? session).isSome

/-- The sessions that pushes can be put in for, in order. -/
def holders (m : Mailboxes) : List SessionId :=
  m.boxes.keys.filter m.hasBox

def isSubscribed (m : Mailboxes) (session : SessionId) : Bool :=
  m.subscribed.contains session

-- ============================================================== changes

/-- Keeps a mailbox as long as either side has a use for it. -/
def keep (m : Mailboxes) (session : SessionId) (box : Mailbox) :
    Mailboxes :=
  if box.attached || box.watched then
    { m with boxes := m.boxes.insert session box }
  else { m with boxes := m.boxes.erase session }

/-- Gives a session a mailbox. -/
def add (m : Mailboxes) (session : SessionId) (capacity : Nat) :
    Mailboxes :=
  { m with boxes := m.boxes.insert session { capacity } }

/-- Puts nothing more in for a session. What waits can still be taken
out. -/
def detach (m : Mailboxes) (session : SessionId) : Mailboxes :=
  let m := { m with subscribed := m.subscribed.erase session }
  match m.boxes.get? session with
  | some box => m.keep session { box with attached := false }
  | none => m

/-- Puts a push in, and tells whether that worked. -/
def push (m : Mailboxes) (session : SessionId) (p : Push) :
    Bool × Mailboxes :=
  match m.attached? session with
  | none => (false, m)
  | some box =>
    if !box.watched then (false, m.detach session)
    else if box.waiting.length < box.capacity then
      let box := { box with waiting := box.waiting ++ [p] }
      (true, { m with boxes := m.boxes.insert session box })
    else (false, { m with dropped := m.dropped + 1 }.detach session)

def subscribe (m : Mailboxes) (session : SessionId) : Mailboxes :=
  { m with subscribed := m.subscribed.insert session () }

def unsubscribe (m : Mailboxes) (session : SessionId) : Mailboxes :=
  { m with subscribed := m.subscribed.erase session }

/-- Sends events to one subscriber. -/
def sendTo (events : List Event) (m : Mailboxes) (session : SessionId) :
    Mailboxes :=
  match m.push session (.events events) with
  | (true, m) => { m with eventsSent := m.eventsSent + events.length }
  | (false, m) => m

/-- Sends events to all subscribers. -/
def broadcast (m : Mailboxes) (events : List Event) : Mailboxes :=
  if events.isEmpty then m
  else m.subscribed.keys.foldl (sendTo events) m

-- ============================================================ the peers

/-- What a peer finds in its mailbox when it takes everything out. -/
structure Delivery where
  pushes : List Push
  /-- Nothing will ever follow. -/
  closed : Bool
deriving DecidableEq

/-- Takes everything out of a mailbox. -/
def take (m : Mailboxes) (session : SessionId) : Delivery × Mailboxes :=
  match m.boxes.get? session with
  | some box =>
    (⟨box.waiting, !box.attached⟩,
      { m with boxes := m.boxes.insert session { box with waiting := [] } })
  | none => (⟨[], true⟩, m)

/-- Reads the mailbox of a session no more. What waits in it is lost. -/
def abandon (m : Mailboxes) (session : SessionId) : Mailboxes :=
  match m.boxes.get? session with
  | some box => m.keep session { box with waiting := [], watched := false }
  | none => m

end Mailboxes

end LabLease.Coordinator
